import AioProxmox.Collections.Table
import AioProxmox.Collections.Trimming
import AioProxmox.Disks.Smart
import AioProxmox.Privileges.Paths

/-!
# Disks - the SMART text log

The attributes that {lit}`smart_text_attributes` makes of the text log of an NVMe or a SAS
drive, and the logs that such drives print: lines with a reading each, among any other lines.

Main results:

- Definitions {lit}`smartTextAttributes` and {lit}`DiskSmart.summary`.
- Definition {lit}`SmartLog`: a log with at most one line for each reading.
- Theorem {lit}`attributeOf_text`: a line with a reading gives one attribute, which gives
  that reading alone.
- Theorem {lit}`summary_text`: the summary of a log is what was printed into it, if {lit}`int`
  converts its numbers.
-/

namespace AioProxmox

open Decimal Collections

/-! ## Reading a log -/

namespace Text

/-- {lit}`s.partition(c)` for one character. -/
def partition (c : Char) (s : String) : String × String × String :=
  match s.toList.dropWhile (· ≠ c) with
  | [] => (s, "", "")
  | _ :: rest => (before c s, String.ofList [c], String.ofList rest)

/-- {lit}`s[n:]`. -/
def dropFirst (n : Nat) (s : String) : String :=
  String.ofList (s.toList.drop n)

end Text

/-- {lit}`SMART_TEXT_LABELS`, its keys as the table names them. -/
def nvmeTemperature : String := "Temperature"
def nvmePowerCycles : String := "Power Cycles"
def nvmePowerHours : String := "Power On Hours"
def sasTemperature : String := "Current Drive Temperature"
def sasPowerCycles : String := "Accumulated start-stop cycles"
def sasPowerHours : String := "Accumulated power on time, hours:minutes"

/-- {lit}`SMART_TEXT_LABELS`. -/
def smartTextLabels : List (String × Int) :=
  [(nvmeTemperature, smartTemperature), (nvmePowerCycles, smartPowerCycles),
    (nvmePowerHours, smartPowerHours), (sasTemperature, smartTemperature),
    (sasPowerCycles, smartPowerCycles), (sasPowerHours, smartPowerHours)]

/-- The label and the value of a line, if it has any. -/
def labelAndValue (line : String) : Option (String × String) :=
  match smartTextLabels.find? fun known =>
      Text.contains known.1 ":" && Text.startsWith line known.1 with
  | some known => some (known.1, Text.dropFirst known.1.length line)
  | none =>
      match Text.partition ':' line with
      | (head, sep, tail) => if sep = "" then none else some (Text.strip head, tail)

/-- One turn of the loop of {lit}`smart_text_attributes`. -/
def attributeOf (rawLine : String) : Option Json :=
  let line := Text.strip rawLine
  if line = "" then none
  else
    match labelAndValue line with
    | none => none
    | some (label, value) =>
        match smartTextLabels.lookup label with
        | none => none
        | some number =>
            some (.obj [("name", .str label), ("raw", .str (Text.without ',' (Text.strip value))),
              ("id", .int number)])

/-- {lit}`smart_text_attributes`. -/
def smartTextAttributes (text : String) : List Json :=
  (Text.split '\n' text).filterMap attributeOf

/-- {lit}`DiskSmart`. -/
structure DiskSmart where
  attributes : List Json := []
  text : Option String := none

/-- {lit}`DiskSmart.summary`. -/
def DiskSmart.summary (disk : DiskSmart) : Except Exc SmartSummary :=
  SmartSummary.fromAttributes
    (if disk.attributes ≠ [] then disk.attributes
      else
        match disk.text with
        | some text => if text = "" then [] else smartTextAttributes text
        | none => [])

/-! ## The logs that drives print -/

/-- The readings that a log may have. -/
inductive LogReading where
  | temperature
  | powerCycles
  | powerHours
deriving DecidableEq

/-- The one of the summary's readings. -/
def LogReading.key : LogReading → SmartReading
  | .temperature => .temperature
  | .powerCycles => .powerCycles
  | .powerHours => .powerHours

/-- The kinds of drives that print a log. -/
inductive LogDialect where
  | nvme
  | sas
deriving DecidableEq

/-- The label of a reading. -/
def LogDialect.label : LogDialect → LogReading → String
  | .nvme, .temperature => nvmeTemperature
  | .nvme, .powerCycles => nvmePowerCycles
  | .nvme, .powerHours => nvmePowerHours
  | .sas, .temperature => sasTemperature
  | .sas, .powerCycles => sasPowerCycles
  | .sas, .powerHours => sasPowerHours

/-- What separates it from the value; the hours of a SAS drive have a colon in their label. -/
def LogDialect.separator : LogDialect → LogReading → List Char
  | .sas, .powerHours => []
  | _, _ => [':']

/-- Blanks within a line. -/
def Blank (chars : List Char) : Prop :=
  ∀ c ∈ chars, Text.isSpace c = true ∧ c ≠ '\n'

/-- A line with a reading: a label, its separator, a number and what follows that. -/
structure ReadingLine where
  dialect : LogDialect
  reading : LogReading
  value : Nat
  indentation : List Char
  blanks : List Char
  withThousands : Bool
  suffix : List Char
  indentation_blank : Blank indentation
  blanks_blank : Blank blanks
  suffix_line : '\n' ∉ suffix
  suffix_starts : ∀ c, suffix.head? = some c →
    c = ' ' ∨ (dialect = .sas ∧ reading = .powerHours ∧ c = ':')

namespace ReadingLine

/-- The number as it is printed. -/
def digits (line : ReadingLine) : List Char :=
  if line.withThousands then grouped line.value else decimal line.value

/-- The label with its separator. -/
def heading (line : ReadingLine) : List Char :=
  (line.dialect.label line.reading).toList ++ line.dialect.separator line.reading

/-- The line. -/
def text (line : ReadingLine) : String :=
  String.ofList (line.indentation ++ (line.heading ++ line.blanks ++ line.digits ++ line.suffix))

end ReadingLine

/-- A line without a reading: it neither starts with the label that has a colon nor has a label
before its first colon. -/
structure PlainLine where
  text : String
  line : '\n' ∉ text.toList
  hours : Text.startsWith (Text.strip text) sasPowerHours = false
  labels : ∀ known ∈ smartTextLabels, ':' ∈ (Text.strip text).toList →
    Text.strip (Text.before ':' (Text.strip text)) ≠ known.1

/-- A line of a log. -/
inductive LogLine where
  | reading (line : ReadingLine)
  | plain (line : PlainLine)

namespace LogLine

/-- The line. -/
def text : LogLine → String
  | .reading line => line.text
  | .plain line => line.text

/-- What it prints for a reading. -/
def valueOf (reading : LogReading) : LogLine → Option Nat
  | .reading line => if line.reading = reading then some line.value else none
  | .plain _ => none

end LogLine

/-- The readings that are printed, each there or not. -/
structure LogReadings where
  temperature : Option Nat := none
  powerCycles : Option Nat := none
  powerHours : Option Nat := none

namespace LogReadings

def get (readings : LogReadings) : LogReading → Option Nat
  | .temperature => readings.temperature
  | .powerCycles => readings.powerCycles
  | .powerHours => readings.powerHours

/-- The summary with these readings and no others. -/
def summary (readings : LogReadings) : SmartSummary where
  temperature := readings.temperature.map Int.ofNat
  powerCycles := readings.powerCycles.map Int.ofNat
  powerHours := readings.powerHours.map Int.ofNat

end LogReadings

/-- A log of some readings: in any order, each that is there has one line, and the others
have none. -/
structure SmartLog where
  readings : LogReadings
  lines : List LogLine
  printed : ∀ reading,
    lines.filterMap (LogLine.valueOf reading) = (readings.get reading).toList

/-- The text of a log. -/
def SmartLog.text (log : SmartLog) : String :=
  String.ofList (['\n'].intercalate (log.lines.map fun line => line.text.toList))

/-! ## What the string methods do to a line -/

section Strings

variable {c : Char} {blanks front body : List Char} {s : String}

/-- A text is stripped of blanks at its start and at its end, from the last part that has
none. -/
theorem Text.strip_framed (hblanks : ∀ c ∈ blanks, Text.isSpace c = true)
    (hfirst : ∀ c, (front ++ body).head? = some c → Text.isSpace c = false) (hne : body ≠ [])
    (hbody : ∀ c ∈ body, Text.isSpace c = false) (suffix : List Char) :
    Text.strip (String.ofList (blanks ++ (front ++ body ++ suffix))) =
      String.ofList (front ++ body ++ suffix.rdropWhile Text.isSpace) := by
  have hstart : (front ++ body ++ suffix).dropWhile Text.isSpace = front ++ body ++ suffix := by
    cases hchars : front ++ body with
    | nil => exact absurd (List.append_eq_nil_iff.mp hchars).2 hne
    | cons c rest =>
        rw [hchars] at hfirst
        rw [List.cons_append, List.dropWhile_cons_of_neg]
        simp [hfirst c rfl]
  unfold Text.strip
  rw [String.toList_ofList, List.dropWhile_append_of_pos hblanks, hstart,
    rdropWhile_append_of_neg _ hne hbody]

/-- A text is partitioned at the first of the characters. -/
theorem Text.partition_append (hfront : c ∉ front) (rest : List Char) :
    Text.partition c (String.ofList (front ++ c :: rest)) =
      (String.ofList front, String.ofList [c], String.ofList rest) := by
  have hother := forall_ne_of_notMem hfront
  unfold Text.partition Text.before
  rw [String.toList_ofList, List.dropWhile_append_of_pos hother,
    List.takeWhile_append_of_pos hother, List.dropWhile_cons_of_neg (by simp),
    List.takeWhile_cons_of_neg (by simp), List.append_nil]

/-- What stands before that one is the first part. -/
theorem Text.partition_of_mem (h : c ∈ s.toList) :
    ∃ tail, Text.partition c s = (Text.before c s, String.ofList [c], tail) := by
  unfold Text.partition
  split
  · rename_i hnil
    rw [List.dropWhile_eq_nil_iff] at hnil
    exact absurd (hnil c h) (by simp)
  · exact ⟨_, rfl⟩

/-- Without any there is nothing to partition. -/
theorem Text.partition_of_notMem (h : c ∉ s.toList) : Text.partition c s = (s, "", "") := by
  have hnil : s.toList.dropWhile (· ≠ c) = [] :=
    List.dropWhile_eq_nil_iff.mpr (forall_ne_of_notMem h)
  unfold Text.partition
  rw [hnil]

end Strings

/-! ## Labels -/

/-- The one label with a colon is looked for first. -/
theorem find_known (line : String) :
    (smartTextLabels.find? fun known =>
      Text.contains known.1 ":" && Text.startsWith line known.1) =
        if Text.startsWith line sasPowerHours then some (sasPowerHours, smartPowerHours)
        else none := by
  have hcolon : smartTextLabels.map (fun known => Text.contains known.1 ":") =
      [false, false, false, false, false, true] := by decide +kernel
  simp only [smartTextLabels, List.map_cons, List.map_nil, List.cons.injEq] at hcolon
  simp only [smartTextLabels, List.find?_cons, hcolon, Bool.false_and, Bool.true_and,
    List.find?_nil]
  cases Text.startsWith line sasPowerHours <;> rfl

/-- Each label of a dialect is that of one number. -/
theorem lookup_label (dialect : LogDialect) (reading : LogReading) :
    smartTextLabels.lookup (dialect.label reading) = some reading.key.number := by
  cases dialect <;> cases reading <;> decide +kernel

/-- The other labels have no colon, no blanks around them, and do not start the one that
has. -/
theorem label_colonFree (dialect : LogDialect) (reading : LogReading)
    (h : dialect.separator reading = [':']) :
    ':' ∉ (dialect.label reading).toList ∧
      Text.strip (dialect.label reading) = dialect.label reading ∧
      ¬ (dialect.label reading).toList ++ [':'] <+: sasPowerHours.toList ∧
      (dialect.label reading).length < sasPowerHours.length := by
  revert h
  cases dialect <;> cases reading <;> decide +kernel

/-! ## A line with a reading -/

namespace ReadingLine

variable {line : ReadingLine} {suffix : List Char} {c : Char}

/-- The separators are all that the digits hold besides the number. -/
theorem filter_digits (line : ReadingLine) :
    line.digits.filter (· ≠ ',') = decimal line.value := by
  unfold digits
  split
  · exact filter_grouped line.value
  · exact filter_decimal line.value

/-- A printed number has digits and commas. -/
theorem mem_digits (h : c ∈ line.digits) : c = ',' ∨ c.isDigit = true := by
  by_cases hcomma : c = ','
  · exact .inl hcomma
  · right
    have hmem : c ∈ decimal line.value := by
      rw [← filter_digits, List.mem_filter]
      exact ⟨h, decide_eq_true hcomma⟩
    exact isDigit_of_mem_decimal hmem

/-- A reading has digits. -/
theorem digits_ne_nil (line : ReadingLine) : line.digits ≠ [] := by
  intro hnil
  apply decimal_ne_nil line.value
  rw [← filter_digits, hnil, List.filter_nil]

/-- None of them is a blank. -/
theorem isSpace_of_mem_digits (h : c ∈ line.digits) : Text.isSpace c = false := by
  rcases mem_digits h with rfl | hdigit
  · decide
  · exact isSpace_of_isDigit hdigit

/-- What follows the number does not go on with it. -/
theorem head_suffix (hstarts : suffix <+: line.suffix)
    (h : (suffix.filter (· ≠ ',')).head? = some c) : isDecimal c = false := by
  cases suffix with
  | nil => contradiction
  | cons a rest =>
      rcases hstarts with ⟨rest', hsuffix⟩
      have ha : a = ' ' ∨ a = ':' := by
        rcases line.suffix_starts a (by rw [← hsuffix]; rfl) with hspace | ⟨-, -, hcolon⟩
        · exact .inl hspace
        · exact .inr hcolon
      rw [List.filter_cons_of_pos, List.head?_cons, Option.some.injEq] at h
      · rw [← h]
        rcases ha with rfl | rfl <;> decide +kernel
      · rcases ha with rfl | rfl <;> decide

/-- Without commas the value starts with the digits of its number. -/
theorem without_raw (line : ReadingLine) (suffix : List Char) :
    (Text.without ',' (Text.without ',' (String.ofList (line.digits ++ suffix)))).toList.dropWhile
      Text.isSpace = decimal line.value ++ suffix.filter (· ≠ ',') := by
  rcases decimal_eq_cons line.value with ⟨c, rest, hdigits, hc⟩
  simp only [Text.without, String.toList_ofList, List.filter_append, filter_digits,
    List.filter_filter, Bool.and_self, filter_decimal]
  rw [hdigits, List.cons_append, List.dropWhile_cons_of_neg (by simp [isSpace_of_isDigit hc])]

/-- The value is read from its number, whatever its end. -/
theorem leadingInt?_raw (hstarts : suffix <+: line.suffix) :
    leadingInt? (.str (Text.without ',' (String.ofList (line.digits ++ suffix)))) =
      some (Int.ofNat line.value) := by
  have hread : leadingNumber? (decimal line.value ++ suffix.filter (· ≠ ',')) =
      some line.value :=
    leadingNumber?_decimal line.value _ fun c => head_suffix hstarts
  simp only [leadingInt?, without_raw]
  rw [hread]
  rfl

/-- And refused exactly where that has too many digits. -/
theorem refused?_raw (hstarts : suffix <+: line.suffix) :
    refused? (.str (Text.without ',' (String.ofList (line.digits ++ suffix)))) = none ↔
      (decimal line.value).length ≤ maxStrDigits := by
  have hdigits : leadingDigits (Text.without ',' (String.ofList (line.digits ++ suffix))) =
      decimal line.value := by
    rw [leadingDigits, without_raw]
    exact takeWhile_decimal line.value _ fun c => head_suffix hstarts
  simp only [refused?, hdigits, intOfDigits]
  split_ifs with hshort <;> simp [hshort]

/-- What is logged is read from the raw values. -/
theorem source_key (reading : LogReading) : reading.key.source = "raw" := by
  cases reading <;> rfl

/-- A heading is not blank at its start. -/
theorem head_heading (line : ReadingLine) :
    ∃ c rest, line.heading = c :: rest ∧ Text.isSpace c = false := by
  have hhead : ∀ (dialect : LogDialect) (reading : LogReading),
      (dialect.label reading).toList.head?.map Text.isSpace = some false := by
    intro dialect reading
    cases dialect <;> cases reading <;> decide +kernel
  have hline := hhead line.dialect line.reading
  unfold heading
  cases hlabel : (line.dialect.label line.reading).toList with
  | nil =>
      rw [hlabel] at hline
      contradiction
  | cons c rest =>
      rw [hlabel, List.head?_cons, Option.map_some, Option.some.injEq] at hline
      exact ⟨c, _, rfl, hline⟩

/-- A line is stripped of its indentation and of blanks at its end. -/
theorem strip_text (line : ReadingLine) :
    Text.strip line.text = String.ofList (line.heading ++ (line.blanks ++
      (line.digits ++ line.suffix.rdropWhile Text.isSpace))) := by
  have hfirst : ∀ c, (line.heading ++ line.blanks ++ line.digits).head? = some c →
      Text.isSpace c = false := by
    intro c hc
    rcases line.head_heading with ⟨c', rest, hheading, hspace⟩
    rw [hheading, List.cons_append, List.cons_append, List.head?_cons, Option.some.injEq] at hc
    rw [← hc]
    exact hspace
  have hblanks : ∀ c ∈ line.indentation, Text.isSpace c = true :=
    fun c hc => (line.indentation_blank c hc).1
  unfold text
  rw [Text.strip_framed hblanks hfirst line.digits_ne_nil (fun c => isSpace_of_mem_digits),
    List.append_assoc, List.append_assoc]

/-- So is its value. -/
theorem strip_value (line : ReadingLine) (suffix : List Char) :
    Text.strip (String.ofList (line.blanks ++ (line.digits ++ suffix))) =
      String.ofList (line.digits ++ suffix.rdropWhile Text.isSpace) := by
  have hfirst : ∀ c, ([] ++ line.digits).head? = some c → Text.isSpace c = false :=
    fun c hc => isSpace_of_mem_digits (List.mem_of_head? hc)
  have hblanks : ∀ c ∈ line.blanks, Text.isSpace c = true :=
    fun c hc => (line.blanks_blank c hc).1
  exact Text.strip_framed hblanks hfirst line.digits_ne_nil (fun c => isSpace_of_mem_digits)
    suffix

/-- The heading of a line is split off. -/
theorem labelAndValue_heading (line : ReadingLine) (rest : List Char) :
    labelAndValue (String.ofList (line.heading ++ rest)) =
      some (line.dialect.label line.reading, String.ofList rest) := by
  unfold labelAndValue heading
  rw [find_known]
  have hseparator : line.dialect.separator line.reading = [':'] ∨
      (line.dialect.label line.reading = sasPowerHours ∧
        line.dialect.separator line.reading = []) := by
    cases line.dialect <;> cases line.reading <;> decide
  rcases hseparator with hcolon | ⟨hlabel, hnone⟩
  · rcases label_colonFree _ _ hcolon with ⟨hfree, hstrip, hnot, hlength⟩
    have hstart : Text.startsWith (String.ofList ((line.dialect.label line.reading).toList ++
        line.dialect.separator line.reading ++ rest)) sasPowerHours = false := by
      rw [Bool.eq_false_iff]
      intro hhours
      apply hnot
      unfold Text.startsWith at hhours
      rw [List.isPrefixOf_iff_prefix, String.toList_ofList, hcolon] at hhours
      apply List.prefix_of_prefix_length_le (List.prefix_append _ rest) hhours
      rw [List.length_append, List.length_singleton, String.length_toList, String.length_toList]
      exact hlength
    rw [hstart, if_neg Bool.false_ne_true, hcolon, List.append_assoc, List.singleton_append,
      Text.partition_append hfree]
    simp only [String.ofList_toList, hstrip]
    rw [if_neg (by decide)]
  · have hstart : Text.startsWith (String.ofList (sasPowerHours.toList ++ rest)) sasPowerHours =
        true := by
      unfold Text.startsWith
      rw [List.isPrefixOf_iff_prefix, String.toList_ofList]
      exact List.prefix_append _ rest
    rw [hlabel, hnone, List.append_nil, hstart, if_pos rfl]
    simp only [Text.dropFirst]
    rw [String.toList_ofList, ← String.length_toList, List.drop_left]

/-- An attribute from a line is read where its number is the reading's. -/
theorem readingOf_attribute (label raw : String) (reading : LogReading) (key : SmartReading) :
    readingOf leadingInt? key
        (.obj [("name", .str label), ("raw", .str raw), ("id", .int reading.key.number)]) =
      if reading.key = key then leadingInt? (.str raw) else none := by
  have hid : leadingInt? (Dict.get [("name", .str label), ("raw", .str raw),
      ("id", .int reading.key.number)] "id") = some reading.key.number := rfl
  rw [readingOf, hid]
  by_cases hkey : reading.key = key
  · subst hkey
    rw [if_pos rfl, if_pos rfl, source_key]
    rfl
  · rw [if_neg hkey, if_neg]
    intro hnumber
    exact hkey (number_injective (Option.some.inj hnumber))

/-- And refused where its number is. -/
theorem refusal_attribute (label raw : String) (reading : LogReading) :
    refusal (.obj [("name", .str label), ("raw", .str raw), ("id", .int reading.key.number)]) =
      refused? (.str raw) := by
  have hwanted : wantedBy [("name", .str label), ("raw", .str raw),
      ("id", .int reading.key.number)] = some (reading.key, reading.key.source) :=
    wanted_lookup_number reading.key
  rw [refusal, hwanted, Option.bind_some, source_key]
  rfl

/-- A line with a reading gives one attribute, which gives that reading alone, and is refused
where its number has too many digits. -/
theorem attributeOf_text (line : ReadingLine) :
    ∃ attr, attributeOf line.text = some attr ∧
      (∀ key, readingOf leadingInt? key attr =
        if line.reading.key = key then some (Int.ofNat line.value) else none) ∧
      (refusal attr = none ↔ (decimal line.value).length ≤ maxStrDigits) := by
  have hnonempty : Text.strip line.text ≠ "" := by
    rcases line.head_heading with ⟨c, rest, hheading, -⟩
    rw [strip_text, hheading]
    intro hempty
    have hchars := congrArg String.toList hempty
    rw [String.toList_ofList] at hchars
    contradiction
  have hstarts : (line.suffix.rdropWhile Text.isSpace).rdropWhile Text.isSpace <+:
      line.suffix :=
    (List.rdropWhile_prefix _ _).trans (List.rdropWhile_prefix _ _)
  unfold attributeOf
  simp only [if_neg hnonempty]
  rw [strip_text, labelAndValue_heading]
  simp only [lookup_label, strip_value]
  refine ⟨_, rfl, ?_, ?_⟩
  · intro key
    rw [readingOf_attribute, leadingInt?_raw hstarts]
  · rw [refusal_attribute, refused?_raw hstarts]

end ReadingLine

/-! ## Logs -/

/-- A line without a reading gives no attribute. -/
theorem PlainLine.attributeOf_text (line : PlainLine) : attributeOf line.text = none := by
  unfold attributeOf
  by_cases hempty : Text.strip line.text = ""
  · simp only [if_pos hempty]
  · simp only [if_neg hempty, labelAndValue, find_known, line.hours]
    by_cases hcolon : ':' ∈ (Text.strip line.text).toList
    · have hlookup : smartTextLabels.lookup
          (Text.strip (Text.before ':' (Text.strip line.text))) = none := by
        apply lookup_of_not_mem
        intro hmem
        rcases List.mem_map.mp hmem with ⟨known, hknown, hlabel⟩
        exact line.labels known hknown hcolon hlabel.symm
      rcases Text.partition_of_mem hcolon with ⟨tail, hsome⟩
      rw [hsome]
      simp only [Bool.false_eq_true, if_false]
      rw [if_neg (by decide)]
      simp only [hlookup]
    · rw [Text.partition_of_notMem hcolon]
      rfl

/-- The keys tell the readings apart. -/
theorem LogReading.key_inj {reading other : LogReading} :
    reading.key = other.key ↔ reading = other := by
  cases reading <;> cases other <;> decide

/-- What the attribute of a line gives for a reading that is logged. -/
theorem LogLine.readingOf_key (line : LogLine) (reading : LogReading) :
    (attributeOf line.text).bind (readingOf leadingInt? reading.key) =
      (line.valueOf reading).map Int.ofNat := by
  cases line with
  | reading line =>
      rcases line.attributeOf_text with ⟨attr, hattr, hread, -⟩
      simp only [LogLine.text, valueOf]
      rw [hattr, Option.bind_some, hread, apply_ite (Option.map Int.ofNat)]
      simp only [LogReading.key_inj, Option.map_some, Option.map_none]
  | plain line =>
      simp only [LogLine.text, valueOf]
      rw [line.attributeOf_text, Option.bind_none, Option.map_none]

/-- And for one that is not. -/
theorem LogLine.readingOf_other {key : SmartReading}
    (h : ∀ reading : LogReading, reading.key ≠ key) (line : LogLine) :
    (attributeOf line.text).bind (readingOf leadingInt? key) = none := by
  cases line with
  | reading line =>
      rcases line.attributeOf_text with ⟨attr, hattr, hread, -⟩
      simp only [LogLine.text]
      rw [hattr, Option.bind_some, hread, if_neg (h line.reading)]
  | plain line =>
      simp only [LogLine.text]
      rw [line.attributeOf_text, Option.bind_none]

/-- A line is refused where it prints a number of too many digits. -/
theorem LogLine.refusal_iff (line : LogLine) :
    (attributeOf line.text).bind refusal = none ↔
      ∀ reading n, line.valueOf reading = some n → (decimal n).length ≤ maxStrDigits := by
  cases line with
  | reading line =>
      rcases line.attributeOf_text with ⟨attr, hattr, -, hrefusal⟩
      simp only [LogLine.text, valueOf]
      rw [hattr, Option.bind_some, hrefusal]
      constructor
      · intro hshort reading n hn
        split_ifs at hn
        cases hn
        exact hshort
      · exact fun hall => hall line.reading line.value (if_pos rfl)
  | plain line =>
      simp only [LogLine.text, valueOf]
      rw [line.attributeOf_text, Option.bind_none]
      exact iff_of_true rfl fun _ _ hn => by cases hn

/-- A line of a log is one. -/
theorem LogLine.newline_notMem (line : LogLine) : '\n' ∉ line.text.toList := by
  cases line with
  | plain line => exact line.line
  | reading line =>
      have hheading : ∀ (dialect : LogDialect) (reading : LogReading),
          '\n' ∉ (dialect.label reading).toList ++ dialect.separator reading := by
        intro dialect reading
        cases dialect <;> cases reading <;> decide +kernel
      have hdigits : '\n' ∉ line.digits := by
        intro hmem
        rcases ReadingLine.mem_digits hmem with hcomma | hdigit
        · exact absurd hcomma (by decide)
        · exact absurd hdigit (by decide)
      simp only [LogLine.text, ReadingLine.text, String.toList_ofList, List.mem_append, not_or]
      exact ⟨fun hmem => (line.indentation_blank _ hmem).2 rfl,
        ⟨⟨hheading _ _, fun hmem => (line.blanks_blank _ hmem).2 rfl⟩, hdigits⟩,
        line.suffix_line⟩

/-- An empty text has no attributes. -/
theorem smartTextAttributes_empty : smartTextAttributes "" = [] := by
  have hsplit : Text.split '\n' "" = [""] := by decide +kernel
  have hempty : attributeOf "" = none := by
    unfold attributeOf
    rw [if_pos (by decide +kernel)]
  rw [smartTextAttributes, hsplit, List.filterMap_cons_none hempty, List.filterMap_nil]

/-- A log gives the attributes of its lines. -/
theorem SmartLog.smartTextAttributes_text (log : SmartLog) :
    smartTextAttributes log.text = log.lines.filterMap fun line => attributeOf line.text := by
  by_cases hlines : log.lines = []
  · have htext : log.text = "" := by
      rw [text, hlines]
      rfl
    rw [htext, smartTextAttributes_empty, hlines, List.filterMap_nil]
  · unfold smartTextAttributes text
    have hnonempty : log.lines.map LogLine.text ≠ [] := by
      rw [ne_eq, List.map_eq_nil_iff]
      exact hlines
    have hfree : ∀ part ∈ log.lines.map LogLine.text, '\n' ∉ part.toList := by
      intro part hpart
      rcases List.mem_map.mp hpart with ⟨line, -, rfl⟩
      exact line.newline_notMem
    have hsplit := Text.split_intercalate hnonempty hfree
    have hcomp : String.toList ∘ LogLine.text = fun line => line.text.toList := rfl
    rw [List.map_map, hcomp] at hsplit
    rw [hsplit, List.filterMap_map]
    rfl

/-- So an empty one is read like any other. -/
theorem SmartLog.summary_eq (log : SmartLog) :
    ({ text := some log.text } : DiskSmart).summary =
      SmartSummary.fromAttributes (smartTextAttributes log.text) := by
  unfold DiskSmart.summary
  rw [if_neg (by simp)]
  by_cases hempty : log.text = ""
  · rw [hempty, smartTextAttributes_empty]
    rfl
  · simp only [if_neg hempty]

/-- No number in the log has more digits than {lit}`int` converts. -/
def SmartLog.Convertible (log : SmartLog) : Prop :=
  ∀ reading n, log.readings.get reading = some n → (decimal n).length ≤ maxStrDigits

/-- A log raises nothing exactly if its numbers can be converted. -/
theorem SmartLog.findSome?_refusal_iff (log : SmartLog) :
    (smartTextAttributes log.text).findSome? refusal = none ↔ log.Convertible := by
  have hprinted : ∀ reading n, log.readings.get reading = some n ↔
      ∃ line ∈ log.lines, line.valueOf reading = some n := by
    intro reading n
    rw [← List.mem_filterMap, log.printed, Option.mem_toList]
  have hlines : (∀ attr ∈ smartTextAttributes log.text, refusal attr = none) ↔
      ∀ line ∈ log.lines, (attributeOf line.text).bind refusal = none := by
    rw [log.smartTextAttributes_text, List.forall_mem_filterMap]
    refine forall₂_congr fun line _ => ?_
    cases attributeOf line.text <;> simp
  rw [List.findSome?_eq_none_iff, hlines]
  simp only [Convertible, hprinted]
  constructor
  · rintro hall reading n ⟨line, hline, hn⟩
    exact line.refusal_iff.mp (hall line hline) reading n hn
  · intro hall line hline
    exact line.refusal_iff.mpr fun reading n hn => hall reading n ⟨line, hline, hn⟩

/-- Each reading of a log that raises nothing is the last that its lines give. -/
theorem SmartLog.get_adopted (log : SmartLog) (key : SmartReading) :
    (SmartSummary.adopted (smartTextAttributes log.text)).get key =
      (log.lines.filterMap fun line =>
        (attributeOf line.text).bind (readingOf leadingInt? key)).getLast? := by
  rw [AioProxmox.get_adopted, log.smartTextAttributes_text, lastReading,
    List.filterMap_filterMap]

/-- What is adopted from a log is what was printed into it. -/
theorem SmartLog.adopted_eq (log : SmartLog) :
    SmartSummary.adopted (smartTextAttributes log.text) = log.readings.summary := by
  have hlogged : ∀ reading : LogReading,
      (SmartSummary.adopted (smartTextAttributes log.text)).get reading.key =
        (log.readings.get reading).map Int.ofNat := by
    intro reading
    rw [log.get_adopted]
    simp only [LogLine.readingOf_key]
    rw [← List.map_filterMap, log.printed]
    cases log.readings.get reading <;> rfl
  have hother : ∀ key : SmartReading, (∀ reading : LogReading, reading.key ≠ key) →
      (SmartSummary.adopted (smartTextAttributes log.text)).get key = none := by
    intro key hkey
    rw [log.get_adopted]
    simp only [LogLine.readingOf_other hkey]
    rw [List.filterMap_none, List.getLast?_nil]
  apply SmartSummary.ext_get
  intro key
  cases key with
  | temperature => exact hlogged .temperature
  | powerCycles => exact hlogged .powerCycles
  | powerHours => exact hlogged .powerHours
  | temperatureAir => exact hother _ (by intro reading; cases reading <;> decide)
  | lifeLeft => exact hother _ (by intro reading; cases reading <;> decide)
  | powerLoss => exact hother _ (by intro reading; cases reading <;> decide)

/-- The summary of a log: what was printed into it, unless a number is refused. -/
theorem SmartLog.summary_eq_unlessRaised (log : SmartLog) :
    ({ text := some log.text } : DiskSmart).summary =
      unlessRaised ((smartTextAttributes log.text).findSome? refusal) log.readings.summary := by
  rw [log.summary_eq, fromAttributes_eq, log.adopted_eq]

/-- The summary of a log is what was printed into it, if each of its numbers can be
converted. -/
theorem summary_text (log : SmartLog) (h : log.Convertible) :
    ({ text := some log.text } : DiskSmart).summary = .ok log.readings.summary := by
  rw [log.summary_eq_unlessRaised, log.findSome?_refusal_iff.mpr h]
  rfl

example : ({ text := some ("\n".intercalate ["Current Drive Temperature: 27 C",
      " Accumulated power on time, hours:minutes 27,473:19"]) } : DiskSmart).summary =
    .ok { temperature := some 27, powerHours := some 27473 } := by
  decide +kernel

theorem blank_spaces (n : Nat) : Blank (List.replicate n ' ') := by
  intro c hc
  rw [List.eq_of_mem_replicate hc]
  decide

/-- The log of an NVMe drive: some of its lines, one of them with a look-alike label. -/
def nvmeLog : SmartLog where
  readings := { temperature := some 36, powerHours := some 27473 }
  lines :=
    [.plain
      { text := "=== START OF SMART DATA SECTION ==="
        line := by decide +kernel
        hours := by decide +kernel
        labels := by decide +kernel },
      .reading
        { dialect := .nvme
          reading := .temperature
          value := 36
          indentation := []
          blanks := List.replicate 24 ' '
          withThousands := false
          suffix := ' ' :: "Celsius".toList
          indentation_blank := by simp [Blank]
          blanks_blank := blank_spaces _
          suffix_line := by decide +kernel
          suffix_starts := fun c hc => .inl (Option.some.inj hc).symm },
      .plain
        { text := "Temperature Sensor 1:               38 Celsius"
          line := by decide +kernel
          hours := by decide +kernel
          labels := by decide +kernel },
      .reading
        { dialect := .nvme
          reading := .powerHours
          value := 27473
          indentation := []
          blanks := List.replicate 21 ' '
          withThousands := true
          suffix := []
          indentation_blank := by simp [Blank]
          blanks_blank := blank_spaces _
          suffix_line := by decide +kernel
          suffix_starts := by simp }]
  printed reading := by cases reading <;> rfl

/-- A log with a temperature of 36 degrees and 27,473 hours. -/
theorem summary_text_witness :
    ({ text := some nvmeLog.text } : DiskSmart).summary =
      .ok { temperature := some 36, powerHours := some 27473 } := by
  refine summary_text nvmeLog fun reading n hn => ?_
  cases reading with
  | temperature =>
      cases hn
      decide
  | powerCycles => cases hn
  | powerHours =>
      cases hn
      decide

/-- The least number of 4301 digits. -/
@[irreducible]
def tooHot : Nat := Nat.pow 10 maxStrDigits

/-- A power of ten has more digits than its exponent says. -/
theorem lt_length_decimal_pow {exponent : Nat} (h : 0 < exponent) :
    exponent < (decimal (Nat.pow 10 exponent)).length := by
  by_contra hshort
  have hlt := (Nat.length_toDigits_le_iff (by decide) h).mp (Nat.le_of_not_lt hshort)
  exact Nat.lt_irrefl _ hlt

/-- The log of a drive that reports it as its temperature. -/
def hottestLog : SmartLog where
  readings := { temperature := some tooHot }
  lines :=
    [.reading
      { dialect := .nvme
        reading := .temperature
        value := tooHot
        indentation := []
        blanks := []
        withThousands := false
        suffix := []
        indentation_blank := by simp [Blank]
        blanks_blank := by simp [Blank]
        suffix_line := by simp
        suffix_starts := by simp }]
  printed reading := by cases reading <;> rfl

/-- It has no summary: the number is refused. -/
theorem summary_text_counterexample :
    ({ text := some hottestLog.text } : DiskSmart).summary ≠ .ok hottestLog.readings.summary := by
  intro hsummary
  rw [hottestLog.summary_eq_unlessRaised] at hsummary
  cases hraised : (smartTextAttributes hottestLog.text).findSome? refusal with
  | some e =>
      rw [hraised] at hsummary
      cases hsummary
  | none =>
      have hshort := hottestLog.findSome?_refusal_iff.mp hraised .temperature _ rfl
      unfold tooHot at hshort
      exact absurd hshort (Nat.not_le_of_lt (lt_length_decimal_pow (by decide)))

end AioProxmox
