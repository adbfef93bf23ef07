import AioProxmox.Client.Values
import AioProxmox.Collections.Folds
import AioProxmox.Text.Decimal
import Mathlib.Data.List.Forall2
import Mathlib.Data.List.Induction

/-!
# Disks - SMART readings

The readings that {lit}`SmartSummary` picks out of a list of SMART attributes.  A value is
an integer, or a text that starts with one; of a text the code reads the digits alone, and a
sign before them makes it no reading.  {lit}`int` and {lit}`str` refuse more than 4300
digits, and what is refused in one attribute leaves no summary at all.

Main results:

- Definitions {lit}`leadingInt` and {lit}`SmartSummary.fromAttributes`.
- Theorem {lit}`fromAttributes_eq`: the first attribute with a number that is refused is
  what a list raises.
- Theorem {lit}`get_adopted`: each reading is the last of its attributes.
- Theorem {lit}`leadingInt?_str`: a text is read where it starts with an integer that is not
  negative.
- Theorem {lit}`readsAlike_iff`: when numbers and their texts read alike.
-/

namespace AioProxmox

open Decimal Collections

/-! ## Converting numbers -/

/-- {lit}`sys.get_int_max_str_digits()`. -/
def maxStrDigits : Nat := 4300

/-- {lit}`int(s)` of a text of decimal digits. -/
def intOfDigits (digits : List Char) : Except Exc Nat :=
  if digits.length ≤ maxStrDigits then .ok (valueOf digits)
  else .error (.valueError ("Exceeds the limit (4300 digits) for integer string conversion: " ++
    "value has " ++ toString digits.length ++
    " digits; use sys.set_int_max_str_digits() to increase the limit"))

/-- The decimal text of an integer. -/
def intText : Int → String
  | .ofNat n => String.ofList (decimal n)
  | .negSucc n => String.ofList ('-' :: decimal (n + 1))

/-- {lit}`str(n)`. -/
def strOfInt (n : Int) : Except Exc String :=
  if (decimal n.natAbs).length ≤ maxStrDigits then .ok (intText n)
  else .error (.valueError ("Exceeds the limit (4300 digits) for integer string conversion; " ++
    "use sys.set_int_max_str_digits() to increase the limit"))

/-! ## The summary -/

/-- The blanks and digits at the start of a text without its commas: what the pattern of
{lit}`leading_int` matches, and its group. -/
def leadingDigits (s : String) : List Char :=
  ((Text.without ',' s).toList.dropWhile Text.isSpace).takeWhile isDecimal

/-- {lit}`leading_int`. -/
def leadingInt : Json → Except Exc (Option Int)
  | .int n => .ok (some n)
  | .str s =>
      if leadingDigits s = [] then .ok none
      else (intOfDigits (leadingDigits s)).map fun n => some (Int.ofNat n)
  | _ => .ok none

/-- The readings of a summary. -/
inductive SmartReading where
  | temperature
  | temperatureAir
  | powerHours
  | powerCycles
  | lifeLeft
  | powerLoss
deriving DecidableEq

/-- {lit}`SmartSummary`. -/
structure SmartSummary where
  temperature : Option Int := none
  temperatureAir : Option Int := none
  powerHours : Option Int := none
  powerCycles : Option Int := none
  lifeLeft : Option Int := none
  powerLoss : Option Int := none
deriving DecidableEq

namespace SmartSummary

/-- {lit}`getattr(summary, key)`. -/
def get (summary : SmartSummary) : SmartReading → Option Int
  | .temperature => summary.temperature
  | .temperatureAir => summary.temperatureAir
  | .powerHours => summary.powerHours
  | .powerCycles => summary.powerCycles
  | .lifeLeft => summary.lifeLeft
  | .powerLoss => summary.powerLoss

/-- {lit}`setattr(summary, key, reading)`. -/
def set (summary : SmartSummary) (key : SmartReading) (reading : Int) : SmartSummary :=
  match key with
  | .temperature => { summary with temperature := some reading }
  | .temperatureAir => { summary with temperatureAir := some reading }
  | .powerHours => { summary with powerHours := some reading }
  | .powerCycles => { summary with powerCycles := some reading }
  | .lifeLeft => { summary with lifeLeft := some reading }
  | .powerLoss => { summary with powerLoss := some reading }

/-- A reading that is set is the one that is got. -/
@[simp]
theorem get_set (summary : SmartSummary) (key other : SmartReading) (reading : Int) :
    (summary.set key reading).get other =
      if other = key then some reading else summary.get other := by
  cases key <;> cases other <;> rfl

/-- A summary is its readings. -/
theorem ext_get {summary other : SmartSummary} (h : ∀ key, summary.get key = other.get key) :
    summary = other := by
  have htemperature := h .temperature
  have hair := h .temperatureAir
  have hhours := h .powerHours
  have hcycles := h .powerCycles
  have hlife := h .lifeLeft
  have hloss := h .powerLoss
  cases summary
  cases other
  simp only [get] at *
  simp [*]

end SmartSummary

/-- {lit}`SMART_POWER_HOURS` and the other ids that are read. -/
def smartPowerHours : Int := 9
def smartPowerCycles : Int := 12
def smartPowerLoss : Int := 174
def smartTemperatureAir : Int := 190
def smartTemperature : Int := 194
def smartLifeLeft : Int := 231

/-- The table {lit}`wanted` of {lit}`from_attributes`. -/
def wanted : List (Int × SmartReading × String) :=
  [(smartPowerCycles, .powerCycles, "raw"), (smartTemperature, .temperature, "raw"),
    (smartTemperatureAir, .temperatureAir, "raw"), (smartPowerHours, .powerHours, "raw"),
    (smartLifeLeft, .lifeLeft, "value"), (smartPowerLoss, .powerLoss, "raw")]

/-- One turn of the loop of {lit}`from_attributes`. -/
def SmartSummary.read (summary : SmartSummary) : Json → Except Exc SmartSummary
  | .obj fields => do
      match ← leadingInt (Dict.get fields "id") with
      | some number =>
          match wanted.lookup number with
          | some (key, source) => do
              match ← leadingInt (Dict.get fields source) with
              | some reading => return summary.set key reading
              | none => return summary
          | none => return summary
      | none => return summary
  | _ => return summary

/-- {lit}`SmartSummary.from_attributes`. -/
def SmartSummary.fromAttributes (attributes : List Json) : Except Exc SmartSummary :=
  attributes.foldlM SmartSummary.read {}

/-! ## What is refused -/

/-- What a value is read as, whatever the number of its digits. -/
def leadingInt? : Json → Option Int
  | .int n => some n
  | .str s => (leadingNumber? ((Text.without ',' s).toList.dropWhile Text.isSpace)).map Int.ofNat
  | _ => none

/-- What converting a value raises. -/
def refused? : Json → Option Exc
  | .str s =>
      match intOfDigits (leadingDigits s) with
      | .ok _ => none
      | .error e => some e
  | _ => none

/-- The entry of the table that an attribute's id asks for. -/
def wantedBy (fields : Dict) : Option (SmartReading × String) :=
  (leadingInt? (Dict.get fields "id")).bind fun number => wanted.lookup number

/-- What an attribute raises: that of its id, or of the value that the id asks for. -/
def refusal : Json → Option Exc
  | .obj fields =>
      (refused? (Dict.get fields "id")).or
        ((wantedBy fields).bind fun entry => refused? (Dict.get fields entry.2))
  | _ => none

/-- The summary after an attribute that raises nothing. -/
def SmartSummary.adopt (summary : SmartSummary) : Json → SmartSummary
  | .obj fields =>
      match wantedBy fields with
      | some (key, source) =>
          match leadingInt? (Dict.get fields source) with
          | some reading => summary.set key reading
          | none => summary
      | none => summary
  | _ => summary

/-- The summary of a list that raises nothing. -/
def SmartSummary.adopted (attributes : List Json) : SmartSummary :=
  attributes.foldl SmartSummary.adopt {}

/-- A value is converted, or refused. -/
theorem leadingInt_eq_unlessRaised (value : Json) :
    leadingInt value = unlessRaised (refused? value) (leadingInt? value) := by
  cases value with
  | str s =>
      simp only [leadingInt, refused?, leadingInt?, leadingNumber?]
      rw [← leadingDigits]
      cases hdigits : leadingDigits s with
      | nil => rfl
      | cons c rest =>
          rw [if_neg (List.cons_ne_nil c rest)]
          simp only [intOfDigits]
          split_ifs <;> rfl
  | _ => rfl

/-- One turn raises what its attribute does, or adopts it. -/
theorem read_eq (summary : SmartSummary) (attr : Json) :
    summary.read attr = unlessRaised (refusal attr) (summary.adopt attr) := by
  cases attr with
  | obj fields =>
      simp only [SmartSummary.read, SmartSummary.adopt, refusal, wantedBy,
        leadingInt_eq_unlessRaised]
      cases refused? (Dict.get fields "id") with
      | some e => rfl
      | none =>
          cases leadingInt? (Dict.get fields "id") with
          | none => rfl
          | some number =>
              simp only [unlessRaised_none, Option.bind_some, Option.none_or]
              cases hwanted : wanted.lookup number with
              | none => simp [bind, Except.bind, hwanted, pure, Except.pure]
              | some entry =>
                  simp only [Option.bind_some, bind, Except.bind, hwanted]
                  cases refused? (Dict.get fields entry.2) with
                  | some e => rfl
                  | none => cases leadingInt? (Dict.get fields entry.2) <;> rfl
  | _ => rfl

/-- The first attribute with a number that is refused is what a list raises. -/
theorem fromAttributes_eq (attributes : List Json) :
    SmartSummary.fromAttributes attributes =
      unlessRaised (attributes.findSome? refusal) (SmartSummary.adopted attributes) :=
  foldlM_eq_unlessRaised read_eq {} attributes

/-! ## Each reading is the last of its attributes -/

/-- The id whose attributes give a reading. -/
def SmartReading.number : SmartReading → Int
  | .temperature => smartTemperature
  | .temperatureAir => smartTemperatureAir
  | .powerHours => smartPowerHours
  | .powerCycles => smartPowerCycles
  | .lifeLeft => smartLifeLeft
  | .powerLoss => smartPowerLoss

/-- And the field of theirs that does. -/
def SmartReading.source : SmartReading → String
  | .lifeLeft => "value"
  | _ => "raw"

/-- What an attribute gives for a reading, values being read in some way. -/
def readingOf (read : Json → Option Int) (key : SmartReading) : Json → Option Int
  | .obj fields =>
      if read (Dict.get fields "id") = some key.number then read (Dict.get fields key.source)
      else none
  | _ => none

/-- The last of what the attributes give for a reading. -/
def lastReading (read : Json → Option Int) (key : SmartReading) (attributes : List Json) :
    Option Int :=
  (attributes.filterMap (readingOf read key)).getLast?

section Last

variable {key : SmartReading} {number : Int} {source : String} {attributes other : List Json}
  {attr attr' : Json} {read : Json → Option Int}

/-- Each number is looked up to its reading and the field that it is read from. -/
theorem wanted_lookup_number (key : SmartReading) :
    wanted.lookup key.number = some (key, key.source) := by
  cases key <;> decide

/-- Every entry of the table is that of its reading. -/
theorem eq_of_wanted_lookup (h : wanted.lookup number = some (key, source)) :
    number = key.number ∧ source = key.source := by
  rcases List.lookup_eq_some_iff.mp h with ⟨before, after, hwanted, -⟩
  have hentry : (number, key, source) ∈ wanted := by
    rw [hwanted]
    exact List.mem_append_right before List.mem_cons_self
  have hall : ∀ entry ∈ wanted, entry.1 = entry.2.1.number ∧ entry.2.2 = entry.2.1.source := by
    decide
  exact hall _ hentry

/-- The numbers tell the readings apart. -/
theorem number_injective {key other : SmartReading} (h : key.number = other.number) :
    key = other := by
  have hlookup := wanted_lookup_number key
  rw [h, wanted_lookup_number other] at hlookup
  simp only [Option.some.injEq, Prod.mk.injEq] at hlookup
  exact hlookup.1.symm

/-- An attribute that is adopted sets the reading that it gives. -/
theorem get_adopt (summary : SmartSummary) (attr : Json) (key : SmartReading) :
    (summary.adopt attr).get key = (readingOf leadingInt? key attr).or (summary.get key) := by
  cases attr with
  | obj fields =>
      simp only [SmartSummary.adopt, readingOf, wantedBy]
      cases hid : leadingInt? (Dict.get fields "id") with
      | none => simp
      | some number =>
          by_cases hnumber : number = key.number
          · subst hnumber
            simp only [Option.bind_some, wanted_lookup_number, if_true]
            cases leadingInt? (Dict.get fields key.source) <;> simp
          · rw [if_neg (by simpa using hnumber), Option.none_or]
            simp only [Option.bind_some]
            cases hwanted : wanted.lookup number with
            | none => rfl
            | some entry =>
                rcases entry with ⟨key', source⟩
                have hkey : key ≠ key' := by
                  rintro rfl
                  exact hnumber (eq_of_wanted_lookup hwanted).1
                cases hreading : leadingInt? (Dict.get fields source) <;> simp [hreading, hkey]
  | _ => simp [SmartSummary.adopt, readingOf]

@[simp]
theorem lastReading_nil (read : Json → Option Int) (key : SmartReading) :
    lastReading read key [] = none :=
  rfl

/-- The last reading after one more attribute. -/
theorem lastReading_concat (attributes : List Json) (attr : Json) :
    lastReading read key (attributes ++ [attr]) =
      (readingOf read key attr).or (lastReading read key attributes) := by
  unfold lastReading
  rw [List.filterMap_append]
  cases hreading : readingOf read key attr with
  | none => simp [hreading]
  | some n => simp [hreading]

/-- Each reading is the last that the attributes give for it. -/
theorem get_adopted (attributes : List Json) (key : SmartReading) :
    (SmartSummary.adopted attributes).get key = lastReading leadingInt? key attributes := by
  induction attributes using List.reverseRecOn with
  | nil => cases key <;> rfl
  | append_singleton attributes attr ih =>
      rw [SmartSummary.adopted, List.foldl_append, List.foldl_cons, List.foldl_nil, get_adopt,
        lastReading_concat, ← ih]
      rfl

end Last

/-! ## The integers that values start with -/

/-- The integer that a text starts with: a number, or a sign and one that is not zero. -/
def signedNumber? : List Char → Option Int
  | '-' :: rest =>
      match leadingNumber? rest with
      | some (n + 1) => some (.negSucc n)
      | _ => none
  | text => (leadingNumber? text).map Int.ofNat

/-- The integer that a value starts with, below zero or not. -/
def startInt? : Json → Option Int
  | .int n => some n
  | .str s => signedNumber? ((Text.without ',' s).toList.dropWhile Text.isSpace)
  | _ => none

/-- The fields of an attribute that are read. -/
def smartFields : List String := ["id", "raw", "value"]

/-- An attribute some of whose integers are replaced by their texts. -/
inductive Respelled : Json → Json → Prop where
  | refl (attr : Json) : Respelled attr attr
  | texts (fields fields' : Dict) :
      (∀ key, fields'.lookup key = fields.lookup key ∨ key ∈ smartFields ∧
        ∃ n text, fields.lookup key = some (.int n) ∧ strOfInt n = .ok text ∧
          fields'.lookup key = some (.str text)) →
      Respelled (.obj fields) (.obj fields')

/-- Two values that start with the same integer, and that {lit}`int` refuses alike. -/
structure SameStart (value value' : Json) : Prop where
  start : startInt? value' = startInt? value
  refused : refused? value' = refused? value

/-- Two attributes whose values start alike, or two items that are none. -/
inductive StartsAlike : Json → Json → Prop where
  | fields (fields fields' : Dict) :
      (∀ key ∈ smartFields, SameStart (Dict.get fields key) (Dict.get fields' key)) →
      StartsAlike (.obj fields) (.obj fields')
  | others {attr attr' : Json} : (∀ fields, attr ≠ .obj fields) →
      (∀ fields, attr' ≠ .obj fields) → StartsAlike attr attr'

/-- Numbers and their texts read alike: replacing integers by their texts does not change the
summary, which depends only on the integers the values start with. -/
structure ReadsAlike (attributes : List Json) : Prop where
  respelled : ∀ other, List.Forall₂ Respelled attributes other →
    SmartSummary.fromAttributes other = SmartSummary.fromAttributes attributes
  starts : ∀ other, List.Forall₂ StartsAlike attributes other →
    SmartSummary.fromAttributes other = SmartSummary.fromAttributes attributes

/-- No number that is read has too many digits. -/
def NoneRefused (attributes : List Json) : Prop :=
  ∀ attr ∈ attributes, refusal attr = none

/-- For no reading does the last attribute that starts with an integer start with one below
zero. -/
def NoneBelowZero (attributes : List Json) : Prop :=
  ∀ key n, lastReading startInt? key attributes = some n → 0 ≤ n

section Starts

variable {key : SmartReading} {attributes other : List Json} {attr attr' value : Json} {n : Int}

theorem isDecimal_minus : isDecimal '-' = false := by
  decide +kernel

/-- A digit is no blank. -/
theorem isSpace_of_isDigit {c : Char} (h : c.isDigit = true) : Text.isSpace c = false := by
  have hrange : 48 ≤ c.toNat ∧ c.toNat ≤ 57 := by
    rw [Char.isDigit, Bool.and_eq_true, decide_eq_true_eq, decide_eq_true_eq] at h
    exact h
  simp only [Text.isSpace, Bool.or_eq_false_iff, Bool.and_eq_false_iff, decide_eq_false_iff_not]
  omega

/-- A printed number starts with a digit. -/
theorem decimal_eq_cons (n : Nat) : ∃ c rest, decimal n = c :: rest ∧ c.isDigit = true := by
  cases hdigits : decimal n with
  | nil => exact absurd hdigits (decimal_ne_nil n)
  | cons c rest =>
      refine ⟨c, rest, rfl, isDigit_of_mem_decimal (n := n) ?_⟩
      rw [hdigits]
      exact List.mem_cons_self

/-- A number as it is printed is read back. -/
theorem signedNumber?_decimal (n : Nat) : signedNumber? (decimal n) = some n := by
  have hnumber := leadingNumber?_decimal n [] (by simp)
  rw [List.append_nil] at hnumber
  rcases decimal_eq_cons n with ⟨c, rest, hdigits, hc⟩
  rw [hdigits] at hnumber ⊢
  unfold signedNumber?
  split
  · rename_i heq
    cases heq
    contradiction
  · rw [hnumber]
    rfl

/-- The text of an integer starts with it. -/
theorem startInt?_intText (n : Int) : startInt? (.str (intText n)) = some n := by
  cases n with
  | ofNat m =>
      rcases decimal_eq_cons m with ⟨c, rest, hdigits, hc⟩
      simp only [startInt?, intText, Text.without, String.toList_ofList]
      rw [filter_decimal, hdigits,
        List.dropWhile_cons_of_neg (by simp [isSpace_of_isDigit hc]), ← hdigits]
      exact signedNumber?_decimal m
  | negSucc m =>
      have hnumber := leadingNumber?_decimal (m + 1) [] (by simp)
      rw [List.append_nil] at hnumber
      simp only [startInt?, intText, Text.without, String.toList_ofList]
      rw [List.filter_cons_of_pos (by decide), filter_decimal,
        List.dropWhile_cons_of_neg (by decide)]
      simp only [signedNumber?, hnumber]

/-- A text is read where it starts with an integer that is not negative. -/
theorem leadingInt?_str (s : String) :
    leadingInt? (.str s) = (startInt? (.str s)).filter fun n => 0 ≤ n := by
  simp only [leadingInt?, startInt?]
  generalize (Text.without ',' s).toList.dropWhile Text.isSpace = text
  unfold signedNumber?
  split
  · rename_i rest
    have hnone : leadingNumber? ('-' :: rest) = none := by
      simp [leadingNumber?, isDecimal_minus]
    rw [hnone]
    cases leadingNumber? rest with
    | none => rfl
    | some m => cases m <;> simp [Option.filter]
  · cases leadingNumber? text with
    | none => rfl
    | some m => simp [Option.filter]

/-- A value is read where it does not start with an integer below zero. -/
theorem leadingInt?_eq (h : ∀ n, startInt? value = some n → 0 ≤ n) :
    leadingInt? value = startInt? value := by
  cases value with
  | str s =>
      rw [leadingInt?_str]
      cases hstart : startInt? (.str s) with
      | none => rfl
      | some n => simp [Option.filter, h n hstart]
  | _ => rfl

/-- An integer that is not below zero is always read. -/
theorem leadingInt?_eq_some_iff (h : 0 ≤ n) :
    leadingInt? value = some n ↔ startInt? value = some n := by
  cases value with
  | str s =>
      rw [leadingInt?_str, Option.filter_eq_some_iff, decide_eq_true_eq]
      exact and_iff_left h
  | _ => exact Iff.rfl

theorem number_nonneg (key : SmartReading) : 0 ≤ key.number := by
  cases key <;> decide

/-- What an attribute gives is read where it is not below zero. -/
theorem readingOf_leadingInt? (h : ∀ n, readingOf startInt? key attr = some n → 0 ≤ n) :
    readingOf leadingInt? key attr = readingOf startInt? key attr := by
  cases attr with
  | obj fields =>
      simp only [readingOf, leadingInt?_eq_some_iff (number_nonneg key)] at h ⊢
      split
      · rename_i hid
        rw [if_pos hid] at h
        exact leadingInt?_eq h
      · rfl
  | _ => simp only [readingOf]

/-- The last integer decides, if it is not below zero. -/
theorem lastReading_leadingInt? (h : ∀ n, lastReading startInt? key attributes = some n → 0 ≤ n) :
    lastReading leadingInt? key attributes = lastReading startInt? key attributes := by
  induction attributes using List.reverseRecOn with
  | nil => rw [lastReading_nil, lastReading_nil]
  | append_singleton attributes attr ih =>
      rw [lastReading_concat] at h ⊢
      rw [lastReading_concat]
      cases hreading : readingOf startInt? key attr with
      | none =>
          rw [hreading, Option.none_or] at h
          rw [readingOf_leadingInt? (by simp [hreading]), hreading, Option.none_or,
            Option.none_or]
          exact ih h
      | some n =>
          have hn : 0 ≤ n := by
            apply h
            rw [hreading, Option.some_or]
          have hread : readingOf leadingInt? key attr = some n := by
            rw [readingOf_leadingInt?, hreading]
            intro m hm
            rw [hreading] at hm
            cases hm
            exact hn
          rw [hread, Option.some_or, Option.some_or]

/-! ## Respelling -/

/-- Each reading comes from one of the fields. -/
theorem mem_smartFields (key : SmartReading) : key.source ∈ smartFields := by
  cases key <;> decide

/-- What an attribute gives depends on how its fields are read. -/
theorem readingOf_congr {read read' : Json → Option Int} {fields fields' : Dict}
    (h : ∀ key ∈ smartFields, read (Dict.get fields key) = read' (Dict.get fields' key))
    (key : SmartReading) :
    readingOf read key (.obj fields) = readingOf read' key (.obj fields') := by
  simp only [readingOf]
  rw [h "id" (by decide), h key.source (mem_smartFields key)]

/-- Attributes that start alike give the same integers. -/
theorem StartsAlike.readingOf (h : StartsAlike attr attr') (key : SmartReading) :
    readingOf startInt? key attr' = readingOf startInt? key attr := by
  cases h with
  | fields fields fields' hsame =>
      exact readingOf_congr (fun key hkey => (hsame key hkey).start) key
  | others hattr hattr' =>
      have hnone : ∀ value : Json, (∀ fields, value ≠ .obj fields) →
          AioProxmox.readingOf startInt? key value = none := by
        intro value hvalue
        cases value with
        | obj fields => exact absurd rfl (hvalue fields)
        | _ => rfl
      rw [hnone attr hattr, hnone attr' hattr']

/-- Attributes that start alike are read alike. -/
theorem lastReading_startsAlike (h : List.Forall₂ StartsAlike attributes other)
    (key : SmartReading) :
    lastReading startInt? key other = lastReading startInt? key attributes := by
  unfold lastReading
  congr 1
  induction h with
  | nil => rfl
  | cons halike _ ih => rw [List.filterMap_cons, List.filterMap_cons, halike.readingOf key, ih]

/-- The text of an integer below zero starts with no digits. -/
theorem leadingDigits_minus (m : Nat) : leadingDigits (intText (.negSucc m)) = [] := by
  simp only [leadingDigits, intText, Text.without, String.toList_ofList]
  rw [List.filter_cons_of_pos (by decide), filter_decimal,
    List.dropWhile_cons_of_neg (by decide),
    List.takeWhile_cons_of_neg (by simp [isDecimal_minus])]

/-- The text of an integer is never refused. -/
theorem refused?_strOfInt {text : String} (h : strOfInt n = .ok text) :
    refused? (.str text) = none := by
  unfold strOfInt at h
  split_ifs at h with hlength
  cases h
  have hdigits : (leadingDigits (intText n)).length ≤ maxStrDigits := by
    cases n with
    | ofNat m =>
        rcases decimal_eq_cons m with ⟨c, rest, hdigits, hc⟩
        simp only [leadingDigits, intText, Text.without, String.toList_ofList]
        rw [filter_decimal, hdigits,
          List.dropWhile_cons_of_neg (by simp [isSpace_of_isDigit hc]), ← hdigits]
        exact (List.takeWhile_sublist _).length_le.trans hlength
    | negSucc m =>
        rw [leadingDigits_minus]
        exact Nat.zero_le _
  simp only [refused?, intOfDigits, if_pos hdigits]

/-- What {lit}`str` makes of a number that it converts is its text. -/
theorem strOfInt_eq {text : String} (h : strOfInt n = .ok text) : text = intText n := by
  unfold strOfInt at h
  split_ifs at h
  cases h
  rfl

/-- An integer and its text start alike. -/
theorem Respelled.startsAlike (h : Respelled attr attr') : StartsAlike attr attr' := by
  cases h with
  | refl =>
      by_cases hobject : ∃ fields, attr = .obj fields
      · rcases hobject with ⟨fields, rfl⟩
        exact .fields fields fields fun _ _ => ⟨rfl, rfl⟩
      · rw [not_exists] at hobject
        exact .others hobject hobject
  | texts fields fields' hsame =>
      refine .fields fields fields' fun key _ => ?_
      unfold Dict.get Dict.getD
      rcases hsame key with heq | ⟨-, n, text, hint, htext, hspelled⟩
      · rw [heq]
        exact ⟨rfl, rfl⟩
      · rw [hint, hspelled, Option.getD_some, Option.getD_some]
        refine ⟨?_, refused?_strOfInt htext⟩
        rw [strOfInt_eq htext, startInt?_intText]
        rfl

/-- The ids that are asked for are not below zero, so that an id below zero is none. -/
theorem wantedBy_eq (fields : Dict) :
    wantedBy fields = (startInt? (Dict.get fields "id")).bind fun number =>
      wanted.lookup number := by
  unfold wantedBy
  cases hid : Dict.get fields "id" with
  | str s =>
      rw [leadingInt?_str]
      cases startInt? (.str s) with
      | none => rfl
      | some number =>
          by_cases hnumber : 0 ≤ number
          · simp [Option.filter, hnumber]
          · simp only [Option.filter, hnumber, decide_false, Bool.false_eq_true, if_false,
              Option.bind_none, Option.bind_some]
            cases hwanted : wanted.lookup number with
            | none => rfl
            | some entry =>
                have hkey := (eq_of_wanted_lookup hwanted).1
                rw [hkey] at hnumber
                exact absurd (number_nonneg _) hnumber
  | _ => rfl

/-- Attributes that start alike raise the same. -/
theorem StartsAlike.refusal (h : StartsAlike attr attr') :
    AioProxmox.refusal attr' = AioProxmox.refusal attr := by
  cases h with
  | fields fields fields' hsame =>
      have hid := hsame "id" (by decide)
      simp only [AioProxmox.refusal, wantedBy_eq]
      rw [hid.start, hid.refused]
      congr 1
      cases startInt? (Dict.get fields "id") with
      | none => rfl
      | some number =>
          simp only [Option.bind_some]
          cases hwanted : wanted.lookup number with
          | none => rfl
          | some entry =>
              rcases entry with ⟨key, source⟩
              rw [(eq_of_wanted_lookup hwanted).2]
              exact (hsame key.source (mem_smartFields key)).refused
  | others hattr hattr' =>
      have hnone : ∀ value : Json, (∀ fields, value ≠ .obj fields) →
          AioProxmox.refusal value = none := by
        intro value hvalue
        cases value with
        | obj fields => exact absurd rfl (hvalue fields)
        | _ => rfl
      rw [hnone attr hattr, hnone attr' hattr']

/-- So do the lists of such. -/
theorem findSome?_startsAlike (h : List.Forall₂ StartsAlike attributes other) :
    other.findSome? refusal = attributes.findSome? refusal := by
  induction h with
  | nil => rfl
  | cons halike _ ih => rw [List.findSome?_cons, List.findSome?_cons, halike.refusal, ih]

/-- Nothing is refused exactly if no attribute is. -/
theorem noneRefused_iff : NoneRefused attributes ↔ attributes.findSome? refusal = none :=
  List.findSome?_eq_none_iff.symm

/-- A text is read as nothing below zero. -/
theorem nonneg_of_leadingInt?_str {s : String} (h : leadingInt? (.str s) = some n) : 0 ≤ n := by
  rw [leadingInt?_str, Option.filter_eq_some_iff, decide_eq_true_eq] at h
  exact h.2

/-- What is refused starts with its digits. -/
theorem leadingInt?_eq_of_refused (h : refused? value ≠ none) :
    leadingInt? value = startInt? value := by
  cases value with
  | str s =>
      simp only [refused?, leadingDigits] at h
      simp only [leadingInt?, startInt?]
      generalize (Text.without ',' s).toList.dropWhile Text.isSpace = text at h ⊢
      unfold signedNumber?
      split
      · rename_i rest
        rw [List.takeWhile_cons_of_neg (by simp [isDecimal_minus])] at h
        exact absurd rfl h
      · rfl
  | _ => rfl

/-- The value spelled in some way, or as it is where it does not start with an integer that
can be converted. -/
def spelled (spell : Int → Json) (value : Json) : Json :=
  match startInt? value, refused? value with
  | some n, none => spell n
  | _, _ => value

/-- An attribute all of whose values are spelled in some way. -/
def respell (spell : Int → Json) : Json → Json
  | .obj fields =>
      .obj [("id", spelled spell (Dict.get fields "id")),
        ("raw", spelled spell (Dict.get fields "raw")),
        ("value", spelled spell (Dict.get fields "value"))]
  | attr => attr

/-- The text of an integer below zero, and any other integer as it is. -/
def textBelowZero (n : Int) : Json :=
  if n < 0 then .str (intText n) else .int n

variable {spell : Int → Json}

/-- A number and its text below zero start alike. -/
theorem sameStart_textBelowZero (n : Int) : SameStart (.int n) (textBelowZero n) := by
  unfold textBelowZero
  split_ifs with hn
  · refine ⟨startInt?_intText n, ?_⟩
    cases n with
    | ofNat m => exact absurd hn (Int.not_lt.mpr (Int.natCast_nonneg m))
    | negSucc m =>
        simp only [refused?, leadingDigits_minus]
        rfl
  · exact ⟨rfl, rfl⟩

/-- Spelling a number otherwise does not change how it starts. -/
theorem sameStart_spelled (hspell : ∀ n, SameStart (.int n) (spell n)) (value : Json) :
    SameStart value (spelled spell value) := by
  unfold spelled
  split
  · rename_i n hstart hrefused
    exact ⟨(hspell n).start.trans hstart.symm, (hspell n).refused.trans hrefused.symm⟩
  · exact ⟨rfl, rfl⟩

/-- Respelling an attribute does not change how it starts. -/
theorem startsAlike_respell (hspell : ∀ n, SameStart (.int n) (spell n)) (attr : Json) :
    StartsAlike attr (respell spell attr) := by
  cases attr with
  | obj fields =>
      refine .fields fields _ fun key hkey => ?_
      simp only [smartFields, List.mem_cons, List.not_mem_nil, or_false] at hkey
      rcases hkey with rfl | rfl | rfl <;> exact sameStart_spelled hspell _
  | _ => exact .others (by simp) (by simp [respell])

/-- What a respelled attribute gives is what is read of some spelled value. -/
theorem readingOf_respell {read : Json → Option Int}
    (h : readingOf read key (respell spell attr) = some n) :
    ∃ value, read (spelled spell value) = some n := by
  cases attr with
  | obj fields =>
      simp only [readingOf, respell] at h
      split at h
      · cases key <;> exact ⟨_, h⟩
      · contradiction
  | _ => contradiction

/-- Spelled as integers, all that values start with is read. -/
theorem leadingInt?_spelled_int (value : Json) :
    leadingInt? (spelled .int value) = startInt? value := by
  unfold spelled
  split
  · rename_i n hstart _
    exact hstart.symm
  · rename_i hother
    by_cases hrefused : refused? value = none
    · have hnone : startInt? value = none := by
        cases hstart : startInt? value with
        | none => rfl
        | some n => exact absurd hrefused (hother n hstart)
      rw [leadingInt?_eq (by simp [hnone])]
    · exact leadingInt?_eq_of_refused hrefused

/-- Respelled as numbers the attributes are read as they start. -/
theorem get_respell_int (attributes : List Json) (key : SmartReading) :
    (SmartSummary.adopted (attributes.map (respell .int))).get key =
      lastReading startInt? key attributes := by
  rw [get_adopted]
  unfold lastReading
  rw [List.filterMap_map]
  congr 2
  funext attr
  cases attr with
  | obj fields =>
      refine readingOf_congr (fun key hkey => ?_) key
      simp only [smartFields, List.mem_cons, List.not_mem_nil, or_false] at hkey
      rcases hkey with rfl | rfl | rfl <;> exact leadingInt?_spelled_int _
  | _ => simp only [Function.comp_apply, respell, readingOf]

/-- Spelled as texts where they are below zero, no value is read as one below zero. -/
theorem nonneg_of_spelled (h : leadingInt? (spelled textBelowZero value) = some n) :
    0 ≤ n := by
  unfold spelled at h
  split at h
  · unfold textBelowZero at h
    split_ifs at h with hn
    · exact nonneg_of_leadingInt?_str h
    · cases h
      omega
  · rename_i hother
    cases value with
    | str s => exact nonneg_of_leadingInt?_str h
    | int m => exact (hother m rfl rfl).elim
    | _ => contradiction

/-- Respelled as texts they are read only where they are not below zero. -/
theorem get_respell_text (h : (SmartSummary.adopted
    (attributes.map (respell textBelowZero))).get key = some n) : 0 ≤ n := by
  rw [get_adopted] at h
  have hmem := List.mem_of_getLast? h
  rcases List.mem_filterMap.mp hmem with ⟨attr, hattr, hreading⟩
  rcases List.mem_map.mp hattr with ⟨attr', -, rfl⟩
  rcases readingOf_respell hreading with ⟨value, hvalue⟩
  exact nonneg_of_spelled hvalue

/-- All attributes may be respelled at once. -/
theorem forall₂_respell (spell : Int → Json) (hspell : ∀ n, SameStart (.int n) (spell n))
    (attributes : List Json) :
    List.Forall₂ StartsAlike attributes (attributes.map (respell spell)) := by
  rw [List.forall₂_map_right_iff, List.forall₂_same]
  exact fun attr _ => startsAlike_respell hspell attr

end Starts

/-- A drive below zero. -/
def frozenDrive (raw : Json) : List Json :=
  [.obj [("raw", raw), ("id", .int 194)]]

end AioProxmox
