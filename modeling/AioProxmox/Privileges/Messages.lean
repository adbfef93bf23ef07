import AioProxmox.Privileges.Rendering
import AioProxmox.Text.Readers

/-!
# Privileges - what a user is told

What is required can be shown to a user, in the notation of the documentation: the lists of the
schema with their texts in single quotes, and alternatives with the word {lit}`or` between
them.  A quote is written as it is, so that a text with a quote in it is taken for two.  Without
quotes the notation is read back, and the script that reads the schema makes of it what is
required.

Main results:

- Definitions {lit}`Privileges.render` and {lit}`Check.render`.
- Definition {lit}`Message.read`: the reader of the notation.
- Theorem {lit}`read_render`: what is rendered is read back.
- Theorem {lit}`privilegesFor_legible`: this holds of whatever the package answers.
-/

namespace AioProxmox

open Readers

/-! ## Rendering -/

/-- {lit}`Privileges.render`. -/
def Privileges.render (self : Privileges) : String :=
  "['perm','" ++ self.path ++ "',[" ++
    ",".intercalate (self.privileges.map fun privilege => "'" ++ privilege ++ "'") ++ "]" ++
    (if self.anyOf then ",'any',1" else "") ++ "]"

/-- {lit}`Check.render`. -/
def Check.render (self : Check) : String :=
  " or ".intercalate (self.alternatives.map Privileges.render)

/-! ## Reading -/

namespace Message

/-- A text in single quotes. -/
def textValue : Reader Json := do
  expect ['\x27']
  let chars ← upTo '\x27'
  return .str (String.ofList chars)

/-- A list in brackets that is not empty. -/
def listValue (item : Reader Json) (fuel : Nat) : Reader Json := do
  expect ['[']
  let items ← separated item [','] fuel
  expect [']']
  return .arr items

/-- A number. -/
def numberValue : Reader Json := fun input =>
  match input.takeWhile Char.isDigit with
  | [] => none
  | digits => some (.int (Nat.ofDigitChars 10 digits 0), input.dropWhile Char.isDigit)

/-- A value of the notation. -/
def value : Nat → Reader Json
  | 0 => fun _ => none
  | fuel + 1 => fun input =>
      if ['\x27'].isPrefixOf input then textValue input
      else if ['[', ']'].isPrefixOf input then some (.arr [], input.drop 2)
      else if ['['].isPrefixOf input then listValue (value fuel) fuel input
      else numberValue input

/-- The checks that a text writes, with the word between them. -/
def read (s : String) : Option (List Json) :=
  if s = "" then some []
  else
    match separated (value s.length) " or ".toList s.length s.toList with
    | some (found, []) => some found
    | _ => none

end Message

/-- Privileges as the schema states them. -/
def Privileges.stated (self : Privileges) : Json :=
  .arr ([.str "perm", .str self.path, .arr (self.privileges.map .str)] ++
    if self.anyOf then [.str "any", .int 1] else [])

/-- A text without single quotes. -/
def QuoteFree (s : String) : Prop :=
  '\x27' ∉ s.toList

instance (s : String) : Decidable (QuoteFree s) :=
  inferInstanceAs (Decidable ('\x27' ∉ s.toList))

/-- Privileges whose texts have no quotes. -/
structure Privileges.QuoteFree (required : Privileges) : Prop where
  path : AioProxmox.QuoteFree required.path
  privileges : ∀ privilege ∈ required.privileges, AioProxmox.QuoteFree privilege

/-! ## What is written -/

section Values

variable {fuel : Nat} {rest : List Char}

/-- What may follow a value in a list. -/
def EndsValue (rest : List Char) : Prop :=
  ∃ tail, rest = ',' :: tail ∨ rest = ']' :: tail

/-- A text in quotes. -/
def quotedChars (s : String) : List Char :=
  ['\x27'] ++ (s.toList ++ ['\x27'])

/-- A text between quotes is read. -/
theorem reads_text {s : String} (h : QuoteFree s) (rest : List Char) :
    Reads (Message.value (fuel + 1)) (quotedChars s) (.str s) rest := by
  have htext : Reads Message.textValue (quotedChars s) (.str (String.ofList s.toList)) rest :=
    (Reads.expect _ _).bind ((Reads.upTo h rest).map fun chars => Json.str (String.ofList chars))
  rwa [String.ofList_toList] at htext

/-- A one is read where the value ends. -/
theorem reads_one (h : EndsValue rest) : Reads (Message.value (fuel + 1)) ['1'] (.int 1) rest := by
  rcases h with ⟨tail, rfl | rfl⟩ <;> rfl

/-- An empty list is read. -/
theorem reads_nil : Reads (Message.value (fuel + 1)) ['[', ']'] (.arr []) rest :=
  rfl

/-- A list of values that are read each. -/
theorem reads_list {β : Type} {write : β → List Char} {value : β → Json} {parts : List β}
    (hparts : parts ≠ [])
    (hitem : ∀ part ∈ parts, ∀ rest, EndsValue rest →
      Reads (Message.value fuel) (write part) (value part) rest)
    (hfirst : ∀ part ∈ parts, ∃ c tail, write part = c :: tail ∧ c ≠ ']')
    (hfuel : parts.length ≤ fuel) :
    Reads (Message.value (fuel + 1)) (['['] ++ ([','].intercalate (parts.map write) ++ [']']))
      (.arr (parts.map value)) rest := by
  have hitems : Reads (separated (Message.value fuel) [','] fuel)
      ([','].intercalate (parts.map write)) (parts.map value) (']' :: rest) :=
    Reads.separated EndsValue hparts hitem (fun tail => ⟨tail, .inl rfl⟩) ⟨rest, .inr rfl⟩ rfl hfuel
  have hlist : Reads (Message.listValue (Message.value fuel) fuel)
      (['['] ++ ([','].intercalate (parts.map write) ++ [']'])) (.arr (parts.map value)) rest :=
    (Reads.expect _ _).bind (hitems.bind ((Reads.expect [']'] rest).map fun _ => Json.arr _))
  -- No list that has an item starts like the empty one.
  obtain ⟨c, tail, htail, hc⟩ : ∃ c tail, [','].intercalate (parts.map write) = c :: tail ∧
      c ≠ ']' := by
    cases parts with
    | nil => contradiction
    | cons part parts =>
        rcases hfirst part List.mem_cons_self with ⟨c, tail, hwrite, hc⟩
        cases parts with
        | nil => exact ⟨c, tail, by simpa using hwrite, hc⟩
        | cons next parts =>
            refine ⟨c, tail ++ [','] ++ [','].intercalate ((next :: parts).map write), ?_, hc⟩
            simp [hwrite]
  rw [htail] at hlist ⊢
  unfold Reads at hlist ⊢
  rw [← hlist]
  simp [Message.value, List.isPrefixOf, hc.symm]

end Values

/-! ## Reading what was rendered -/

/-- The parts of privileges, each with the value that it writes. -/
def Privileges.written (self : Privileges) : List (List Char × Json) :=
  [(quotedChars "perm", .str "perm"), (quotedChars self.path, .str self.path),
    (['['] ++ ([','].intercalate (self.privileges.map quotedChars) ++ [']']),
      .arr (self.privileges.map .str))] ++
    if self.anyOf then [(quotedChars "any", .str "any"), (['1'], .int 1)] else []

/-- A check is rendered as the list of its parts. -/
theorem Privileges.toList_render (self : Privileges) :
    self.render.toList =
      ['['] ++ ([','].intercalate (self.written.map Prod.fst) ++ [']']) := by
  have hquoted : quotedChars = fun s => '\x27' :: (s.toList ++ ['\x27']) := rfl
  unfold render written
  simp only [String.toList_append, String.toList_intercalate, List.map_map, Function.comp_def]
  cases self.anyOf <;> simp [hquoted]

/-- A check is stated as the list of their values. -/
theorem Privileges.stated_eq (self : Privileges) :
    self.stated = .arr (self.written.map Prod.snd) := by
  unfold stated written
  cases self.anyOf <;> rfl

/-- What holds of each kind of part holds of all of them. -/
theorem Privileges.forall_written {self : Privileges} {p : List Char × Json → Prop}
    (htext : ∀ s, s = "perm" ∨ s = "any" ∨ s = self.path → p (quotedChars s, .str s))
    (hlist : p (['['] ++ ([','].intercalate (self.privileges.map quotedChars) ++ [']']),
      .arr (self.privileges.map .str)))
    (hone : p (['1'], .int 1)) : ∀ part ∈ self.written, p part := by
  intro part hpart
  unfold written at hpart
  rcases List.mem_append.mp hpart with hpart | hpart
  · simp only [List.mem_cons, List.not_mem_nil, or_false] at hpart
    rcases hpart with rfl | rfl | rfl
    · exact htext "perm" (.inl rfl)
    · exact htext self.path (.inr (.inr rfl))
    · exact hlist
  · split_ifs at hpart
    · simp only [List.mem_cons, List.not_mem_nil, or_false] at hpart
      rcases hpart with rfl | rfl
      · exact htext "any" (.inr (.inl rfl))
      · exact hone
    · contradiction

/-- Privileges are read back, whatever follows them. -/
theorem Privileges.reads {self : Privileges} (h : self.QuoteFree) {fuel : Nat}
    (hfuel : self.render.toList.length ≤ fuel) (rest : List Char) :
    Reads (Message.value fuel) self.render.toList self.stated rest := by
  have hlist := self.toList_render
  have hinside : ∀ part ∈ self.written, part.1.length + 2 ≤ fuel := by
    intro part hpart
    have hwithin : part.1 <:+: [','].intercalate (self.written.map Prod.fst) :=
      within_intercalate (List.mem_map_of_mem hpart)
    have hlength := congrArg List.length hlist
    have hle := hwithin.length_le
    simp only [List.length_append, List.length_singleton] at hlength
    omega
  have hprivileges : self.privileges.length + 4 ≤ fuel := by
    have hcount : (self.privileges.map quotedChars).length ≤
        ([','].intercalate (self.privileges.map quotedChars)).length :=
      length_le_intercalate fun part hpart => by
        rcases List.mem_map.mp hpart with ⟨privilege, -, rfl⟩
        simp [quotedChars]
    have hle := hinside (['['] ++ ([','].intercalate (self.privileges.map quotedChars) ++ [']']),
      .arr (self.privileges.map .str)) (by simp [written])
    simp only [List.length_append, List.length_singleton, List.length_map] at hle hcount
    omega
  have hperm : 8 ≤ fuel := hinside (quotedChars "perm", .str "perm") (by simp [written])
  obtain ⟨fuel, rfl⟩ : ∃ fuel', fuel = fuel' + 3 := ⟨fuel - 3, by omega⟩
  have hquoted : ∀ s, ∃ c tail, quotedChars s = c :: tail ∧ c ≠ ']' :=
    fun s => ⟨'\x27', s.toList ++ ['\x27'], rfl, by decide⟩
  have hlength : self.written.length ≤ 5 := by
    unfold written
    cases self.anyOf <;> simp
  rw [hlist, self.stated_eq]
  refine reads_list (by simp [written]) ?_ ?_ (by omega)
  · refine forall_written (fun s hs rest _ => ?_) (fun rest _ => ?_) fun rest hrest => ?_
    · rcases hs with rfl | rfl | rfl
      · exact reads_text (by decide) rest
      · exact reads_text (by decide) rest
      · exact reads_text h.path rest
    · by_cases hnil : self.privileges = []
      · rw [hnil]
        exact reads_nil
      · exact reads_list hnil
          (fun privilege hprivilege rest _ => reads_text (h.privileges privilege hprivilege) rest)
          (fun privilege _ => hquoted privilege) (by omega)
    · exact reads_one hrest
  · exact forall_written (fun s _ => hquoted s) ⟨'[', _, rfl, by decide⟩ ⟨'1', [], rfl, by decide⟩

/-- The text of a check is read back, as its alternatives. -/
theorem read_render {check : Check} (h : ∀ required ∈ check.alternatives, required.QuoteFree) :
    Message.read check.render = some (check.alternatives.map Privileges.stated) := by
  unfold Message.read
  by_cases hnil : check.alternatives = []
  · simp [Check.render, hnil]
  have hchars : check.render.toList = " or ".toList.intercalate
      (check.alternatives.map fun required => required.render.toList) := by
    unfold Check.render
    rw [String.toList_intercalate, List.map_map]
    rfl
  have hnonempty : ∀ required : Privileges, required.render.toList ≠ [] := by
    intro required
    rw [required.toList_render]
    simp
  have hlength : check.render.length = check.render.toList.length := String.length_toList.symm
  have hcount : check.alternatives.length ≤ check.render.length := by
    have hle : (check.alternatives.map fun required => required.render.toList).length ≤
        check.render.toList.length := by
      rw [hchars]
      refine length_le_intercalate fun part hpart => ?_
      rcases List.mem_map.mp hpart with ⟨required, -, rfl⟩
      exact hnonempty required
    rwa [List.length_map, ← hlength] at hle
  have hne : check.render ≠ "" := by
    intro heq
    rw [heq] at hcount
    exact hnil (List.length_eq_zero_iff.mp (Nat.le_zero.mp hcount))
  have hread : Reads (separated (Message.value check.render.length) " or ".toList
      check.render.length) check.render.toList (check.alternatives.map Privileges.stated) [] := by
    rw [hchars]
    refine Reads.separated (fun _ => True) hnil (fun required hrequired rest _ => ?_)
      (fun _ => trivial) trivial rfl hcount
    refine Privileges.reads (h required hrequired) ?_ rest
    have hwithin : required.render.toList <:+: check.render.toList := by
      rw [hchars]
      exact within_intercalate (List.mem_map_of_mem hrequired)
    exact hwithin.length_le.trans_eq hlength.symm
  unfold Reads at hread
  rw [List.append_nil] at hread
  rw [if_neg hne, hread]

/-- The script that reads the schema makes of it what is required. -/
theorem alternatives_stated (repr : Json → String) (required : Privileges) :
    alternatives repr required.stated =
      .ok [asRead (required.path, required.privileges, required.anyOf)] := by
  unfold Privileges.stated
  cases hany : required.anyOf <;>
    simp [alternatives, permAlternatives, Json.toTuple, asRead, isAnyWord]

/-! ## What the package answers -/

section Answers

variable {values filled : List (String × String)} {parts : List String}

/-- Replacing by texts without quotes adds no quote. -/
theorem quoteFree_replace {s old new : String} (hs : QuoteFree s) (hnew : QuoteFree new) :
    QuoteFree (Text.replace s old new) := by
  have hchars : ∀ skip chars, '\x27' ∉ chars →
      '\x27' ∉ Text.replaceChars old.toList new.toList skip chars := by
    intro skip chars h
    induction chars generalizing skip with
    | nil =>
        cases skip <;> simp [Text.replaceChars]
    | cons c rest ih =>
        rw [List.mem_cons, not_or] at h
        cases skip with
        | zero =>
            rw [Text.replaceChars]
            split_ifs
            · rw [List.mem_append, not_or]
              exact ⟨hnew, ih _ h.2⟩
            · rw [List.mem_cons, not_or]
              exact ⟨h.1, ih 0 h.2⟩
        | succ skip =>
            rw [Text.replaceChars]
            exact ih skip h.2
  unfold QuoteFree Text.replace
  rw [String.toList_ofList]
  exact hchars 0 _ hs

/-- Filling in values without quotes adds no quote. -/
theorem quoteFree_substitutePath {path : String} (hpath : QuoteFree path)
    (h : ∀ kv ∈ filled, QuoteFree kv.2) : QuoteFree (substitutePath filled path) := by
  unfold substitutePath
  induction filled generalizing path with
  | nil => exact hpath
  | cons kv filled ih =>
      rw [List.foldl_cons]
      exact ih (quoteFree_replace hpath (h kv List.mem_cons_self))
        fun other hother => h other (List.mem_cons_of_mem kv hother)

/-- The parts of a path have no quotes if it has none. -/
theorem quoteFree_split {path part : String} (h : QuoteFree path)
    (hpart : part ∈ Text.split '/' (Text.stripped '/' path)) : QuoteFree part := by
  have hwithin : part.toList <:+: (Text.stripped '/' path).toList := by
    rw [← Text.joined_split (Text.stripped '/' path), Text.joined, String.toList_ofList]
    exact within_intercalate (List.mem_map_of_mem hpart)
  rcases Text.eq_slashes_stripped path with ⟨before, after, hpath⟩
  intro hquote
  apply h
  rw [hpath, String.toList_append, String.toList_append]
  exact List.mem_append_left _ (List.mem_append_right _ (hwithin.subset hquote))

/-- What is stored is the new value or an old one. -/
theorem mem_of_mem_store {key value : String} {kv : String × String}
    (h : kv ∈ Collections.store values key value) : kv = (key, value) ∨ kv ∈ values := by
  induction values with
  | nil => exact .inl (List.mem_singleton.mp h)
  | cons entry values ih =>
      rw [Collections.store] at h
      split_ifs at h with hkey
      · rcases List.mem_cons.mp h with rfl | h
        · exact .inl (by rw [hkey])
        · exact .inr (List.mem_cons_of_mem entry h)
      · rcases List.mem_cons.mp h with rfl | h
        · exact .inr List.mem_cons_self
        · exact (ih h).imp_right (List.mem_cons_of_mem entry)

/-- The values that a path is matched with have no quotes. -/
theorem quoteFree_fillFrom {segments : List String} (hvalues : ∀ kv ∈ values, QuoteFree kv.2)
    (hparts : ∀ part ∈ parts, QuoteFree part) (h : fillFrom values segments parts = some filled) :
    ∀ kv ∈ filled, QuoteFree kv.2 := by
  induction segments generalizing values parts with
  | nil =>
      rw [fillFrom, Option.some.injEq] at h
      · rwa [← h]
      · simp
  | cons segment segments ih =>
      cases parts with
      | nil =>
          rw [fillFrom, Option.some.injEq] at h
          · rwa [← h]
          · simp
      | cons part parts =>
          have hrest : ∀ other ∈ parts, QuoteFree other :=
            fun other hother => hparts other (List.mem_cons_of_mem part hother)
          rw [fillFrom] at h
          split_ifs at h
          · refine ih (fun kv hkv => ?_) hrest h
            rcases mem_of_mem_store hkv with rfl | hkv
            · exact hparts part List.mem_cons_self
            · exact hvalues kv hkv
          · exact ih hvalues hrest h

/-- What is found in a table has no quotes where neither the table nor the call has any. -/
theorem quoteFree_findCheck {method : String} {table : List CheckEntry}
    (htable : ∀ entry ∈ table, ∀ required ∈ (toCheck entry.2).alternatives, required.QuoteFree)
    (hvalues : ∀ kv ∈ values, QuoteFree kv.2) (hparts : ∀ part ∈ parts, QuoteFree part)
    {check : Check} (h : findCheck values method parts table = .ok (some check)) :
    ∀ required ∈ check.alternatives, required.QuoteFree := by
  induction table with
  | nil =>
      rw [findCheck] at h
      simp at h
  | cons entry rest ih =>
      have hrest := ih fun other hother => htable other (List.mem_cons_of_mem entry hother)
      rcases entry with ⟨⟨known, template⟩, stated⟩
      rw [findCheck] at h
      split_ifs at h
      · exact hrest h
      · exact hrest h
      · cases hfill : fillFrom values (Text.split '/' template) parts with
        | none =>
            rw [hfill] at h
            exact hrest h
        | some filled =>
            rw [hfill] at h
            have hfilled := quoteFree_fillFrom hvalues hparts hfill
            have hstated := htable _ List.mem_cons_self
            unfold Check.substitute at h
            dsimp only at h
            split_ifs at h
            · contradiction
            · simp only [Except.map, Except.ok.injEq, Option.some.injEq] at h
              subst h
              intro required hrequired
              rcases List.mem_map.mp hrequired with ⟨before, hbefore, rfl⟩
              have hplain := hstated before hbefore
              exact ⟨quoteFree_substitutePath hplain.path hfilled, hplain.privileges⟩

/-- No text of the table has a quote. -/
theorem checks_quoteFree : ∀ entry ∈ checks, ∀ stated ∈ entry.2,
    QuoteFree stated.1 ∧ ∀ privilege ∈ stated.2.1, QuoteFree privilege := by
  decide +kernel

/-- No check made of the table has a quote. -/
theorem toCheck_quoteFree {entry : CheckEntry} (h : entry ∈ checks) :
    ∀ required ∈ (toCheck entry.2).alternatives, required.QuoteFree := by
  intro required hrequired
  rcases List.mem_map.mp hrequired with ⟨stated, hstated, rfl⟩
  rcases checks_quoteFree entry h stated hstated with ⟨hpath, hprivileges⟩
  exact ⟨hpath, hprivileges⟩

/-- As the parts of an {lit}`or`, the alternatives are what is required. -/
theorem alternatives_or (repr : Json → String) (required : List Privileges) :
    alternatives repr (.arr (.str "or" :: required.map Privileges.stated)) =
      .ok (required.map fun p => asRead (p.path, p.privileges, p.anyOf)) := by
  have hparts : ∀ parts : List Privileges,
      anyAlternatives repr (parts.map Privileges.stated) =
        .ok (parts.map fun p => asRead (p.path, p.privileges, p.anyOf)) := by
    intro parts
    induction parts with
    | nil => simp [anyAlternatives]
    | cons part parts ih =>
        rw [List.map_cons, anyAlternatives, alternatives_stated, ih]
        rfl
  rw [alternatives, hparts]

/-- Whatever the order of the table, and whether the package is asked for a template or for the
path of a call: the text of what it answers is read back, and the script that reads the schema
makes of it what is required.  A call with a quote in its path or its values is another matter. -/
theorem privilegesFor_legible (upper : String → String) (repr : Json → String)
    {table : List CheckEntry} (hperm : table.Perm checks) (method : String) {path : String}
    (hpath : QuoteFree path) {values : List (String × String)}
    (hvalues : ∀ kv ∈ values, QuoteFree kv.2) {check : Check}
    (h : requiredPrivileges upper table method path = some check ∨
      privilegesFor upper table method path values = .ok (some check)) :
    ∃ stated, Message.read check.render = some stated ∧
      alternatives repr (.arr (.str "or" :: stated)) =
        .ok (check.alternatives.map fun p => asRead (p.path, p.privileges, p.anyOf)) := by
  have hplain : ∀ required ∈ check.alternatives, required.QuoteFree := by
    rcases h with h | h
    · unfold requiredPrivileges at h
      split at h
      · rename_i entry hentry
        split_ifs at h
        rw [Option.some.injEq] at h
        subst h
        have hkeys := (checks_unambiguous.perm hperm).keys
        exact toCheck_quoteFree
          (hperm.mem_iff.mp ((Collections.lookup_eq_some_iff_mem hkeys).mp hentry))
      · contradiction
    · exact quoteFree_findCheck (fun entry hentry => toCheck_quoteFree (hperm.mem_iff.mp hentry))
        hvalues (fun part hpart => quoteFree_split hpath hpart) h
  exact ⟨_, read_render hplain, alternatives_or repr _⟩

/-- One of two privileges for the ping of an agent. -/
def pingCheck : Check :=
  ⟨[{ path := "/vms/\x7bvmid\x7d",
      privileges := ["VM.GuestAgent.Audit", "VM.GuestAgent.Unrestricted"], anyOf := true }]⟩

/-- A check with a placeholder and two privileges, of which any is enough. -/
theorem privilegesFor_legible_witness :
    pingCheck.render = "['perm','/vms/\x7bvmid\x7d'," ++
        "['VM.GuestAgent.Audit','VM.GuestAgent.Unrestricted'],'any',1]" ∧
      ∃ stated, Message.read pingCheck.render = some stated ∧
        alternatives (fun _ => "") (.arr (.str "or" :: stated)) =
          .ok (pingCheck.alternatives.map fun p => asRead (p.path, p.privileges, p.anyOf)) := by
  have hfound : requiredPrivileges String.toUpper checks.reverse "post"
      "/nodes/\x7bnode\x7d/qemu/\x7bvmid\x7d/agent/ping" = some pingCheck := by
    decide +kernel
  have hplain : QuoteFree "/nodes/\x7bnode\x7d/qemu/\x7bvmid\x7d/agent/ping" := by decide
  have hvalues : ∀ kv ∈ ([] : List (String × String)), QuoteFree kv.2 := by simp
  exact ⟨by decide +kernel, privilegesFor_legible String.toUpper (fun _ => "")
    (List.reverse_perm checks) "post" hplain hvalues (.inl hfound)⟩

/-- With a quote in a text, two checks are told in one way. -/
example : Privileges.render { path := "/vms/1", privileges := ["a','b"] } =
    Privileges.render { path := "/vms/1", privileges := ["a", "b"] } := by
  decide +kernel

end Answers

end AioProxmox
