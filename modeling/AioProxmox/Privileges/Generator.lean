import AioProxmox.Client.Values
import AioProxmox.Logic.Ways

/-!
# Privileges - what the generator makes of a check

The script that writes the table of checks reads each check of the API's schema as a list
of alternatives.  The language of checks has its own meaning, in terms of what is granted
and of the parameters of a call; the reading is compared with it.

Main results:

- Definition {lit}`alternatives`: the reading, with the shapes it refuses.
- Definition {lit}`ApiCheck.Holds`: when a check lets a call pass.
- Theorem {lit}`alternatives_faithful_iff`: when the alternatives of a check are what it
  asks for.
-/

namespace AioProxmox

/-! ## The script -/

/-- Why the script stops: at a shape it does not describe, or at one that is no check. -/
inductive GeneratorError where
  | unsupportedCheck (msg : String)
  | raised (err : Exc)

/-- {lit}`Alternative`: the ACL path, the privileges, and whether one is enough. -/
abbrev Alternative :=
  Json × List Json × Bool

/-- {lit}`tuple(value)`. -/
def Json.toTuple : Json → Except GeneratorError (List Json)
  | arr items => .ok items
  | str s => .ok (s.toList.map fun c => str (String.singleton c))
  | obj fields => .ok (fields.map fun kv => str kv.1)
  | value => .error (.raised (.typeError ("'" ++ value.typeName ++ "' object is not iterable")))

/-- {lit}`value == "any"`. -/
def isAnyWord : Json → Bool
  | .str s => s == "any"
  | _ => false

/-- The case {lit}`perm` of {lit}`alternatives`. -/
def permAlternatives : List Json → Except GeneratorError (List Alternative)
  | path :: privileges :: options => do
      let privileges ← privileges.toTuple
      return [(path, privileges, options.any isAnyWord)]
  | _ => .error (.raised (.indexError "list index out of range"))

section Script

variable (repr : Json → String)

/-- {lit}`str` of a value, with {lit}`repr` as Python's: a text is printed as it stands. -/
def strJson : Json → String
  | .str s => s
  | value => repr value

/-- The refusal of a shape. -/
def notDescribed (kind check : Json) : GeneratorError :=
  .unsupportedCheck ("check shape " ++ repr kind ++ " is not described yet: " ++
    strJson repr check)

mutual

/-- {lit}`alternatives`. -/
def alternatives : Json → Except GeneratorError (List Alternative)
  | .arr [] => .error (.unsupportedCheck "empty check")
  | .arr (kind :: args) =>
      match kind with
      | .str "perm" => permAlternatives args
      | .str "or" => anyAlternatives args
      | kind => .error (notDescribed repr kind (.arr (kind :: args)))
  | .str s =>
      match s.toList with
      | [] => .error (.unsupportedCheck "empty check")
      | c :: _ => .error (notDescribed repr (.str (String.singleton c)) (.str s))
  | .obj fields =>
      if fields.isEmpty then .error (.unsupportedCheck "empty check")
      else .error (.raised (.keyError "0"))
  | value =>
      if value.truthy then
        .error (.raised (.typeError ("'" ++ value.typeName ++ "' object is not subscriptable")))
      else .error (.unsupportedCheck "empty check")

/-- The loop over the parts of an {lit}`or`. -/
def anyAlternatives : List Json → Except GeneratorError (List Alternative)
  | [] => .ok []
  | part :: parts => do
      let found ← alternatives part
      let rest ← anyAlternatives parts
      return found ++ rest

end

end Script

/-! ## The language of checks -/

/-- An option of a {lit}`perm` check. -/
inductive PermOption where
  | any (value : Json)
  | requireParam (name : String)
  | other (name : String) (value : Json) (hname : name ≠ "any" ∧ name ≠ "require_param")

/-- A {lit}`perm` check: privileges on a path, with options. -/
structure PermCheck where
  path : String
  privileges : List String
  options : List PermOption := []

/-- A check as the schema has it; a list that starts with another word, or with none,
is of another kind. -/
inductive ApiCheck where
  | perm (check : PermCheck)
  | or (checks : List ApiCheck)
  | and (checks : List ApiCheck)
  | other (shape : List Json)
      (hshape : ∀ kind ∈ ["perm", "or", "and"], ∀ rest, shape ≠ .str kind :: rest)

/-- A name and a value. -/
def PermOption.encode : PermOption → List Json
  | any value => [.str "any", value]
  | requireParam name => [.str "require_param", .str name]
  | other name value _ => [.str name, value]

/-- The check as a list. -/
def PermCheck.encode (check : PermCheck) : Json :=
  .arr (.str "perm" :: .str check.path :: .arr (check.privileges.map .str) ::
    check.options.flatMap PermOption.encode)

mutual

/-- The check as a list. -/
def ApiCheck.encode : ApiCheck → Json
  | .perm check => check.encode
  | .or checks => .arr (.str "or" :: encodeAll checks)
  | .and checks => .arr (.str "and" :: encodeAll checks)
  | .other shape _ => .arr shape

def ApiCheck.encodeAll : List ApiCheck → List Json
  | [] => []
  | check :: checks => check.encode :: encodeAll checks

end

/-! ## Its meaning -/

/-- What is granted, as a path and a privilege. -/
abbrev Grants :=
  String × String → Prop

namespace PermCheck

variable (isTrue : Json → Bool)

/-- Whether {lit}`any` is set to a true value; the last one counts. -/
def anySet (check : PermCheck) : Bool :=
  check.options.foldl (fun set option =>
    match option with
    | .any value => isTrue value
    | _ => set) false

/-- The parameter that the call has to carry; the last one counts. -/
def required (check : PermCheck) : Option String :=
  check.options.foldl (fun found option =>
    match option with
    | .requireParam name => some name
    | _ => found) none

/-- Whether the check lets a call pass. -/
def Holds (granted : Grants) (carries : String → Prop) (check : PermCheck) : Prop :=
  (∀ name, check.required = some name → carries name) ∧
    if check.anySet isTrue then ∃ privilege ∈ check.privileges, granted (check.path, privilege)
    else ∀ privilege ∈ check.privileges, granted (check.path, privilege)

end PermCheck

section Meaning

variable (isTrue : Json → Bool) (special : List Json → Grants → (String → Prop) → Prop)
  (granted : Grants) (carries : String → Prop)

mutual

/-- Whether a check lets a call pass; {lit}`special` is what the other kinds mean. -/
def ApiCheck.Holds : ApiCheck → Prop
  | .perm check => check.Holds isTrue granted carries
  | .or checks => HoldsAny checks
  | .and checks => HoldsAll checks
  | .other shape _ => special shape granted carries

def ApiCheck.HoldsAny : List ApiCheck → Prop
  | [] => False
  | check :: checks => check.Holds ∨ HoldsAny checks

def ApiCheck.HoldsAll : List ApiCheck → Prop
  | [] => True
  | check :: checks => check.Holds ∧ HoldsAll checks

end

end Meaning

/-- Whether an alternative is satisfied. -/
def Satisfied (granted : Grants) (alternative : Alternative) : Prop :=
  if alternative.2.2 then
    ∃ privilege ∈ alternative.2.1,
      ∃ path name, alternative.1 = .str path ∧ privilege = .str name ∧ granted (path, name)
  else
    ∀ privilege ∈ alternative.2.1,
      ∃ path name, alternative.1 = .str path ∧ privilege = .str name ∧ granted (path, name)

/-! ## Checks as ways -/

namespace PermCheck

variable (isTrue : Json → Bool)

/-- The ways of a check, one privilege being enough or not. -/
def ways (anyOf : Bool) (check : PermCheck) : List (List (String × String)) :=
  if anyOf then check.privileges.map fun privilege => [(check.path, privilege)]
  else [check.privileges.map fun privilege => (check.path, privilege)]

/-- The word {lit}`any` is among the options, as a name or as a value. -/
def namesAny (check : PermCheck) : Bool :=
  (check.options.flatMap PermOption.encode).any isAnyWord

/-- The ways that the script reads. -/
def listed (check : PermCheck) : List (List (String × String)) :=
  check.ways check.namesAny

/-- The ways that the check has. -/
def stated (check : PermCheck) : List (List (String × String)) :=
  check.ways (check.anySet isTrue)

/-- What the script makes of the check. -/
def alternative (check : PermCheck) : Alternative :=
  (.str check.path, check.privileges.map .str, check.namesAny)

/-- One of the ways is open where some privilege is granted, or where all are. -/
theorem open_ways (granted : Grants) (anyOf : Bool) (check : PermCheck) :
    Ways.Open granted (check.ways anyOf) ↔
      if anyOf then ∃ privilege ∈ check.privileges, granted (check.path, privilege)
      else ∀ privilege ∈ check.privileges, granted (check.path, privilege) := by
  cases anyOf with
  | true => simp [ways, Ways.Open]
  | false => simp [ways, Ways.open_all]

/-- An alternative is satisfied where one of the listed ways is open. -/
theorem satisfied_alternative (granted : Grants) (check : PermCheck) :
    Satisfied granted check.alternative ↔ Ways.Open granted check.listed := by
  rw [listed, open_ways]
  unfold Satisfied alternative
  cases check.namesAny with
  | true => simp
  | false => simp

/-- A check holds where its parameter is carried and a stated way is open. -/
theorem holds_iff (granted : Grants) (carries : String → Prop) (check : PermCheck) :
    check.Holds isTrue granted carries ↔
      (∀ name, check.required = some name → carries name) ∧
        Ways.Open granted (check.stated isTrue) := by
  rw [Holds, stated, open_ways]

/-- With no parameter at hand only checks that require none hold. -/
theorem requires_nothing (check : PermCheck) :
    (∀ name, check.required = some name → False) ↔ check.required = none := by
  rw [Option.eq_none_iff_forall_ne_some]

end PermCheck

mutual

/-- The {lit}`perm` checks of a check that is built from them by {lit}`or`. -/
def ApiCheck.leaves : ApiCheck → Option (List PermCheck)
  | .perm check => some [check]
  | .or checks => leavesAll checks
  | .and _ => none
  | .other _ _ => none

def ApiCheck.leavesAll : List ApiCheck → Option (List PermCheck)
  | [] => some []
  | check :: checks => do
      let first ← check.leaves
      let rest ← leavesAll checks
      return first ++ rest

end

section Reading

variable (repr : Json → String)

/-- The script has met a shape that it does not describe. -/
def Refused {α : Type} (result : Except GeneratorError α) : Prop :=
  ∃ msg, result = .error (.unsupportedCheck msg)

/-- Every shape but three is refused. -/
theorem alternatives_other {shape : List Json}
    (hshape : ∀ kind ∈ ["perm", "or", "and"], ∀ rest, shape ≠ .str kind :: rest) :
    Refused (alternatives repr (.arr shape)) := by
  cases shape with
  | nil => exact ⟨_, rfl⟩
  | cons kind rest =>
      rw [alternatives]
      · exact ⟨_, rfl⟩
      · rintro rfl
        exact hshape "perm" (by simp) rest rfl
      · rintro rfl
        exact hshape "or" (by simp) rest rfl

mutual

/-- The alternatives are those of the {lit}`perm` checks, if there are no other kinds. -/
theorem alternatives_of_leaves (check : ApiCheck) : ∀ {found : List PermCheck},
    check.leaves = some found →
      alternatives repr check.encode = .ok (found.map PermCheck.alternative) := by
  intro found h
  cases check with
  | perm check =>
      cases h
      rfl
  | or checks => exact anyAlternatives_of_leaves checks h
  | and checks => contradiction
  | other shape hshape => contradiction

/-- Parts that can all be described are. -/
theorem anyAlternatives_of_leaves (checks : List ApiCheck) : ∀ {found : List PermCheck},
    ApiCheck.leavesAll checks = some found →
      anyAlternatives repr (ApiCheck.encodeAll checks) =
        .ok (found.map PermCheck.alternative) := by
  intro found h
  cases checks with
  | nil =>
      cases h
      rfl
  | cons check checks =>
      rw [ApiCheck.leavesAll] at h
      simp only [Option.bind_eq_bind, Option.bind_eq_some_iff, Option.pure_def,
        Option.some.injEq] at h
      rcases h with ⟨first, hfirst, rest, hrest, rfl⟩
      rw [ApiCheck.encodeAll, anyAlternatives, alternatives_of_leaves check hfirst,
        anyAlternatives_of_leaves checks hrest, List.map_append]
      rfl

end

mutual

/-- Any other kind is refused, wherever it stands. -/
theorem alternatives_of_no_leaves (check : ApiCheck) (h : check.leaves = none) :
    Refused (alternatives repr check.encode) := by
  cases check with
  | perm check => contradiction
  | or checks => exact anyAlternatives_of_no_leaves checks h
  | and checks => exact ⟨_, rfl⟩
  | other shape hshape => exact alternatives_other repr hshape

/-- A part that cannot be described is refused with the whole. -/
theorem anyAlternatives_of_no_leaves (checks : List ApiCheck)
    (h : ApiCheck.leavesAll checks = none) :
    Refused (anyAlternatives repr (ApiCheck.encodeAll checks)) := by
  cases checks with
  | nil => contradiction
  | cons check checks =>
      rw [ApiCheck.leavesAll] at h
      rw [ApiCheck.encodeAll, anyAlternatives]
      cases hfirst : check.leaves with
      | none =>
          rcases alternatives_of_no_leaves check hfirst with ⟨msg, hmsg⟩
          rw [hmsg]
          exact ⟨msg, rfl⟩
      | some first =>
          cases hrest : ApiCheck.leavesAll checks with
          | none =>
              rcases anyAlternatives_of_no_leaves checks hrest with ⟨msg, hmsg⟩
              rw [alternatives_of_leaves repr check hfirst, hmsg]
              exact ⟨msg, rfl⟩
          | some rest =>
              rw [hfirst, hrest] at h
              contradiction

end

end Reading

section Meaning

variable (isTrue : Json → Bool) (special : List Json → Grants → (String → Prop) → Prop)
  (granted : Grants) (carries : String → Prop)

mutual

/-- A check that is built by {lit}`or` holds if one of its {lit}`perm` checks does. -/
theorem holds_of_leaves (check : ApiCheck) : ∀ {found : List PermCheck},
    check.leaves = some found → (check.Holds isTrue special granted carries ↔
      ∃ leaf ∈ found, leaf.Holds isTrue granted carries) := by
  intro found h
  cases check with
  | perm check =>
      cases h
      simp [ApiCheck.Holds]
  | or checks => exact holdsAny_of_leaves checks h
  | and checks => contradiction
  | other shape hshape => contradiction

/-- One of several checks holds where one of their leaves does. -/
theorem holdsAny_of_leaves (checks : List ApiCheck) : ∀ {found : List PermCheck},
    ApiCheck.leavesAll checks = some found →
      (ApiCheck.HoldsAny isTrue special granted carries checks ↔
        ∃ leaf ∈ found, leaf.Holds isTrue granted carries) := by
  intro found h
  cases checks with
  | nil =>
      cases h
      simp [ApiCheck.HoldsAny]
  | cons check checks =>
      rw [ApiCheck.leavesAll] at h
      simp only [Option.bind_eq_bind, Option.bind_eq_some_iff, Option.pure_def,
        Option.some.injEq] at h
      rcases h with ⟨first, hfirst, rest, hrest, rfl⟩
      rw [ApiCheck.HoldsAny, holds_of_leaves check hfirst, holdsAny_of_leaves checks hrest]
      simp only [List.mem_append, or_and_right, exists_or]

end

end Meaning

/-! ## When the reading is faithful -/

/-- The script refuses the check, or its alternatives are what the check asks for, for
all that may be granted and all parameters of a call. -/
def FaithfulOrRefused (repr : Json → String) (isTrue : Json → Bool)
    (special : List Json → Grants → (String → Prop) → Prop) (check : ApiCheck) : Prop :=
  Refused (alternatives repr check.encode) ∨
    ∃ found, alternatives repr check.encode = .ok found ∧ ∀ granted carries,
      (∃ alternative ∈ found, Satisfied granted alternative) ↔
        check.Holds isTrue special granted carries

/-- Each way that is read includes one that a check without {lit}`require_param` has,
and each way that a check has includes one that is read. -/
def SameWays (isTrue : Json → Bool) (leaves : List PermCheck) : Prop :=
  (∀ leaf ∈ leaves, ∀ way ∈ leaf.listed, ∃ leaf' ∈ leaves, leaf'.required = none ∧
    ∃ way' ∈ leaf'.stated isTrue, way' ⊆ way) ∧
  ∀ leaf ∈ leaves, ∀ way ∈ leaf.stated isTrue, ∃ leaf' ∈ leaves,
    ∃ way' ∈ leaf'.listed, way' ⊆ way

section SameWays

variable {isTrue : Json → Bool} {leaves : List PermCheck}

/-- Some alternative is satisfied where one of the listed ways is open. -/
theorem open_listed (granted : Grants) :
    (∃ alternative ∈ leaves.map PermCheck.alternative, Satisfied granted alternative) ↔
      Ways.Open granted (leaves.flatMap PermCheck.listed) := by
  simp [Ways.open_flatMap, PermCheck.satisfied_alternative]

/-- What holds with every parameter at hand. -/
theorem open_stated (granted : Grants) :
    (∃ leaf ∈ leaves, leaf.Holds isTrue granted fun _ => True) ↔
      Ways.Open granted (leaves.flatMap (PermCheck.stated isTrue)) := by
  simp [Ways.open_flatMap, PermCheck.holds_iff]

/-- What holds with none. -/
theorem open_unconditional (granted : Grants) :
    (∃ leaf ∈ leaves, leaf.Holds isTrue granted fun _ => False) ↔
      Ways.Open granted ((leaves.filter fun leaf => leaf.required.isNone).flatMap
        (PermCheck.stated isTrue)) := by
  simp [Ways.open_flatMap, PermCheck.holds_iff, PermCheck.requires_nothing, and_assoc]

/-- The ways agree where each listed one is open with an unconditional one, and each stated one
with a listed one. -/
theorem sameWays_iff :
    SameWays isTrue leaves ↔
      (∀ way ∈ leaves.flatMap PermCheck.listed,
        ∃ way' ∈ (leaves.filter fun leaf => leaf.required.isNone).flatMap
          (PermCheck.stated isTrue), way' ⊆ way) ∧
      ∀ way ∈ leaves.flatMap (PermCheck.stated isTrue),
        ∃ way' ∈ leaves.flatMap PermCheck.listed, way' ⊆ way := by
  simp only [SameWays, List.mem_flatMap, List.mem_filter, Option.isNone_iff_eq_none,
    forall_exists_index, and_imp]
  constructor
  · rintro ⟨hlisted, hstated⟩
    constructor
    · intro way leaf hleaf hway
      rcases hlisted leaf hleaf way hway with ⟨leaf', hleaf', hnone, way', hway', hsub⟩
      exact ⟨way', ⟨leaf', ⟨hleaf', hnone⟩, hway'⟩, hsub⟩
    · intro way leaf hleaf hway
      rcases hstated leaf hleaf way hway with ⟨leaf', hleaf', way', hway', hsub⟩
      exact ⟨way', ⟨leaf', hleaf', hway'⟩, hsub⟩
  · rintro ⟨hlisted, hstated⟩
    constructor
    · intro leaf hleaf way hway
      rcases hlisted way leaf hleaf hway with ⟨way', ⟨leaf', ⟨hleaf', hnone⟩, hway'⟩, hsub⟩
      exact ⟨leaf', hleaf', hnone, way', hway', hsub⟩
    · intro leaf hleaf way hway
      rcases hstated way leaf hleaf hway with ⟨way', ⟨leaf', hleaf', hway'⟩, hsub⟩
      exact ⟨leaf', hleaf', way', hway', hsub⟩

/-- A check that holds goes on holding with more parameters. -/
theorem holds_mono {granted : Grants} {carries carries' : String → Prop}
    (h : ∀ name, carries name → carries' name) :
    (∃ leaf ∈ leaves, leaf.Holds isTrue granted carries) →
      ∃ leaf ∈ leaves, leaf.Holds isTrue granted carries' := by
  rintro ⟨leaf, hleaf, hrequired, hgranted⟩
  exact ⟨leaf, hleaf, fun name hname => h name (hrequired name hname), hgranted⟩

/-- The alternatives are what the checks ask for exactly if the ways are the same. -/
theorem forall_satisfied_iff :
    (∀ granted carries,
      (∃ alternative ∈ leaves.map PermCheck.alternative, Satisfied granted alternative) ↔
        ∃ leaf ∈ leaves, leaf.Holds isTrue granted carries) ↔ SameWays isTrue leaves := by
  rw [sameWays_iff, ← Ways.forall_open_imp_iff, ← Ways.forall_open_imp_iff]
  constructor
  · intro h
    constructor
    · intro granted hopen
      exact (open_unconditional granted).mp ((h granted _).mp ((open_listed granted).mpr hopen))
    · intro granted hopen
      exact (open_listed granted).mp ((h granted _).mpr ((open_stated granted).mpr hopen))
  · rintro ⟨hlisted, hstated⟩ granted carries
    constructor
    · intro halternative
      have hunconditional := (open_unconditional granted).mpr
        (hlisted granted ((open_listed granted).mp halternative))
      exact holds_mono (fun _ hnone => hnone.elim) hunconditional
    · intro hholds
      have hall := (open_stated granted).mp (holds_mono (fun _ _ => trivial) hholds)
      exact (open_listed granted).mpr (hstated granted hall)

end SameWays

/-- For every check of any nesting: it is refused or read faithfully exactly if the ways
of its {lit}`perm` checks are the same where it has no other shape. -/
theorem alternatives_faithful_iff (repr : Json → String) (isTrue : Json → Bool)
    (special : List Json → Grants → (String → Prop) → Prop) (check : ApiCheck) :
    FaithfulOrRefused repr isTrue special check ↔
      ∀ leaves, check.leaves = some leaves → SameWays isTrue leaves := by
  cases hleaves : check.leaves with
  | none =>
      refine iff_of_true (.inl (alternatives_of_no_leaves repr check hleaves)) ?_
      intro leaves heq
      contradiction
  | some found =>
      have hread := alternatives_of_leaves repr check hleaves
      have hholds := fun granted carries =>
        holds_of_leaves isTrue special granted carries check hleaves
      simp only [FaithfulOrRefused, Refused, hread, reduceCtorEq, exists_false, false_or,
        Except.ok.injEq, exists_eq_left', hholds, forall_satisfied_iff, Option.some.injEq,
        forall_eq']

/-- What the schema asks for the guest that a clone becomes. -/
def cloneTarget : ApiCheck :=
  .or [.perm ⟨"/vms/\x7bnewid\x7d", ["VM.Allocate"], []⟩,
    .perm ⟨"/pool/\x7bpool\x7d", ["VM.Allocate"], [.requireParam "pool"]⟩]

/-- Rights on a pool satisfy the second alternative of a clone, but the check asks for the
parameter besides. -/
theorem alternatives_faithful_counterexample :
    ¬ ∀ (repr : Json → String) (isTrue : Json → Bool)
        (special : List Json → Grants → (String → Prop) → Prop) (check : ApiCheck),
      FaithfulOrRefused repr isTrue special check := by
  intro hall
  rcases hall (fun _ => "") Json.truthy (fun _ _ _ => True) cloneTarget with
    ⟨msg, hrefused⟩ | ⟨found, hfound, hfaithful⟩
  · have hread := alternatives_of_leaves (fun _ => "") cloneTarget rfl
    rw [hread] at hrefused
    contradiction
  · have hread := alternatives_of_leaves (fun _ => "") cloneTarget rfl
    rw [hread, Except.ok.injEq] at hfound
    subst hfound
    have hsatisfied := (hfaithful (· = ("/pool/\x7bpool\x7d", "VM.Allocate")) fun _ => False).mp
      ⟨_, List.mem_cons_of_mem _ List.mem_cons_self, by simp [Satisfied, PermCheck.alternative,
        PermCheck.namesAny, PermOption.encode, isAnyWord]⟩
    rcases (holds_of_leaves _ _ _ _ cloneTarget rfl).mp hsatisfied with ⟨leaf, hleaf, hholds⟩
    simp only [List.mem_append, List.mem_singleton, List.not_mem_nil, or_false] at hleaf
    rcases hleaf with rfl | rfl
    · simp [PermCheck.Holds, PermCheck.anySet] at hholds
    · exact hholds.1 "pool" rfl

end AioProxmox
