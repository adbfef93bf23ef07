import AioProxmox.Cluster.Resources
import AioProxmox.Collections.Folds
import Mathlib.Data.Int.Log
import Mathlib.Data.Rat.Floor

/-!
# Cluster - the state of high availability

{lit}`HAStatus` is read from a listing whose entries may be of any shape.  Every field goes
through a conversion or through a test for membership; membership in a set asks for a hash,
which a list and an object do not have.

Main results:

- Definition {lit}`HAStatus.fromApi`: the reading, with the exception it may raise.
- Theorem {lit}`fromApi_isOk_iff`: for which listings it returns.
- Theorem {lit}`accounts_iff`: those are the listings it accounts for.
-/

namespace AioProxmox

open Collections

/-! ## Timestamps -/

/-- Rounding to the nearest integer, halves to the even one. -/
def roundHalfEven (q : ℚ) : Int :=
  let fraction := q - ⌊q⌋
  if fraction < 1 / 2 then ⌊q⌋
  else if 1 / 2 < fraction then ⌊q⌋ + 1
  else if ⌊q⌋ % 2 = 0 then ⌊q⌋
  else ⌊q⌋ + 1

/-- The first and the last microsecond of the years that a {lit}`datetime` can have, counted
from the epoch. -/
def firstMicrosecond : Int := -62135596800000000

def lastMicrosecond : Int := 253402300799999999

/-- The double nearest to a number of no extreme size: 53 binary digits, halves to the even
one. -/
def nearestDouble (q : ℚ) : ℚ :=
  let unit : ℚ := 2 ^ (Int.log 2 |q| - 52)
  roundHalfEven (q / unit) * unit

/-- The microseconds of a double: what stands after the point is multiplied as a double. -/
def microsecondsOf (value : ℚ) : Int :=
  let seconds := value.num.tdiv value.den
  seconds * 1000000 + roundHalfEven (nearestDouble ((value - seconds) * 1000000))

/-- {lit}`datetime.fromtimestamp` in UTC, of microseconds; none where it raises. -/
def fromTimestamp (microseconds : Int) : Option Int :=
  if firstMicrosecond ≤ microseconds ∧ microseconds ≤ lastMicrosecond then some microseconds
  else none

/-- {lit}`_utc`. -/
def utc : Json → Option Int
  | .int n => fromTimestamp (n * 1000000)
  | .float q => fromTimestamp (microsecondsOf q)
  | _ => none

@[simp]
theorem nearestDouble_zero : nearestDouble 0 = 0 := by
  simp [nearestDouble, roundHalfEven]

/-- Whole seconds are read alike, with a point or without. -/
theorem utc_float_intCast (n : Int) : utc (.float n) = utc (.int n) := by
  have hwhole : microsecondsOf n = n * 1000000 := by
    simp [microsecondsOf, roundHalfEven]
  rw [utc, utc, hwhole]

/-- Half a second more. -/
example : utc (.float (1700000000 + 1 / 2)) = some 1700000000500000 := by
  decide +kernel

/-! ## Fields -/

/-- {lit}`HA_ARMED_STATES`. -/
def haArmedStates : List String := ["armed", "standby", "disarming", "disarmed"]

/-- {lit}`HA_RESOURCE_MODES`. -/
def haResourceModes : List String := ["freeze", "ignore"]

/-- {lit}`HA_SERVICE_ERROR_STATES`. -/
def haServiceErrorStates : List String := ["error", "fence", "recovery"]

/-- {lit}`value in words`, for a {lit}`frozenset` of words. -/
def Json.isAmong (value : Json) (words : List String) : Except Exc Bool :=
  match value with
  | .str s => .ok (s ∈ words)
  | .arr _ | .obj _ =>
      .error (.typeError ("cannot use '" ++ value.typeName ++
        "' as a set element (unhashable type: '" ++ value.typeName ++ "')"))
  | _ => .ok false

/-- {lit}`value in (True, 1, "1")`. -/
def Json.isTrueOrOne : Json → Bool
  | .bool b => b
  | .int n => n = 1
  | .float q => q = 1
  | .str s => s = "1"
  | _ => false

section Reading

variable (text : Json → String)

/-- {lit}`_allowed`, where {lit}`text` is {lit}`str`. -/
def allowed (fields : Dict) (key : String) (words : List String) : Except Exc (Option String) := do
  let among ← (Dict.get fields key).isAmong words
  return if among then some (text (Dict.get fields key)) else none

/-- {lit}`HAServiceProblem`. -/
structure HAServiceProblem where
  sid : String
  node : String
  crmState : String
deriving DecidableEq

/-- {lit}`HAStatus`. -/
structure HAStatus where
  quorate : Option Bool := none
  crmMaster : Option String := none
  crmMasterLastSeen : Option Int := none
  armedState : Option String := none
  resourceMode : Option String := none
  resourcesTotal : Nat := 0
  resourcesError : List HAServiceProblem := []

/-! ## The loop -/

/-- The problem that the fields of a service are reported as. -/
def HAServiceProblem.ofFields (fields : Dict) : HAServiceProblem where
  sid := text (Dict.getD fields "sid" (.str ""))
  node := text (Dict.getD fields "node" (.str ""))
  crmState := text (Dict.get fields "crm_state")

/-- The branches of the loop, by the {lit}`type` of an entry. -/
def HAStatus.readFields (status : HAStatus) (fields : Dict) : Except Exc HAStatus :=
  match Dict.get fields "type" with
  | .str "quorum" =>
      let value := Dict.get fields "quorate"
      .ok (if value.isSome then { status with quorate := some value.isTrueOrOne } else status)
  | .str "master" =>
      let node := Dict.get fields "node"
      let status := if node.isSome then { status with crmMaster := some (text node) } else status
      .ok { status with crmMasterLastSeen := utc (Dict.get fields "timestamp") }
  | .str "fencing" => do
      let armedState ← allowed text fields "armed-state" haArmedStates
      let resourceMode ← allowed text fields "resource_mode" haResourceModes
      return { status with armedState := armedState, resourceMode := resourceMode }
  | .str "service" => do
      let status := { status with resourcesTotal := status.resourcesTotal + 1 }
      let among ← (Dict.get fields "crm_state").isAmong haServiceErrorStates
      return if among then
        { status with resourcesError := status.resourcesError ++ [.ofFields text fields] }
      else status
  | _ => .ok status

/-- One turn of the loop: anything that is not a dictionary is skipped. -/
def HAStatus.read (status : HAStatus) : Json → Except Exc HAStatus
  | .obj fields => status.readFields text fields
  | _ => .ok status

/-- {lit}`HAStatus.from_api`. -/
def HAStatus.fromApi (entries : List Json) : Except Exc HAStatus :=
  entries.foldlM (HAStatus.read text) {}

end Reading

/-! ## What a listing says -/

/-- The fields of an entry of a type. -/
def fieldsOfType (kind : String) : Json → Option Dict
  | .obj fields =>
      match Dict.get fields "type" with
      | .str t => if t = kind then some fields else none
      | _ => none
  | _ => none

/-- The services of a listing. -/
def serviceEntries (entries : List Json) : List Dict :=
  entries.filterMap (fieldsOfType "service")

/-- The raw CRM state of a service is one of those that mean an incident. -/
def inErrorState (fields : Dict) : Bool :=
  match Dict.get fields "crm_state" with
  | .str s => s ∈ haServiceErrorStates
  | _ => false

/-- The value has a hash. -/
def Json.isHashable : Json → Bool
  | .arr _ | .obj _ => false
  | _ => true

/-- Everything in the entry that is looked for in a set has a hash. -/
def HashedFields (entry : Json) : Prop :=
  (∀ fields, fieldsOfType "fencing" entry = some fields →
    (Dict.get fields "armed-state").isHashable = true ∧
      (Dict.get fields "resource_mode").isHashable = true) ∧
  ∀ fields, fieldsOfType "service" entry = some fields →
    (Dict.get fields "crm_state").isHashable = true

/-- {lit}`isinstance(entry, dict)`. -/
def Json.isObject : Json → Bool
  | .obj _ => true
  | _ => false

/-- Two entries that differ in the display fields at most. -/
inductive DisplayAlike : Json → Json → Prop where
  | refl (entry : Json) : DisplayAlike entry entry
  | altered (fields fields' : Dict) :
      (∀ key ∉ ["status", "state"], fields'.lookup key = fields.lookup key) →
        DisplayAlike (.obj fields) (.obj fields')

/-- A status accounts for a listing: every service is counted, those in a state of error are
listed in order, and the two words are known ones. -/
structure HAStatus.Counts (text : Json → String) (entries : List Json) (status : HAStatus) :
    Prop where
  total : status.resourcesTotal = (serviceEntries entries).length
  errors : status.resourcesError =
    ((serviceEntries entries).filter inErrorState).map (HAServiceProblem.ofFields text)
  armed : ∀ word, status.armedState = some word → word ∈ haArmedStates
  mode : ∀ word, status.resourceMode = some word → word ∈ haResourceModes

/-- The reading of a listing accounts for it; it depends neither on entries that are no
objects nor on the display fields. -/
structure Accounts (text : Json → String) (entries : List Json) : Prop where
  counts : ∃ status, HAStatus.fromApi text entries = .ok status ∧ status.Counts text entries
  objects : HAStatus.fromApi text (entries.filter Json.isObject) =
    HAStatus.fromApi text entries
  display : ∀ other, List.Forall₂ DisplayAlike entries other →
    HAStatus.fromApi text other = HAStatus.fromApi text entries

/-! ## Membership -/

section Membership

variable {value : Json} {words : List String} {among : Bool}

/-- Only what has a hash can be looked for. -/
theorem isAmong_isOk_iff (words : List String) : (∃ among, value.isAmong words = .ok among) ↔
    value.isHashable = true := by
  cases value <;> simp [Json.isAmong, Json.isHashable]

/-- And only a word is found. -/
theorem isAmong_eq_true (h : value.isAmong words = .ok true) : ∃ s ∈ words, value = .str s := by
  cases value with
  | str s =>
      simp only [Json.isAmong, Except.ok.injEq, decide_eq_true_eq] at h
      exact ⟨s, h, rfl⟩
  | _ => simp [Json.isAmong] at h

/-- Membership in the states of error is what a service is counted by. -/
theorem isAmong_errorStates {fields : Dict}
    (h : (Dict.get fields "crm_state").isAmong haServiceErrorStates = .ok among) :
    among = inErrorState fields := by
  unfold inErrorState
  cases hvalue : Dict.get fields "crm_state" <;> rw [hvalue] at h <;>
    simp [Json.isAmong] at h <;> simp [← h]

end Membership

/-! ## One turn of the loop -/

section Turn

variable {text : Json → String} {status status' : HAStatus} {entry : Json} {fields : Dict}
  {done entries : List Json} {key : String} {words : List String} {found : Option String}

/-- A field that is allowed holds one of the words. -/
theorem allowed_mem (htext : ∀ s, text (.str s) = s)
    (h : allowed text fields key words = .ok found) : ∀ word, found = some word → word ∈ words := by
  unfold allowed at h
  cases hamong : (Dict.get fields key).isAmong words with
  | error e =>
      rw [hamong] at h
      contradiction
  | ok among =>
      rw [hamong] at h
      cases h
      intro word hword
      cases among with
      | false => contradiction
      | true =>
          rcases isAmong_eq_true hamong with ⟨s, hs, hvalue⟩
          rw [if_pos rfl, hvalue, htext] at hword
          cases hword
          exact hs

/-- A test for membership ends unless it is asked of a list or an object. -/
theorem allowed_isOk_iff (text : Json → String) (fields : Dict) (key : String)
    (words : List String) : (∃ found, allowed text fields key words = .ok found) ↔
      (Dict.get fields key).isHashable = true := by
  rw [← isAmong_isOk_iff words]
  unfold allowed
  cases (Dict.get fields key).isAmong words <;> simp [bind, Except.bind, pure, Except.pure]

/-- A further entry is looked at last. -/
theorem serviceEntries_concat (done : List Json) (entry : Json) :
    serviceEntries (done ++ [entry]) =
      serviceEntries done ++ (fieldsOfType "service" entry).toList := by
  unfold serviceEntries
  rw [List.filterMap_append]
  cases hfields : fieldsOfType "service" entry <;> simp [hfields]

/-- An object of a type has fields of no other. -/
theorem fieldsOfType_eq_none {kind : String} (h : Dict.get fields "type" = .str kind → False) :
    fieldsOfType kind (.obj fields) = none := by
  simp only [fieldsOfType]
  split
  · rename_i t htype
    apply if_neg
    rintro rfl
    exact h htype
  · rfl

/-- An entry that is no service leaves the counts as they are. -/
theorem HAStatus.Counts.skip (h : status.Counts text done)
    (hnone : fieldsOfType "service" entry = none)
    (htotal : status'.resourcesTotal = status.resourcesTotal)
    (herrors : status'.resourcesError = status.resourcesError)
    (harmed : ∀ word, status'.armedState = some word → word ∈ haArmedStates)
    (hmode : ∀ word, status'.resourceMode = some word → word ∈ haResourceModes) :
    status'.Counts text (done ++ [entry]) := by
  have hservices : serviceEntries (done ++ [entry]) = serviceEntries done := by
    rw [serviceEntries_concat, hnone, Option.toList_none, List.append_nil]
  refine ⟨?_, ?_, harmed, hmode⟩
  · rw [htotal, h.total, hservices]
  · rw [herrors, h.errors, hservices]

/-- A service is counted, and listed where it is in a state of error. -/
theorem HAStatus.Counts.service (h : status.Counts text done)
    (hfields : fieldsOfType "service" entry = some fields)
    (htotal : status'.resourcesTotal = status.resourcesTotal + 1)
    (herrors : status'.resourcesError = status.resourcesError ++
      ([fields].filter inErrorState).map (HAServiceProblem.ofFields text))
    (harmed : status'.armedState = status.armedState)
    (hmode : status'.resourceMode = status.resourceMode) :
    status'.Counts text (done ++ [entry]) := by
  have hservices : serviceEntries (done ++ [entry]) = serviceEntries done ++ [fields] := by
    rw [serviceEntries_concat, hfields, Option.toList_some]
  refine ⟨?_, ?_, ?_, ?_⟩
  · rw [htotal, h.total, hservices, List.length_append, List.length_singleton]
  · rw [herrors, h.errors, hservices, List.filter_append, List.map_append]
  · rw [harmed]
    exact h.armed
  · rw [hmode]
    exact h.mode

/-- One turn of the loop keeps account. -/
theorem HAStatus.Counts.read (htext : ∀ s, text (.str s) = s) (h : status.Counts text done)
    (hread : status.read text entry = .ok status') : status'.Counts text (done ++ [entry]) := by
  cases entry with
  | obj fields =>
      simp only [HAStatus.read, HAStatus.readFields] at hread
      split at hread
      · -- The quorum.
        rename_i htype
        cases hread
        have hnone : fieldsOfType "service" (.obj fields) = none := by
          simp [fieldsOfType, htype]
        split <;> exact h.skip hnone rfl rfl h.armed h.mode
      · -- The master.
        rename_i htype
        cases hread
        have hnone : fieldsOfType "service" (.obj fields) = none := by
          simp [fieldsOfType, htype]
        split <;> exact h.skip hnone rfl rfl h.armed h.mode
      · -- Fencing.
        rename_i htype
        rcases harmed : allowed text fields "armed-state" haArmedStates with e | armedState
        · rw [harmed] at hread
          contradiction
        rcases hmode : allowed text fields "resource_mode" haResourceModes with e | resourceMode
        · rw [harmed, hmode] at hread
          contradiction
        rw [harmed, hmode] at hread
        cases hread
        exact h.skip (by simp [fieldsOfType, htype]) rfl rfl (allowed_mem htext harmed)
          (allowed_mem htext hmode)
      · -- A service.
        rename_i htype
        rcases hamong : (Dict.get fields "crm_state").isAmong haServiceErrorStates with e | among
        · rw [hamong] at hread
          contradiction
        rw [hamong] at hread
        cases hread
        have hstate := isAmong_errorStates hamong
        have hfields : fieldsOfType "service" (.obj fields) = some fields := by
          simp [fieldsOfType, htype]
        refine h.service hfields ?_ ?_ ?_ ?_
        · split <;> rfl
        · rw [List.filter_singleton, ← hstate]
          cases among <;> simp
        · split <;> rfl
        · split <;> rfl
      · -- Any other type.
        rename_i hservice
        cases hread
        exact h.skip (fieldsOfType_eq_none hservice) rfl rfl h.armed h.mode
  | _ =>
      -- No object.
      cases hread
      exact h.skip rfl rfl rfl h.armed h.mode

/-- One turn raises exactly if something without a hash is looked for. -/
theorem read_isOk_iff (text : Json → String) (status : HAStatus) (entry : Json) :
    (∃ status', status.read text entry = .ok status') ↔ HashedFields entry := by
  cases entry with
  | obj fields =>
      simp only [HAStatus.read, HAStatus.readFields]
      split
      · rename_i htype
        simp [HashedFields, fieldsOfType, htype]
      · rename_i htype
        simp [HashedFields, fieldsOfType, htype]
      · rename_i htype
        have hfields : HashedFields (.obj fields) ↔
            (Dict.get fields "armed-state").isHashable = true ∧
              (Dict.get fields "resource_mode").isHashable = true := by
          simp [HashedFields, fieldsOfType, htype]
        rw [hfields, ← allowed_isOk_iff text fields _ haArmedStates,
          ← allowed_isOk_iff text fields _ haResourceModes]
        cases allowed text fields "armed-state" haArmedStates <;>
          cases allowed text fields "resource_mode" haResourceModes <;>
          simp [bind, Except.bind, pure, Except.pure]
      · rename_i htype
        have hfields : HashedFields (.obj fields) ↔
            (Dict.get fields "crm_state").isHashable = true := by
          simp [HashedFields, fieldsOfType, htype]
        rw [hfields, ← isAmong_isOk_iff haServiceErrorStates]
        cases (Dict.get fields "crm_state").isAmong haServiceErrorStates <;>
          simp [bind, Except.bind, pure, Except.pure]
      · rename_i hfencing hservice
        refine iff_of_true ⟨status, rfl⟩ ?_
        simp [HashedFields, fieldsOfType_eq_none hfencing, fieldsOfType_eq_none hservice]
  | _ => simp [HAStatus.read, HashedFields, fieldsOfType]

/-- The display fields are not read. -/
theorem read_displayAlike {entry' : Json} (text : Json → String) (status : HAStatus)
    (h : DisplayAlike entry entry') : status.read text entry' = status.read text entry := by
  cases h with
  | refl => rfl
  | altered fields fields' hsame =>
      have hget : ∀ key ∉ ["status", "state"], Dict.get fields' key = Dict.get fields key := by
        intro key hkey
        rw [Dict.get, Dict.getD, hsame key hkey]
        rfl
      have hproblem : HAServiceProblem.ofFields text fields' = .ofFields text fields := by
        simp [HAServiceProblem.ofFields, Dict.get, Dict.getD, hsame]
      simp only [HAStatus.read, HAStatus.readFields, allowed, hproblem]
      rw [hget "type" (by decide), hget "quorate" (by decide), hget "node" (by decide),
        hget "timestamp" (by decide), hget "armed-state" (by decide),
        hget "resource_mode" (by decide), hget "crm_state" (by decide)]

/-- What is no object is skipped. -/
theorem read_skip (text : Json → String) (status : HAStatus) (h : entry.isObject = false) :
    status.read text entry = .ok status := by
  cases entry with
  | obj fields => contradiction
  | _ => rfl

end Turn

/-! ## The whole listing -/

section Listing

variable {text : Json → String}

/-- The reading returns exactly if everything it looks for in a set has a hash. -/
theorem fromApi_isOk_iff (text : Json → String) (entries : List Json) :
    (∃ status, HAStatus.fromApi text entries = .ok status) ↔
      ∀ entry ∈ entries, HashedFields entry :=
  foldlM_isOk_iff (read_isOk_iff text) {} entries

/-- What it returns accounts for the listing. -/
theorem fromApi_counts (htext : ∀ s, text (.str s) = s) {entries : List Json} {status : HAStatus}
    (h : HAStatus.fromApi text entries = .ok status) : status.Counts text entries := by
  have hnone : HAStatus.Counts text [] {} := ⟨rfl, rfl, by simp, by simp⟩
  exact foldlM_invariant (fun done s => s.Counts text done)
    (fun _ _ _ _ hcounts hread => hcounts.read htext hread) hnone h

/-- The listing is accounted for exactly if no fencing entry has a list or an object for its
armed state or its resource mode, and no service has one for its CRM state. -/
theorem accounts_iff (htext : ∀ s, text (.str s) = s) (entries : List Json) :
    Accounts text entries ↔ ∀ entry ∈ entries, HashedFields entry := by
  rw [← fromApi_isOk_iff text]
  constructor
  · intro h
    rcases h.counts with ⟨status, hstatus, -⟩
    exact ⟨status, hstatus⟩
  · rintro ⟨status, hstatus⟩
    refine ⟨⟨status, hstatus, fromApi_counts htext hstatus⟩, ?_, ?_⟩
    · exact foldlM_filter_of_skip (fun s entry => read_skip text s) {} entries
    · intro other halike
      have hsame : ∀ s a b, DisplayAlike a b →
          HAStatus.read text s a = HAStatus.read text s b :=
        fun s a b hab => (read_displayAlike text s hab).symm
      exact (foldlM_forall₂ hsame halike {}).symm

end Listing

/-- A service that is being recovered. -/
def recoveringService : Json :=
  .obj [("type", .str "service"), ("sid", .str "vm:101"), ("node", .str "pve2"),
    ("crm_state", .str "recovery"), ("state", .str "ignore")]

/-- Its listing is accounted for. -/
theorem accounts_iff_witness : Accounts textOf [recoveringService] :=
  (accounts_iff (fun _ => rfl) [recoveringService]).mpr
    (by simp [HashedFields, recoveringService, fieldsOfType, Dict.get, Dict.getD,
      List.lookup_cons, Json.isHashable])

/-- A list where a word should be: the reading raises, and the service that is being
recovered is not reported. -/
theorem accounts_counterexample : ¬ Accounts textOf
    [recoveringService, .obj [("type", .str "service"), ("crm_state", .arr [])]] := by
  intro h
  rcases h.counts with ⟨status, hstatus, -⟩
  contradiction

end AioProxmox
