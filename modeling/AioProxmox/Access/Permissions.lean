import AioProxmox.Collections.Table
import AioProxmox.Collections.Trimming
import AioProxmox.Privileges.Paths
import Mathlib.Data.Finset.Dedup
import Mathlib.Data.Finset.Empty

/-!
# Access - permissions and their inheritance

{lit}`PVEPermissions` compiles the response of {lit}`access/permissions` into the privileges
granted on each path and looks for one on a path, on the text before its last slash and on
the root.

Main results:

- Definitions {lit}`PVEPermissions.fromApiResponse` and {lit}`PVEPermissions.hasPermission`.
- Theorem {lit}`mem_privileges_iff`: the compiled map holds what the response grants.
- Theorem {lit}`hasPermission_iff_three`: the three places that are looked at.
- Theorem {lit}`inherits_iff`: for which responses that amounts to inheritance.
-/

namespace AioProxmox

open Collections

/-! ## The response -/

/-- {lit}`value == 1`: an integer, {lit}`True` or {lit}`1.0`. -/
def Json.isOne : Json → Bool
  | .int n => n = 1
  | .bool b => b
  | .float q => q = 1
  | _ => false

/-- The response: the privileges of each path with their values.  The keys of a dictionary
are distinct. -/
structure PermissionsResponse where
  items : List (String × Dict)
  distinct : (items.map Prod.fst).Nodup
  distinct_privs : ∀ item ∈ items, (item.2.map Prod.fst).Nodup

/-- Among the items a path is given a privilege with the value one. -/
def GrantsIn (items : List (String × Dict)) (path privilege : String) : Prop :=
  ∃ privs value, (path, privs) ∈ items ∧ (privilege, value) ∈ privs ∧ value.isOne = true

/-- The response grants a privilege on a path. -/
def PermissionsResponse.Grants (data : PermissionsResponse) (path privilege : String) : Prop :=
  GrantsIn data.items path privilege

/-! ## The lookup -/

/-- {lit}`PVEPermissions`. -/
structure PVEPermissions where
  permMap : List (String × Finset String) := []

/-- {lit}`\x7bpriv for priv, val in priv_dict.items() if val == 1\x7d`. -/
def allowedPrivs (privs : Dict) : Finset String :=
  ((privs.filter fun entry => entry.2.isOne).map Prod.fst).toFinset

/-- One turn of the loop of {lit}`from_api_response`. -/
def PVEPermissions.compile (compiled : List (String × Finset String)) (item : String × Dict) :
    List (String × Finset String) :=
  if allowedPrivs item.2 = ∅ then compiled else store compiled item.1 (allowedPrivs item.2)

/-- {lit}`PVEPermissions.from_api_response`. -/
def PVEPermissions.fromApiResponse (data : PermissionsResponse) : PVEPermissions :=
  { permMap := data.items.foldl PVEPermissions.compile [] }

/-- {lit}`path.rpartition("/")[0]`: what stands before the last slash, nothing if there is
none. -/
def Text.beforeLast (c : Char) (s : String) : String :=
  String.ofList (s.toList.rdropWhile (· ≠ c)).dropLast

/-- {lit}`PVEPermissions.has_permission`. -/
def PVEPermissions.hasPermission (perms : PVEPermissions) (path privilege : String) : Bool :=
  [path, Text.beforeLast '/' path, "/"].any fun p =>
    match perms.permMap.lookup p with
    | some privs => privilege ∈ privs
    | none => false

/-! ## The compiled map -/

/-- A map holds a privilege under a path. -/
def Holds (compiled : List (String × Finset String)) (path privilege : String) : Prop :=
  ∃ privs, compiled.lookup path = some privs ∧ privilege ∈ privs

section Compiled

variable {compiled : List (String × Finset String)} {path privilege : String}

/-- A privilege is allowed if it stands there with a one. -/
theorem mem_allowedPrivs {privs : Dict} :
    privilege ∈ allowedPrivs privs ↔ ∃ value, (privilege, value) ∈ privs ∧ value.isOne = true := by
  simp [allowedPrivs]

/-- One turn of the loop adds what the item grants. -/
theorem holds_compile {item : String × Dict} (hnew : item.1 ∉ compiled.map Prod.fst) :
    Holds (PVEPermissions.compile compiled item) path privilege ↔
      Holds compiled path privilege ∨ path = item.1 ∧ privilege ∈ allowedPrivs item.2 := by
  unfold PVEPermissions.compile Holds
  by_cases hempty : allowedPrivs item.2 = ∅
  · simp [hempty]
  · rw [if_neg hempty, lookup_store]
    by_cases hpath : path = item.1
    · subst hpath
      rw [lookup_of_not_mem hnew]
      simp
    · simp [hpath]

/-- The keys of the map are paths of the items. -/
theorem keys_compile {item : String × Dict} {key : String}
    (h : key ∈ (PVEPermissions.compile compiled item).map Prod.fst) :
    key = item.1 ∨ key ∈ compiled.map Prod.fst := by
  unfold PVEPermissions.compile at h
  split_ifs at h with hempty
  · exact .inr h
  · exact (mem_keys_store compiled item.1 key _).mp h

/-- The whole loop adds what the items grant. -/
theorem holds_compileAll {items : List (String × Dict)} (hdistinct : (items.map Prod.fst).Nodup)
    (hnew : ∀ item ∈ items, item.1 ∉ compiled.map Prod.fst) :
    Holds (items.foldl PVEPermissions.compile compiled) path privilege ↔
      Holds compiled path privilege ∨ GrantsIn items path privilege := by
  induction items generalizing compiled with
  | nil => simp [GrantsIn]
  | cons item rest ih =>
      rcases List.nodup_cons.mp hdistinct with ⟨hitem, hrest⟩
      have hnext : ∀ other ∈ rest,
          other.1 ∉ (PVEPermissions.compile compiled item).map Prod.fst := by
        intro other hother hkey
        rcases keys_compile hkey with heq | hold
        · apply hitem
          rw [← heq]
          exact List.mem_map_of_mem hother
        · exact hnew other (List.mem_cons_of_mem item hother) hold
      have hgrants : GrantsIn (item :: rest) path privilege ↔
          (path = item.1 ∧ privilege ∈ allowedPrivs item.2) ∨ GrantsIn rest path privilege := by
        rcases item with ⟨key, privs⟩
        simp only [GrantsIn, List.mem_cons, Prod.mk.injEq, mem_allowedPrivs, or_and_right,
          exists_or]
        simp [exists_and_left]
      rw [List.foldl_cons, ih hrest hnext, holds_compile (hnew item List.mem_cons_self), hgrants,
        or_assoc]

end Compiled

section Lookup

variable (data : PermissionsResponse) (path privilege : String)

/-- The compiled map holds what the response grants. -/
theorem mem_privileges_iff :
    Holds (PVEPermissions.fromApiResponse data).permMap path privilege ↔
      data.Grants path privilege := by
  rw [PVEPermissions.fromApiResponse, holds_compileAll data.distinct (by simp)]
  simp [Holds, PermissionsResponse.Grants]

/-- The three places that are looked at. -/
theorem hasPermission_iff_three :
    (PVEPermissions.fromApiResponse data).hasPermission path privilege = true ↔
      data.Grants path privilege ∨ data.Grants (Text.beforeLast '/' path) privilege ∨
        data.Grants "/" privilege := by
  have hplace : ∀ p, (match (PVEPermissions.fromApiResponse data).permMap.lookup p with
      | some privs => decide (privilege ∈ privs)
      | none => false) = true ↔ data.Grants p privilege := by
    intro p
    rw [← mem_privileges_iff, Holds]
    cases (PVEPermissions.fromApiResponse data).permMap.lookup p with
    | none => simp
    | some privs => simp
  unfold PVEPermissions.hasPermission
  simp only [List.any_cons, List.any_nil, Bool.or_false, Bool.or_eq_true, hplace]

end Lookup

/-! ## Absolute paths -/

/-- An absolute path: its segments, which have no slashes and are not empty. -/
structure AclPath where
  segments : List String
  named : ∀ segment ∈ segments, segment ≠ ""
  slashFree : ∀ segment ∈ segments, Text.SlashFree segment

/-- Segments as an absolute path; no segments are the root. -/
def absolute (segments : List String) : String :=
  "/" ++ Text.joined segments

/-- The text of a path. -/
def AclPath.text (path : AclPath) : String :=
  absolute path.segments

/-- The response grants the privilege on the path or on one of its ancestors, whose
segments are the first ones of the path. -/
def PermissionsResponse.GrantsAbove (data : PermissionsResponse) (path : AclPath)
    (privilege : String) : Prop :=
  ∃ segments, segments <+: path.segments ∧ data.Grants (absolute segments) privilege

/-- Inheritance covers every ancestor. -/
def Inherits (data : PermissionsResponse) (path : AclPath) (privilege : String) : Prop :=
  (PVEPermissions.fromApiResponse data).hasPermission path.text privilege = true ↔
    data.GrantsAbove path privilege

section Ancestors

variable {path : AclPath} {segments init : List String} {segment : String}

/-- The characters of a path that is not the root. -/
theorem toList_absolute (h : segments ≠ []) :
    (absolute segments).toList = segments.flatMap fun s => '/' :: s.toList := by
  induction segments with
  | nil => contradiction
  | cons segment rest ih =>
      by_cases hrest : rest = []
      · subst hrest
        simp [absolute, Text.joined]
      · have hmap : rest.map String.toList ≠ [] := by
          rwa [ne_eq, List.map_eq_nil_iff]
        rw [List.flatMap_cons, ← ih hrest]
        unfold absolute Text.joined
        rw [List.map_cons, List.intercalate_cons_of_ne_nil hmap]
        simp

/-- What stands before the last slash. -/
theorem beforeLast_slash {before after : List Char} (h : '/' ∉ after) :
    Text.beforeLast '/' (String.ofList (before ++ '/' :: after)) = String.ofList before := by
  unfold Text.beforeLast
  rw [String.toList_ofList, rdropWhile_append_cons before (by decide),
    List.rdropWhile_eq_nil_iff.mpr (forall_ne_of_notMem h), List.dropLast_concat]

/-- Before the last slash of a path of two or more segments stands its parent. -/
theorem beforeLast_absolute (hinit : init ≠ []) (hsegment : Text.SlashFree segment) :
    Text.beforeLast '/' (absolute (init ++ [segment])) = absolute init := by
  have hchars : absolute (init ++ [segment]) =
      String.ofList ((absolute init).toList ++ '/' :: segment.toList) := by
    apply String.toList_injective
    rw [String.toList_ofList, toList_absolute hinit, toList_absolute (by simp),
      List.flatMap_append, List.flatMap_singleton]
  rw [hchars, beforeLast_slash hsegment, String.ofList_toList]

/-- Before the only slash of a shorter one stands nothing. -/
theorem beforeLast_absolute_singleton (hsegment : Text.SlashFree segment) :
    Text.beforeLast '/' (absolute [segment]) = "" := by
  have hchars : absolute [segment] = String.ofList ([] ++ '/' :: segment.toList) := by
    apply String.toList_injective
    rw [String.toList_ofList, toList_absolute (by simp), List.flatMap_singleton]
    rfl
  rw [hchars, beforeLast_slash hsegment, String.ofList_nil]

/-- The second place that is looked at: the parent, or no path at all. -/
theorem AclPath.beforeLast_text (path : AclPath) :
    Text.beforeLast '/' path.text =
      if path.segments.length ≤ 1 then "" else absolute path.segments.dropLast := by
  rcases List.eq_nil_or_concat' path.segments with hnil | ⟨init, segment, hsegments⟩
  · rw [AclPath.text, hnil]
    decide
  · have hfree : Text.SlashFree segment := by
      apply path.slashFree
      rw [hsegments]
      exact List.mem_append_right init List.mem_cons_self
    rw [AclPath.text, hsegments, List.dropLast_concat]
    by_cases hinit : init = []
    · subst hinit
      exact beforeLast_absolute_singleton hfree
    · have hlength : ¬ (init ++ [segment]).length ≤ 1 := by
        have hpos := List.length_pos_iff.mpr hinit
        rw [List.length_append, List.length_singleton]
        omega
      rw [if_neg hlength]
      exact beforeLast_absolute hinit hfree

/-- A path from the root down is the path itself, its parent or the root, or an ancestor
farther up. -/
theorem prefix_cases {segments : List String} (h : segments <+: path.segments) :
    segments = path.segments ∨ segments = path.segments.dropLast ∨
      segments.length + 2 ≤ path.segments.length := by
  have hle := h.length_le
  have hself := h.eq_of_length
  rw [List.prefix_iff_eq_take] at h
  rw [List.dropLast_eq_take]
  by_cases hparent : segments.length + 1 = path.segments.length
  · right
    left
    rw [h, ← hparent, Nat.add_sub_cancel]
  · by_cases hlength : segments.length = path.segments.length
    · exact .inl (hself hlength)
    · right
      right
      omega

end Ancestors

/-! ## Inheritance -/

section Inheritance

variable (data : PermissionsResponse) (path : AclPath) (privilege : String)

/-- The response grants the privilege on the path, on its parent or on the root. -/
def PermissionsResponse.GrantsNear : Prop :=
  data.Grants path.text privilege ∨ data.Grants (absolute path.segments.dropLast) privilege ∨
    data.Grants "/" privilege

/-- An ancestor above the parent grants only what the path, its parent or the root grants as
well; and the empty text, which is no path, grants nothing else to a path of one segment or
to the root. -/
def GrantsNearby : Prop :=
  (∀ segments, segments <+: path.segments → segments.length + 2 ≤ path.segments.length →
    data.Grants (absolute segments) privilege → data.GrantsNear path privilege) ∧
  (path.segments.length ≤ 1 → data.Grants "" privilege → data.GrantsNear path privilege)

variable {data path privilege}

/-- What is granted near a path is granted on the path or above it. -/
theorem PermissionsResponse.GrantsNear.grantsAbove (h : data.GrantsNear path privilege) :
    data.GrantsAbove path privilege := by
  rcases h with hself | hparent | hroot
  · exact ⟨_, List.prefix_rfl, hself⟩
  · exact ⟨_, List.dropLast_prefix _, hparent⟩
  · exact ⟨[], List.nil_prefix, hroot⟩

/-- The lookup sees what is granted near the path; for a path of one segment or the root it
also looks at the empty text. -/
theorem hasPermission_iff_near :
    (PVEPermissions.fromApiResponse data).hasPermission path.text privilege = true ↔
      data.GrantsNear path privilege ∨
        path.segments.length ≤ 1 ∧ data.Grants "" privilege := by
  rw [hasPermission_iff_three, path.beforeLast_text, PermissionsResponse.GrantsNear]
  by_cases hlength : path.segments.length ≤ 1
  · have hparent : path.segments.dropLast = [] := by
      rw [← List.length_eq_zero_iff, List.length_dropLast]
      omega
    have hroot : absolute [] = "/" := rfl
    simp only [hlength, if_true, true_and, hparent, hroot]
    tauto
  · simp only [hlength, if_false, false_and, or_false]

end Inheritance

/-- Inheritance covers every ancestor exactly if what the ancestors above the parent grant
is granted nearby as well. -/
theorem inherits_iff (data : PermissionsResponse) (path : AclPath) (privilege : String) :
    Inherits data path privilege ↔ GrantsNearby data path privilege := by
  unfold Inherits GrantsNearby
  rw [hasPermission_iff_near]
  constructor
  · intro h
    constructor
    · intro segments hprefix hlength hgrants
      rcases h.mpr ⟨segments, hprefix, hgrants⟩ with hnear | ⟨hshort, -⟩
      · exact hnear
      · omega
    · intro hshort hempty
      rcases h.mp (.inr ⟨hshort, hempty⟩) with ⟨segments, hprefix, hgrants⟩
      rcases prefix_cases hprefix with rfl | rfl | hlength
      · exact .inl hgrants
      · exact .inr (.inl hgrants)
      · omega
  · rintro ⟨habove, hempty⟩
    constructor
    · rintro (hnear | ⟨hshort, hgrants⟩)
      · exact hnear.grantsAbove
      · exact (hempty hshort hgrants).grantsAbove
    · rintro ⟨segments, hprefix, hgrants⟩
      rcases prefix_cases hprefix with rfl | rfl | hlength
      · exact .inl (.inl hgrants)
      · exact .inl (.inr (.inl hgrants))
      · exact .inl (habove segments hprefix hlength hgrants)

/-- A privilege granted on a subtree. -/
def subtreeGrant : PermissionsResponse where
  items := [("/mapping", [("Mapping.Use", .int 1)])]
  distinct := by decide
  distinct_privs := by simp

/-- A path two levels below. -/
def mappedDevice : AclPath where
  segments := ["mapping", "pci", "gpu"]
  named := by decide
  slashFree := by decide

/-- The grant on the subtree is not found two levels below it. -/
theorem inherits_counterexample : ¬ Inherits subtreeGrant mappedDevice "Mapping.Use" := by
  intro h
  have hgranted : subtreeGrant.GrantsAbove mappedDevice "Mapping.Use" :=
    ⟨["mapping"], by decide, _, _, List.mem_cons_self, List.mem_cons_self, rfl⟩
  have hfound := h.mpr hgranted
  revert hfound
  decide

end AioProxmox
