import AioProxmox.Cluster.Resources
import AioProxmox.Collections.Sorting
import Mathlib.Data.Finset.Dedup
import Mathlib.Data.String.Basic

/-!
# Cluster - shared storage

The cluster lists a storage once for each node that has it configured.  The rows of a
shared one are collapsed into the row of a node that sees it and the names of all that do.
The fields of a row have the types that its class declares, and {lit}`sorted` is stable.

Main results:

- Definition {lit}`sharedStorage`: the collapsed storage.
- Theorem {lit}`sharedStorage_eq_some`: what it is made of.
- Theorem {lit}`sharedStorage_collapses`: it is sound and does not depend on the order of
  the listing.
-/

namespace AioProxmox

open Collections

/-! ## The listing -/

/-- {lit}`ClusterStorageResource` with the types it declares. -/
structure StorageRow where
  id : String
  storage : String
  node : String
  status : OperationalStatus
  shared : Int
  disk : Int
  maxdisk : Int
deriving DecidableEq

/-- An item of the collection: the row of a storage, or a resource of another class. -/
inductive ListedResource (ι : Type) where
  | storage (row : StorageRow)
  | other (res : ι)

/-- {lit}`isinstance(r, ClusterStorageResource)`. -/
def ListedResource.row? {ι : Type} : ListedResource ι → Option StorageRow
  | .storage row => some row
  | .other _ => none

/-- {lit}`SharedStorage`. -/
structure SharedStorage where
  name : String
  row : StorageRow
  nodes : List String
deriving DecidableEq

section Listing

variable {ι : Type}

/-- {lit}`storage_rows`. -/
def storageRows (resources : List (ListedResource ι)) : List StorageRow :=
  resources.filterMap ListedResource.row?

/-- {lit}`shared_storage_names`. -/
def sharedStorageNames (resources : List (ListedResource ι)) : Finset String :=
  (((storageRows resources).filter fun row => row.shared ≠ 0).map (·.storage)).toFinset

/-- The {lit}`candidates` of {lit}`shared_storage`, in the order of the listing. -/
def sharedRows (resources : List (ListedResource ι)) (name : String) : List StorageRow :=
  (storageRows resources).filter fun row => row.storage = name ∧ row.shared ≠ 0

/-- {lit}`shared_storage`. -/
def sharedStorage (resources : List (ListedResource ι)) (name : String) : Option SharedStorage :=
  match sortBy (·.node) (sharedRows resources name) with
  | [] => none
  | first :: rest =>
      let available := (first :: rest).filter fun row => row.status = .available
      some { name, row := available.headD first, nodes := available.map (·.node) }

/-! ## What it is made of -/

variable {resources other : List (ListedResource ι)} {name : String} {found : SharedStorage}

/-- A row that the cluster lists under a name and marks as shared. -/
structure SharedRow (resources : List (ListedResource ι)) (name : String) (row : StorageRow) :
    Prop where
  listed : .storage row ∈ resources
  named : row.storage = name
  shared : row.shared ≠ 0

/-- The rows of the storages are those that are listed. -/
theorem mem_storageRows {row : StorageRow} :
    row ∈ storageRows resources ↔ .storage row ∈ resources := by
  rw [storageRows, List.mem_filterMap]
  constructor
  · rintro ⟨res, hres, hrow⟩
    cases res with
    | storage row' =>
        cases hrow
        exact hres
    | other res => contradiction
  · intro hres
    exact ⟨.storage row, hres, rfl⟩

/-- The rows of a name that the cluster marks as shared. -/
theorem mem_sharedRows {row : StorageRow} :
    row ∈ sharedRows resources name ↔ SharedRow resources name row := by
  rw [sharedRows, List.mem_filter, decide_eq_true_eq, mem_storageRows]
  constructor
  · rintro ⟨hlisted, hnamed, hshared⟩
    exact ⟨hlisted, hnamed, hshared⟩
  · rintro ⟨hlisted, hnamed, hshared⟩
    exact ⟨hlisted, hnamed, hshared⟩

/-- A name is that of a shared storage exactly if there are such rows. -/
theorem mem_sharedStorageNames :
    name ∈ sharedStorageNames resources ↔ ∃ row, SharedRow resources name row := by
  rw [sharedStorageNames, List.mem_toFinset, List.mem_map]
  constructor
  · rintro ⟨row, hrow, hname⟩
    rw [List.mem_filter, decide_eq_true_eq, mem_storageRows] at hrow
    exact ⟨row, hrow.1, hname, hrow.2⟩
  · rintro ⟨row, hlisted, hnamed, hshared⟩
    refine ⟨row, ?_, hnamed⟩
    rw [List.mem_filter, decide_eq_true_eq, mem_storageRows]
    exact ⟨hlisted, hshared⟩

/-- There are rows to collapse exactly for the names of shared storages. -/
theorem sharedRows_eq_nil_iff :
    sharedRows resources name = [] ↔ name ∉ sharedStorageNames resources := by
  rw [List.eq_nil_iff_forall_not_mem, mem_sharedStorageNames, not_exists]
  exact forall_congr' fun row => not_congr mem_sharedRows

/-- A name without shared rows has no shared storage. -/
theorem sharedStorage_eq_none_iff :
    sharedStorage resources name = none ↔ sharedRows resources name = [] := by
  rw [← sortBy_eq_nil_iff fun row : StorageRow => row.node, sharedStorage]
  split <;> simp [*]

/-- The rows of the nodes that see the storage, sorted by node. -/
def availableRows (resources : List (ListedResource ι)) (name : String) : List StorageRow :=
  (sortBy (·.node) (sharedRows resources name)).filter fun row => row.status = .available

/-- The nodes are those of the available rows, and the row is the first of these or, where
no node sees the storage, a shared row all the same. -/
theorem sharedStorage_eq_some (h : sharedStorage resources name = some found) :
    found.name = name ∧ found.nodes = (availableRows resources name).map (·.node) ∧
      found.row ∈ sharedRows resources name ∧
      ((∃ rest, availableRows resources name = found.row :: rest) ∨
        availableRows resources name = [] ∧ found.row.status ≠ .available) := by
  rw [sharedStorage] at h
  split at h
  · contradiction
  · rename_i first rest hsorted
    cases h
    have hfirst : first ∈ sharedRows resources name := by
      rw [← mem_sortBy fun row : StorageRow => row.node, hsorted]
      exact List.mem_cons_self
    have havailable : (first :: rest).filter (fun row => row.status = .available) =
        availableRows resources name := by
      rw [availableRows, hsorted]
    refine ⟨rfl, by rw [havailable], ?_⟩
    simp only [havailable]
    cases hrows : availableRows resources name with
    | nil =>
        refine ⟨hfirst, .inr ⟨rfl, ?_⟩⟩
        intro hstatus
        rw [hrows, List.filter_eq_nil_iff] at havailable
        exact havailable first List.mem_cons_self (decide_eq_true hstatus)
    | cons row more =>
        have hrow : row ∈ availableRows resources name := by
          rw [hrows]
          exact List.mem_cons_self
        rw [availableRows, List.mem_filter, mem_sortBy] at hrow
        exact ⟨hrow.1, .inl ⟨more, rfl⟩⟩

/-- The available rows are those among the shared ones, by node. -/
theorem availableRows_perm (resources : List (ListedResource ι)) (name : String) :
    (availableRows resources name).Perm
      ((sharedRows resources name).filter fun row => row.status = .available) :=
  (sortBy_perm _ _).filter _

/-! ## Soundness, and the order of the listing -/

/-- What a collapsed storage says of the rows that are listed. -/
structure SharedStorage.Sound (resources : List (ListedResource ι)) (name : String)
    (found : SharedStorage) : Prop where
  named : found.name = name
  /-- The nodes are exactly those whose row is available. -/
  nodes : ∀ node, node ∈ found.nodes ↔
    ∃ row, SharedRow resources name row ∧ row.status = .available ∧ row.node = node
  /-- Each as often as it has such rows. -/
  counted : found.nodes.Perm
    (((sharedRows resources name).filter fun row => row.status = .available).map (·.node))
  ascending : found.nodes.Pairwise (· ≤ ·)
  row : SharedRow resources name found.row
  /-- The row is an available one as soon as some node sees the storage. -/
  available : found.row.status = .available ↔ found.nodes ≠ []
  /-- And is then that of the first node. -/
  first : ∀ node, found.nodes.head? = some node → found.row.node = node

/-- The nodes of the available rows. -/
theorem mem_map_availableRows {node : String} :
    node ∈ (availableRows resources name).map (·.node) ↔
      ∃ row, SharedRow resources name row ∧ row.status = .available ∧ row.node = node := by
  simp only [List.mem_map, (availableRows_perm resources name).mem_iff, List.mem_filter,
    decide_eq_true_eq, mem_sharedRows, and_assoc]

/-- What is collapsed says it truly. -/
theorem sharedStorage_sound (h : sharedStorage resources name = some found) :
    found.Sound resources name := by
  rcases sharedStorage_eq_some h with ⟨hnamed, hnodes, hrow, hcase⟩
  have hshared : SharedRow resources name found.row := mem_sharedRows.mp hrow
  have hascending : found.nodes.Pairwise (· ≤ ·) := by
    rw [hnodes, List.pairwise_map]
    exact (pairwise_sortBy _ _).filter _
  have hmembers : ∀ node, node ∈ found.nodes ↔
      ∃ row, SharedRow resources name row ∧ row.status = .available ∧ row.node = node := by
    intro node
    rw [hnodes, mem_map_availableRows]
  have hperm : found.nodes.Perm (((sharedRows resources name).filter fun row =>
      row.status = .available).map (·.node)) := by
    rw [hnodes]
    exact (availableRows_perm resources name).map _
  rcases hcase with ⟨rest, hrows⟩ | ⟨hrows, hstatus⟩
  · have havailable : found.row.status = .available := by
      have hmem : found.row ∈ availableRows resources name := by
        rw [hrows]
        exact List.mem_cons_self
      exact of_decide_eq_true (List.mem_filter.mp hmem).2
    rw [hrows, List.map_cons] at hnodes
    refine ⟨hnamed, hmembers, hperm, hascending, hshared, ?_, ?_⟩
    · simp [havailable, hnodes]
    · intro node hnode
      rw [hnodes, List.head?_cons] at hnode
      exact Option.some.inj hnode
  · rw [hrows, List.map_nil] at hnodes
    refine ⟨hnamed, hmembers, hperm, hascending, hshared, ?_, ?_⟩
    · simp [hstatus, hnodes]
    · intro node hnode
      rw [hnodes] at hnode
      contradiction

/-- No two shared rows of a name have the same node. -/
def OneRowPerNode (resources : List (ListedResource ι)) (name : String) : Prop :=
  ∀ a b, SharedRow resources name a → SharedRow resources name b → a.node = b.node → a = b

/-- The rows of a name come in the order of the listing. -/
theorem sharedRows_perm (h : resources.Perm other) (name : String) :
    (sharedRows resources name).Perm (sharedRows other name) :=
  (h.filterMap _).filter _

/-- Where no two shared rows have the same node the order of the listing does not matter. -/
theorem sharedStorage_perm (h : resources.Perm other) (hnodes : OneRowPerNode resources name) :
    sharedStorage other name = sharedStorage resources name := by
  have hsorted := sortBy_eq_of_perm (fun row : StorageRow => row.node)
    (sharedRows_perm h name) fun a ha b hb hab =>
      hnodes a b (mem_sharedRows.mp ha) (mem_sharedRows.mp hb) hab
  rw [sharedStorage, sharedStorage, hsorted]

/-- Collapsing shared storage is sound and does not depend on the order. -/
structure Collapses (resources : List (ListedResource ι)) (name : String)
    (result : Option SharedStorage) : Prop where
  names : name ∈ sharedStorageNames resources ↔ ∃ row, SharedRow resources name row
  absent : result = none ↔ name ∉ sharedStorageNames resources
  sound : ∀ found, result = some found → found.Sound resources name
  order : OneRowPerNode resources name → ∀ other, resources.Perm other →
    sharedStorage other name = result

/-- That is so for every collection and every name. -/
theorem sharedStorage_collapses (resources : List (ListedResource ι)) (name : String) :
    Collapses resources name (sharedStorage resources name) where
  names := mem_sharedStorageNames
  absent := sharedStorage_eq_none_iff.trans sharedRows_eq_nil_iff
  sound _ := sharedStorage_sound
  order hnodes _ h := sharedStorage_perm h hnodes

end Listing

/-- The row of a storage on a node that sees it or does not. -/
def storageRow (name node : String) (status : OperationalStatus) (shared : Int) : StorageRow where
  id := "storage/" ++ node ++ "/" ++ name
  storage := name
  node := node
  status := status
  shared := shared
  disk := 2
  maxdisk := 10

/-- Three nodes list a storage that one of them does not see, among other things. -/
def listedStorages : List (ListedResource String) :=
  [.storage (storageRow "nas" "pve3" .available 1), .other "qemu/100",
    .storage (storageRow "nas" "pve2" .unknown 1),
    .storage (storageRow "local" "pve1" .available 0),
    .storage (storageRow "nas" "pve1" .available 1)]

/-- The rows of the storage, by node. -/
theorem sharedRows_listedStorages :
    sortBy (·.node) (sharedRows listedStorages "nas") =
      [storageRow "nas" "pve1" .available 1, storageRow "nas" "pve2" .unknown 1,
        storageRow "nas" "pve3" .available 1] :=
  calc sortBy (·.node) (sharedRows listedStorages "nas")
    _ = sortBy (·.node) [storageRow "nas" "pve1" .available 1,
          storageRow "nas" "pve2" .unknown 1, storageRow "nas" "pve3" .available 1] :=
        sortBy_eq_of_perm _ (by decide) (by decide)
    _ = _ := List.mergeSort_of_pairwise (by decide)

/-- The two that see it, and the row of the first. -/
theorem sharedStorage_collapses_witness :
    sharedStorage listedStorages "nas" =
        some ⟨"nas", storageRow "nas" "pve1" .available 1, ["pve1", "pve3"]⟩ ∧
      Collapses listedStorages "nas" (sharedStorage listedStorages "nas") := by
  refine ⟨?_, sharedStorage_collapses listedStorages "nas"⟩
  rw [sharedStorage, sharedRows_listedStorages]
  rfl

end AioProxmox
