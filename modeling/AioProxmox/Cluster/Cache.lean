import AioProxmox.Cluster.Resources
import AioProxmox.Collections.Table

/-!
# Cluster - the index of the resource list

The two helpers that read a resource list: the index that {lit}`pve_cluster_cache` builds
of it, a table for each kind, and the node of a guest.

Main results:

- Definition {lit}`pveClusterCache`: the index.
- Theorem {lit}`pveClusterCache_isIndex`: under each key stands the last resource with it.
- Theorem {lit}`storageKey_injective`: storages of different nodes are kept apart.
- Theorem {lit}`pveFindNodeInCache_eq`: the lookup finds the first guest.
-/

namespace AioProxmox

open Collections

/-! ## Keys -/

/-- {lit}`f"\x7bres.node\x7d:\x7bres.storage\x7d"`. -/
def storageKey (res : ClusterStorageResource) : String :=
  res.node ++ ":" ++ res.storage

/-- What stands before the colon of a name without one. -/
theorem takeWhile_key {name : String} (rest : String) (h : ':' ∉ name.toList) :
    ((name ++ ":" ++ rest).toList).takeWhile (· ≠ ':') = name.toList := by
  have hpos : ∀ c ∈ name.toList, decide (c ≠ ':') = true := by
    intro c hc
    refine decide_eq_true ?_
    rintro rfl
    exact h hc
  rw [String.append_assoc, String.toList_append, List.takeWhile_append_of_pos hpos,
    String.toList_append]
  simp

/-- Storages of nodes without a colon in their names are kept apart. -/
theorem storageKey_injective {res res' : ClusterStorageResource}
    (hnode : ':' ∉ res.node.toList) (hnode' : ':' ∉ res'.node.toList)
    (h : storageKey res = storageKey res') : res.node = res'.node ∧ res.storage = res'.storage := by
  have hname : res.node = res'.node := by
    unfold storageKey at h
    rw [← String.toList_inj, ← takeWhile_key res.storage hnode,
      ← takeWhile_key res'.storage hnode', h]
  refine ⟨hname, ?_⟩
  rw [storageKey, storageKey, hname] at h
  exact String.append_right_inj (res'.node ++ ":") |>.mp h

/-! ## The index -/

/-- {lit}`ClusterCache`. -/
structure ClusterCache where
  nodes : List (String × ClusterNodeResource) := []
  qemu : List (Int × ClusterQemuResource) := []
  lxc : List (Int × ClusterContainerResource) := []
  storage : List (String × ClusterStorageResource) := []

/-- One turn of the loop of {lit}`pve_cluster_cache`. -/
def ClusterCache.add (cache : ClusterCache) : ClusterResource → ClusterCache
  | .node res => { cache with nodes := store cache.nodes res.node res }
  | .qemu res => { cache with qemu := store cache.qemu res.vmid res }
  | .lxc res => { cache with lxc := store cache.lxc res.vmid res }
  | .storage res => { cache with storage := store cache.storage (storageKey res) res }
  | .network _ => cache

/-- {lit}`pve_cluster_cache` of a list. -/
def pveClusterCache (resources : List ClusterResource) : ClusterCache :=
  resources.foldl ClusterCache.add {}

/-- {lit}`pve_find_node_in_cache` of a list: the node of the first guest with an id, a virtual
machine or a container.  It is a text, which {lit}`str` leaves as it is. -/
def pveFindNodeInCache (resources : List ClusterResource) (vmid : Int) : Option String :=
  match resources with
  | [] => none
  | .qemu res :: rest => if res.vmid = vmid then some res.node else pveFindNodeInCache rest vmid
  | .lxc res :: rest => if res.vmid = vmid then some res.node else pveFindNodeInCache rest vmid
  | _ :: rest => pveFindNodeInCache rest vmid

/-- Id and node of a guest. -/
def ClusterResource.guest? : ClusterResource → Option (Int × String)
  | .qemu res => some (res.vmid, res.node)
  | .lxc res => some (res.vmid, res.node)
  | _ => none

/-- The node of the first guest with an id. -/
def firstGuest (resources : List ClusterResource) (vmid : Int) : Option String :=
  ((resources.filterMap ClusterResource.guest?).find? fun guest => guest.1 = vmid).map Prod.snd

/-- The helper gives the first guest's node. -/
theorem pveFindNodeInCache_eq (resources : List ClusterResource) (vmid : Int) :
    pveFindNodeInCache resources vmid = firstGuest resources vmid := by
  induction resources with
  | nil => rfl
  | cons res rest ih =>
      cases res with
      | qemu res =>
          by_cases hvmid : res.vmid = vmid
          · simp [pveFindNodeInCache, firstGuest, ClusterResource.guest?, hvmid]
          · simpa [pveFindNodeInCache, firstGuest, ClusterResource.guest?, hvmid] using ih
      | lxc res =>
          by_cases hvmid : res.vmid = vmid
          · simp [pveFindNodeInCache, firstGuest, ClusterResource.guest?, hvmid]
          · simpa [pveFindNodeInCache, firstGuest, ClusterResource.guest?, hvmid] using ih
      | node res => exact ih
      | storage res => exact ih
      | network res => exact ih

/-! ## What the index is -/

/-- Under each key of each kind stands the last resource with that key, and nothing else
stands there. -/
structure IsIndex (cache : ClusterCache) (resources : List ClusterResource) : Prop where
  nodes : Indexes (·.node) cache.nodes (resources.filterMap ClusterResource.node?)
  qemu : Indexes (·.vmid) cache.qemu (resources.filterMap ClusterResource.qemu?)
  lxc : Indexes (·.vmid) cache.lxc (resources.filterMap ClusterResource.lxc?)
  storage : Indexes storageKey cache.storage (resources.filterMap ClusterResource.storage?)

section Index

variable {cache : ClusterCache} {resources : List ClusterResource}

/-- The empty index is that of the empty list. -/
theorem IsIndex.nil : IsIndex {} [] :=
  ⟨.nil, .nil, .nil, .nil⟩

/-- One turn of the loop keeps the index. -/
theorem IsIndex.add (h : IsIndex cache resources) (res : ClusterResource) :
    IsIndex (cache.add res) (resources ++ [res]) := by
  cases res with
  | node res => exact ⟨h.nodes.take rfl, h.qemu.skip rfl, h.lxc.skip rfl, h.storage.skip rfl⟩
  | qemu res => exact ⟨h.nodes.skip rfl, h.qemu.take rfl, h.lxc.skip rfl, h.storage.skip rfl⟩
  | lxc res => exact ⟨h.nodes.skip rfl, h.qemu.skip rfl, h.lxc.take rfl, h.storage.skip rfl⟩
  | storage res => exact ⟨h.nodes.skip rfl, h.qemu.skip rfl, h.lxc.skip rfl, h.storage.take rfl⟩
  | network res => exact ⟨h.nodes.skip rfl, h.qemu.skip rfl, h.lxc.skip rfl, h.storage.skip rfl⟩

/-- Under each key of the index stands the last resource with it. -/
theorem pveClusterCache_isIndex (resources : List ClusterResource) :
    IsIndex (pveClusterCache resources) resources := by
  induction resources using List.reverseRecOn with
  | nil => exact IsIndex.nil
  | append_singleton done res ih =>
      rw [pveClusterCache, List.foldl_append]
      exact ih.add res

end Index

end AioProxmox
