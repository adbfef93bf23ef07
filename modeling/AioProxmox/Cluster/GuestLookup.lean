import AioProxmox.Cluster.Cache

/-!
# Cluster - the two lookups of a guest

{lit}`pve_find_node_in_cache` walks the resource list up to the first guest with an id,
{lit}`pve_cluster_cache` keeps the last virtual machine and the last container with it.

Main results:

- Definition {lit}`LookupsAgree`: the two answer alike.
- Theorem {lit}`lookupsAgree_iff`: they do exactly if the first guest with the id is on the
  node of one of the two that the index keeps.
-/

namespace AioProxmox

open Collections

/-! ## What the index keeps -/

/-- The last virtual machine with an id. -/
def lastQemu (resources : List ClusterResource) (vmid : Int) : Option ClusterQemuResource :=
  (resources.filterMap ClusterResource.qemu?).reverse.find? fun res => res.vmid = vmid

/-- The last container with an id. -/
def lastLxc (resources : List ClusterResource) (vmid : Int) :
    Option ClusterContainerResource :=
  (resources.filterMap ClusterResource.lxc?).reverse.find? fun res => res.vmid = vmid

/-- The nodes of the last virtual machine and the last container with an id. -/
def lastNodes (resources : List ClusterResource) (vmid : Int) : List String :=
  ((lastQemu resources vmid).map (·.node)).toList ++
    ((lastLxc resources vmid).map (·.node)).toList

/-- The nodes of the entries an index holds under an id. -/
def ClusterCache.guestNodes (cache : ClusterCache) (vmid : Int) : List String :=
  ((cache.qemu.lookup vmid).map (·.node)).toList ++
    ((cache.lxc.lookup vmid).map (·.node)).toList

/-- The lookup gives nothing exactly if the id is in neither of the two tables of guests of the
index, and otherwise the node of an entry that stands there under the id. -/
def LookupsAgree (resources : List ClusterResource) (vmid : Int) : Prop :=
  (pveFindNodeInCache resources vmid = none ↔
    vmid ∉ (pveClusterCache resources).qemu.map Prod.fst ∧
      vmid ∉ (pveClusterCache resources).lxc.map Prod.fst) ∧
    ∀ node, pveFindNodeInCache resources vmid = some node →
      node ∈ (pveClusterCache resources).guestNodes vmid

section Lookup

variable {resources : List ClusterResource} {vmid : Int} {cache : ClusterCache}

/-- An index holds the last guests with an id. -/
theorem IsIndex.guestNodes (h : IsIndex cache resources) :
    cache.guestNodes vmid = lastNodes resources vmid := by
  have hqemu : cache.qemu.lookup vmid = lastQemu resources vmid := h.qemu.last vmid
  have hlxc : cache.lxc.lookup vmid = lastLxc resources vmid := h.lxc.last vmid
  rw [ClusterCache.guestNodes, hqemu, hlxc, lastNodes]

/-- The lookup finds nothing exactly if neither kind has a guest with the id. -/
theorem firstGuest_eq_none_iff :
    firstGuest resources vmid = none ↔ lastNodes resources vmid = [] := by
  have hnot : lastNodes resources vmid = [] ↔
      (∀ res ∈ resources.filterMap ClusterResource.qemu?, ¬ res.vmid = vmid) ∧
        ∀ res ∈ resources.filterMap ClusterResource.lxc?, ¬ res.vmid = vmid := by
    simp [lastNodes, lastQemu, lastLxc, Option.toList_eq_nil_iff]
  rw [hnot, firstGuest, Option.map_eq_none_iff, List.find?_eq_none]
  simp only [List.mem_filterMap, decide_eq_true_eq]
  constructor
  · intro hguest
    constructor
    · rintro res ⟨item, hitem, hres⟩
      refine hguest (res.vmid, res.node) ⟨item, hitem, ?_⟩
      cases item <;> simp_all [ClusterResource.qemu?, ClusterResource.guest?]
    · rintro res ⟨item, hitem, hres⟩
      refine hguest (res.vmid, res.node) ⟨item, hitem, ?_⟩
      cases item <;> simp_all [ClusterResource.lxc?, ClusterResource.guest?]
  · rintro ⟨hqemu, hlxc⟩ guest ⟨item, hitem, hguest⟩
    cases item with
    | qemu res =>
        cases hguest
        exact hqemu res ⟨_, hitem, rfl⟩
    | lxc res =>
        cases hguest
        exact hlxc res ⟨_, hitem, rfl⟩
    | node res => contradiction
    | storage res => contradiction
    | network res => contradiction

/-- So the lookup and the index always agree on whether there is such a guest. -/
theorem IsIndex.find_eq_none_iff (h : IsIndex cache resources) :
    pveFindNodeInCache resources vmid = none ↔
      vmid ∉ cache.qemu.map Prod.fst ∧ vmid ∉ cache.lxc.map Prod.fst := by
  have hnodes : cache.guestNodes vmid = lastNodes resources vmid := h.guestNodes
  rw [pveFindNodeInCache_eq, firstGuest_eq_none_iff, notMem_keys_iff, notMem_keys_iff, ← hnodes]
  simp [ClusterCache.guestNodes, Option.toList_eq_nil_iff]

/-- The two lookups agree exactly if the first guest with the id is on the node of the last
virtual machine or the last container with it. -/
theorem lookupsAgree_iff (resources : List ClusterResource) (vmid : Int) :
    LookupsAgree resources vmid ↔
      ∀ node, firstGuest resources vmid = some node → node ∈ lastNodes resources vmid := by
  have hindex := pveClusterCache_isIndex resources
  rw [LookupsAgree, hindex.guestNodes, pveFindNodeInCache_eq]
  constructor
  · rintro ⟨-, hnode⟩
    exact hnode
  · intro hnode
    refine ⟨?_, hnode⟩
    rw [← pveFindNodeInCache_eq]
    exact hindex.find_eq_none_iff

end Lookup

/-- A guest that is listed on its old node and on its new one. -/
def migratingGuest : List ClusterResource :=
  [.qemu { vmid := 100, node := "pve1", status := .running, template := 0 },
    .qemu { vmid := 100, node := "pve2", status := .running, template := 0 }]

/-- The lookup names the old one, which the index has not kept. -/
theorem lookupsAgree_counterexample : ¬ LookupsAgree migratingGuest 100 := by
  rintro ⟨-, hnode⟩
  have hmem := hnode "pve1" rfl
  contradiction

end AioProxmox
