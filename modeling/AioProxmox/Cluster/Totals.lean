import AioProxmox.Cluster.Summary
import AioProxmox.Collections.Means
import AioProxmox.Collections.Sorting
import Mathlib.Algebra.BigOperators.Ring.Finset
import Mathlib.Algebra.Field.Rat
import Mathlib.Algebra.Order.Ring.Rat
import Mathlib.Data.Set.Finite.Lemmas
import Mathlib.Data.String.Basic

/-!
# Cluster - the totals of the summary

The figures of {lit}`ClusterSummary` fit together: its parts add up to its wholes, its CPU
figure lies among those of the nodes it is the mean of, and none of them depends on the
order of the resource list.

Main results:

- Theorem {lit}`fromResources_perm`: the order does not matter.
- Theorem {lit}`fromResources_withoutTemplates`: templates are not counted.
- Theorem {lit}`fromResources_addsUp`: the figures fit together.
-/

namespace AioProxmox

open Collections

/-! ## The nodes that are counted -/

/-- The nodes that are online. -/
def onlineNodes (resources : List ClusterResource) : List ClusterNodeResource :=
  (resources.filterMap ClusterResource.node?).filter fun n => n.status = .online

/-- The online nodes with a positive core count. -/
def countedNodes (resources : List ClusterResource) : List ClusterNodeResource :=
  (onlineNodes resources).filter fun n => 0 < n.maxcpu

/-- A template of a guest. -/
def ClusterResource.isTemplate : ClusterResource → Bool
  | .qemu res => res.template ≠ 0
  | .lxc res => res.template ≠ 0
  | _ => false

/-- The figures of a summary fit together. -/
structure ClusterSummary.AddsUp (resources : List ClusterResource) (summary : ClusterSummary) :
    Prop where
  /-- A node is online or offline. -/
  nodes : summary.nodesOnline + summary.nodesOffline.length = summary.nodesTotal
  /-- A running guest is a guest. -/
  qemu : summary.qemuRunning ≤ summary.qemuTotal
  lxc : summary.lxcRunning ≤ summary.lxcTotal
  /-- Templates are counted nowhere. -/
  templates : ClusterSummary.fromResources (resources.filter fun r => !r.isTemplate) =
    summary
  /-- There is a CPU figure as soon as one online node has cores. -/
  cpu_none : summary.cpu = none ↔ ∀ n ∈ onlineNodes resources, ¬ 0 < n.maxcpu
  /-- It lies between the smallest and the largest of those nodes. -/
  cpu_between : ∀ cpu, summary.cpu = some cpu →
    ∃ low ∈ countedNodes resources, ∃ high ∈ countedNodes resources,
      (∀ n ∈ countedNodes resources, low.cpu ≤ n.cpu ∧ n.cpu ≤ high.cpu) ∧
        low.cpu ≤ cpu ∧ cpu ≤ high.cpu
  /-- The two memory figures are given together. -/
  memory_none : summary.memoryUsed = none ↔ summary.memoryTotal = none
  /-- No more memory is used than there is, if that is so on every online node. -/
  memory_le : (∀ n ∈ onlineNodes resources, n.mem ≤ n.maxmem) →
    ∀ used total, summary.memoryUsed = some used → summary.memoryTotal = some total →
      used ≤ total
  /-- The order of the list does not matter. -/
  order : ∀ other, resources.Perm other → ClusterSummary.fromResources other = summary

section Totals

variable {resources other : List ClusterResource}

/-! ## The order of the list -/

/-- The order of the list does not matter. -/
theorem fromResources_perm (h : resources.Perm other) :
    ClusterSummary.fromResources resources = ClusterSummary.fromResources other := by
  have hnodes := h.filterMap ClusterResource.node?
  have hqemu := (h.filterMap ClusterResource.qemu?).filter fun r => r.template = 0
  have hlxc := (h.filterMap ClusterResource.lxc?).filter fun r => r.template = 0
  have honline := hnodes.filter fun n => n.status = .online
  have hcounted := honline.filter fun n => 0 < n.maxcpu
  have hnames := (hnodes.filter fun n => n.status ≠ .online).map (·.node)
  have hsorted := sortBy_eq_of_perm id hnames fun _ _ _ _ hab => hab
  have hcpu := (hcounted.map fun n => n.cpu * (n.maxcpu : ℚ)).sum_eq
  have hcpus := (hcounted.map (·.maxcpu)).sum_eq
  have hmem := (honline.map (·.mem)).sum_eq
  have hmaxmem := (honline.map (·.maxmem)).sum_eq
  unfold ClusterSummary.fromResources
  simp only [ClusterSummary.mk.injEq]
  refine ⟨hnodes.length_eq, honline.length_eq, hsorted, hqemu.length_eq,
    (hqemu.filter _).length_eq, hlxc.length_eq, (hlxc.filter _).length_eq, ?_, ?_, ?_⟩
  · rw [hcpu, hcpus]
  · rw [hmem, hmaxmem]
  · rw [hmaxmem]

/-! ## Templates -/

/-- A list without its templates has the same nodes. -/
theorem nodes_withoutTemplates (resources : List ClusterResource) :
    (resources.filter fun r => !r.isTemplate).filterMap ClusterResource.node? =
      resources.filterMap ClusterResource.node? := by
  rw [List.filterMap_filter]
  congr 1
  funext r
  cases r <;> simp [ClusterResource.isTemplate, ClusterResource.node?]

/-- And the same guests, where only those that are no templates are asked for. -/
theorem guests_withoutTemplates {α : Type} {guest? : ClusterResource → Option α} {p : α → Bool}
    (h : ∀ r res, guest? r = some res → p res = !r.isTemplate)
    (resources : List ClusterResource) :
    ((resources.filter fun r => !r.isTemplate).filterMap guest?).filter p =
      (resources.filterMap guest?).filter p := by
  rw [List.filterMap_filter, List.filter_filterMap, List.filter_filterMap]
  congr 1
  funext r
  cases hguest : guest? r with
  | none => simp
  | some res =>
      have hp := h r res hguest
      by_cases htemplate : r.isTemplate = true
      · simp [Option.filter, hp, htemplate]
      · simp [htemplate]

/-- A virtual machine is a template or is counted. -/
theorem qemu_isTemplate (r : ClusterResource) (res : ClusterQemuResource)
    (h : r.qemu? = some res) : decide (res.template = 0) = !r.isTemplate := by
  cases r with
  | qemu res =>
      cases h
      simp [ClusterResource.isTemplate]
  | _ => contradiction

/-- A container is a template or is counted. -/
theorem lxc_isTemplate (r : ClusterResource) (res : ClusterContainerResource)
    (h : r.lxc? = some res) : decide (res.template = 0) = !r.isTemplate := by
  cases r with
  | lxc res =>
      cases h
      simp [ClusterResource.isTemplate]
  | _ => contradiction

/-- Templates are not counted. -/
theorem fromResources_withoutTemplates (resources : List ClusterResource) :
    ClusterSummary.fromResources (resources.filter fun r => !r.isTemplate) =
      ClusterSummary.fromResources resources := by
  unfold ClusterSummary.fromResources
  rw [nodes_withoutTemplates, guests_withoutTemplates qemu_isTemplate,
    guests_withoutTemplates lxc_isTemplate]

/-! ## The figures -/

/-- Every counted node has cores. -/
theorem maxcpu_pos {n : ClusterNodeResource} (h : n ∈ countedNodes resources) :
    (0 : ℚ) < (n.maxcpu : ℚ) := by
  have hpos := of_decide_eq_true (List.mem_filter.mp h).2
  exact_mod_cast hpos

/-- The core count the mean is divided by. -/
theorem sum_maxcpu_cast (resources : List ClusterResource) :
    ((((countedNodes resources).map (·.maxcpu)).sum : Int) : ℚ) =
      ((countedNodes resources).map fun n => (n.maxcpu : ℚ)).sum := by
  rw [Int.cast_list_sum, List.map_map]
  rfl

/-- It is zero only where no node is counted. -/
theorem sum_maxcpu_eq_zero_iff :
    ((countedNodes resources).map (·.maxcpu)).sum = 0 ↔ countedNodes resources = [] := by
  constructor
  · intro hzero
    by_contra hcounted
    have hpos := sum_weight_pos hcounted fun n hn => maxcpu_pos hn
    rw [← sum_maxcpu_cast, hzero, Int.cast_zero] at hpos
    exact lt_irrefl _ hpos
  · intro hnil
    rw [hnil]
    rfl

/-- No node is counted exactly if no node online tells of a processor. -/
theorem countedNodes_eq_nil_iff :
    countedNodes resources = [] ↔ ∀ n ∈ onlineNodes resources, ¬ 0 < n.maxcpu := by
  rw [countedNodes, List.filter_eq_nil_iff]
  simp only [decide_eq_true_eq]

/-- The CPU figure is the mean of the counted nodes, by their cores. -/
theorem fromResources_cpu (resources : List ClusterResource) :
    (ClusterSummary.fromResources resources).cpu =
      if countedNodes resources = [] then none
      else some (weightedMean (·.cpu) (fun n => (n.maxcpu : ℚ)) (countedNodes resources)) := by
  rw [weightedMean, ← sum_maxcpu_cast, ← if_congr sum_maxcpu_eq_zero_iff rfl rfl]
  rfl

/-- It lies among theirs. -/
theorem fromResources_cpu_between {cpu : ℚ}
    (h : (ClusterSummary.fromResources resources).cpu = some cpu) :
    ∃ low ∈ countedNodes resources, ∃ high ∈ countedNodes resources,
      (∀ n ∈ countedNodes resources, low.cpu ≤ n.cpu ∧ n.cpu ≤ high.cpu) ∧
        low.cpu ≤ cpu ∧ cpu ≤ high.cpu := by
  rw [fromResources_cpu] at h
  split at h
  · contradiction
  · rename_i hcounted
    cases h
    have hfinite := List.finite_toSet (countedNodes resources)
    have hnonempty := List.exists_mem_of_ne_nil _ hcounted
    rcases Set.exists_min_image _ (·.cpu) hfinite hnonempty with ⟨low, hlow, hleast⟩
    rcases Set.exists_max_image _ (·.cpu) hfinite hnonempty with ⟨high, hhigh, hgreatest⟩
    refine ⟨low, hlow, high, hhigh, fun n hn => ⟨hleast n hn, hgreatest n hn⟩, ?_, ?_⟩
    · exact le_weightedMean hcounted (fun n hn => maxcpu_pos hn) hleast
    · exact weightedMean_le hcounted (fun n hn => maxcpu_pos hn) hgreatest

/-- Memory used and memory there, where both are given. -/
theorem fromResources_memory_le (h : ∀ n ∈ onlineNodes resources, n.mem ≤ n.maxmem)
    {used total : Int}
    (hused : (ClusterSummary.fromResources resources).memoryUsed = some used)
    (htotal : (ClusterSummary.fromResources resources).memoryTotal = some total) :
    used ≤ total := by
  simp only [ClusterSummary.fromResources] at hused htotal
  split at hused
  · contradiction
  · rename_i hzero
    rw [if_neg hzero] at htotal
    cases hused
    cases htotal
    exact List.sum_le_sum h

/-- Memory in use and memory at all are known of the same nodes. -/
theorem fromResources_memory_none :
    (ClusterSummary.fromResources resources).memoryUsed = none ↔
      (ClusterSummary.fromResources resources).memoryTotal = none := by
  simp only [ClusterSummary.fromResources]
  split <;> simp

/-- Online and offline nodes are all nodes. -/
theorem fromResources_nodes :
    (ClusterSummary.fromResources resources).nodesOnline +
        (ClusterSummary.fromResources resources).nodesOffline.length =
      (ClusterSummary.fromResources resources).nodesTotal := by
  have hlength := (nodesOffline_perm resources).length_eq
  have hsplit := List.length_eq_length_filter_add
    (l := resources.filterMap ClusterResource.node?) fun n => decide (n.status = .online)
  rw [hlength, List.length_map]
  simp only [decide_not]
  exact hsplit.symm

/-- The figures of the summary fit together. -/
theorem fromResources_addsUp (resources : List ClusterResource) :
    (ClusterSummary.fromResources resources).AddsUp resources where
  nodes := fromResources_nodes
  qemu := List.length_filter_le _ _
  lxc := List.length_filter_le _ _
  templates := fromResources_withoutTemplates resources
  cpu_none := by
    rw [fromResources_cpu, ← countedNodes_eq_nil_iff]
    split <;> simp [*]
  cpu_between _ := fromResources_cpu_between
  memory_none := fromResources_memory_none
  memory_le h _ _ := fromResources_memory_le h
  order _ h := (fromResources_perm h).symm

end Totals

end AioProxmox
