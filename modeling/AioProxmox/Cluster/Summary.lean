import AioProxmox.Cluster.Resources
import Mathlib.Algebra.Ring.Int.Defs
import Mathlib.Algebra.Ring.Rat

/-!
# Cluster - the cluster at a glance

What {lit}`ClusterSummary` adds up from the resource list, and what becomes of a node
that is down.  The parser drops, without a word, every item that its class cannot read,
and the class of a node requires all seven figures; that of a storage on a node gives the
capacities, which are left out when it is inactive, a default each.

Main results:

- Definition {lit}`ClusterSummary.fromResources`: the summary.
- Theorem {lit}`fromResources_insert`: what one more node that is not online adds.
- Theorem {lit}`offlineNode_counted_iff`: in every payload an offline node is counted
  exactly if its item carries every figure.
-/

namespace AioProxmox

/-! ## Adding up -/

/-- {lit}`ClusterSummary`. -/
structure ClusterSummary where
  nodesTotal : Nat
  nodesOnline : Nat
  nodesOffline : List String
  qemuTotal : Nat
  qemuRunning : Nat
  lxcTotal : Nat
  lxcRunning : Nat
  cpu : Option ℚ
  memoryUsed : Option Int
  memoryTotal : Option Int

/-- {lit}`ClusterSummary.from_resources`. -/
def ClusterSummary.fromResources (resources : List ClusterResource) : ClusterSummary :=
  let nodes := resources.filterMap ClusterResource.node?
  let online := nodes.filter fun n => n.status = .online
  -- The code asks for n not in online: a node that equals one has its status.
  let offline := nodes.filter fun n => n.status ≠ .online
  let qemu := (resources.filterMap ClusterResource.qemu?).filter fun r => r.template = 0
  let lxc := (resources.filterMap ClusterResource.lxc?).filter fun r => r.template = 0
  let counted := online.filter fun n => 0 < n.maxcpu
  let weightedCpu : ℚ := (counted.map fun n => n.cpu * (n.maxcpu : ℚ)).sum
  let totalCpus : Int := (counted.map (·.maxcpu)).sum
  let memoryTotal : Int := (online.map (·.maxmem)).sum
  let memoryUsed : Int := (online.map (·.mem)).sum
  { nodesTotal := nodes.length
    nodesOnline := online.length
    nodesOffline := (offline.map (·.node)).mergeSort fun a b => decide (a ≤ b)
    qemuTotal := qemu.length
    qemuRunning := (qemu.filter fun r => r.status = .running).length
    lxcTotal := lxc.length
    lxcRunning := (lxc.filter fun r => r.status = .running).length
    cpu := if totalCpus = 0 then none else some (weightedCpu / totalCpus)
    memoryUsed := if memoryTotal = 0 then none else some memoryUsed
    memoryTotal := if memoryTotal = 0 then none else some memoryTotal }

section Summary

variable {res : ClusterNodeResource}

/-- The names of the nodes that are not online, in any order. -/
theorem nodesOffline_perm (resources : List ClusterResource) :
    (ClusterSummary.fromResources resources).nodesOffline.Perm
      (((resources.filterMap ClusterResource.node?).filter fun n => n.status ≠ .online).map
        (·.node)) :=
  List.mergeSort_perm _ _

/-- One more node adds one to the nodes, and its name where it is not online. -/
theorem fromResources_insert (h : res.status ≠ .online) (before after : List ClusterResource) :
    (ClusterSummary.fromResources (before ++ .node res :: after)).nodesTotal =
        (ClusterSummary.fromResources (before ++ after)).nodesTotal + 1 ∧
      (ClusterSummary.fromResources (before ++ .node res :: after)).nodesOffline.Perm
        (res.node :: (ClusterSummary.fromResources (before ++ after)).nodesOffline) := by
  constructor
  · simp only [ClusterSummary.fromResources, List.filterMap_append, List.length_append,
      List.filterMap_cons, ClusterResource.node?, List.length_cons]
    omega
  · refine (nodesOffline_perm _).trans ?_
    refine List.Perm.trans ?_ ((nodesOffline_perm (before ++ after)).symm.cons _)
    have hkept : decide (res.status ≠ .online) = true := decide_eq_true h
    simp only [List.filterMap_append, List.filterMap_cons, ClusterResource.node?,
      List.filter_append, List.filter_cons, hkept, if_true, List.map_append, List.map_cons]
    exact List.perm_middle

end Summary

/-! ## A node that is down -/

/-- The figures of a node. -/
def telemetry : List String := ["cpu", "maxcpu", "mem", "maxmem", "disk", "maxdisk", "uptime"]

/-- {lit}`ClusterNodeResource.from_dict`, where {lit}`readable key value` says that
{lit}`float` or {lit}`int`, as the field of that name is annotated, takes the value. -/
structure ReadsNodes (from_ : FromDict) (readable : String → Json → Prop) : Prop where
  /-- A field without a default is required. -/
  required : ∀ item, ∀ key ∈ ["id", "node", "status", "type"] ++ telemetry,
    item.lookup key = none → from_.node item = none
  /-- A figure is converted. -/
  converted : ∀ item, ∀ key ∈ telemetry, ∀ value, item.lookup key = some value →
    ¬ readable key value → from_.node item = none
  /-- An item with every field of its kind is read. -/
  complete : ∀ item id name status, item.lookup "id" = some (.str id) →
    item.lookup "node" = some (.str name) → item.lookup "status" = some (.str status) →
    item.lookup "type" = some (.str "node") →
    (∀ key ∈ telemetry, ∃ value, item.lookup key = some value ∧ readable key value) →
    ∃ res, from_.node item = some res
  /-- A text is handed on as it is. -/
  node : ∀ item res name, from_.node item = some res → item.lookup "node" = some (.str name) →
    res.node = name
  /-- The status is looked up among the known ones. -/
  status : ∀ item res status, from_.node item = some res →
    item.lookup "status" = some (.str status) → res.status = .ofText status

/-- The item of an offline node of a name. -/
structure OfflineNode (item : Dict) (name : String) : Prop where
  type : item.lookup "type" = some (.str "node")
  id : ∃ id, item.lookup "id" = some (.str id)
  node : item.lookup "node" = some (.str name)
  status : item.lookup "status" = some (.str "offline")

/-- The item carries all seven figures, each one that can be read. -/
def CarriesTelemetry (readable : String → Json → Prop) (item : Dict) : Prop :=
  ∀ key ∈ telemetry, ∃ value, item.lookup key = some value ∧ readable key value

/-- The item of a payload puts a name among the offline nodes and one more node into the
total. -/
def Counted (from_ : FromDict) (before : List Json) (item : Dict) (after : List Json)
    (name : String) : Prop :=
  let summary := ClusterSummary.fromResources
    (deserializeResourceList from_ (.arr (before ++ .obj item :: after)))
  let others := ClusterSummary.fromResources
    (deserializeResourceList from_ (.arr (before ++ after)))
  summary.nodesOffline.Perm (name :: others.nodesOffline) ∧
    summary.nodesTotal = others.nodesTotal + 1

/-! ## A class that reads numbers -/

/-- A figure that is a number. -/
def isNumber (key : String) (value : Json) : Prop :=
  if key = "cpu" then (floatOf value).isSome else (intOf value).isSome

/-- The node and the status of what is read. -/
theorem readNode_eq_some {text : Json → String} {item : Dict} {res : ClusterNodeResource}
    (h : readNode text item = some res) :
    (∃ node, item.lookup "node" = some node ∧ res.node = text node) ∧
      ∃ status, item.lookup "status" = some status ∧ res.status = statusOf status := by
  simp only [readNode, Option.bind_eq_bind, Option.bind_eq_some_iff] at h
  rcases h with ⟨_, -, node, hnode, status, hstatus, _, -, _, -, _, -, _, -, _, -, _, -, _, -,
    _, -, hres⟩
  cases hres
  exact ⟨⟨node, hnode, rfl⟩, status, hstatus, rfl⟩

/-- Where {lit}`text` leaves texts as they are, this is a class that reads numbers. -/
theorem readItems_readsNodes {text : Json → String} (htext : ∀ s, text (.str s) = s) :
    ReadsNodes (readItems text) isNumber := by
  refine ⟨?_, ?_, ?_, ?_, ?_⟩
  · intro item key hkey hnone
    simp only [telemetry, List.cons_append, List.nil_append, List.mem_cons, List.not_mem_nil,
      or_false] at hkey
    rcases hkey with rfl | rfl | rfl | rfl | rfl | rfl | rfl | rfl | rfl | rfl | rfl <;>
      simp [readItems, readNode, hnone]
  · intro item key hkey value hvalue hnot
    simp only [telemetry, List.mem_cons, List.not_mem_nil, or_false] at hkey
    rcases hkey with rfl | rfl | rfl | rfl | rfl | rfl | rfl <;>
      simp [isNumber] at hnot <;>
      simp [readItems, readNode, hvalue, hnot]
  · intro item id name status hid hname hstatus htype hcarries
    simp [telemetry, isNumber, Option.isSome_iff_exists] at hcarries
    rcases hcarries with ⟨⟨_, h₁, _, g₁⟩, ⟨_, h₂, _, g₂⟩, ⟨_, h₃, _, g₃⟩, ⟨_, h₄, _, g₄⟩,
      ⟨_, h₅, _, g₅⟩, ⟨_, h₆, _, g₆⟩, ⟨_, h₇, _, g₇⟩⟩
    simp [readItems, readNode, *]
  · intro item res name hres hname
    rcases (readNode_eq_some hres).1 with ⟨node, hnode, hread⟩
    rw [hname] at hnode
    cases hnode
    rw [hread, htext]
  · intro item res status hres hstatus
    rcases (readNode_eq_some hres).2 with ⟨value, hvalue, hread⟩
    rw [hstatus] at hvalue
    cases hvalue
    exact hread

/-- What the API lists for a node that is down. -/
def downNode : Dict :=
  [("id", .str "node/pve2"), ("type", .str "node"), ("node", .str "pve2"),
    ("status", .str "offline")]

/-- The same with the figures of a node. -/
def downNodeWithFigures : Dict :=
  downNode ++ [("cpu", .int 0), ("maxcpu", .int 8), ("mem", .int 0), ("maxmem", .int 64),
    ("disk", .int 0), ("maxdisk", .int 100), ("uptime", .int 0)]

/-! ## Counted or not -/

section Offline

variable {from_ : FromDict} {readable : String → Json → Prop} {item : Dict}
  {name : String} {before after : List Json} {res : ClusterNodeResource}

/-- An item of a node is what its class makes of it. -/
theorem OfflineNode.deserializeResource (h : OfflineNode item name) :
    deserializeResource from_ (.obj item) = (from_.node item).map .node := by
  simp only [AioProxmox.deserializeResource, h.type]

/-- The class reads the item of an offline node exactly if it carries the figures. -/
theorem ReadsNodes.isSome_iff (laws : ReadsNodes from_ readable) (h : OfflineNode item name) :
    (∃ res, from_.node item = some res) ↔ CarriesTelemetry readable item := by
  constructor
  · rintro ⟨res, hres⟩ key hkey
    cases hvalue : item.lookup key with
    | none =>
        have hnone := laws.required item key (List.mem_append_right _ hkey) hvalue
        rw [hnone] at hres
        contradiction
    | some value =>
        refine ⟨value, rfl, ?_⟩
        by_contra hreadable
        rw [laws.converted item key hkey value hvalue hreadable] at hres
        contradiction
  · intro hcarries
    rcases h.id with ⟨id, hid⟩
    exact laws.complete item id name "offline" hid h.node h.status h.type hcarries

/-- A node that is read is counted. -/
theorem OfflineNode.counted (laws : ReadsNodes from_ readable)
    (h : OfflineNode item name) (hres : from_.node item = some res) :
    Counted from_ before item after name := by
  have hoffline : res.status = .offline := laws.status item res "offline" hres h.status
  have hne : res.status ≠ .online := by
    rw [hoffline]
    decide
  have hinsert := fromResources_insert hne
    (deserializeResourceList from_ (.arr before)) (deserializeResourceList from_ (.arr after))
  have hparsed : deserializeResourceList from_ (.arr (before ++ .obj item :: after)) =
      deserializeResourceList from_ (.arr before) ++
        .node res :: deserializeResourceList from_ (.arr after) := by
    rw [deserializeResourceList_append]
    congr 1
    exact List.filterMap_cons_some (by rw [h.deserializeResource, hres]; rfl)
  unfold Counted
  rw [hparsed, deserializeResourceList_append]
  refine ⟨?_, hinsert.1⟩
  have hname := hinsert.2
  rwa [laws.node item res name hres h.node] at hname

/-- A node that is not read leaves the summary as it is without it. -/
theorem OfflineNode.not_counted (h : OfflineNode item name) (hnone : from_.node item = none) :
    ¬ Counted from_ before item after name := by
  rintro ⟨-, htotal⟩
  have hparsed : deserializeResourceList from_ (.arr (before ++ .obj item :: after)) =
      deserializeResourceList from_ (.arr (before ++ after)) := by
    rw [deserializeResourceList_append, deserializeResourceList_append]
    congr 1
    exact List.filterMap_cons_none (by rw [h.deserializeResource, hnone]; rfl)
  rw [hparsed] at htotal
  omega

/-- In every payload an offline node is counted exactly if its item carries every figure. -/
theorem offlineNode_counted_iff (laws : ReadsNodes from_ readable)
    (h : OfflineNode item name) (before after : List Json) :
    Counted from_ before item after name ↔ CarriesTelemetry readable item := by
  rw [← laws.isSome_iff h]
  constructor
  · intro hcounted
    cases hnode : from_.node item with
    | none => exact absurd hcounted (h.not_counted hnode)
    | some res => exact ⟨res, rfl⟩
  · rintro ⟨res, hres⟩
    exact h.counted laws hres

end Offline

/-- The node that carries its figures is counted, whatever becomes of the other item. -/
theorem offlineNode_counted_iff_witness :
    Counted (readItems textOf) [.obj downNode] downNodeWithFigures [] "pve2" :=
  (offlineNode_counted_iff (readItems_readsNodes fun _ => rfl) ⟨rfl, ⟨_, rfl⟩, rfl, rfl⟩
    [.obj downNode] []).mpr (by
      simp [CarriesTelemetry, telemetry, downNodeWithFigures, downNode, isNumber, floatOf, intOf,
        List.lookup_cons])

/-- A node that is down and listed without figures is lost. -/
theorem offlineNode_counterexample :
    ReadsNodes (readItems textOf) isNumber ∧ OfflineNode downNode "pve2" ∧
      ¬ Counted (readItems textOf) [] downNode [] "pve2" := by
  refine ⟨readItems_readsNodes fun _ => rfl, ⟨rfl, ⟨_, rfl⟩, rfl, rfl⟩, ?_⟩
  rintro ⟨-, htotal⟩
  contradiction

end AioProxmox
