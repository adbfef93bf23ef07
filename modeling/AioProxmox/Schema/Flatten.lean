import AioProxmox.Client.Values
import AioProxmox.Collections.Sorting
import AioProxmox.Collections.Traversal
import AioProxmox.Collections.Unions
import Mathlib.Data.String.Basic

/-!
# Schema - the tree of the API, flattened

The schema comes as a forest of nodes, each with a path, the methods of that path and further
nodes.  It is kept as one table by path and method, which holds of a method the names of its
parameters and the check before it.

Main results:

- Definition {lit}`flatten`: the table of a forest.
- Theorem {lit}`mem_allNodes_iff`: the nodes of a forest are those below its roots.
- Theorem {lit}`flattenFrom_tabulates`: each node with methods has its table under its path.
- Theorem {lit}`flatten_keepsSchema`: no method of any node is lost, and none comes from
  anywhere else.
-/

namespace AioProxmox

open Collections

/-! ## The schema -/

/-- {lit}`permissions` of a method. -/
structure Permissions where
  check : Option Json

/-- {lit}`parameters` of a method. -/
structure ParameterSchema where
  properties : Option Dict

/-- What a node says about a method; {lit}`none` is a key that is missing or null. -/
structure MethodInfo where
  parameters : Option ParameterSchema
  permissions : Option Permissions

/-- {lit}`info` of a node, by method. -/
structure MethodTable where
  entries : List (String × MethodInfo)
  distinct : (entries.map Prod.fst).Nodup

/-- A node of the schema, with the nodes below it. -/
structure ApiNode where
  path : String
  info : Option MethodTable
  children : Option (List ApiNode)

/-- {lit}`(info.get("parameters") or \x7b\x7d).get("properties") or \x7b\x7d`. -/
def MethodInfo.properties (self : MethodInfo) : Dict :=
  (self.parameters.bind ParameterSchema.properties).getD []

/-- {lit}`(info.get("permissions") or \x7b\x7d).get("check")`. -/
def MethodInfo.check? (self : MethodInfo) : Option Json :=
  self.permissions.bind Permissions.check

/-- {lit}`node.get("info") or \x7b\x7d`. -/
def ApiNode.methods (self : ApiNode) : List (String × MethodInfo) :=
  (self.info.map MethodTable.entries).getD []

/-- A node has no method twice. -/
theorem ApiNode.nodup_methods (self : ApiNode) : (self.methods.map Prod.fst).Nodup := by
  unfold methods
  cases self.info with
  | none => exact List.nodup_nil
  | some table => exact table.distinct

/-! ## The table -/

/-- What the table holds of a method. -/
structure RouteEntry where
  parameters : List String
  check : Option Json := none

/-- By path and method. -/
abbrev Routes :=
  List (String × List (String × RouteEntry))

/-- The entry of a method. -/
def routeEntry (info : MethodInfo) : RouteEntry where
  parameters := sortBy id (info.properties.map Prod.fst)
  check := info.check?.filter Json.truthy

/-- The inner loop of {lit}`flatten`: the methods of one node. -/
def ApiNode.putMethods (self : ApiNode) (routes : Routes) : Routes :=
  self.methods.foldl (fun routes entry =>
    storeUnder routes self.path entry.1 (routeEntry entry.2)) routes

mutual

/-- The loop of {lit}`flatten` over the nodes that are left. -/
def flattenFrom (routes : Routes) : List ApiNode → Routes
  | [] => routes
  | node :: rest => flattenFrom (update (node.putMethods routes) node.flattenChildren) rest

/-- The recursive call for the nodes below one. -/
def ApiNode.flattenChildren : ApiNode → Routes
  | ⟨_, _, children⟩ => flattenOptional children

/-- {lit}`flatten(children or [])`. -/
def flattenOptional : Option (List ApiNode) → Routes
  | none => []
  | some nodes => flattenFrom [] nodes

end

/-- {lit}`flatten`. -/
def flatten (nodes : List ApiNode) : Routes :=
  flattenFrom [] nodes

/-- {lit}`routes[path][method]`, where there is one. -/
def Routes.entryAt (routes : Routes) (path method : String) : Option RouteEntry :=
  (routes.lookup path).bind fun methods => methods.lookup method

/-! ## The nodes of a forest -/

mutual

/-- All nodes of a forest, each before those below it. -/
def allNodes : List ApiNode → List ApiNode
  | [] => []
  | node :: rest => node :: node.nodesBelow ++ allNodes rest

/-- The nodes below one. -/
def ApiNode.nodesBelow : ApiNode → List ApiNode
  | ⟨_, _, children⟩ => allOptional children

/-- The nodes of a forest that may be missing. -/
def allOptional : Option (List ApiNode) → List ApiNode
  | none => []
  | some nodes => allNodes nodes

end

/-- {lit}`node.get("children") or []`. -/
def ApiNode.childNodes (self : ApiNode) : List ApiNode :=
  self.children.getD []

/-- A node of a forest, at any depth. -/
abbrev ApiNode.Within (node : ApiNode) (nodes : List ApiNode) : Prop :=
  Below childNodes nodes node

mutual

/-- The list has the nodes of the forest. -/
theorem mem_allNodes_iff {node : ApiNode} :
    ∀ nodes : List ApiNode, node ∈ allNodes nodes ↔ node.Within nodes
  | [] => by
      rw [allNodes]
      exact iff_of_false List.not_mem_nil not_below_nil
  | root :: rest => by
      rw [allNodes, List.cons_append, List.mem_cons, List.mem_append, mem_nodesBelow_iff root,
        mem_allNodes_iff rest]
      exact below_cons_iff.symm

/-- The nodes below a node are those within its children. -/
theorem mem_nodesBelow_iff {node : ApiNode} :
    ∀ root : ApiNode, node ∈ root.nodesBelow ↔ node.Within root.childNodes
  | ⟨_, _, none⟩ => iff_of_false List.not_mem_nil not_below_nil
  | ⟨_, _, some nodes⟩ => mem_allNodes_iff nodes

end

/-! ## One node -/

/-- The table of a node with methods. -/
def ApiNode.table? (self : ApiNode) : Option (List (String × RouteEntry)) :=
  if self.methods = [] then none
  else some (self.methods.map fun entry => (entry.1, routeEntry entry.2))

/-- The table of a node has the methods of the node. -/
theorem ApiNode.keys_tableOf (self : ApiNode) :
    (self.methods.map fun entry => (entry.1, routeEntry entry.2)).map Prod.fst =
      self.methods.map Prod.fst := by
  rw [List.map_map]
  rfl

/-- Under a path that is new, the methods of a node are put as its table. -/
theorem ApiNode.putMethods_eq {self : ApiNode} {routes : Routes}
    (h : routes.lookup self.path = none) :
    self.putMethods routes =
      match self.table? with
      | none => routes
      | some table => store routes self.path table := by
  have hkeys := self.keys_tableOf
  have hdistinct := self.nodup_methods
  unfold putMethods table?
  cases hmethods : self.methods with
  | nil => rfl
  | cons first rest =>
      rw [hmethods] at hkeys hdistinct
      have hfirst : storeUnder routes self.path first.1 (routeEntry first.2) =
          store routes self.path [(first.1, routeEntry first.2)] := by
        rw [storeUnder, h, Option.getD_none, store_nil]
      have hrest := foldl_storeUnder routes self.path [(first.1, routeEntry first.2)]
        (rest.map fun entry => (entry.1, routeEntry entry.2))
      rw [List.foldl_map] at hrest
      rw [List.foldl_cons, hfirst, hrest, update_eq_append]
      · rfl
      · rw [← hkeys] at hdistinct
        exact hdistinct

/-- So the table of the node is added to those of the nodes before it. -/
theorem ApiNode.putMethods_tabulates {self : ApiNode} {routes : Routes} {done : List ApiNode}
    (h : Tabulates ApiNode.path ApiNode.table? routes done)
    (hnew : ∀ node ∈ done, node.path ≠ self.path) :
    Tabulates ApiNode.path ApiNode.table? (self.putMethods routes) (done ++ [self]) := by
  have hapart : ∀ x ∈ done, ∀ y ∈ [self], x.path ≠ y.path := by
    intro x hx y hy
    rw [List.mem_singleton] at hy
    subst hy
    exact hnew x hx
  rw [putMethods_eq (h.lookup_eq_none hnew)]
  cases htable : self.table? with
  | none => exact h.update (Tabulates.empty htable) hapart
  | some table => exact h.update (Tabulates.single htable) hapart

/-! ## The whole forest -/

mutual

/-- What was there stays, and each node of the forest has its table. -/
theorem flattenFrom_tabulates {routes : Routes} {done : List ApiNode} :
    ∀ nodes : List ApiNode, Tabulates ApiNode.path ApiNode.table? routes done →
      ((done ++ allNodes nodes).map ApiNode.path).Nodup →
      Tabulates ApiNode.path ApiNode.table? (flattenFrom routes nodes) (done ++ allNodes nodes)
  | [], h, _ => by
      rw [flattenFrom, allNodes, List.append_nil]
      exact h
  | node :: rest, h, hdistinct => by
      have hsplit : done ++ allNodes (node :: rest) =
          (done ++ [node] ++ node.nodesBelow) ++ allNodes rest := by
        simp [allNodes]
      rw [hsplit] at hdistinct ⊢
      rcases nodup_keys_append_iff.mp hdistinct with ⟨hhere, -, -⟩
      rcases nodup_keys_append_iff.mp hhere with ⟨hnew, hbelow, hapart⟩
      rcases nodup_keys_append_iff.mp hnew with ⟨-, -, hother⟩
      rw [flattenFrom]
      refine flattenFrom_tabulates rest (Tabulates.update ?_ ?_ hapart) hdistinct
      · apply ApiNode.putMethods_tabulates h
        intro other hmem
        exact hother other hmem node (List.mem_singleton_self node)
      · exact flattenChildren_tabulates node hbelow

/-- The tables of the nodes below a node are stored under their paths. -/
theorem flattenChildren_tabulates :
    ∀ node : ApiNode, (node.nodesBelow.map ApiNode.path).Nodup →
      Tabulates ApiNode.path ApiNode.table? node.flattenChildren node.nodesBelow
  | ⟨_, _, none⟩, _ => Tabulates.nil
  | ⟨_, _, some nodes⟩, h => flattenFrom_tabulates nodes Tabulates.nil h

end

/-- Each node of a forest has its table under its path, and nothing else is there. -/
theorem flatten_tabulates {nodes : List ApiNode} (h : ((allNodes nodes).map ApiNode.path).Nodup) :
    Tabulates ApiNode.path ApiNode.table? (flatten nodes) (allNodes nodes) :=
  flattenFrom_tabulates nodes Tabulates.nil h

/-! ## What is kept -/

/-- What is found in the table of a node. -/
theorem ApiNode.lookup_table? {self : ApiNode} {method : String} {entry : RouteEntry} :
    (∃ table, self.table? = some table ∧ table.lookup method = some entry) ↔
      ∃ info, (method, info) ∈ self.methods ∧ entry = routeEntry info := by
  have hdistinct := self.nodup_methods
  rw [← keys_tableOf] at hdistinct
  constructor
  · rintro ⟨table, htable, hentry⟩
    unfold table? at htable
    split_ifs at htable
    cases htable
    rw [lookup_eq_some_iff_mem hdistinct, List.mem_map] at hentry
    rcases hentry with ⟨⟨method', info⟩, hinfo, heq⟩
    cases heq
    exact ⟨info, hinfo, rfl⟩
  · rintro ⟨info, hinfo, rfl⟩
    have hmethods : self.methods ≠ [] := List.ne_nil_of_mem hinfo
    refine ⟨_, if_neg hmethods, ?_⟩
    rw [lookup_eq_some_iff_mem hdistinct]
    exact List.mem_map.mpr ⟨_, hinfo, rfl⟩

/-- The entries of the table are those of the methods of the nodes. -/
theorem entryAt_flatten_iff {nodes : List ApiNode}
    (h : ((allNodes nodes).map ApiNode.path).Nodup) {path method : String} {entry : RouteEntry} :
    (flatten nodes).entryAt path method = some entry ↔
      ∃ (node : ApiNode) (info : MethodInfo), node.Within nodes ∧ node.path = path ∧
        (method, info) ∈ node.methods ∧ entry = routeEntry info := by
  unfold Routes.entryAt
  rw [Option.bind_eq_some_iff]
  constructor
  · rintro ⟨table, htable, hentry⟩
    rcases ((flatten_tabulates h).lookup_eq_some_iff h).mp htable with ⟨node, hnode, hpath, hown⟩
    rcases ApiNode.lookup_table?.mp ⟨table, hown, hentry⟩ with ⟨info, hinfo, rfl⟩
    exact ⟨node, info, (mem_allNodes_iff nodes).mp hnode, hpath, hinfo, rfl⟩
  · rintro ⟨node, info, hnode, hpath, hinfo, rfl⟩
    rcases ApiNode.lookup_table?.mpr ⟨info, hinfo, rfl⟩ with ⟨table, hown, hentry⟩
    have hmem := (mem_allNodes_iff nodes).mpr hnode
    exact ⟨table, ((flatten_tabulates h).lookup_eq_some_iff h).mpr ⟨node, hmem, hpath, hown⟩,
      hentry⟩

/-- The parameters of an entry are the names the method has, each as often as there, sorted. -/
structure RouteEntry.Lists (entry : RouteEntry) (info : MethodInfo) : Prop where
  names : entry.parameters.Perm (info.properties.map Prod.fst)
  sorted : entry.parameters.Pairwise (· ≤ ·)

/-- The check of an entry is the one the method has, if it has one that is not empty. -/
def RouteEntry.Guards (entry : RouteEntry) (info : MethodInfo) : Prop :=
  ∀ check, entry.check = some check ↔ info.check? = some check ∧ check.truthy = true

/-- A method is listed with the names of its parameters in order. -/
theorem routeEntry_lists (info : MethodInfo) : (routeEntry info).Lists info where
  names := sortBy_perm id _
  sorted := pairwise_sortBy id _

/-- A method is listed with the check that guards it. -/
theorem routeEntry_guards (info : MethodInfo) : (routeEntry info).Guards info := by
  intro check
  exact Option.filter_eq_some_iff

/-- A table has an entry for each method of each node of a forest, and for nothing else, and
the entry has what the schema says there. -/
structure KeepsSchema (routes : Routes) (nodes : List ApiNode) : Prop where
  listed : ∀ path method, (∃ entry, routes.entryAt path method = some entry) ↔
    ∃ (node : ApiNode) (info : MethodInfo), node.Within nodes ∧ node.path = path ∧
      (method, info) ∈ node.methods
  faithful : ∀ (node : ApiNode) method info entry, node.Within nodes →
    (method, info) ∈ node.methods → routes.entryAt node.path method = some entry →
    entry.Lists info ∧ entry.Guards info

/-- Flattening keeps the whole schema, where no two nodes have one path. -/
theorem flatten_keepsSchema (nodes : List ApiNode)
    (h : ((allNodes nodes).map ApiNode.path).Nodup) : KeepsSchema (flatten nodes) nodes := by
  constructor
  · intro path method
    constructor
    · rintro ⟨entry, hentry⟩
      rcases (entryAt_flatten_iff h).mp hentry with ⟨node, info, hnode, hpath, hinfo, -⟩
      exact ⟨node, info, hnode, hpath, hinfo⟩
    · rintro ⟨node, info, hnode, hpath, hinfo⟩
      exact ⟨_, (entryAt_flatten_iff h).mpr ⟨node, info, hnode, hpath, hinfo, rfl⟩⟩
  · intro node method info entry hnode hinfo hentry
    have hown : (flatten nodes).entryAt node.path method = some (routeEntry info) :=
      (entryAt_flatten_iff h).mpr ⟨node, info, hnode, rfl, hinfo, rfl⟩
    rw [hown] at hentry
    cases hentry
    exact ⟨routeEntry_lists info, routeEntry_guards info⟩

/-- A node with a method, and below it another one. -/
abbrev accessTree : List ApiNode :=
  [{ path := "/access"
     info := some ⟨[("GET", ⟨none, some ⟨none⟩⟩)], by decide⟩
     children := some [{
       path := "/access/users"
       info := some ⟨[("POST", ⟨some ⟨some [("userid", .null), ("comment", .null)]⟩,
         some ⟨some (.arr [.str "perm"])⟩⟩)], by decide⟩
       children := none }] }]

/-- A tree with a check, flattened. -/
theorem flatten_keepsSchema_witness : KeepsSchema (flatten accessTree) accessTree :=
  flatten_keepsSchema accessTree (by decide)

end AioProxmox
