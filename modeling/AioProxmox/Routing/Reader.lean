import AioProxmox.Collections.Folds
import AioProxmox.Collections.Traversal
import AioProxmox.Privileges.Paths
import Mathlib.Data.Finset.Lattice.Lemmas

/-!
# Routing - the routes read out of the source

The routes that the package calls are read out of its own text, as a tree of syntax.  A call
of {lit}`request` is read if it passes a literal and a path by position; a path that is built
elsewhere is reported as it is written.

Main results:

- Definition {lit}`collect`: the routes of a module and the paths it does not spell out.
- Theorem {lit}`mem_collect_routes`: they are those of the nodes of the tree.
- Theorem {lit}`mutesNone_iff`: when every call of {lit}`request` is accounted for.
-/

namespace AioProxmox.Reader

open Collections

/-! ## Trees of syntax -/

/-- The value of a constant: a text, or anything else as {lit}`str` renders it. -/
inductive ConstantValue where
  | text (s : String)
  | other (rendered : String)

/-- {lit}`str(value)`. -/
def ConstantValue.str : ConstantValue → String
  | text s => s
  | other rendered => rendered

/-- A node of Python's syntax tree.  The kinds that the reader does not tell apart are
{lit}`other`; contexts and operators are left out. -/
inductive PyNode where
  | call (func : PyNode) (args : List PyNode) (keywords : List (Option String × PyNode))
      (lineno : Nat)
  | attributeOf (value : PyNode) (attr : String)
  | name (id : String)
  | constant (value : ConstantValue)
  | joinedStr (values : List PyNode)
  | formattedValue (value : PyNode) (formatSpec : Option PyNode)
  | dict (items : List (Option PyNode × PyNode))
  | keyword (arg : Option String) (value : PyNode)
  | assign (targets : List PyNode) (value : PyNode) (lineno : Nat)
  | other (children : List PyNode)

namespace PyNode

/-- {lit}`ast.iter_child_nodes`: a key of a dictionary is missing where another one is
unpacked into it. -/
def children : PyNode → List PyNode
  | call func args keywords _ => func :: (args ++ keywords.map fun kw => keyword kw.1 kw.2)
  | attributeOf value _ => [value]
  | name _ => []
  | constant _ => []
  | joinedStr values => values
  | formattedValue value formatSpec => value :: formatSpec.toList
  | dict items => items.filterMap Prod.fst ++ items.map Prod.snd
  | keyword _ value => [value]
  | assign targets value _ => targets ++ [value]
  | other children => children

/-- The children of a list are smaller than the list. -/
theorem sum_sizeOf (nodes : List PyNode) : (nodes.map sizeOf).sum < sizeOf nodes := by
  induction nodes with
  | nil => simp
  | cons node rest ih =>
      simp only [List.map_cons, List.sum_cons, List.cons.sizeOf_spec]
      omega

/-- The values of keywords are smaller than the keywords. -/
theorem sum_sizeOf_keywords (keywords : List (Option String × PyNode)) :
    ((keywords.map fun kw => keyword kw.1 kw.2).map sizeOf).sum < sizeOf keywords := by
  induction keywords with
  | nil => simp
  | cons kw rest ih =>
      simp only [List.map_cons, List.sum_cons, List.cons.sizeOf_spec, keyword.sizeOf_spec] at ih ⊢
      rw [Prod.mk.sizeOf_spec]
      omega

/-- The keys and values of a dictionary are smaller than its items. -/
theorem sum_sizeOf_items (items : List (Option PyNode × PyNode)) :
    ((items.filterMap Prod.fst).map sizeOf).sum + ((items.map Prod.snd).map sizeOf).sum <
      sizeOf items := by
  induction items with
  | nil => simp
  | cons item rest ih =>
      rcases item with ⟨_ | key, value⟩
      · simp only [List.filterMap_cons, List.map_cons, List.sum_cons, List.cons.sizeOf_spec,
          Prod.mk.sizeOf_spec] at ih ⊢
        omega
      · simp only [List.filterMap_cons, List.map_cons, List.sum_cons, List.cons.sizeOf_spec,
          Prod.mk.sizeOf_spec, Option.some.sizeOf_spec] at ih ⊢
        omega

/-- The nodes below a node are smaller together than it is. -/
theorem sum_sizeOf_children (node : PyNode) : (node.children.map sizeOf).sum < sizeOf node := by
  cases node with
  | call func args keywords lineno =>
      have hargs := sum_sizeOf args
      have hkeywords := sum_sizeOf_keywords keywords
      simp only [children, List.map_cons, List.map_append, List.sum_cons, List.sum_append,
        call.sizeOf_spec]
      omega
  | attributeOf value attr =>
      simp only [children, List.map_cons, List.map_nil, List.sum_cons, List.sum_nil,
        attributeOf.sizeOf_spec]
      omega
  | name id =>
      simp only [children, List.map_nil, List.sum_nil, name.sizeOf_spec]
      omega
  | constant value =>
      simp only [children, List.map_nil, List.sum_nil, constant.sizeOf_spec]
      omega
  | joinedStr values =>
      have hvalues := sum_sizeOf values
      simp only [children, joinedStr.sizeOf_spec]
      omega
  | formattedValue value formatSpec =>
      cases formatSpec with
      | none =>
          simp only [children, Option.toList_none, List.map_cons, List.map_nil, List.sum_cons,
            List.sum_nil, formattedValue.sizeOf_spec]
          omega
      | some spec =>
          simp only [children, Option.toList_some, List.map_cons, List.map_nil, List.sum_cons,
            List.sum_nil, formattedValue.sizeOf_spec, Option.some.sizeOf_spec]
          omega
  | dict items =>
      have hitems := sum_sizeOf_items items
      simp only [children, List.map_append, List.sum_append, dict.sizeOf_spec]
      omega
  | keyword arg value =>
      simp only [children, List.map_cons, List.map_nil, List.sum_cons, List.sum_nil,
        keyword.sizeOf_spec]
      omega
  | assign targets value lineno =>
      have htargets := sum_sizeOf targets
      simp only [children, List.map_append, List.sum_append, List.map_cons, List.map_nil,
        List.sum_cons, List.sum_nil, assign.sizeOf_spec]
      omega
  | other nodes =>
      have hnodes := sum_sizeOf nodes
      simp only [children, other.sizeOf_spec]
      omega

/-- A walk of the tree comes to an end. -/
def descent : Descent PyNode where
  children := children
  bounded := ⟨sizeOf, sum_sizeOf_children⟩

/-- {lit}`ast.walk`. -/
def walk (tree : PyNode) : List PyNode :=
  descent.walk [tree]

end PyNode

/-! ## The reader -/

/-- The action in a path that a factory builds. -/
def action : String :=
  "\x00"

/-- {lit}`FACTORIES`. -/
def factories : List (String × String) :=
  [("node_action", "nodes/\x7bnode\x7d/" ++ action),
    ("qemu_action", "nodes/\x7bnode\x7d/qemu/\x7bvmid\x7d/status/" ++ action),
    ("lxc_action", "nodes/\x7bnode\x7d/lxc/\x7bvmid\x7d/status/" ++ action)]

/-- {lit}`PLACEHOLDERS`. -/
def placeholders : List (String × String) :=
  [("node", "\x7bnode\x7d"), ("vmid", "\x7bvmid\x7d"), ("storage", "\x7bstorage\x7d")]

/-- {lit}`Route`: a call that the package makes. -/
structure Route where
  method : String
  path : String
  parameters : Finset String
  line : Nat

/-- {lit}`attribute or plain or ""`: what a placeholder of an f-string is called. -/
def placeholderName : PyNode → String
  | .attributeOf _ attr => attr
  | .name id => id
  | _ => ""

/-- What a part of an f-string is in a template, if it has a place there. -/
def templatePart : PyNode → Option String
  | .constant value => some value.str
  | .formattedValue value _ => placeholders.lookup (placeholderName value)
  | _ => none

/-- {lit}`template_of`: the path that an argument spells out. -/
def templateOf : PyNode → Option String
  | .constant (.text s) => some s
  | .joinedStr values => (values.mapM templatePart).map String.join
  | _ => none

/-- The texts among the keys of a dictionary that is written out. -/
def namesIn : PyNode → Finset String
  | .dict items =>
      (items.filterMap fun item =>
        match item.1 with
        | some (.constant (.text s)) => some s
        | _ => none).toFinset
  | _ => ∅

/-- {lit}`parameters_of`: the parameter names that a call spells out. -/
def parametersOf (keywords : List (Option String × PyNode)) : Finset String :=
  keywords.foldl (fun names keyword =>
    if keyword.1 = some "json_data" ∨ keyword.1 = some "params" then names ∪ namesIn keyword.2
    else names) ∅

/-- What {lit}`collect` returns. -/
structure Found where
  routes : List Route := []
  indirect : Finset String := ∅

/-- One route more. -/
def Found.add (self : Found) (route : Route) : Found :=
  { self with routes := self.routes ++ [route] }

/-- One path more that is built elsewhere. -/
def Found.report (self : Found) (text : String) : Found :=
  { self with indirect := insert text self.indirect }

/-- The loop of {lit}`collect` at one node; {lit}`unparse` is that of {lit}`ast`. -/
def turn (unparse : PyNode → String) (found : Found) : PyNode → Found
  | .call (.attributeOf _ attr) (.constant method :: path :: _) keywords lineno =>
      if attr = "request" then
        match templateOf path with
        | none => found.report (unparse path)
        | some template => found.add ⟨method.str, template, parametersOf keywords, lineno⟩
      else found
  | .assign _ (.call (.name factory) (.constant value :: _) _ _) lineno =>
      match factories.lookup factory with
      | some template => found.add ⟨"POST", Text.replace template action value.str, ∅, lineno⟩
      | none =>
          if factory = "NodeStatusCommand" then
            found.add ⟨"POST", "nodes/\x7bnode\x7d/status", {"command"}, lineno⟩
          else found
  | _ => found

/-- {lit}`collect`, of the tree that the text was parsed to. -/
def collect (unparse : PyNode → String) (tree : PyNode) : Found :=
  tree.walk.foldl (turn unparse) {}

/-! ## What each node contributes -/

section Contributions

variable {unparse : PyNode → String} {tree node : PyNode} {route : Route} {text : String}

/-- What the loop finds at a node. -/
def contribution (unparse : PyNode → String) (node : PyNode) : Found :=
  turn unparse {} node

/-- What was found first and what was found then. -/
def Found.join (self other : Found) : Found where
  routes := self.routes ++ other.routes
  indirect := self.indirect ∪ other.indirect

theorem Found.join_empty (self : Found) : self.join {} = self := by
  simp [join]

theorem Found.join_add (self : Found) (route : Route) :
    self.join (Found.add {} route) = self.add route := by
  simp [join, add]

theorem Found.join_report (self : Found) (text : String) :
    self.join (Found.report {} text) = self.report text := by
  simp [join, report]

/-- The loop adds it to what was found before. -/
theorem turn_eq (found : Found) (node : PyNode) :
    turn unparse found node = found.join (contribution unparse node) := by
  unfold contribution turn
  split
  · split_ifs
    · split
      · rw [Found.join_report]
      · rw [Found.join_add]
    · rw [Found.join_empty]
  · split
    · rw [Found.join_add]
    · split_ifs
      · rw [Found.join_add]
      · rw [Found.join_empty]
  · rw [Found.join_empty]

/-- A node is one of a tree, at any depth. -/
abbrev PyNode.Within (node tree : PyNode) : Prop :=
  Below children [tree] node

/-- The walk goes through the nodes within the tree. -/
theorem PyNode.mem_walk_iff : node ∈ tree.walk ↔ node.Within tree :=
  Descent.mem_walk_iff

/-- The routes are those of the nodes of the tree. -/
theorem mem_collect_routes :
    route ∈ (collect unparse tree).routes ↔
      ∃ node : PyNode, node.Within tree ∧ route ∈ (contribution unparse node).routes := by
  unfold collect
  refine (foldl_iff (fun found : Found => route ∈ found.routes)
    (fun node => route ∈ (contribution unparse node).routes) ?_ {} tree.walk).trans ?_
  · intro found node
    simp [turn_eq, Found.join]
  · simp [PyNode.mem_walk_iff]

/-- So are the texts of the paths that are not spelled out. -/
theorem mem_collect_indirect :
    text ∈ (collect unparse tree).indirect ↔
      ∃ node : PyNode, node.Within tree ∧ text ∈ (contribution unparse node).indirect := by
  unfold collect
  refine (foldl_iff (fun found : Found => text ∈ found.indirect)
    (fun node => text ∈ (contribution unparse node).indirect) ?_ {} tree.walk).trans ?_
  · intro found node
    simp [turn_eq, Found.join]
  · simp [PyNode.mem_walk_iff]

end Contributions

/-! ## Calls of a request -/

/-- A call whose function is an attribute named {lit}`request`. -/
structure SourceCall where
  receiver : PyNode
  args : List PyNode
  keywords : List (Option String × PyNode)
  lineno : Nat

namespace SourceCall

/-- The call in the tree. -/
def node (self : SourceCall) : PyNode :=
  .call (.attributeOf self.receiver "request") self.args self.keywords self.lineno

/-- The path expression of a call: its second argument by position, else the one by name. -/
def pathExpression? (self : SourceCall) : Option PyNode :=
  match self.args with
  | _ :: path :: _ => some path
  | _ => self.keywords.lookup (some "path")

/-- The path that is read: the second argument by position, after a constant. -/
def readPath? (self : SourceCall) : Option PyNode :=
  match self.args with
  | .constant _ :: path :: _ => some path
  | _ => none

/-- A path is read where it comes second, after a constant method. -/
theorem readPath?_eq_some_iff {self : SourceCall} {path : PyNode} :
    self.readPath? = some path ↔
      ∃ method rest, self.args = .constant method :: path :: rest := by
  unfold readPath?
  constructor
  · intro h
    split at h
    · rename_i method path' rest hargs
      cases h
      exact ⟨method, rest, hargs⟩
    · contradiction
  · rintro ⟨method, rest, hargs⟩
    rw [hargs]

/-- The path that is read is the path expression. -/
theorem pathExpression?_of_read {self : SourceCall} {path : PyNode}
    (h : self.readPath? = some path) : self.pathExpression? = some path := by
  rcases readPath?_eq_some_iff.mp h with ⟨method, rest, hargs⟩
  rw [pathExpression?, hargs]

variable {self : SourceCall} {unparse : PyNode → String}

/-- A call that is not read contributes nothing. -/
theorem contribution_skipped (h : self.readPath? = none) : contribution unparse self.node = {} := by
  unfold contribution node turn
  split
  · rename_i hcall
    simp only [PyNode.call.injEq] at hcall
    rcases hcall with ⟨-, hargs, -, -⟩
    rw [readPath?, hargs] at h
    contradiction
  · rename_i hcall
    contradiction
  · rfl

/-- One whose path is built elsewhere contributes its text. -/
theorem contribution_indirect {path : PyNode} (h : self.readPath? = some path)
    (htemplate : templateOf path = none) :
    contribution unparse self.node = Found.report {} (unparse path) := by
  rcases readPath?_eq_some_iff.mp h with ⟨method, rest, hargs⟩
  unfold contribution node turn
  rw [hargs]
  simp only [if_true, htemplate]

/-- One whose path is spelled out contributes a route. -/
theorem contribution_route {path : PyNode} {template : String} (h : self.readPath? = some path)
    (htemplate : templateOf path = some template) :
    ∃ route, contribution unparse self.node = Found.add {} route := by
  rcases readPath?_eq_some_iff.mp h with ⟨method, rest, hargs⟩
  unfold contribution node turn
  rw [hargs]
  simp only [if_true, htemplate]
  exact ⟨_, rfl⟩

end SourceCall

section Calls

variable (unparse : PyNode → String) (tree : PyNode)

/-- The call yields one of the routes. -/
def Yields (call : SourceCall) : Prop :=
  ∃ route ∈ (collect unparse tree).routes, route ∈ (contribution unparse call.node).routes

/-- The path expression of the call is reported. -/
def Reported (call : SourceCall) : Prop :=
  ∃ path, call.pathExpression? = some path ∧ unparse path ∈ (collect unparse tree).indirect

/-- Every call of a request in the tree yields a route or has its path reported. -/
def MutesNone : Prop :=
  ∀ call : SourceCall, call.node.Within tree →
    Yields unparse tree call ∨ Reported unparse tree call

/-- A call that is read has a path that is written like that of this one and built elsewhere. -/
def SharesPath (call : SourceCall) : Prop :=
  ∃ path, call.pathExpression? = some path ∧
    ∃ (other : SourceCall) (path' : PyNode), other.node.Within tree ∧
      other.readPath? = some path' ∧ templateOf path' = none ∧ unparse path' = unparse path

variable {unparse tree}

/-- What is reported comes from the calls that are read. -/
theorem mem_contribution_indirect {node : PyNode} {text : String}
    (h : text ∈ (contribution unparse node).indirect) :
    ∃ (call : SourceCall) (path : PyNode), node = call.node ∧ call.readPath? = some path ∧
      templateOf path = none ∧ unparse path = text := by
  unfold contribution turn at h
  split at h
  · rename_i receiver attr method path rest keywords lineno
    split_ifs at h with hattr
    · subst hattr
      split at h
      · rename_i htemplate
        simp only [Found.report, Finset.mem_insert, Finset.notMem_empty, or_false] at h
        exact ⟨⟨receiver, .constant method :: path :: rest, keywords, lineno⟩, path, rfl, rfl,
          htemplate, h.symm⟩
      · contradiction
    · contradiction
  · split at h
    · contradiction
    · split_ifs at h
      · contradiction
      · contradiction
  · contradiction

/-- A call yields a route if it is read and its path is spelled out. -/
theorem yields_iff {call : SourceCall} (hwithin : call.node.Within tree) :
    Yields unparse tree call ↔
      ∃ path template, call.readPath? = some path ∧ templateOf path = some template := by
  constructor
  · rintro ⟨route, -, hroute⟩
    cases hread : call.readPath? with
    | none =>
        rw [SourceCall.contribution_skipped hread] at hroute
        contradiction
    | some path =>
        cases htemplate : templateOf path with
        | none =>
            rw [SourceCall.contribution_indirect hread htemplate] at hroute
            contradiction
        | some template => exact ⟨path, template, rfl, htemplate⟩
  · rintro ⟨path, template, hread, htemplate⟩
    obtain ⟨route, hroute⟩ : ∃ route, contribution unparse call.node = Found.add {} route :=
      SourceCall.contribution_route hread htemplate
    have hmem : route ∈ (contribution unparse call.node).routes := by
      rw [hroute]
      exact List.mem_singleton_self route
    exact ⟨route, mem_collect_routes.mpr ⟨_, hwithin, hmem⟩, hmem⟩

/-- A path expression is reported if a call that is read has one that is written alike. -/
theorem reported_iff {call : SourceCall} :
    Reported unparse tree call ↔ SharesPath unparse tree call := by
  constructor
  · rintro ⟨path, hpath, hreported⟩
    rcases mem_collect_indirect.mp hreported with ⟨node, hwithin, htext⟩
    rcases mem_contribution_indirect htext with ⟨other, path', rfl, hread, htemplate, heq⟩
    exact ⟨path, hpath, other, path', hwithin, hread, htemplate, heq⟩
  · rintro ⟨path, hpath, other, path', hwithin, hread, htemplate, heq⟩
    refine ⟨path, hpath, mem_collect_indirect.mpr ⟨_, hwithin, ?_⟩⟩
    rw [SourceCall.contribution_indirect hread htemplate, heq]
    exact Finset.mem_insert_self _ _

/-- Every call of a request is accounted for exactly if each of them is read or has the path of
one that is. -/
theorem mutesNone_iff (unparse : PyNode → String) (tree : PyNode) :
    MutesNone unparse tree ↔ ∀ call : SourceCall, call.node.Within tree →
      (∃ path, call.readPath? = some path) ∨ SharesPath unparse tree call := by
  constructor
  · intro hnone call hwithin
    rcases hnone call hwithin with hyields | hreported
    · rcases (yields_iff hwithin).mp hyields with ⟨path, template, hread, -⟩
      exact .inl ⟨path, hread⟩
    · exact .inr (reported_iff.mp hreported)
  · intro h call hwithin
    rcases h call hwithin with ⟨path, hread⟩ | hshares
    · cases htemplate : templateOf path with
      | none =>
          right
          rw [reported_iff]
          exact ⟨path, SourceCall.pathExpression?_of_read hread, call, path, hwithin, hread,
            htemplate, rfl⟩
      | some template =>
          left
          rw [yields_iff hwithin]
          exact ⟨path, template, hread, htemplate⟩
    · right
      rw [reported_iff]
      exact hshares

end Calls

/-- {lit}`client.request("GET", path="version")`. -/
abbrev pathByName : SourceCall where
  receiver := .name "client"
  args := [.constant (.text "GET")]
  keywords := [(some "path", .constant (.text "version"))]
  lineno := 1

/-- {lit}`ast.unparse` of a text without quotes. -/
abbrev unparseText : PyNode → String
  | .constant (.text s) => "'" ++ s ++ "'"
  | _ => ""

/-- A call that names its path is skipped without a word. -/
theorem mutesNone_counterexample :
    ¬ MutesNone unparseText (.other [.other [pathByName.node]]) := by
  intro hnone
  have hwithin : pathByName.node.Within (.other [.other [pathByName.node]]) := by
    rw [← PyNode.mem_walk_iff]
    simp [PyNode.walk, PyNode.descent, PyNode.children, Descent.walk_cons]
  rcases hnone pathByName hwithin with hyields | hreported
  · rcases (yields_iff hwithin).mp hyields with ⟨path, template, hread, -⟩
    contradiction
  · rcases reported_iff.mp hreported with ⟨path, -, other, path', hother, hread, -⟩
    have hargs : other.args = [.constant (.text "GET")] := by
      have hmem := PyNode.mem_walk_iff.mpr hother
      simp [PyNode.walk, PyNode.descent, PyNode.children, Descent.walk_cons, SourceCall.node]
        at hmem
      exact hmem.2.1
    rw [SourceCall.readPath?, hargs] at hread
    contradiction

end AioProxmox.Reader
