import AioProxmox.Privileges.Routes
import AioProxmox.Routing.Reader

/-!
# Routing - what a call of the source is made with

The reader takes the path of a call for a template without running it: a field of an f-string
becomes a name in braces.  Run, the field becomes a value.  Where each field stands for a whole
segment the two agree: the path that a call is made with is its template filled in, so that
what the package says the path requires is what it says of the route.

Main results:

- Definition {lit}`Reader.evaluate`: the value of a path expression.
- Theorem {lit}`Reader.evaluate_eq_filledIn`: it is the template that the reader found, filled in.
- Theorem {lit}`privilegesFor_collected`: what a call requires as it is made.
-/

namespace AioProxmox

open Routing

/-! ## Names in braces -/

namespace Text

/-- The characters with every name in braces replaced by its value; {lit}`some name` is what
was read of a name so far. -/
def expand (values : String → String) : Option (List Char) → List Char → List Char
  | none, [] => []
  | none, c :: rest =>
      if c = '{' then expand values (some []) rest else c :: expand values none rest
  | some name, [] => '{' :: name
  | some name, c :: rest =>
      if c = '}' then (values (String.ofList name)).toList ++ expand values none rest
      else expand values (some (name ++ [c])) rest

section Expand

variable {values : String → String}

/-- A text without braces stays. -/
theorem expand_append {before rest : List Char} (h : '{' ∉ before) :
    expand values none (before ++ rest) = before ++ expand values none rest := by
  induction before with
  | nil => rfl
  | cons c before ih =>
      rw [List.mem_cons, not_or] at h
      rw [List.cons_append, expand, if_neg (Ne.symm h.1), ih h.2, List.cons_append]

/-- A name is read up to the closing brace. -/
theorem expand_name {name rest : List Char} (h : '}' ∉ name) (read : List Char) :
    expand values (some read) (name ++ '}' :: rest) =
      (values (String.ofList (read ++ name))).toList ++ expand values none rest := by
  induction name generalizing read with
  | nil => simp [expand]
  | cons c name ih =>
      rw [List.mem_cons, not_or] at h
      rw [List.cons_append, expand, if_neg (Ne.symm h.1), ih h.2, List.append_assoc]
      rfl

/-- A name in braces becomes its value. -/
theorem expand_braced {name : String} (h : BraceFree name) (rest : List Char) :
    expand values none ((braced name).toList ++ rest) =
      (values name).toList ++ expand values none rest := by
  rw [toList_braced, List.cons_append, List.append_assoc, expand, if_pos rfl]
  have hname : expand values (some []) (name.toList ++ '}' :: rest) =
      (values (String.ofList ([] ++ name.toList))).toList ++ expand values none rest :=
    expand_name h.2 []
  rw [List.nil_append, String.ofList_toList] at hname
  exact hname

end Expand

end Text

/-- A template whose literals have no braces, nor its names. -/
structure PlainlyNamed (segments : Template String) : Prop where
  literals : ∀ text ∈ segments.literals, Text.BraceFree text
  names : ∀ name ∈ segments.names, Text.BraceFree name

section Expansion

variable {values : String → String}

/-- The rest of a template is named as plainly. -/
theorem PlainlyNamed.tail {segment : Segment String} {segments : Template String}
    (h : PlainlyNamed (segment :: segments)) : PlainlyNamed segments := by
  cases segment with
  | literal text => exact ⟨fun t ht => h.literals t (List.mem_cons_of_mem _ ht), h.names⟩
  | placeholder name => exact ⟨h.literals, fun n hn => h.names n (List.mem_cons_of_mem _ hn)⟩

/-- One segment becomes what it is filled with. -/
theorem expand_segmentText {segment : Segment String} {segments : Template String}
    (h : PlainlyNamed (segment :: segments)) (rest : List Char) :
    Text.expand values none ((segmentText segment).toList ++ rest) =
      (segment.fill values).toList ++ Text.expand values none rest := by
  cases segment with
  | literal text => exact Text.expand_append (h.literals text List.mem_cons_self).1
  | placeholder name => exact Text.expand_braced (h.names name List.mem_cons_self) rest

/-- So does a template, segment by segment. -/
theorem expand_joined {segments : Template String} (h : PlainlyNamed segments) :
    Text.expand values none (Text.joined (segments.map segmentText)).toList =
      (Text.joined (segments.fill values)).toList := by
  induction segments with
  | nil => rfl
  | cons segment segments ih =>
      cases segments with
      | nil =>
          have hlast : Text.expand values none ((segmentText segment).toList ++ []) =
              (segment.fill values).toList ++ Text.expand values none [] :=
            expand_segmentText h []
          rw [List.append_nil] at hlast
          rw [List.map_singleton, joined_singleton, hlast]
          simp [Template.fill, joined_singleton, Text.expand]
      | cons next segments =>
          have hwritten : Text.joined ((segment :: next :: segments).map segmentText) =
              segmentText segment ++ "/" ++ Text.joined ((next :: segments).map segmentText) :=
            joined_cons _ (List.cons_ne_nil _ _)
          have hfilled : Text.joined (Template.fill values (segment :: next :: segments)) =
              segment.fill values ++ "/" ++ Text.joined (Template.fill values (next :: segments)) :=
            joined_cons _ (List.cons_ne_nil _ _)
          rw [hwritten, hfilled]
          simp only [String.toList_append, List.append_assoc]
          rw [expand_segmentText h, Text.expand_append (by decide), ih h.tail]

/-- Filling a template in replaces its names in braces. -/
theorem toList_filledIn {template : String} (h : PlainlyNamed (templateOf template)) :
    (filledIn values template).toList = Text.expand values none template.toList := by
  have hjoined : Text.expand values none
      (Text.joined ((templateOf template).map segmentText)).toList =
        (Text.joined ((templateOf template).fill values)).toList := expand_joined h
  rw [joined_templateOf] at hjoined
  exact hjoined.symm

end Expansion

/-! ## Path expressions -/

namespace Reader

/-- What a part of an f-string contributes; {lit}`rendered` is what a field is formatted to. -/
def partText (rendered : PyNode → Option PyNode → Option String) : PyNode → Option String
  | .constant value => some value.str
  | .formattedValue value spec => rendered value spec
  | _ => none

/-- The value of an expression that is a text or an f-string. -/
def evaluate (rendered : PyNode → Option PyNode → Option String) : PyNode → Option String
  | .constant (.text s) => some s
  | .joinedStr parts => (parts.mapM (partText rendered)).map String.join
  | _ => none

/-- The parts of a path expression. -/
def partsOf : PyNode → List PyNode
  | .joinedStr parts => parts
  | node => [node]

/-- The fields of a path are formatted to the values of their names, and the texts between
them have no braces. -/
structure Renders (rendered : PyNode → Option PyNode → Option String)
    (values : String → String) (path : PyNode) : Prop where
  fields : ∀ value spec, .formattedValue value spec ∈ partsOf path →
    rendered value spec = some (values (placeholderName value))
  texts : ∀ value, .constant value ∈ partsOf path → Text.BraceFree value.str

section Evaluate

variable {rendered : PyNode → Option PyNode → Option String} {values : String → String}
  {path : PyNode} {template : String}

/-- The template of a field is its name in braces. -/
theorem placeholders_lookup {name placeholder : String}
    (h : placeholders.lookup name = some placeholder) :
    placeholder = Text.braced name ∧ Text.BraceFree name := by
  unfold placeholders at h
  simp only [List.lookup_cons] at h
  split at h
  · rename_i heq
    rw [beq_iff_eq] at heq
    cases h
    subst heq
    exact ⟨by decide, by decide⟩
  · split at h
    · rename_i heq
      rw [beq_iff_eq] at heq
      cases h
      subst heq
      exact ⟨by decide, by decide⟩
    · split at h
      · rename_i heq
        rw [beq_iff_eq] at heq
        cases h
        subst heq
        exact ⟨by decide, by decide⟩
      · contradiction

/-- What a part contributes to the value is what its template becomes. -/
theorem expand_templatePart {part : PyNode} {text : String} (htext : templatePart part = some text)
    (hfield : ∀ value spec, part = .formattedValue value spec →
      rendered value spec = some (values (placeholderName value)))
    (hconstant : ∀ value, part = .constant value → Text.BraceFree value.str) :
    ∃ out, partText rendered part = some out ∧ ∀ rest,
      Text.expand values none (text.toList ++ rest) =
        out.toList ++ Text.expand values none rest := by
  cases part with
  | constant value =>
      cases htext
      exact ⟨value.str, rfl, fun rest => Text.expand_append (hconstant value rfl).1⟩
  | formattedValue value spec =>
      rcases placeholders_lookup htext with ⟨rfl, hfree⟩
      exact ⟨_, hfield value spec rfl, fun rest => Text.expand_braced hfree rest⟩
  | _ => contradiction

/-- The parts of an f-string one after the other. -/
theorem expand_templateParts {parts : List PyNode} {texts : List String}
    (htexts : parts.mapM templatePart = some texts)
    (hfields : ∀ value spec, .formattedValue value spec ∈ parts →
      rendered value spec = some (values (placeholderName value)))
    (hconstants : ∀ value, .constant value ∈ parts → Text.BraceFree value.str) :
    ∃ outs, parts.mapM (partText rendered) = some outs ∧
      Text.expand values none (String.join texts).toList = (String.join outs).toList := by
  induction parts generalizing texts with
  | nil =>
      cases htexts
      exact ⟨[], rfl, rfl⟩
  | cons part parts ih =>
      rw [List.mapM_cons] at htexts
      cases hpart : templatePart part with
      | none =>
          rw [hpart] at htexts
          contradiction
      | some text =>
          cases hrest : parts.mapM templatePart with
          | none =>
              rw [hpart, hrest] at htexts
              contradiction
          | some rest =>
              rw [hpart, hrest] at htexts
              cases htexts
              rcases expand_templatePart hpart
                (fun value spec h => hfields value spec (h ▸ List.mem_cons_self))
                (fun value h => hconstants value (h ▸ List.mem_cons_self)) with
                ⟨out, hout, hexpand⟩
              rcases ih hrest (fun value spec h => hfields value spec (List.mem_cons_of_mem _ h))
                (fun value h => hconstants value (List.mem_cons_of_mem _ h)) with
                ⟨outs, houts, hexpands⟩
              refine ⟨out :: outs, ?_, ?_⟩
              · rw [List.mapM_cons, hout, houts]
                rfl
              · rw [String.join_cons, String.toList_append, hexpand, hexpands, String.join_cons,
                  String.toList_append]

/-- A path expression that the reader understands evaluates to its template, filled in. -/
theorem evaluate_eq_filledIn (htemplate : Reader.templateOf path = some template)
    (hplain : PlainlyNamed (AioProxmox.templateOf template))
    (hrenders : Renders rendered values path) :
    evaluate rendered path = some (filledIn values template) := by
  cases path with
  | constant value =>
      cases value with
      | text s =>
          cases htemplate
          have hfree : Text.BraceFree template :=
            hrenders.texts (.text template) List.mem_cons_self
          refine congrArg some (String.toList_injective ?_)
          have hexpand : Text.expand values none (template.toList ++ []) =
              template.toList ++ Text.expand values none [] := Text.expand_append hfree.1
          rw [List.append_nil] at hexpand
          rw [toList_filledIn hplain, hexpand]
          exact (List.append_nil _).symm
      | other rendered => contradiction
  | joinedStr parts =>
      simp only [Reader.templateOf, Option.map_eq_some_iff] at htemplate
      rcases htemplate with ⟨texts, htexts, rfl⟩
      rcases expand_templateParts htexts hrenders.fields hrenders.texts with
        ⟨outs, houts, hexpand⟩
      rw [evaluate, houts, Option.map_some]
      refine congrArg some (String.toList_injective ?_)
      rw [toList_filledIn hplain, hexpand]
  | _ => contradiction

end Evaluate

end Reader

/-! ## What a call requires -/

/-- The routes of the package are plainly named. -/
theorem checks_plainlyNamed : ∀ entry ∈ checks, PlainlyNamed (templateOf entry.1.2) := by
  have hliterals : ∀ segments ∈ checkSegments,
      ∀ text ∈ Template.literals (segments.map segmentOf), Text.BraceFree text := by
    decide +kernel
  intro entry hentry
  have hsegments : Text.split '/' entry.1.2 ∈ checkSegments := by
    rw [← checks_split]
    exact List.mem_map_of_mem hentry
  exact ⟨hliterals _ hsegments, (checks_unambiguous.wellFormed entry hentry).free⟩

/-- A call of a request is collected as a route, whatever the package knows of it. -/
theorem Reader.collect_call {unparse : PyNode → String} {tree : PyNode} {call : SourceCall}
    (hwithin : call.node.Within tree) {method : ConstantValue} {path : PyNode}
    {rest : List PyNode} (hargs : call.args = .constant method :: path :: rest)
    {template : String} (htemplate : templateOf path = some template) :
    ∃ route ∈ (collect unparse tree).routes,
      route.method = method.str ∧ route.path = template := by
  refine ⟨⟨method.str, template, parametersOf call.keywords, call.lineno⟩,
    mem_collect_routes.mpr ⟨_, hwithin, ?_⟩, rfl, rfl⟩
  unfold contribution SourceCall.node turn
  rw [hargs]
  simp only [if_true, htemplate]
  exact List.mem_singleton_self _

/-- A call of a request in the source whose method is a constant and whose path the reader
understands is collected as a route; and where the package has that route, in whatever order,
the path that the call is made with requires what the route does, with the values of its fields
in the ACL paths. -/
theorem privilegesFor_collected (upper : String → String) {table : List CheckEntry}
    (hperm : table.Perm checks) {unparse : Reader.PyNode → String} {tree : Reader.PyNode}
    {call : Reader.SourceCall} (hwithin : call.node.Within tree)
    {method : Reader.ConstantValue} {path : Reader.PyNode} {rest : List Reader.PyNode}
    (hargs : call.args = .constant method :: path :: rest) {template : String}
    (htemplate : Reader.templateOf path = some template) :
    (∃ route ∈ (Reader.collect unparse tree).routes,
      route.method = method.str ∧ route.path = template) ∧
    ((upper method.str, template) ∈ checks.map Prod.fst →
      ∀ rendered values, Reader.Renders rendered values path → SlashFreeFor template values →
        ∃ called, Reader.evaluate rendered path = some called ∧
          privilegesFor upper table method.str called [] =
            .ok ((requiredPrivileges upper checks method.str template).map
              (Check.filledIn values))) := by
  refine ⟨Reader.collect_call hwithin hargs htemplate,
    fun hkey rendered values hrenders hfree => ?_⟩
  rcases List.mem_map.mp hkey with ⟨entry, hentry, hentryKey⟩
  rcases Prod.mk.inj hentryKey with ⟨hmethod, rfl⟩
  have hplainly := checks_plainlyNamed entry hentry
  refine ⟨_, Reader.evaluate_eq_filledIn htemplate hplainly hrenders, ?_⟩
  exact privilegesFor_entry upper hperm hentry hmethod hfree

/-- {lit}`f"nodes/\x7bself.node\x7d/apt/update"`. -/
abbrev aptUpdatePath : Reader.PyNode :=
  .joinedStr [.constant (.text "nodes/"),
    .formattedValue (.attributeOf (.name "self") "node") none, .constant (.text "/apt/update")]

/-- {lit}`self.client.request("GET", f"nodes/\x7bself.node\x7d/apt/update")`. -/
abbrev aptUpdateCall : Reader.SourceCall where
  receiver := .attributeOf (.name "self") "client"
  args := [.constant (.text "GET"), aptUpdatePath]
  keywords := []
  lineno := 1

/-- The method is collected, and called on the node {lit}`pve`. -/
theorem privilegesFor_collected_witness :
    (∃ route ∈ (Reader.collect Reader.unparseText (.other [aptUpdateCall.node])).routes,
      route.method = "GET" ∧ route.path = "nodes/\x7bnode\x7d/apt/update") ∧
    ∃ called, Reader.evaluate (fun _ _ => some "pve") aptUpdatePath = some called ∧
      privilegesFor id checks.reverse "GET" called [] =
        .ok (some ⟨[{ path := "/nodes/pve", privileges := ["Sys.Modify"] }]⟩) := by
  have hkey : (id "GET", "nodes/\x7bnode\x7d/apt/update") ∈ checks.map Prod.fst := by
    decide +kernel
  have hwithin : aptUpdateCall.node.Within (.other [aptUpdateCall.node]) := by
    rw [← Reader.PyNode.mem_walk_iff]
    simp [Reader.PyNode.walk, Reader.PyNode.descent, Reader.PyNode.children,
      Collections.Descent.walk_cons]
  have hrenders : Reader.Renders (fun _ _ => some "pve") (fun _ => "pve") aptUpdatePath := by
    constructor
    · exact fun _ _ _ => rfl
    · intro value hvalue
      simp only [Reader.partsOf, List.mem_cons, Reader.PyNode.constant.injEq, reduceCtorEq,
        List.not_mem_nil, or_false, false_or] at hvalue
      rcases hvalue with rfl | rfl
      · decide
      · decide
  have hrequired : (requiredPrivileges id checks "GET"
      "nodes/\x7bnode\x7d/apt/update").map (Check.filledIn fun _ => "pve") =
        some ⟨[{ path := "/nodes/pve", privileges := ["Sys.Modify"] }]⟩ := by
    decide +kernel
  have hargs : aptUpdateCall.args = .constant (.text "GET") :: aptUpdatePath :: [] := rfl
  have hcall : (∃ route ∈ (Reader.collect Reader.unparseText (.other [aptUpdateCall.node])).routes,
      route.method = "GET" ∧ route.path = "nodes/\x7bnode\x7d/apt/update") ∧ _ :=
    privilegesFor_collected id (List.reverse_perm checks) hwithin hargs rfl
  rcases hcall.2 hkey _ _ hrenders fun _ _ => by decide with ⟨called, hcalled, hprivileges⟩
  exact ⟨hcall.1, called, hcalled, hprivileges.trans (congrArg Except.ok hrequired)⟩

end AioProxmox
