import AioProxmox.Collections.Sorting
import AioProxmox.Collections.Unions
import AioProxmox.Privileges.Generator
import AioProxmox.Privileges.Lookup
import AioProxmox.Routing.Reader
import AioProxmox.Schema.Flatten
import AioProxmox.Text.Literals
import Mathlib.Data.Prod.Lex

/-!
# Privileges - from the schema to the table

The script takes the check of each route that the package calls out of the schema and writes
the table as a module, which the package imports.  The module is text put together line by
line; what is imported is the table that was found, in order, and looking a route up in it
tells what the schema asks for.

Main results:

- Definition {lit}`entries`: what the schema states for each route.
- Definition {lit}`render`: the module, and {lit}`importedChecks`: the table it defines.
- Theorem {lit}`importedChecks_render`: what is rendered is imported.
- Theorem {lit}`requiredPrivileges_faithful`: a route requires what the schema asks for.
-/

namespace AioProxmox

open Collections Literals

/-! ## What the schema states -/

section Entries

variable (repr : Json → String) (api : Routes)

/-- {lit}`info.get("check")` of a route, where the schema has it and it is not empty. -/
def statedCheck (route : Reader.Route) : Option Json :=
  (api.entryAt ("/" ++ route.path) route.method).bind fun info => info.check.filter Json.truthy

/-- The loop of {lit}`entries`. -/
def entriesFrom (found : List ((String × String) × List Alternative)) :
    List Reader.Route → Except GeneratorError (List ((String × String) × List Alternative))
  | [] => .ok found
  | route :: rest =>
      match statedCheck api route with
      | none => entriesFrom found rest
      | some check => do
          let described ← alternatives repr check
          entriesFrom (store found (route.method, route.path) described) rest

/-- {lit}`entries`, for the schema and the routes that were read. -/
def entries (routes : List Reader.Route) :
    Except GeneratorError (List ((String × String) × List Alternative)) :=
  entriesFrom repr api [] routes

/-- What the script finds for a route. -/
def Describes (route : Reader.Route) (described : List Alternative) : Prop :=
  ∃ check, statedCheck api route = some check ∧ alternatives repr check = .ok described

variable {repr api}

/-- Routes of one key are described alike. -/
theorem Describes.unique {route route' : Reader.Route} {described described' : List Alternative}
    (h : Describes repr api route described) (h' : Describes repr api route' described')
    (hmethod : route.method = route'.method) (hpath : route.path = route'.path) :
    described = described' := by
  rcases h with ⟨check, hcheck, hdescribed⟩
  rcases h' with ⟨check', hcheck', hdescribed'⟩
  have hsame : statedCheck api route = statedCheck api route' := by
    unfold statedCheck
    rw [hmethod, hpath]
  rw [hsame, hcheck'] at hcheck
  cases hcheck
  rw [hdescribed, Except.ok.injEq] at hdescribed'
  exact hdescribed'

/-- A table holds under each key what the script finds for the routes of that key. -/
structure Collects (repr : Json → String) (api : Routes)
    (found : List ((String × String) × List Alternative)) (routes : List Reader.Route) :
    Prop where
  keys : (found.map Prod.fst).Nodup
  mem : ∀ key described, (key, described) ∈ found ↔
    ∃ route ∈ routes, (route.method, route.path) = key ∧ Describes repr api route described

/-- A route without a check adds nothing to what is collected. -/
theorem Collects.skip {found : List ((String × String) × List Alternative)}
    {routes : List Reader.Route} {route : Reader.Route} (h : Collects repr api found routes)
    (hroute : statedCheck api route = none) : Collects repr api found (routes ++ [route]) where
  keys := h.keys
  mem key described := by
    rw [h.mem]
    constructor
    · rintro ⟨other, hother, hrest⟩
      exact ⟨other, List.mem_append_left _ hother, hrest⟩
    · rintro ⟨other, hother, hkey, hdescribes⟩
      rcases List.mem_append.mp hother with hother | hother
      · exact ⟨other, hother, hkey, hdescribes⟩
      · cases List.mem_singleton.mp hother
        rcases hdescribes with ⟨check, hcheck, -⟩
        rw [hroute] at hcheck
        contradiction

/-- A route with a check is stored under its key. -/
theorem Collects.store {found : List ((String × String) × List Alternative)}
    {routes : List Reader.Route} {route : Reader.Route} (h : Collects repr api found routes)
    {described : List Alternative} (hroute : Describes repr api route described) :
    Collects repr api (store found (route.method, route.path) described)
      (routes ++ [route]) where
  keys := nodup_keys_store h.keys _ _
  mem key other := by
    rw [mem_store_iff h.keys]
    split_ifs with hkey
    · constructor
      · rintro rfl
        exact ⟨route, by simp, hkey.symm, hroute⟩
      · rintro ⟨route', -, hkey', hdescribes⟩
        rw [hkey, Prod.mk.injEq] at hkey'
        exact hdescribes.unique hroute hkey'.1 hkey'.2
    · rw [h.mem]
      constructor
      · rintro ⟨route', hroute', hrest⟩
        exact ⟨route', List.mem_append_left _ hroute', hrest⟩
      · rintro ⟨route', hroute', hkey', hdescribes⟩
        rcases List.mem_append.mp hroute' with hroute' | hroute'
        · exact ⟨route', hroute', hkey', hdescribes⟩
        · cases List.mem_singleton.mp hroute'
          exact absurd hkey'.symm hkey

/-- The loop goes through all routes, or stops at one whose check it cannot describe. -/
theorem entriesFrom_collects {found found' : List ((String × String) × List Alternative)}
    {done rest : List Reader.Route} (h : Collects repr api found done)
    (hentries : entriesFrom repr api found rest = .ok found') :
    Collects repr api found' (done ++ rest) := by
  induction rest generalizing found done with
  | nil =>
      cases hentries
      rwa [List.append_nil]
  | cons route rest ih =>
      rw [entriesFrom] at hentries
      rw [show done ++ route :: rest = done ++ [route] ++ rest by simp]
      cases hcheck : statedCheck api route with
      | none =>
          rw [hcheck] at hentries
          exact ih (h.skip hcheck) hentries
      | some check =>
          rw [hcheck] at hentries
          dsimp only at hentries
          rcases hdescribed : alternatives repr check with e | described
          · rw [hdescribed] at hentries
            contradiction
          · rw [hdescribed] at hentries
            exact ih (h.store ⟨check, hcheck, hdescribed⟩) hentries

/-- The table has each route that the schema states a check for, with what the script makes
of that check. -/
theorem entries_collects {routes : List Reader.Route}
    {found : List ((String × String) × List Alternative)}
    (h : entries repr api routes = .ok found) : Collects repr api found routes := by
  have hnone : Collects repr api [] [] := by
    constructor
    · exact List.nodup_nil
    · simp
  exact entriesFrom_collects hnone h

/-- There is a table unless some check cannot be described. -/
theorem entriesFrom_described {found found' : List ((String × String) × List Alternative)}
    {routes : List Reader.Route} (h : entriesFrom repr api found routes = .ok found')
    {route : Reader.Route} (hroute : route ∈ routes) {check : Json}
    (hcheck : statedCheck api route = some check) :
    ∃ described, alternatives repr check = .ok described := by
  induction routes generalizing found with
  | nil => contradiction
  | cons first rest ih =>
      rw [entriesFrom] at h
      rcases List.mem_cons.mp hroute with rfl | hroute
      · rw [hcheck] at h
        dsimp only at h
        rcases hdescribed : alternatives repr check with e | described
        · rw [hdescribed] at h
          contradiction
        · exact ⟨described, rfl⟩
      · cases hfirst : statedCheck api first with
        | none =>
            rw [hfirst] at h
            exact ih h hroute
        | some other =>
            rw [hfirst] at h
            dsimp only at h
            rcases hdescribed : alternatives repr other with e | described
            · rw [hdescribed] at h
              contradiction
            · rw [hdescribed] at h
              exact ih h hroute

end Entries

/-! ## The module -/

/-- What the module says before the table. -/
def preamble : String :=
  "\"\"\"What Proxmox checks before it answers - generated, do not edit.\n\n" ++
  "Written by `script/generate_privileges.py` out of `schema/pve_api.json`,\n" ++
  "which comes from Proxmox's own API schema. One entry per route this\n" ++
  "library calls that states a check; the entry is the alternatives that\n" ++
  "satisfy it, and each alternative is the ACL path, the privileges, and\n" ++
  "whether one of them is enough.\n\n" ++
  "    (\"GET\", \"nodes/\x7bnode\x7d/apt/update\"): " ++
  "(((\"/nodes/\x7bnode\x7d\", (\"Sys.Modify\",), False),),)\n\n" ++
  "`aioproxmox.privileges` is the way to read this.\n\"\"\"\n\n" ++
  "CHECKS: dict[\n    tuple[str, str], tuple[tuple[str, tuple[str, ...], bool], ...]\n] = "

/-- {lit}`str` of a truth value. -/
def boolText (b : Bool) : String :=
  if b then "True" else "False"

section Render

variable (text : Json → String)

/-- The inner tuple of a line: the privileges, with a comma after a single one. -/
def privilegesText (privileges : List Json) : String :=
  "(" ++ ", ".intercalate (privileges.map fun privilege => "\"" ++ text privilege ++ "\"") ++
    (if privileges.length = 1 then "," else "") ++ ")"

/-- The line of an alternative; {lit}`text` is {lit}`str`. -/
def alternativeLine (alternative : Alternative) : String :=
  "        (\"" ++ text alternative.1 ++ "\", " ++ privilegesText text alternative.2.1 ++ ", " ++
    boolText alternative.2.2 ++ "),\n"

/-- The lines of a route. -/
def entryLines (entry : (String × String) × List Alternative) : String :=
  "    (\"" ++ entry.1.1 ++ "\", \"" ++ entry.1.2 ++ "\"): (\n" ++
    String.join (entry.2.map (alternativeLine text)) ++ "    ),\n"

/-- {lit}`sorted(entries().items())`: no two items share a key. -/
def sortedEntries {α : Type} (found : List ((String × String) × α)) :
    List ((String × String) × α) :=
  sortBy (fun entry => toLex entry.1) found

/-- {lit}`render`, of what {lit}`entries` returned. -/
def render (found : List ((String × String) × List Alternative)) : String :=
  preamble ++ "\x7b\n" ++ String.join ((sortedEntries found).map (entryLines text)) ++ "\x7d\n"

end Render

/-! ## Importing it -/

/-- A text. -/
def plainText : Literal → Option String
  | .text s => some s
  | _ => none

/-- The key of a route. -/
def keyOf : Literal → Option (String × String)
  | .tuple [.text method, .text path] => some (method, path)
  | _ => none

/-- An alternative. -/
def alternativeOf : Literal → Option (String × List String × Bool)
  | .tuple [.text path, .tuple privileges, .bool anyOf] =>
      (privileges.mapM plainText).map fun privileges => (path, privileges, anyOf)
  | _ => none

/-- The alternatives of a route. -/
def statedOf : Literal → Option (List (String × List String × Bool))
  | .tuple alternatives => alternatives.mapM alternativeOf
  | _ => none

/-- An item of the dictionary. -/
def entryOf (item : Literal × Literal) : Option CheckEntry :=
  (keyOf item.1).bind fun key => (statedOf item.2).map fun stated => (key, stated)

/-- The dictionary: of two items with one key the last one counts. -/
def tableOf : Literal → Option (List CheckEntry)
  | .dict items =>
      (items.mapM entryOf).map fun entries => update [] entries
  | _ => none

/-- {lit}`CHECKS` of a module that starts the way the generated one does. -/
def importedChecks (module : String) : Option (List CheckEntry) :=
  if Text.startsWith module preamble then
    (Literal.read (String.ofList (module.toList.drop preamble.toList.length))).bind tableOf
  else none

/-! ## What is written -/

/-- An alternative as the script has it. -/
def asRead (stated : String × List String × Bool) : Alternative :=
  (.str stated.1, stated.2.1.map .str, stated.2.2)

/-- An entry as the script has it. -/
def described (entry : CheckEntry) : (String × String) × List Alternative :=
  (entry.1, entry.2.map asRead)

/-- A text that stands between quotes as it is. -/
def Plain (s : String) : Prop :=
  ∀ c ∈ s.toList, isPlain c = true

instance (s : String) : Decidable (Plain s) :=
  decidable_of_iff (s.toList.all isPlain = true) List.all_eq_true

/-- An entry whose texts all stand between quotes as they are. -/
def PlainEntry (entry : CheckEntry) : Prop :=
  Plain entry.1.1 ∧ Plain entry.1.2 ∧
    ∀ stated ∈ entry.2, Plain stated.1 ∧ ∀ privilege ∈ stated.2.1, Plain privilege

instance (entry : CheckEntry) : Decidable (PlainEntry entry) :=
  inferInstanceAs (Decidable (_ ∧ _ ∧ _))

/-- The literal of an alternative. -/
def alternativeLiteral (stated : String × List String × Bool) : Literal :=
  .tuple [.text stated.1, .tuple (stated.2.1.map .text), .bool stated.2.2]

/-- The literal of a key. -/
def keyLiteral (key : String × String) : Literal :=
  .tuple [.text key.1, .text key.2]

/-- A text in quotes. -/
def quoted (s : String) : List Char :=
  '"' :: s.toList ++ ['"']

theorem toList_quoted (s : String) : ("\"" ++ s ++ "\"").toList = quoted s := by
  simp [quoted]

/-- Parts put together with a separator: each but the last is followed by it. -/
theorem toList_intercalate_concat (separator : String) (init : List String) (last : String) :
    (separator.intercalate (init ++ [last])).toList =
      (init.flatMap fun part => part.toList ++ separator.toList) ++ last.toList := by
  induction init with
  | nil => simp
  | cons part init ih =>
      rw [List.cons_append, String.intercalate_cons_of_ne_nil (by simp), String.toList_append,
        String.toList_append, ih, List.flatMap_cons]
      simp only [List.append_assoc]

theorem lexes_space : Lexes [' '] [] :=
  lexes_char rfl

theorem lexes_newline : Lexes ['\n'] [] :=
  lexes_char rfl

theorem lexes_spaces (n : Nat) : Lexes (List.replicate n ' ') [] :=
  lexes_blank fun _ hc => .inl (List.eq_of_mem_replicate hc)

section Written

variable {text : Json → String}

/-- None, one or several privileges are written as a tuple. -/
theorem writes_privileges (htext : ∀ s, text (.str s) = s) {privileges : List String}
    (h : ∀ privilege ∈ privileges, Plain privilege) :
    Writes (privilegesText text (privileges.map .str)).toList
      (.tuple (privileges.map .text)) := by
  have hwritten : ∀ privilege ∈ privileges, Writes (quoted privilege) (.text privilege) :=
    fun privilege hprivilege => writes_text (h privilege hprivilege)
  have hnames : (privileges.map Json.str).map (fun privilege => "\"" ++ text privilege ++ "\"") =
      privileges.map fun privilege => "\"" ++ privilege ++ "\"" := by
    simp [htext]
  unfold privilegesText
  rw [hnames, List.length_map]
  rcases List.eq_nil_or_concat' privileges with rfl | ⟨init, last, rfl⟩
  · exact Writes.commas hwritten lexes_nil lexes_nil lexes_nil lexes_nil
  · rcases eq_or_ne init [] with rfl | hinit
    · have hsingle := Writes.commas hwritten lexes_nil lexes_nil lexes_nil lexes_nil
      simpa [quoted] using hsingle
    · have hlast := (hwritten last (by simp)).last
      have hseveral := Writes.separated (fun part hpart => hwritten part (by simp [hpart])) hlast
        hinit lexes_space
      have hpos := List.length_pos_of_ne_nil hinit
      have hlength : (init ++ [last]).length ≠ 1 := by
        rw [List.length_append, List.length_singleton]
        omega
      rw [if_neg hlength, List.map_append, List.map_singleton, String.toList_append,
        String.toList_append, String.toList_append, toList_intercalate_concat, List.map_append,
        List.map_singleton, toList_quoted]
      simp only [List.flatMap_map, toList_quoted]
      simpa using hseveral

/-- The tuple in the line of an alternative. -/
def alternativeText (text : Json → String) (alternative : Alternative) : String :=
  "(\"" ++ text alternative.1 ++ "\", " ++ privilegesText text alternative.2.1 ++ ", " ++
    boolText alternative.2.2 ++ ")"

/-- A line of an alternative is its text, indented and with a comma. -/
theorem toList_alternativeLine (alternative : Alternative) :
    (alternativeLine text alternative).toList =
      List.replicate 8 ' ' ++ (alternativeText text alternative).toList ++ ',' :: ['\n'] := by
  simp [alternativeLine, alternativeText, List.replicate]

/-- It writes the alternative. -/
theorem writes_alternative (htext : ∀ s, text (.str s) = s) {stated : String × List String × Bool}
    (h : Plain stated.1 ∧ ∀ privilege ∈ stated.2.1, Plain privilege) :
    Writes (alternativeText text (asRead stated)).toList (alternativeLiteral stated) := by
  have hpath : Writes (quoted stated.1) (.text stated.1) := writes_text h.1
  have hprivileges := writes_privileges htext h.2
  have hparts : ∀ part ∈ [(quoted stated.1, Literal.text stated.1),
      ((privilegesText text (stated.2.1.map .str)).toList, .tuple (stated.2.1.map .text))],
      Writes part.1 part.2 := by
    intro part hpart
    simp only [List.mem_cons, List.not_mem_nil, or_false] at hpart
    rcases hpart with rfl | rfl
    · exact hpath
    · exact hprivileges
  have htuple := Writes.separated hparts (writesLast_bool stated.2.2) (by simp) lexes_space
  change Writes (alternativeText text (.str stated.1, stated.2.1.map .str, stated.2.2)).toList _
  simpa [alternativeText, alternativeLiteral, htext, quoted, boolText] using htuple

/-- The tuple of a key. -/
def keyText (key : String × String) : String :=
  "(\"" ++ key.1 ++ "\", \"" ++ key.2 ++ "\")"

/-- A key is written as a pair of texts. -/
theorem writes_key {key : String × String} (h : Plain key.1 ∧ Plain key.2) :
    Writes (keyText key).toList (keyLiteral key) := by
  have hmethod : ∀ part ∈ [key.1], Writes (quoted part) (.text part) := by
    intro part hpart
    rw [List.mem_singleton.mp hpart]
    exact writes_text h.1
  have htuple := Writes.separated hmethod (writes_text h.2).last (by simp) lexes_space
  simpa [keyText, keyLiteral, quoted] using htuple

/-- The tuple of the alternatives of a route. -/
def statedText (text : Json → String) (stated : List Alternative) : String :=
  "(\n" ++ String.join (stated.map (alternativeLine text)) ++ "    )"

/-- The lines of an entry are its key and its alternatives. -/
theorem toList_entryLines (entry : (String × String) × List Alternative) :
    (entryLines text entry).toList =
      List.replicate 4 ' ' ++ ((keyText entry.1).toList ++ ':' :: [' '] ++
        (statedText text entry.2).toList) ++ ',' :: ['\n'] := by
  simp [entryLines, keyText, statedText, List.replicate]

/-- The alternatives of an entry are written as a tuple. -/
theorem writes_stated (htext : ∀ s, text (.str s) = s)
    {stated : List (String × List String × Bool)}
    (h : ∀ alternative ∈ stated, Plain alternative.1 ∧
      ∀ privilege ∈ alternative.2.1, Plain privilege) :
    Writes (statedText text (stated.map asRead)).toList
      (.tuple (stated.map alternativeLiteral)) := by
  have htuple := Writes.commas (fun alternative halternative =>
    writes_alternative htext (h alternative halternative)) lexes_newline (lexes_spaces 8)
    lexes_newline (lexes_spaces 4)
  simp only [statedText, String.toList_append, String.toList_join, List.map_map, List.flatMap_map,
    Function.comp_def, toList_alternativeLine]
  exact htuple

/-- The dictionary of a table. -/
def tableLiteral (table : List CheckEntry) : Literal :=
  .dict (table.map fun entry => (keyLiteral entry.1, .tuple (entry.2.map alternativeLiteral)))

/-- What stands behind the preamble writes the table. -/
theorem writes_table (htext : ∀ s, text (.str s) = s) {table : List CheckEntry}
    (h : ∀ entry ∈ table, PlainEntry entry) :
    Writes ("\x7b\n" ++ String.join ((table.map described).map (entryLines text)) ++
      "\x7d\n").toList (tableLiteral table) := by
  have hdict := Writes.dict
    (fun entry hentry => writes_key ⟨(h entry hentry).1, (h entry hentry).2.1⟩)
    (fun entry hentry => writes_stated htext (h entry hentry).2.2) lexes_newline (lexes_spaces 4)
    lexes_space lexes_newline lexes_nil
  have hmodule := hdict.pad lexes_nil lexes_newline
  simp only [String.toList_append, String.toList_join, List.map_map, List.flatMap_map,
    Function.comp_def, toList_entryLines, described]
  simpa [tableLiteral] using hmodule

end Written

/-! ## The round trip -/

/-- A list is taken back element by element. -/
theorem mapM_eq_some {α β : Type} {read : β → Option α} {write : α → β}
    (h : ∀ a, read (write a) = some a) (items : List α) :
    (items.map write).mapM read = some items := by
  induction items with
  | nil => rfl
  | cons a items ih =>
      rw [List.map_cons, List.mapM_cons, h, ih]
      rfl

/-- An alternative is read back from its literal. -/
theorem alternativeOf_literal (stated : String × List String × Bool) :
    alternativeOf (alternativeLiteral stated) = some stated := by
  have hprivileges : (stated.2.1.map Literal.text).mapM plainText = some stated.2.1 :=
    mapM_eq_some (fun s => show plainText (.text s) = some s from rfl) _
  simp only [alternativeLiteral, alternativeOf, hprivileges, Option.map_some]

/-- An entry is read back from its literal. -/
theorem entryOf_literal (entry : CheckEntry) :
    entryOf (keyLiteral entry.1, .tuple (entry.2.map alternativeLiteral)) = some entry := by
  have hstated : statedOf (.tuple (entry.2.map alternativeLiteral)) = some entry.2 :=
    mapM_eq_some alternativeOf_literal _
  simp only [entryOf, hstated, keyLiteral, keyOf, Option.bind_some, Option.map_some]

/-- A table whose keys are distinct is taken back. -/
theorem tableOf_literal {table : List CheckEntry} (h : (table.map Prod.fst).Nodup) :
    tableOf (tableLiteral table) = some table := by
  have hentries := mapM_eq_some entryOf_literal table
  simp only [tableLiteral, tableOf, hentries, Option.map_some]
  have hupdate : update [] table = [] ++ table := update_eq_append (by rwa [List.nil_append])
  rw [hupdate, List.nil_append]

/-- What is rendered is imported: the table that was found, in the order of its keys. -/
theorem importedChecks_render {text : Json → String} (htext : ∀ s, text (.str s) = s)
    {table : List CheckEntry} (hkeys : (table.map Prod.fst).Nodup)
    (hplain : ∀ entry ∈ table, PlainEntry entry) :
    importedChecks (render text (table.map described)) = some (sortedEntries table) := by
  have hsorted : sortedEntries (table.map described) = (sortedEntries table).map described :=
    (map_sortBy (fun _ => rfl) table).symm
  have hsortedKeys : ((sortedEntries table).map Prod.fst).Nodup :=
    ((sortBy_perm _ table).map Prod.fst).nodup_iff.mpr hkeys
  have hsortedPlain : ∀ entry ∈ sortedEntries table, PlainEntry entry :=
    fun entry hentry => hplain entry ((mem_sortBy _).mp hentry)
  have hwritten := Literal.read_of_writes (writes_table htext hsortedPlain)
  have hrender : render text (table.map described) = preamble ++ ("\x7b\n" ++
      String.join (((sortedEntries table).map described).map (entryLines text)) ++ "\x7d\n") := by
    rw [render, hsorted]
    simp only [String.append_assoc]
  have hstarts : Text.startsWith (render text (table.map described)) preamble = true := by
    rw [hrender]
    simp [Text.startsWith]
  rw [importedChecks, if_pos hstarts, hrender, String.toList_append, List.drop_left,
    String.ofList_toList, hwritten, Option.bind_some, tableOf_literal hsortedKeys]

/-- {lit}`str` of what the checks of the schema name. -/
def nameText : Json → String
  | .str s => s
  | _ => ""

/-- One privilege, a choice of two, and none at all. -/
def someChecks : List CheckEntry :=
  [(("POST", "nodes/\x7bnode\x7d/status"), [("/nodes/\x7bnode\x7d", ["Sys.PowerMgmt"], false)]),
    (("GET", "cluster/status"), [("/", ["Sys.Audit", "Sys.Modify"], true), ("/pool", [], false)])]

/-- The module of a table of two entries is read back. -/
theorem importedChecks_render_witness :
    importedChecks (render nameText (someChecks.map described)) =
      some (sortedEntries someChecks) :=
  importedChecks_render (fun _ => rfl) (by decide) (by decide +kernel)

/-! ## What a route requires -/

/-- Privileges that are granted. -/
def Privileges.Granted (granted : Grants) (self : Privileges) : Prop :=
  if self.anyOf then ∃ privilege ∈ self.privileges, granted (self.path, privilege)
  else ∀ privilege ∈ self.privileges, granted (self.path, privilege)

/-- A check one of whose alternatives is granted. -/
def Check.Granted (granted : Grants) (self : Check) : Prop :=
  ∃ privileges ∈ self.alternatives, privileges.Granted granted

/-- An alternative means in the package what it means to the script. -/
theorem granted_iff (granted : Grants) (stated : String × List String × Bool) :
    Privileges.Granted granted { path := stated.1, privileges := stated.2.1, anyOf := stated.2.2 } ↔
      Satisfied granted (asRead stated) := by
  rcases stated with ⟨path, privileges, anyOf⟩
  unfold Privileges.Granted Satisfied asRead
  cases anyOf with
  | true => simp
  | false => simp

/-- A check is granted where one of its alternatives is satisfied. -/
theorem toCheck_granted_iff (granted : Grants) (stated : List (String × List String × Bool)) :
    (toCheck stated).Granted granted ↔
      ∃ alternative ∈ stated.map asRead, Satisfied granted alternative := by
  simp only [Check.Granted, toCheck, List.mem_map, exists_exists_and_eq_and, granted_iff]

/-- What the imported table has for a route, by the key of its call. -/
theorem requiredPrivileges_sorted (upper : String → String) {table : List CheckEntry}
    (hkeys : (table.map Prod.fst).Nodup) {method path : String} (hmethod : upper method = method)
    (hpath : Text.stripped '/' path = path) :
    (∀ stated, ((method, path), stated) ∈ table → stated ≠ [] →
      requiredPrivileges upper (sortedEntries table) method path = some (toCheck stated)) ∧
    ((method, path) ∉ table.map Prod.fst →
      requiredPrivileges upper (sortedEntries table) method path = none) := by
  have hsorted : ((sortedEntries table).map Prod.fst).Nodup :=
    ((sortBy_perm _ table).map Prod.fst).nodup_iff.mpr hkeys
  unfold requiredPrivileges
  rw [hmethod, hpath]
  constructor
  · intro stated hmem hne
    rw [lookup_of_mem hsorted ((mem_sortBy _).mpr hmem)]
    dsimp only
    rw [if_neg (by simpa using hne)]
  · intro hnot
    have hnone : (method, path) ∉ (sortedEntries table).map Prod.fst :=
      fun hmem => hnot (((sortBy_perm _ table).map Prod.fst).mem_iff.mp hmem)
    rw [lookup_of_not_mem hnone]

/-- A check that the schema has for a route is the one that the script looks at. -/
theorem statedCheck_flatten {nodes : List ApiNode}
    (hnodes : ((allNodes nodes).map ApiNode.path).Nodup) {route : Reader.Route} {node : ApiNode}
    {info : MethodInfo} (hwithin : node.Within nodes) (hpath : node.path = "/" ++ route.path)
    (hinfo : (route.method, info) ∈ node.methods) {check : Json}
    (hcheck : info.check? = some check) (htruthy : check.truthy = true) :
    statedCheck (flatten nodes) route = some check := by
  have hentry : (flatten nodes).entryAt ("/" ++ route.path) route.method =
      some (routeEntry info) :=
    (entryAt_flatten_iff hnodes).mpr ⟨node, info, hwithin, hpath, hinfo, rfl⟩
  simp [statedCheck, hentry, routeEntry, hcheck, htruthy]

/-- What the routes of the package require according to the imported table: nothing where the
schema states no check, and else something that is granted exactly when the check holds,
provided that the ways the check states are those that it lists. -/
structure Requires (upper : String → String) (isTrue : Json → Bool)
    (special : List Json → Grants → (String → Prop) → Prop) (nodes : List ApiNode)
    (table : List CheckEntry) (route : Reader.Route) : Prop where
  nothing : statedCheck (flatten nodes) route = none →
    requiredPrivileges upper table route.method route.path = none
  stated : ∀ (node : ApiNode) info (check : ApiCheck), node.Within nodes →
    node.path = "/" ++ route.path → (route.method, info) ∈ node.methods →
    info.check? = some check.encode → check.encode.truthy = true →
    ∃ leaves, check.leaves = some leaves ∧ (leaves ≠ [] → ∃ required,
      requiredPrivileges upper table route.method route.path = some required ∧
      ((∀ granted carries, required.Granted granted ↔
        check.Holds isTrue special granted carries) ↔ SameWays isTrue leaves))

/-- From the schema and the source to the table that the package imports: if the script comes
to an end, and all it found are texts that stand between quotes as they are, the module it
writes is read back, and what it tells of each route is what the schema asks for. -/
theorem requiredPrivileges_faithful {repr text : Json → String}
    (htext : ∀ s, text (.str s) = s) {upper : String → String} (isTrue : Json → Bool)
    (special : List Json → Grants → (String → Prop) → Prop) {nodes : List ApiNode}
    (hnodes : ((allNodes nodes).map ApiNode.path).Nodup) {unparse : Reader.PyNode → String}
    {tree : Reader.PyNode} {table : List CheckEntry}
    (hentries : entries repr (flatten nodes) (Reader.collect unparse tree).routes =
      .ok (table.map described))
    (hplain : ∀ entry ∈ table, PlainEntry entry) :
    ∃ imported, importedChecks (render text (table.map described)) = some imported ∧
      ∀ route ∈ (Reader.collect unparse tree).routes, upper route.method = route.method →
        Text.stripped '/' route.path = route.path →
        Requires upper isTrue special nodes imported route := by
  have hcollects := entries_collects hentries
  have hkeys : (table.map Prod.fst).Nodup := by
    have hnodup := hcollects.keys
    rw [List.map_map] at hnodup
    exact hnodup
  have hmem : ∀ route stated, route ∈ (Reader.collect unparse tree).routes →
      Describes repr (flatten nodes) route stated → ∃ entry ∈ table,
        entry.1 = (route.method, route.path) ∧ (described entry).2 = stated := by
    intro route stated hroute hdescribes
    have hfound := (hcollects.mem (route.method, route.path) stated).mpr
      ⟨route, hroute, rfl, hdescribes⟩
    rcases List.mem_map.mp hfound with ⟨entry, hentry, heq⟩
    exact ⟨entry, hentry, congrArg Prod.fst heq, congrArg Prod.snd heq⟩
  refine ⟨_, importedChecks_render htext hkeys hplain, fun route hroute hmethod hpath => ?_⟩
  rcases requiredPrivileges_sorted upper hkeys hmethod hpath with ⟨hfound, hmissing⟩
  constructor
  · intro hnone
    apply hmissing
    intro hkey
    rcases List.mem_map.mp hkey with ⟨entry, hentry, heq⟩
    rcases (hcollects.mem entry.1 _).mp (List.mem_map_of_mem hentry) with
      ⟨route', -, hkey', check, hcheck, -⟩
    have hsame : statedCheck (flatten nodes) route' = statedCheck (flatten nodes) route := by
      rw [heq, Prod.mk.injEq] at hkey'
      unfold statedCheck
      rw [hkey'.1, hkey'.2]
    rw [hsame, hnone] at hcheck
    contradiction
  · intro node info check hwithin hnode hinfo hcheck htruthy
    have hstated := statedCheck_flatten hnodes hwithin hnode hinfo hcheck htruthy
    rcases entriesFrom_described hentries hroute hstated with ⟨stated, hdescribed⟩
    cases hleaves : check.leaves with
    | none =>
        rcases alternatives_of_no_leaves repr check hleaves with ⟨msg, hrefused⟩
        rw [hrefused] at hdescribed
        contradiction
    | some leaves =>
        rw [alternatives_of_leaves repr check hleaves, Except.ok.injEq] at hdescribed
        refine ⟨leaves, rfl, fun hne => ?_⟩
        have hread := alternatives_of_leaves repr check hleaves
        rcases hmem route _ hroute ⟨_, hstated, hread⟩ with ⟨entry, hentry, hkey, halternatives⟩
        have hstatedNe : entry.2 ≠ [] := by
          intro hnil
          rw [described, hnil, List.map_nil] at halternatives
          exact hne (List.map_eq_nil_iff.mp halternatives.symm)
        refine ⟨toCheck entry.2, hfound entry.2 ?_ hstatedNe, ?_⟩
        · rw [← hkey]
          exact hentry
        · rw [← forall_satisfied_iff, ← halternatives]
          have hholds := fun granted carries =>
            holds_of_leaves isTrue special granted carries check hleaves
          simp only [toCheck_granted_iff, hholds, described]

/-- {lit}`client.request("GET", "cluster/status")`. -/
abbrev readStatusCall : Reader.PyNode :=
  .call (.attributeOf (.name "client") "request")
    [.constant (.text "GET"), .constant (.text "cluster/status")] [] 1

/-- What the schema says of it. -/
abbrev statusTree : List ApiNode :=
  [{ path := "/cluster/status"
     info := some ⟨[("GET", ⟨none, some ⟨some
       (.arr [.str "perm", .str "/", .arr [.str "Sys.Audit"]])⟩⟩)], by decide⟩
     children := none }]

/-- The status of the cluster requires the one privilege that the schema names. -/
theorem requiredPrivileges_faithful_witness :
    ∃ imported route, route ∈ (Reader.collect Reader.unparseText readStatusCall).routes ∧
      Requires String.toUpper Json.truthy (fun _ _ _ => False) statusTree imported route := by
  have hroutes : (Reader.collect Reader.unparseText readStatusCall).routes =
      [⟨"GET", "cluster/status", ∅, 1⟩] := by
    simp [Reader.collect, Reader.PyNode.walk, Reader.PyNode.descent, Reader.PyNode.children,
      Descent.walk_cons, Reader.turn, Reader.templateOf, Reader.Found.add,
      Reader.parametersOf, Reader.ConstantValue.str]
  have hentries : entries nameText (flatten statusTree)
      (Reader.collect Reader.unparseText readStatusCall).routes =
        .ok ([(("GET", "cluster/status"), [("/", ["Sys.Audit"], false)])].map described) := by
    rw [hroutes]
    with_unfolding_all rfl
  have htext : ∀ s, nameText (.str s) = s := fun _ => rfl
  rcases requiredPrivileges_faithful htext Json.truthy
    (fun _ _ _ => False) (by decide) hentries (by decide +kernel) with ⟨imported, -, hall⟩
  refine ⟨imported, _, ?_, hall ⟨"GET", "cluster/status", ∅, 1⟩ ?_ (by decide +kernel)
    (by decide +kernel)⟩
  · rw [hroutes]
    exact List.mem_singleton_self _
  · rw [hroutes]
    exact List.mem_singleton_self _

end AioProxmox
