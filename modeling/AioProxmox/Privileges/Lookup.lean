import AioProxmox.Collections.Table
import AioProxmox.Privileges.Checks
import AioProxmox.Privileges.Paths
import AioProxmox.Routing.Templates

/-!
# Privileges - what a path requires

The two lookups of the package: by the template of a route and by the path as it is
called.  The second one takes the first template that fits and replaces the placeholders
of the ACL paths one after the other; for the table the package has this is what the
template itself requires, and it does not matter in what order the table is.

Main results:

- Definitions {lit}`requiredPrivileges` and {lit}`privilegesFor`.
- Theorem {lit}`substitutePath_eq`: replacing one name after the other fills an ACL path
  in, if its only placeholder is the last name.
- Theorem {lit}`privilegesFor_exact`: the path of a route requires what its template does,
  and any other path requires nothing.
-/

namespace AioProxmox

open Collections Routing

/-! ## Checks -/

/-- {lit}`Privileges`: privileges on one path. -/
structure Privileges where
  path : String
  privileges : List String
  anyOf : Bool := false
deriving DecidableEq

/-- {lit}`Check`: any one of its alternatives satisfies it. -/
structure Check where
  alternatives : List Privileges
deriving DecidableEq

/-- A key of the table and what stands there. -/
abbrev CheckEntry :=
  (String × String) × List (String × List String × Bool)

/-- {lit}`_check`. -/
def toCheck (entry : List (String × List String × Bool)) : Check where
  alternatives := entry.map fun e => { path := e.1, privileges := e.2.1, anyOf := e.2.2 }

/-- The loop of {lit}`Check.substitute` over the names. -/
def substitutePath (values : List (String × String)) (path : String) : String :=
  values.foldl (fun path kv => Text.replace path (Text.braced kv.1) kv.2) path

/-- {lit}`Check.substitute`; each value is there as {lit}`str` renders it. -/
def Check.substitute (self : Check) (values : List (String × String)) : Except Exc Check :=
  if "self" ∈ values.map Prod.fst then
    .error (.typeError "Check.substitute() got multiple values for argument 'self'")
  else
    .ok ⟨self.alternatives.map fun p => { p with path := substitutePath values p.path }⟩

/-! ## The lookups -/

section Lookup

variable (upper : String → String) (table : List CheckEntry)

/-- {lit}`required_privileges`; {lit}`upper` is {lit}`str.upper`. -/
def requiredPrivileges (method path : String) : Option Check :=
  match table.lookup (upper method, Text.stripped '/' path) with
  | some entry => if entry.isEmpty then none else some (toCheck entry)
  | none => none

/-- Whether a segment is a placeholder. -/
def isPlaceholder (segment : String) : Bool :=
  Text.startsWith segment "\x7b" && Text.endsWith segment "\x7d"

/-- The inner loop of {lit}`privileges_for`, over segments and parts of one length. -/
def fillFrom (filled : List (String × String)) :
    List String → List String → Option (List (String × String))
  | segment :: segments, part :: parts =>
      if isPlaceholder segment then
        fillFrom (store filled (Text.inner segment) part) segments parts
      else if segment ≠ part then none
      else fillFrom filled segments parts
  | _, _ => some filled

/-- The loop of {lit}`privileges_for` over the table. -/
def findCheck (values : List (String × String)) (method : String) (parts : List String) :
    List CheckEntry → Except Exc (Option Check)
  | [] => .ok none
  | ((known, template), entry) :: rest =>
      if known ≠ method then findCheck values method parts rest
      else if (Text.split '/' template).length ≠ parts.length then
        findCheck values method parts rest
      else
        match fillFrom values (Text.split '/' template) parts with
        | none => findCheck values method parts rest
        | some filled => ((toCheck entry).substitute filled).map some

/-- {lit}`privileges_for`. -/
def privilegesFor (method path : String) (values : List (String × String)) :
    Except Exc (Option Check) :=
  findCheck values (upper method) (Text.split '/' (Text.stripped '/' path)) table

end Lookup

/-! ## Templates as they are written -/

/-- What a segment of a template is. -/
def segmentOf (segment : String) : Segment String :=
  if isPlaceholder segment then .placeholder (Text.inner segment) else .literal segment

/-- The template that a text is. -/
def templateOf (text : String) : Template String :=
  (Text.split '/' text).map segmentOf

/-- A segment as it is written. -/
def segmentText : Segment String → String
  | .literal text => text
  | .placeholder name => Text.braced name

/-- A template with its placeholders filled in. -/
def filledIn (values : String → String) (template : String) : String :=
  Text.joined ((templateOf template).fill values)

/-- A check with the placeholders of its ACL paths filled in. -/
def Check.filledIn (values : String → String) (check : Check) : Check :=
  ⟨check.alternatives.map fun p => { p with path := AioProxmox.filledIn values p.path }⟩

/-- The text of a segment is the segment. -/
theorem segmentText_segmentOf (segment : String) : segmentText (segmentOf segment) = segment := by
  unfold segmentOf
  split_ifs with h
  · simp only [isPlaceholder, Text.startsWith, Text.endsWith, Bool.and_eq_true,
      List.isPrefixOf_iff_prefix, List.isSuffixOf_iff_suffix] at h
    rcases h with ⟨⟨rest, hstart⟩, before, hend⟩
    have hstart : '{' :: rest = segment.toList := hstart
    have hend : before ++ ['}'] = segment.toList := hend
    cases before with
    | nil =>
        rw [← hstart] at hend
        cases hend
    | cons c name =>
        rw [← hend] at hstart
        cases hstart
        apply String.toList_injective
        rw [segmentText, Text.toList_braced, Text.inner, String.toList_ofList, ← hend]
        simp
  · rfl

/-- A text is what its template is written as. -/
theorem joined_templateOf (text : String) :
    Text.joined ((templateOf text).map segmentText) = text := by
  have hid : segmentText ∘ segmentOf = id := funext segmentText_segmentOf
  unfold templateOf
  rw [List.map_map, hid, List.map_id, Text.joined_split]

/-- The inner loop reads the parts against the template. -/
theorem fillFrom_eq {segments parts : List String} (hlength : segments.length = parts.length)
    {filled : List (String × String)}
    (hnames : (filled.map Prod.fst ++ Template.names (segments.map segmentOf)).Nodup) :
    fillFrom filled segments parts =
      (Template.read (segments.map segmentOf) parts).map (filled ++ ·) := by
  induction segments generalizing parts filled with
  | nil =>
      cases parts with
      | nil => simp [fillFrom, Template.read]
      | cons part parts => contradiction
  | cons segment segments ih =>
      cases parts with
      | nil => contradiction
      | cons part parts =>
          have hrest : segments.length = parts.length := Nat.succ.inj hlength
          rw [List.map_cons] at hnames ⊢
          cases hplaceholder : isPlaceholder segment with
          | true =>
              have hsegment : segmentOf segment = .placeholder (Text.inner segment) :=
                if_pos hplaceholder
              rw [hsegment] at hnames ⊢
              have hnew : Text.inner segment ∉ filled.map Prod.fst := by
                intro hmem
                exact (List.nodup_append.mp hnames).2.2 _ hmem _ List.mem_cons_self rfl
              have hnext : ((filled ++ [(Text.inner segment, part)]).map Prod.fst ++
                  Template.names (segments.map segmentOf)).Nodup := by
                rw [List.map_append, List.append_assoc]
                exact hnames
              rw [fillFrom, if_pos hplaceholder, store_of_not_mem hnew, ih hrest hnext,
                Template.read, Option.map_map]
              congr 1
              funext found
              simp
          | false =>
              have hsegment : segmentOf segment = .literal segment :=
                if_neg (by simp [hplaceholder])
              rw [hsegment] at hnames ⊢
              rw [fillFrom, if_neg (by simp [hplaceholder]), Template.read]
              by_cases heq : segment = part
              · rw [if_neg (not_not.mpr heq), if_pos heq]
                exact ih hrest hnames
              · rw [if_pos heq, if_neg heq]
                rfl

/-! ## Filling in ACL paths -/

theorem joined_cons (part : String) {parts : List String} (hne : parts ≠ []) :
    Text.joined (part :: parts) = part ++ "/" ++ Text.joined parts := by
  cases parts with
  | nil => contradiction
  | cons next parts =>
      apply String.toList_injective
      simp [Text.joined, List.intercalate]

theorem joined_singleton (part : String) : Text.joined [part] = part := by
  simp [Text.joined, List.intercalate]

/-- Parts without braces are joined without braces. -/
theorem braceFree_joined {parts : List String} (h : ∀ text ∈ parts, Text.BraceFree text) :
    Text.BraceFree (Text.joined parts) := by
  induction parts with
  | nil => decide
  | cons part parts ih =>
      have hpart := h part List.mem_cons_self
      have hrest := ih fun text htext => h text (List.mem_cons_of_mem part htext)
      rcases eq_or_ne parts [] with rfl | hne
      · rwa [joined_singleton]
      · rw [joined_cons part hne]
        simp [Text.BraceFree, hpart.1, hpart.2, hrest.1, hrest.2]

/-- What stands around one segment of a path. -/
theorem joined_around {before after : List String}
    (hfree : ∀ text ∈ before ++ after, Text.BraceFree text) :
    ∃ left right, Text.BraceFree left ∧ Text.BraceFree right ∧
      ∀ part, Text.joined (before ++ part :: after) = left ++ part ++ right := by
  induction before with
  | nil =>
      rcases eq_or_ne after [] with rfl | hne
      · refine ⟨"", "", by decide, by decide, fun part => ?_⟩
        rw [List.nil_append, joined_singleton]
        simp
      · have hafter := braceFree_joined hfree
        refine ⟨"", "/" ++ Text.joined after, by decide, ?_, fun part => ?_⟩
        · simpa [Text.BraceFree] using hafter
        · rw [List.nil_append, joined_cons part hne]
          simp [String.append_assoc]
  | cons first before ih =>
      rcases ih fun text htext => hfree text (List.mem_cons_of_mem first htext) with
        ⟨left, right, hleft, hright, hjoined⟩
      refine ⟨first ++ "/" ++ left, right, ?_, hright, fun part => ?_⟩
      · have hfirst := hfree first List.mem_cons_self
        simp [Text.BraceFree, hfirst.1, hfirst.2, hleft.1, hleft.2]
      · rw [List.cons_append, joined_cons _ (by simp), hjoined]
        simp [String.append_assoc]

/-- Names and an ACL path: it has no placeholder, or one, which is the last name. -/
def Fillable (names : List String) (path : String) : Prop :=
  (∀ text ∈ Template.literals (templateOf path), Text.BraceFree text) ∧
    (Template.names (templateOf path) = [] ∨
      Template.names (templateOf path) = names.getLast?.toList)

instance (names : List String) (path : String) : Decidable (Fillable names path) :=
  inferInstanceAs (Decidable (_ ∧ _))

/-- A path without braces is not filled in. -/
theorem substitutePath_of_braceFree {path : String} (h : Text.BraceFree path)
    (values : List (String × String)) : substitutePath values path = path := by
  unfold substitutePath
  induction values with
  | nil => rfl
  | cons kv values ih => rw [List.foldl_cons, Text.replace_of_braceFree h, ih]

/-- Names that do not occur are not replaced. -/
theorem substitutePath_of_not_mem {left name right : String} (hleft : Text.BraceFree left)
    (hname : Text.BraceFree name) (hright : Text.BraceFree right)
    {values : List (String × String)} (hfree : ∀ kv ∈ values, Text.BraceFree kv.1)
    (h : ∀ kv ∈ values, kv.1 ≠ name) :
    substitutePath values (left ++ Text.braced name ++ right) =
      left ++ Text.braced name ++ right := by
  unfold substitutePath
  induction values with
  | nil => rfl
  | cons kv values ih =>
      rw [List.foldl_cons, Text.replace_braced hleft hname hright (hfree kv List.mem_cons_self),
        if_neg (h kv List.mem_cons_self)]
      exact ih (fun kv' hkv' => hfree kv' (List.mem_cons_of_mem kv hkv'))
        fun kv' hkv' => h kv' (List.mem_cons_of_mem kv hkv')

/-- Replacing the names one after the other fills an ACL path in: no value is looked
through for a name that follows, as only the last one occurs. -/
theorem substitutePath_eq {names : List String} {path : String} (h : Fillable names path)
    (hfree : ∀ name ∈ names, Text.BraceFree name) (hnames : names.Nodup)
    (values : String → String) :
    substitutePath (names.map fun name => (name, values name)) path = filledIn values path := by
  have hpath := joined_templateOf path
  rcases h with ⟨hliterals, hplaceholders⟩
  have hcases : Template.names (templateOf path) = [] ∨ ∃ others last,
      names = others ++ [last] ∧ Template.names (templateOf path) = [last] := by
    rcases hplaceholders with hnone | hone
    · exact .inl hnone
    · rcases List.eq_nil_or_concat names with hnil | ⟨others, last, hnames⟩
      · left
        rw [hone, hnil]
        rfl
      · right
        refine ⟨others, last, by simpa using hnames, ?_⟩
        rw [hone, hnames]
        simp
  rcases hcases with hnone | ⟨others, last, rfl, hone⟩
  · have htemplate := Template.eq_map_literal hnone
    have htexts : segmentText ∘ Segment.literal = id := rfl
    have hplain : Text.joined (Template.literals (templateOf path)) = path := by
      rw [htemplate, List.map_map, htexts, List.map_id] at hpath
      exact hpath
    rw [substitutePath_of_braceFree (hplain ▸ braceFree_joined hliterals), filledIn, htemplate,
      Template.fill_map_literal, hplain]
  · rcases Template.eq_around_placeholder hone with ⟨before, after, htemplate, htexts⟩
    rw [htexts] at hliterals
    rcases joined_around hliterals with ⟨left, right, hleft, hright, hjoined⟩
    have hwritten : path = left ++ Text.braced last ++ right := by
      have htexts : segmentText ∘ Segment.literal = id := rfl
      rw [← hjoined, ← hpath, htemplate, List.map_append, List.map_cons, List.map_map,
        List.map_map, htexts, List.map_id, List.map_id]
      rfl
    have hlast : Text.BraceFree last := hfree last (by simp)
    have hothers : ∀ kv ∈ others.map (fun name => (name, values name)),
        Text.BraceFree kv.1 ∧ kv.1 ≠ last := by
      intro kv hkv
      rcases List.mem_map.mp hkv with ⟨name, hname, rfl⟩
      refine ⟨hfree name (List.mem_append_left _ hname), ?_⟩
      exact (List.nodup_append.mp hnames).2.2 name hname last (by simp)
    have hfirst := substitutePath_of_not_mem hleft hlast hright (fun kv h => (hothers kv h).1)
      fun kv h => (hothers kv h).2
    rw [filledIn, htemplate, Template.fill_around_placeholder, hjoined, List.map_append]
    unfold substitutePath at hfirst ⊢
    rw [List.foldl_append, hwritten, hfirst, List.map_singleton, List.foldl_cons, List.foldl_nil,
      Text.replace_braced hleft hlast hright hlast, if_pos rfl]

/-! ## The table -/

/-- A segment that is not empty whatever its template is filled with. -/
def isSolid : Option (Segment String) → Bool
  | some (.literal text) => text != ""
  | _ => false

/-- What the segments of a template have to be for a path to be found by it. -/
structure WellFormed (segments : Template String) : Prop where
  first : isSolid segments.head? = true
  last : isSolid segments.getLast? = true
  names : segments.names.Nodup
  notSelf : "self" ∉ segments.names
  free : ∀ name ∈ segments.names, Text.BraceFree name

instance (segments : Template String) : Decidable (WellFormed segments) :=
  decidable_of_iff (isSolid segments.head? = true ∧ isSolid segments.getLast? = true ∧
    segments.names.Nodup ∧ "self" ∉ segments.names ∧
    ∀ name ∈ segments.names, Text.BraceFree name)
    ⟨fun h => ⟨h.1, h.2.1, h.2.2.1, h.2.2.2.1, h.2.2.2.2⟩,
      fun h => ⟨h.first, h.last, h.names, h.notSelf, h.free⟩⟩

/-- A table in which no path is found twice. -/
structure Unambiguous (table : List CheckEntry) : Prop where
  wellFormed : ∀ entry ∈ table, WellFormed (templateOf entry.1.2)
  stated : ∀ entry ∈ table, entry.2 ≠ []
  fillable : ∀ entry ∈ table, ∀ alternative ∈ entry.2,
    Fillable (templateOf entry.1.2).names alternative.1
  keys : (table.map Prod.fst).Nodup
  apart : ∀ entry ∈ table, ∀ entry' ∈ table, entry.1.2 ≠ entry'.1.2 →
    (templateOf entry.1.2).apart (templateOf entry'.1.2) = true

/-- Splitting a text is splitting its characters. -/
theorem split_ofList (c : Char) (chars : List Char) :
    Text.split c (String.ofList chars) = (chars.splitOn c).map String.ofList := by
  rw [Text.split, String.toList_ofList]

/-- The segments of the table are those of its paths. -/
theorem checks_split :
    checks.map (fun entry => Text.split '/' entry.1.2) = checkSegments := by
  unfold checks checkSegments
  simp only [List.map_cons, List.map_nil]
  repeat refine congrArg₂ List.cons ((split_ofList _ _).trans rfl) ?_
  rfl

/-- No two routes of the table that a path could match differ. -/
theorem checks_unambiguous : Unambiguous checks := by
  have hsegments : ∀ entry ∈ checks, Text.split '/' entry.1.2 ∈ checkSegments := by
    intro entry hentry
    rw [← checks_split]
    exact List.mem_map_of_mem hentry
  have hentries : ∀ entry ∈ checks,
      (Text.split '/' entry.1.2, entry.2) ∈ checkSegments.zip (checks.map Prod.snd) := by
    intro entry hentry
    rw [← checks_split, List.zip_map']
    exact List.mem_map_of_mem hentry
  have hwellFormed : ∀ segments ∈ checkSegments, WellFormed (segments.map segmentOf) := by
    decide +kernel
  have hfillable : ∀ p ∈ checkSegments.zip (checks.map Prod.snd), ∀ alternative ∈ p.2,
      Fillable (Template.names (p.1.map segmentOf)) alternative.1 := by
    decide +kernel
  have hapart : ∀ segments ∈ checkSegments, ∀ segments' ∈ checkSegments,
      segments = segments' ∨
        Template.apart (segments.map segmentOf) (segments'.map segmentOf) = true := by
    decide +kernel
  constructor
  · exact fun entry hentry => hwellFormed _ (hsegments entry hentry)
  · decide
  · exact fun entry hentry => hfillable _ (hentries entry hentry)
  · decide +kernel
  · intro entry hentry entry' hentry' hne
    refine (hapart _ (hsegments entry hentry) _ (hsegments entry' hentry')).resolve_left ?_
    intro hsame
    apply hne
    rw [← Text.joined_split entry.1.2, hsame, Text.joined_split]

/-- The order of a table does not matter. -/
theorem Unambiguous.perm {table table' : List CheckEntry} (h : Unambiguous table)
    (hperm : table'.Perm table) : Unambiguous table' where
  wellFormed entry hentry := h.wellFormed entry (hperm.mem_iff.mp hentry)
  stated entry hentry := h.stated entry (hperm.mem_iff.mp hentry)
  fillable entry hentry := h.fillable entry (hperm.mem_iff.mp hentry)
  keys := (hperm.map Prod.fst).nodup_iff.mpr h.keys
  apart entry hentry entry' hentry' :=
    h.apart entry (hperm.mem_iff.mp hentry) entry' (hperm.mem_iff.mp hentry')

/-! ## Filled-in paths -/

/-- What a template may be filled with. -/
def SlashFreeFor (template : String) (values : String → String) : Prop :=
  ∀ name ∈ (templateOf template).names, Text.SlashFree (values name)

/-- A literal of a template is one of its segments. -/
theorem mem_split_of_literal {template text : String}
    (h : Segment.literal text ∈ templateOf template) : text ∈ Text.split '/' template := by
  rcases List.mem_map.mp h with ⟨segment, hmem, hsegment⟩
  have hwritten := segmentText_segmentOf segment
  rw [hsegment] at hwritten
  cases hwritten
  exact hmem

/-- What a template is filled with has no slashes, nor have its own texts. -/
theorem slashFree_of_mem_fill {template : String} {values : String → String}
    (hfree : SlashFreeFor template values) :
    ∀ part ∈ (templateOf template).fill values, Text.SlashFree part := by
  intro part hpart
  rcases Template.mem_fill hpart with hliteral | ⟨name, hname, rfl⟩
  · exact Text.slashFree_of_mem_split (mem_split_of_literal hliteral)
  · exact hfree name hname

/-- The segments of a filled-in template. -/
theorem split_filledIn {template : String} {values : String → String}
    (hfree : SlashFreeFor template values) :
    Text.split '/' (filledIn values template) = (templateOf template).fill values := by
  refine Text.split_joined ?_ (slashFree_of_mem_fill hfree)
  unfold Template.fill templateOf
  simpa using Text.split_ne_nil template

/-- Slashes around a filled-in template are stripped. -/
theorem stripped_filledIn {template : String} (h : WellFormed (templateOf template))
    {values : String → String} (hfree : SlashFreeFor template values) (before after : Nat) :
    Text.stripped '/' (Text.slashes before ++ filledIn values template ++ Text.slashes after) =
      filledIn values template := by
  have hsolid : ∀ segment, isSolid segment = true →
      segment.map (Segment.fill values) ≠ some "" := by
    intro segment hsegment heq
    cases segment with
    | none => contradiction
    | some segment =>
        cases segment with
        | placeholder name => contradiction
        | literal text =>
            rw [isSolid, bne_iff_ne] at hsegment
            exact hsegment (Option.some.inj heq)
  have hends : (filledIn values template).toList.head? ≠ some '/' ∧
      (filledIn values template).toList.getLast? ≠ some '/' := by
    apply Text.joined_ends (slashFree_of_mem_fill hfree)
    · rw [Template.fill, List.head?_map]
      exact hsolid _ h.first
    · rw [Template.fill, List.getLast?_map]
      exact hsolid _ h.last
  exact Text.stripped_slashes hends.1 hends.2 before after

/-! ## The scan -/

section Scan

variable {table rest : List CheckEntry} {entry : CheckEntry} {method : String}
  {parts : List String} {values : String → String}

/-- To match the segments is to read the values off the parts. -/
theorem fillFrom_nil_eq (hnames : (templateOf entry.1.2).names.Nodup)
    (hlength : (Text.split '/' entry.1.2).length = parts.length) :
    fillFrom [] (Text.split '/' entry.1.2) parts = (templateOf entry.1.2).read parts := by
  have hread : fillFrom [] (Text.split '/' entry.1.2) parts =
      (Template.read ((Text.split '/' entry.1.2).map segmentOf) parts).map ([] ++ ·) :=
    fillFrom_eq hlength hnames
  simpa [templateOf] using hread

/-- An entry of another method, or whose template does not fit, is passed over. -/
theorem findCheck_cons_of_not (hnames : (templateOf entry.1.2).names.Nodup)
    (h : entry.1.1 = method → (templateOf entry.1.2).read parts = none) :
    findCheck [] method parts (entry :: rest) = findCheck [] method parts rest := by
  rcases entry with ⟨⟨known, template⟩, stated⟩
  rw [findCheck]
  split_ifs with hmethod hlength
  · rfl
  · rfl
  · rw [not_not] at hmethod hlength
    have hread := h hmethod
    rw [← fillFrom_nil_eq hnames hlength] at hread
    rw [hread]

/-- The first entry that fits decides. -/
theorem findCheck_cons_of_read (hnames : (templateOf entry.1.2).names.Nodup)
    (hmethod : entry.1.1 = method) {found : List (String × String)}
    (h : (templateOf entry.1.2).read parts = some found) :
    findCheck [] method parts (entry :: rest) = ((toCheck entry.2).substitute found).map some := by
  have hlength : (Text.split '/' entry.1.2).length = parts.length := by
    rw [← Template.length_of_read h, templateOf, List.length_map]
  rw [← fillFrom_nil_eq hnames hlength] at h
  rcases entry with ⟨⟨known, template⟩, stated⟩
  rw [findCheck, if_neg (not_not.mpr hmethod), if_neg (not_not.mpr hlength), h]

/-- What an entry states is filled in as its template is. -/
theorem substitute_eq (h : Unambiguous table) (hentry : entry ∈ table) (values : String → String) :
    (toCheck entry.2).substitute
        ((templateOf entry.1.2).names.map fun name => (name, values name)) =
      .ok ((toCheck entry.2).filledIn values) := by
  have hnames : ((templateOf entry.1.2).names.map fun name => (name, values name)).map Prod.fst =
      (templateOf entry.1.2).names := by
    rw [List.map_map]
    exact List.map_id _
  have hwellFormed := h.wellFormed entry hentry
  unfold Check.substitute Check.filledIn
  rw [hnames, if_neg hwellFormed.notSelf]
  refine congrArg (fun alternatives => Except.ok (Check.mk alternatives))
    (List.map_congr_left fun p hp => ?_)
  rcases List.mem_map.mp hp with ⟨alternative, halternative, rfl⟩
  rw [substitutePath_eq (h.fillable entry hentry alternative halternative) hwellFormed.free
    hwellFormed.names]

/-- No other entry of the method fits the path that a template is filled in to. -/
theorem Unambiguous.eq_of_fits (h : Unambiguous table) (hentry : entry ∈ table)
    {entry' : CheckEntry} (hentry' : entry' ∈ table) (hmethod : entry'.1.1 = entry.1.1)
    {found : List (String × String)}
    (hread : (templateOf entry'.1.2).read ((templateOf entry.1.2).fill values) = some found) :
    entry' = entry := by
  rcases Template.fill_of_read (h.wellFormed entry' hentry').names hread with ⟨values', hfill, -⟩
  have htemplate : entry'.1.2 = entry.1.2 := by
    by_contra hne
    exact Template.apart_fill_ne (h.apart entry' hentry' entry hentry hne) values' values hfill
  exact List.inj_on_of_nodup_map h.keys hentry' hentry (Prod.ext hmethod htemplate)

/-- The scan finds the entry whose template was filled in, wherever it stands. -/
theorem findCheck_filledIn (h : Unambiguous table) (hentry : entry ∈ table)
    (hrest : rest ⊆ table) (hmem : entry ∈ rest) :
    findCheck [] entry.1.1 ((templateOf entry.1.2).fill values) rest =
      .ok (some ((toCheck entry.2).filledIn values)) := by
  induction rest with
  | nil => contradiction
  | cons entry' rest ih =>
      have hentry' : entry' ∈ table := hrest List.mem_cons_self
      have hnames := (h.wellFormed entry' hentry').names
      by_cases heq : entry' = entry
      · subst heq
        rw [findCheck_cons_of_read hnames rfl (Template.read_fill values _), substitute_eq h hentry]
        rfl
      · rw [findCheck_cons_of_not hnames]
        · exact ih (fun e he => hrest (List.mem_cons_of_mem entry' he))
            (List.mem_of_ne_of_mem (Ne.symm heq) hmem)
        · intro hmethod
          rw [Option.eq_none_iff_forall_ne_some]
          intro found hfound
          exact heq (h.eq_of_fits hentry hentry' hmethod hfound)

/-- It finds nothing where no template of the method fits. -/
theorem findCheck_eq_none (h : Unambiguous table) (hrest : rest ⊆ table)
    (hnone : ∀ entry ∈ rest, entry.1.1 = method → (templateOf entry.1.2).read parts = none) :
    findCheck [] method parts rest = .ok none := by
  induction rest with
  | nil => rfl
  | cons entry rest ih =>
      rw [findCheck_cons_of_not (h.wellFormed entry (hrest List.mem_cons_self)).names
        (hnone entry List.mem_cons_self)]
      exact ih (fun e he => hrest (List.mem_cons_of_mem entry he))
        fun e he => hnone e (List.mem_cons_of_mem entry he)

end Scan

/-- A template has no slashes around it. -/
theorem stripped_template {template : String} (h : WellFormed (templateOf template)) :
    Text.stripped '/' template = template := by
  have hsolid : ∀ segment, isSolid (segment.map segmentOf) = true → segment ≠ some "" := by
    rintro segment hsegment rfl
    revert hsegment
    decide
  have hends := Text.joined_ends (fun part hpart => Text.slashFree_of_mem_split hpart)
    (hsolid (Text.split '/' template).head? (by rw [← List.head?_map]; exact h.first))
    (hsolid _ (by rw [← List.getLast?_map]; exact h.last))
  rw [Text.joined_split] at hends
  have hplain := Text.stripped_slashes hends.1 hends.2 0 0
  simpa [Text.slashes] using hplain

/-- What the template of a route requires is what stands in the table. -/
theorem requiredPrivileges_of_mem (upper : String → String) {table : List CheckEntry}
    (h : Unambiguous table) {method : String} {entry : CheckEntry} (hentry : entry ∈ table)
    (hmethod : entry.1.1 = upper method) :
    requiredPrivileges upper table method entry.1.2 = some (toCheck entry.2) := by
  have hkey : (upper method, Text.stripped '/' entry.1.2) = entry.1 := by
    rw [stripped_template (h.wellFormed entry hentry), ← hmethod]
  have hstated : entry.2.isEmpty ≠ true := by
    simpa using h.stated entry hentry
  unfold requiredPrivileges
  rw [hkey, lookup_of_mem h.keys hentry]
  exact if_neg hstated

/-- A path that is a template of the method, its placeholders filled in without slashes,
between any slashes. -/
def IsFilledIn (template path : String) : Prop :=
  ∃ values before after, SlashFreeFor template values ∧
    path = Text.slashes before ++ filledIn values template ++ Text.slashes after

/-- What reads against a template is the template filled in. -/
theorem isFilledIn_of_read {template path : String} (h : (templateOf template).names.Nodup)
    {found : List (String × String)}
    (hread : (templateOf template).read (Text.split '/' (Text.stripped '/' path)) = some found) :
    IsFilledIn template path := by
  rcases Template.fill_of_read h hread with ⟨values, hfill, hmem⟩
  rcases Text.eq_slashes_stripped path with ⟨before, after, hpath⟩
  refine ⟨values, before, after, fun name hname => ?_, ?_⟩
  · exact Text.slashFree_of_mem_split (hmem name hname)
  · rw [filledIn, hfill, Text.joined_split]
    exact hpath

/-- For any method, and for the table in any order, the path of a route requires what its
template does, with the same values in the ACL paths; a path that is no template of the
method requires nothing. -/
theorem privilegesFor_exact (upper : String → String) {table : List CheckEntry}
    (hperm : table.Perm checks) (method : String) :
    (∀ key ∈ checks.map Prod.fst, ∀ values, SlashFreeFor key.2 values → ∀ before after,
      privilegesFor upper table method
          (Text.slashes before ++ filledIn values key.2 ++ Text.slashes after) [] =
        .ok ((requiredPrivileges upper checks method key.2).map (Check.filledIn values))) ∧
    ∀ path, (∀ key ∈ checks.map Prod.fst, key.1 = upper method → ¬IsFilledIn key.2 path) →
      privilegesFor upper table method path [] = .ok none := by
  have htable : Unambiguous table := checks_unambiguous.perm hperm
  constructor
  · intro key hkey values hfree before after
    rcases List.mem_map.mp hkey with ⟨entry, hentry, rfl⟩
    have hwellFormed := checks_unambiguous.wellFormed entry hentry
    unfold privilegesFor
    rw [stripped_filledIn hwellFormed hfree, split_filledIn hfree]
    by_cases hmem : (upper method, entry.1.2) ∈ checks.map Prod.fst
    · rcases List.mem_map.mp hmem with ⟨entry', hentry', hkey'⟩
      have hmethod : entry'.1.1 = upper method := (congrArg Prod.fst hkey' :)
      have htemplate : entry'.1.2 = entry.1.2 := (congrArg Prod.snd hkey' :)
      have hin : entry' ∈ table := hperm.mem_iff.mpr hentry'
      rw [← htemplate, requiredPrivileges_of_mem upper checks_unambiguous hentry' hmethod,
        ← hmethod]
      exact findCheck_filledIn htable hin (List.Subset.refl table) hin
    · have hunknown : requiredPrivileges upper checks method entry.1.2 = none := by
        unfold requiredPrivileges
        rw [stripped_template hwellFormed, lookup_of_not_mem hmem]
      rw [hunknown]
      refine findCheck_eq_none htable (List.Subset.refl table) fun entry' hentry' hmethod => ?_
      rw [Option.eq_none_iff_forall_ne_some]
      intro found hfound
      have hin : entry' ∈ checks := hperm.mem_iff.mp hentry'
      rcases Template.fill_of_read (htable.wellFormed entry' hentry').names hfound with
        ⟨values', hfill, -⟩
      refine Template.apart_fill_ne
        (checks_unambiguous.apart entry' hin entry hentry fun hsame => ?_) values' values hfill
      apply hmem
      rw [← hmethod, ← hsame]
      exact List.mem_map_of_mem hin
  · intro path hnot
    refine findCheck_eq_none htable (List.Subset.refl table) fun entry hentry hmethod => ?_
    rw [Option.eq_none_iff_forall_ne_some]
    intro found hfound
    have hmem : entry.1 ∈ checks.map Prod.fst :=
      List.mem_map_of_mem (hperm.mem_iff.mp hentry)
    exact hnot entry.1 hmem hmethod
      (isFilledIn_of_read (htable.wellFormed entry hentry).names hfound)

/-- A path as it is called, looked up in the table backwards. -/
theorem privilegesFor_exact_witness :
    privilegesFor String.toUpper checks.reverse "get" "/nodes/pve/apt/update" [] =
      .ok (some ⟨[{ path := "/nodes/pve", privileges := ["Sys.Modify"] }]⟩) := by
  have hmem : ("GET", "nodes/\x7bnode\x7d/apt/update") ∈ checks.map Prod.fst := by
    simp [checks]
  have hlookup := (privilegesFor_exact String.toUpper (List.reverse_perm checks) "get").1 _ hmem
    (fun _ => "pve") (fun _ _ => show Text.SlashFree "pve" by decide) 1 0
  have hpath : Text.slashes 1 ++ filledIn (fun _ => "pve") "nodes/\x7bnode\x7d/apt/update" ++
      Text.slashes 0 = "/nodes/pve/apt/update" := by
    decide +kernel
  have hrequired : (requiredPrivileges String.toUpper checks "get"
      "nodes/\x7bnode\x7d/apt/update").map (Check.filledIn fun _ => "pve") =
        some ⟨[{ path := "/nodes/pve", privileges := ["Sys.Modify"] }]⟩ := by
    decide +kernel
  rw [hpath, hrequired] at hlookup
  exact hlookup

end AioProxmox
