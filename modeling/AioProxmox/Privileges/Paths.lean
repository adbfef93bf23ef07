import AioProxmox.Client.Values
import Mathlib.Data.List.TakeWhile

/-!
# Privileges - paths as text

The string methods that the lookup of a path rests on, and what they do to a path put
together from its segments.

Main results:

- Definitions {lit}`Text.split` and {lit}`Text.replace`.
- Theorem {lit}`Text.split_joined`: a path of slash-free segments is split into them.
- Theorem {lit}`Text.stripped_slashes`: leading and trailing slashes are stripped from it.
- Theorem {lit}`Text.replace_braced`: what stands in braces is replaced where the name is
  the one asked for.
-/

namespace AioProxmox.Text

/-! ## String methods -/

/-- {lit}`s.strip(c)` for one character. -/
def stripped (c : Char) (s : String) : String :=
  rstrip c (lstrip c s)

/-- {lit}`s.split(c)` for one character. -/
def split (c : Char) (s : String) : List String :=
  (s.toList.splitOn c).map String.ofList

/-- {lit}`s.endswith(end)`. -/
def endsWith (s ending : String) : Bool :=
  ending.toList.isSuffixOf s.toList

/-- {lit}`s[1:-1]`. -/
def inner (s : String) : String :=
  String.ofList s.toList.tail.dropLast

/-- The characters left once each occurrence of {lit}`old` is replaced; the first
{lit}`skip` of them belong to an occurrence already replaced. -/
def replaceChars (old new : List Char) : Nat → List Char → List Char
  | _, [] => []
  | skip + 1, _ :: rest => replaceChars old new skip rest
  | 0, c :: rest =>
      if old.isPrefixOf (c :: rest) then new ++ replaceChars old new (old.length - 1) rest
      else c :: replaceChars old new 0 rest

/-- {lit}`s.replace(old, new)` for a text that is not empty. -/
def replace (s old new : String) : String :=
  String.ofList (replaceChars old.toList new.toList 0 s.toList)

/-! ## Paths of segments -/

/-- Segments with slashes between them. -/
def joined (parts : List String) : String :=
  String.ofList (['/'].intercalate (parts.map String.toList))

/-- A number of slashes. -/
def slashes (n : Nat) : String :=
  String.ofList (List.replicate n '/')

/-- A text without slashes. -/
def SlashFree (s : String) : Prop :=
  '/' ∉ s.toList

instance (s : String) : Decidable (SlashFree s) :=
  inferInstanceAs (Decidable ('/' ∉ s.toList))

/-- Parts are split where they were put together. -/
theorem split_intercalate {c : Char} {parts : List String} (hne : parts ≠ [])
    (hfree : ∀ part ∈ parts, c ∉ part.toList) :
    split c (String.ofList ([c].intercalate (parts.map String.toList))) = parts := by
  unfold split
  rw [String.toList_ofList, List.splitOn_intercalate]
  · rw [List.map_map]
    exact List.map_id'' (fun part => String.ofList_toList) parts
  · simpa using hfree
  · simpa using hne

/-- Segments are split where they were joined. -/
theorem split_joined {parts : List String} (hne : parts ≠ [])
    (hfree : ∀ part ∈ parts, SlashFree part) : split '/' (joined parts) = parts :=
  split_intercalate hne hfree

/-- A text is joined from what it is split into. -/
theorem joined_split (s : String) : joined (split '/' s) = s := by
  unfold split joined
  rw [List.map_map]
  have hid : String.toList ∘ String.ofList = id := funext fun chars => String.toList_ofList
  rw [hid, List.map_id, List.intercalate_splitOn, String.ofList_toList]

/-- A path has at least one part. -/
theorem split_ne_nil (s : String) : split '/' s ≠ [] := by
  simp [split]

/-- What a text is split into has no slashes. -/
theorem slashFree_of_mem_split {s part : String} (h : part ∈ split '/' s) : SlashFree part := by
  have hchars : ∀ (chars : List Char), ∀ segment ∈ chars.splitOn '/', '/' ∉ segment := by
    intro chars
    induction chars with
    | nil => simp
    | cons c rest ih =>
        intro segment hsegment
        rw [List.splitOn_cons_eq_if_modifyHead] at hsegment
        split_ifs at hsegment with hc
        · rcases List.mem_cons.mp hsegment with rfl | hsegment
          · simp
          · exact ih segment hsegment
        · cases hrest : rest.splitOn '/' with
          | nil => exact absurd hrest (List.splitOn_ne_nil _ _)
          | cons first others =>
              rw [hrest] at ih hsegment
              rcases List.mem_cons.mp hsegment with rfl | hsegment
              · have hfirst := ih first List.mem_cons_self
                have hc' : c ≠ '/' := by simpa using hc
                simp [hfirst, hc'.symm]
              · exact ih segment (List.mem_cons_of_mem first hsegment)
  unfold split at h
  rcases List.mem_map.mp h with ⟨segment, hsegment, rfl⟩
  unfold SlashFree
  rw [String.toList_ofList]
  exact hchars _ segment hsegment

/-! ## Leading and trailing slashes -/

/-- A text that neither starts nor ends with a slash is what is left of it between
slashes. -/
theorem stripped_slashes {s : String} (hfirst : s.toList.head? ≠ some '/')
    (hlast : s.toList.getLast? ≠ some '/') (before after : Nat) :
    stripped '/' (slashes before ++ s ++ slashes after) = s := by
  have hright : ∀ after : Nat,
      (s.toList ++ List.replicate after '/').rdropWhile (· = '/') = s.toList := by
    intro after
    induction after with
    | zero =>
        rw [List.replicate_zero, List.append_nil, List.rdropWhile_eq_self_iff]
        intro hne heq
        apply hlast
        rw [List.getLast?_eq_some_getLast hne, of_decide_eq_true heq]
    | succ after ih =>
        rw [List.replicate_succ', ← List.append_assoc, List.rdropWhile_concat_pos _ _ _ (by simp)]
        exact ih
  have hleft : ∀ before : Nat,
      (List.replicate before '/' ++ (s.toList ++ List.replicate after '/')).dropWhile (· = '/') =
        if s = "" then [] else s.toList ++ List.replicate after '/' := by
    intro before
    rw [List.dropWhile_append_of_pos (by simp)]
    split_ifs with hs
    · rw [hs]
      simp
    · cases hchars : s.toList with
      | nil => exact absurd (String.toList_eq_nil_iff.mp hchars) hs
      | cons c rest =>
          rw [hchars, List.head?_cons, ne_eq, Option.some.injEq] at hfirst
          exact List.dropWhile_cons_of_neg (by simpa using hfirst)
  unfold stripped rstrip lstrip slashes
  rw [String.toList_ofList, String.toList_append, String.toList_append, String.toList_ofList,
    String.toList_ofList, List.append_assoc, hleft]
  split_ifs with hs
  · rw [hs]
    rfl
  · rw [hright, String.ofList_toList]

/-- Every text is what is left of it between slashes. -/
theorem eq_slashes_stripped (s : String) :
    ∃ before after, s = slashes before ++ stripped '/' s ++ slashes after := by
  have hall : ∀ chars : List Char, (∀ c ∈ chars, c = '/') →
      chars = List.replicate chars.length '/' := fun chars h => List.eq_replicate_of_mem h
  have hleft := hall (s.toList.takeWhile (· = '/'))
    fun c hc => by simpa using List.mem_takeWhile_imp hc
  have hright := hall ((s.toList.dropWhile (· = '/')).rtakeWhile (· = '/'))
    fun c hc => by simpa using List.mem_rtakeWhile_imp hc
  refine ⟨(s.toList.takeWhile (· = '/')).length,
    ((s.toList.dropWhile (· = '/')).rtakeWhile (· = '/')).length, ?_⟩
  apply String.toList_injective
  unfold stripped rstrip lstrip slashes
  simp only [String.toList_append, String.toList_ofList]
  rw [← hleft, ← hright, List.append_assoc, List.rdropWhile_append_rtakeWhile,
    List.takeWhile_append_dropWhile]

/-- A joined path neither starts nor ends with a slash, if its segments do not do so and
the outer ones are not empty. -/
theorem joined_ends {parts : List String} (hfree : ∀ part ∈ parts, SlashFree part)
    (hfirst : parts.head? ≠ some "") (hlast : parts.getLast? ≠ some "") :
    (joined parts).toList.head? ≠ some '/' ∧ (joined parts).toList.getLast? ≠ some '/' := by
  rcases eq_or_ne parts [] with rfl | hne
  · exact ⟨by decide, by decide⟩
  have hsplit := split_joined hne hfree
  unfold split at hsplit
  constructor
  · intro hhead
    rcases List.head?_eq_some_iff.mp hhead with ⟨rest, hrest⟩
    have hsegments : ('/' :: rest).splitOn '/' = [] :: rest.splitOn '/' :=
      List.splitOn_append_cons_self [] rest
    rw [hrest, hsegments] at hsplit
    exact hfirst (by rw [← hsplit]; rfl)
  · intro hend
    rcases List.getLast?_eq_some_iff.mp hend with ⟨rest, hrest⟩
    rw [hrest, List.splitOn_append_cons_self] at hsplit
    exact hlast (by rw [← hsplit]; simp)

/-! ## Replacing what stands in braces -/

/-- Without its first character nothing is replaced. -/
theorem replaceChars_of_not_mem {opening : Char} {name new chars : List Char}
    (h : opening ∉ chars) : replaceChars (opening :: name) new 0 chars = chars := by
  induction chars with
  | nil => rfl
  | cons c rest ih =>
      rw [List.mem_cons, not_or] at h
      rw [replaceChars, ih h.2, if_neg]
      intro hprefix
      exact h.1 (List.cons_prefix_cons.mp (List.isPrefixOf_iff_prefix.mp hprefix)).1

/-- What stands before the opening brace stays. -/
theorem replaceChars_append {opening : Char} {name new before after : List Char}
    (h : opening ∉ before) :
    replaceChars (opening :: name) new 0 (before ++ after) =
      before ++ replaceChars (opening :: name) new 0 after := by
  induction before with
  | nil => rfl
  | cons c rest ih =>
      rw [List.mem_cons, not_or] at h
      rw [List.cons_append, replaceChars, ih h.2, if_neg]
      · rfl
      · intro hprefix
        exact h.1 (List.cons_prefix_cons.mp (List.isPrefixOf_iff_prefix.mp hprefix)).1

/-- Characters are skipped up to the end of what was replaced. -/
theorem replaceChars_skip (old new before after : List Char) :
    replaceChars old new before.length (before ++ after) = replaceChars old new 0 after := by
  induction before with
  | nil => rfl
  | cons c rest ih => exact ih

/-- A name in braces. -/
def braced (name : String) : String :=
  "\x7b" ++ name ++ "\x7d"

/-- A text that has no braces. -/
def BraceFree (s : String) : Prop :=
  '{' ∉ s.toList ∧ '}' ∉ s.toList

instance (s : String) : Decidable (BraceFree s) :=
  inferInstanceAs (Decidable (_ ∧ _))

theorem toList_braced (name : String) : (braced name).toList = '{' :: (name.toList ++ ['}']) := by
  simp [braced]

/-- Nothing in braces, nothing replaced. -/
theorem replace_of_braceFree {s : String} (h : BraceFree s) (name new : String) :
    replace s (braced name) new = s := by
  unfold replace
  rw [toList_braced, replaceChars_of_not_mem h.1, String.ofList_toList]

/-- Two names up to the closing brace are the same as soon as one is where the other
is. -/
theorem isPrefixOf_closed {closing : Char} {a b rest : List Char} (ha : closing ∉ a)
    (hb : closing ∉ b) :
    (a ++ [closing]).isPrefixOf (b ++ closing :: rest) = decide (a = b) := by
  induction a generalizing b with
  | nil =>
      cases b with
      | nil => simp [List.isPrefixOf]
      | cons d b =>
          rw [List.mem_cons, not_or] at hb
          simp [List.isPrefixOf, hb.1]
  | cons c a ih =>
      rw [List.mem_cons, not_or] at ha
      cases b with
      | nil => simp [List.isPrefixOf, Ne.symm ha.1]
      | cons d b =>
          rw [List.mem_cons, not_or] at hb
          have hrest := ih ha.2 hb.2
          by_cases hcd : c = d
          · simp [hrest, hcd]
          · simp [List.isPrefixOf, hcd]

/-- The one name in braces is replaced if it is the one asked for. -/
theorem replace_braced {before name after other : String} (hbefore : BraceFree before)
    (hname : BraceFree name) (hafter : BraceFree after) (hother : BraceFree other)
    (new : String) :
    replace (before ++ braced name ++ after) (braced other) new =
      if other = name then before ++ new ++ after else before ++ braced name ++ after := by
  have hsame : ('{' :: (other.toList ++ ['}'])).isPrefixOf
      ('{' :: (name.toList ++ '}' :: after.toList)) = decide (other.toList = name.toList) :=
    isPrefixOf_closed hother.2 hname.2
  have hrest : '{' ∉ name.toList ++ '}' :: after.toList := by
    simp [hname.1, hafter.1]
  apply String.toList_injective
  unfold replace
  rw [String.toList_ofList, toList_braced, String.toList_append, String.toList_append,
    toList_braced, List.append_assoc, replaceChars_append hbefore.1]
  simp only [List.cons_append, List.append_assoc, List.nil_append]
  rw [replaceChars, hsame]
  by_cases heq : other = name
  · subst heq
    have hskip := replaceChars_skip ('{' :: (other.toList ++ ['}'])) new.toList
      (other.toList ++ ['}']) after.toList
    rw [List.append_assoc, List.singleton_append, replaceChars_of_not_mem hafter.1] at hskip
    rw [if_pos (by simp), if_pos rfl, List.length_cons, Nat.add_sub_cancel, hskip]
    simp
  · rw [if_neg (by simpa [String.toList_inj] using heq), if_neg heq, replaceChars_of_not_mem hrest]
    simp [toList_braced]

end AioProxmox.Text
