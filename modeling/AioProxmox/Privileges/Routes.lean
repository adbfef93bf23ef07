import AioProxmox.Privileges.Lookup

/-!
# Privileges - routes

A route may be one that the package knows or not.  Where it meets no other template that is
known, its path, filled in, requires what the route does; that is nothing where the package does
not know it.

Main results:

- Theorem {lit}`filledIn_segment`: a template is filled in segment by segment.
- Theorem {lit}`privilegesFor_entry`: what a route of the table requires, filled in.
- Theorem {lit}`privilegesFor_route`: a filled-in route requires what the route does.
-/

namespace AioProxmox

open Routing

/-! ## Filling in -/

section Segments

variable {values : String → String}

/-- A part without slashes is the first that is split off. -/
theorem split_segment {part : String} (h : Text.SlashFree part) (rest : String) :
    Text.split '/' (part ++ "/" ++ rest) = part :: Text.split '/' rest := by
  have hjoined : part ++ "/" ++ rest = Text.joined (part :: Text.split '/' rest) := by
    rw [joined_cons part (Text.split_ne_nil rest), Text.joined_split]
  rw [hjoined, Text.split_joined (List.cons_ne_nil _ _)]
  intro text htext
  rcases List.mem_cons.mp htext with rfl | htext
  · exact h
  · exact Text.slashFree_of_mem_split htext

/-- The first segment of a template and what follows it are filled in apart. -/
theorem filledIn_segment {part : String} (h : Text.SlashFree part) (rest : String) :
    filledIn values (part ++ "/" ++ rest) =
      (segmentOf part).fill values ++ "/" ++ filledIn values rest := by
  have hne : (templateOf rest).fill values ≠ [] := by
    simpa [Template.fill, templateOf] using Text.split_ne_nil rest
  unfold filledIn
  rw [templateOf, split_segment h]
  exact joined_cons _ hne

/-- A template without names is the path. -/
theorem filledIn_plain {template : String} (h : (templateOf template).names = []) :
    filledIn values template = template := by
  have hjoined := joined_templateOf template
  rw [filledIn, Template.eq_map_literal h, Template.fill_map_literal]
  rw [Template.eq_map_literal h, List.map_map] at hjoined
  exact (congrArg Text.joined (List.map_id _).symm).trans hjoined

end Segments

/-! ## What a route requires -/

/-- A route as the package can look it up: it is well formed, and each of the templates it knows
is this one or meets it in no path. -/
structure Lookable (route : String) : Prop where
  wellFormed : WellFormed (templateOf route)
  apart : ∀ entry ∈ checks, entry.1.2 = route ∨
    (templateOf entry.1.2).apart (templateOf route) = true

/-- For a path that is filled in, the template's values are found in the table. -/
theorem privilegesFor_filledIn (upper : String → String) (table : List CheckEntry)
    (method : String) {route : String} (h : WellFormed (templateOf route))
    {values : String → String} (hfree : SlashFreeFor route values) :
    privilegesFor upper table method (filledIn values route) [] =
      findCheck [] (upper method) ((templateOf route).fill values) table := by
  have hstripped : Text.stripped '/' (filledIn values route) = filledIn values route := by
    simpa [Text.slashes] using stripped_filledIn h hfree 0 0
  unfold privilegesFor
  rw [hstripped, split_filledIn hfree]

/-- A route of the table, filled in, requires what is stated for it. -/
theorem privilegesFor_entry (upper : String → String) {table : List CheckEntry}
    (hperm : table.Perm checks) {method : String} {entry : CheckEntry} (hentry : entry ∈ checks)
    (hmethod : entry.1.1 = upper method) {values : String → String}
    (hfree : SlashFreeFor entry.1.2 values) :
    privilegesFor upper table method (filledIn values entry.1.2) [] =
      .ok ((requiredPrivileges upper checks method entry.1.2).map (Check.filledIn values)) := by
  have hin : entry ∈ table := hperm.mem_iff.mpr hentry
  rw [privilegesFor_filledIn upper table method (checks_unambiguous.wellFormed entry hentry) hfree,
    requiredPrivileges_of_mem upper checks_unambiguous hentry hmethod, ← hmethod]
  exact findCheck_filledIn (checks_unambiguous.perm hperm) hin (List.Subset.refl table) hin

/-- A filled-in route requires what the route does, with the same values in the ACL paths. -/
theorem privilegesFor_route (upper : String → String) {table : List CheckEntry}
    (hperm : table.Perm checks) (method : String) {route : String} (h : Lookable route)
    {values : String → String} (hfree : SlashFreeFor route values) :
    privilegesFor upper table method (filledIn values route) [] =
      .ok ((requiredPrivileges upper checks method route).map (Check.filledIn values)) := by
  by_cases hknown : (upper method, route) ∈ checks.map Prod.fst
  · rcases List.mem_map.mp hknown with ⟨entry, hentry, hkey⟩
    rcases Prod.mk.inj hkey with ⟨hmethod, rfl⟩
    exact privilegesFor_entry upper hperm hentry hmethod hfree
  · have htable : Unambiguous table := checks_unambiguous.perm hperm
    have hunknown : requiredPrivileges upper checks method route = none := by
      unfold requiredPrivileges
      rw [stripped_template h.wellFormed, Collections.lookup_of_not_mem hknown]
    rw [hunknown, privilegesFor_filledIn upper table method h.wellFormed hfree]
    refine findCheck_eq_none htable (List.Subset.refl table) fun entry hentry hmethod => ?_
    rw [Option.eq_none_iff_forall_ne_some]
    intro found hfound
    rcases Template.fill_of_read (htable.wellFormed entry hentry).names hfound with
      ⟨values', hfill, -⟩
    have hin : entry ∈ checks := hperm.mem_iff.mp hentry
    rcases h.apart entry hin with hsame | hapart
    · apply hknown
      rw [← hmethod, ← hsame]
      exact List.mem_map_of_mem hin
    · exact Template.apart_fill_ne hapart values' values hfill

end AioProxmox
