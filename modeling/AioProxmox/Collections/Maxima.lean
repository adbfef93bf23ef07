import AioProxmox.Collections.Table
import Mathlib.Algebra.BigOperators.Group.Finset.Basic
import Mathlib.Data.Finset.Lattice.Fold

/-!
# Collections - the largest figure of each key

A table that keeps for each key the largest figure seen under it, filled from a list of
elements that have a key and perhaps a figure.

Main results:

- Definitions {lit}`note` and {lit}`maxima`: one element, and the whole list.
- Theorem {lit}`maxima_isMaxima`: under each key stands the largest of its figures.
- Theorem {lit}`IsMaxima.sum_values`: the sum over the table is one over the keys.
- Theorem {lit}`figuresOn_perm`: the order of the list does not matter.
-/

namespace Collections

variable {ι κ β : Type*} [DecidableEq κ] [LinearOrder β] [OrderBot β]

/-- Keep the figure of an element, if it has one and none as large stands under its key. -/
def note (key : ι → κ) (figure : ι → Option β) (table : List (κ × β)) (x : ι) : List (κ × β) :=
  match figure x with
  | some v => store table (key x) (max ((table.lookup (key x)).getD ⊥) v)
  | none => table

/-- The largest figure of each key of a list. -/
def maxima (key : ι → κ) (figure : ι → Option β) (xs : List ι) : List (κ × β) :=
  xs.foldl (note key figure) []

/-- The figures of the elements with a key. -/
def figuresOn (key : ι → κ) (figure : ι → Option β) (xs : List ι) (k : κ) : Finset β :=
  ((xs.filter fun x => key x = k).filterMap figure).toFinset

/-- The keys of a list. -/
def keysOf (key : ι → κ) (xs : List ι) : Finset κ :=
  (xs.map key).toFinset

section Figures

variable {key : ι → κ} {figure : ι → Option β} {xs ys : List ι} {x : ι} {k : κ} {v : β}

omit [OrderBot β] in
/-- The figures on a key are those of its elements that have one. -/
theorem mem_figuresOn : v ∈ figuresOn key figure xs k ↔
    ∃ x ∈ xs, key x = k ∧ figure x = some v := by
  simp [figuresOn, and_assoc]

/-- The keys are those of the elements. -/
theorem mem_keysOf : k ∈ keysOf key xs ↔ ∃ x ∈ xs, key x = k := by
  simp [keysOf]

omit [OrderBot β] in
/-- The order of the list does not matter. -/
theorem figuresOn_perm (h : xs.Perm ys) :
    figuresOn key figure xs k = figuresOn key figure ys k :=
  List.toFinset_eq_of_perm _ _ ((h.filter _).filterMap _)

/-- The keys do not depend on the order. -/
theorem keysOf_perm (h : xs.Perm ys) : keysOf key xs = keysOf key ys :=
  List.toFinset_eq_of_perm _ _ (h.map key)

omit [OrderBot β] in
/-- One more element adds its figure under its key. -/
theorem figuresOn_concat (xs : List ι) (x : ι) (k : κ) :
    figuresOn key figure (xs ++ [x]) k =
      if key x = k then
        match figure x with
        | some v => insert v (figuresOn key figure xs k)
        | none => figuresOn key figure xs k
      else figuresOn key figure xs k := by
  unfold figuresOn
  rw [List.filter_append, List.filterMap_append]
  by_cases hkey : key x = k
  · cases hfigure : figure x with
    | none => simp [hkey, hfigure]
    | some v =>
        ext u
        simp [hkey, hfigure]
  · simp [hkey]

end Figures

/-! ## The table -/

/-- Under each key with a figure stands the largest of its figures, and nothing else. -/
structure IsMaxima (key : ι → κ) (figure : ι → Option β) (table : List (κ × β)) (xs : List ι) :
    Prop where
  largest : ∀ k, table.lookup k =
    if figuresOn key figure xs k = ∅ then none else some ((figuresOn key figure xs k).sup id)
  distinct : (table.map Prod.fst).Nodup

section Table

variable {key : ι → κ} {figure : ι → Option β} {xs : List ι} {table : List (κ × β)} {x : ι}

/-- One more element. -/
theorem IsMaxima.note (h : IsMaxima key figure table xs) (x : ι) :
    IsMaxima key figure (note key figure table x) (xs ++ [x]) := by
  unfold Collections.note
  cases hfigure : figure x with
  | none =>
      refine ⟨?_, h.distinct⟩
      intro k
      have hsame : figuresOn key figure (xs ++ [x]) k = figuresOn key figure xs k := by
        rw [figuresOn_concat, hfigure, ite_self]
      rw [hsame]
      exact h.largest k
  | some v =>
      refine ⟨?_, nodup_keys_store h.distinct _ _⟩
      intro k
      rw [lookup_store, figuresOn_concat, hfigure]
      by_cases hkey : k = key x
      · subst hkey
        rw [if_pos rfl, if_pos rfl, if_neg (Finset.insert_ne_empty v _), h.largest,
          Finset.sup_insert]
        by_cases hempty : figuresOn key figure xs (key x) = ∅
        · simp [hempty]
        · rw [if_neg hempty, Option.getD_some, max_comm]
          rfl
      · rw [if_neg hkey, if_neg (Ne.symm hkey)]
        exact h.largest k

/-- The table of a list keeps the largest figure of each key. -/
theorem maxima_isMaxima (key : ι → κ) (figure : ι → Option β) (xs : List ι) :
    IsMaxima key figure (maxima key figure xs) xs := by
  induction xs using List.reverseRecOn with
  | nil => exact ⟨fun _ => rfl, List.nodup_nil⟩
  | append_singleton xs x ih =>
      unfold maxima
      rw [List.foldl_append]
      exact ih.note x

/-- The keys of the table are those with a figure. -/
theorem IsMaxima.mem_keys (h : IsMaxima key figure table xs) {k : κ} :
    k ∈ table.map Prod.fst ↔ ∃ x ∈ xs, key x = k ∧ (figure x).isSome = true := by
  rw [← not_iff_not, notMem_keys_iff, h.largest]
  constructor
  · rintro hnone ⟨x, hx, hkey, hfigure⟩
    rcases Option.isSome_iff_exists.mp hfigure with ⟨v, hv⟩
    have hmem : v ∈ figuresOn key figure xs k := mem_figuresOn.mpr ⟨x, hx, hkey, hv⟩
    rw [if_neg (Finset.ne_empty_of_mem hmem)] at hnone
    contradiction
  · intro hnot
    apply if_pos
    rw [Finset.eq_empty_iff_forall_notMem]
    intro v hv
    rcases mem_figuresOn.mp hv with ⟨x, hx, hkey, hfigure⟩
    exact hnot ⟨x, hx, hkey, by rw [hfigure, Option.isSome_some]⟩

/-- The sum over the table is that of the largest figures over its keys. -/
theorem IsMaxima.sum_values [AddCommMonoid β] (h : IsMaxima key figure table xs) :
    (table.map Prod.snd).sum =
      ∑ k ∈ (table.map Prod.fst).toFinset, (figuresOn key figure xs k).sup id := by
  rw [List.sum_toFinset _ h.distinct, List.map_map]
  congr 1
  apply List.map_congr_left
  intro entry hentry
  have hlookup := lookup_of_mem h.distinct hentry
  rw [h.largest] at hlookup
  split at hlookup
  · contradiction
  · exact (Option.some.inj hlookup).symm

end Table

end Collections
