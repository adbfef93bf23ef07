import Mathlib.Data.List.Basic
import Mathlib.Data.List.Induction

/-!
# Collections - tables in insertion order

A table as a list of keys and values: what is stored under a key that is there replaces
the value and keeps its place, what is stored under a new one comes last.

Main results:

- Definition {lit}`store`: storing a value under a key.
- Theorem {lit}`store_of_not_mem`: a new key comes last.
- Theorem {lit}`lookup_of_mem`: what stands under distinct keys is found.
- Theorems {lit}`lookup_fill` and {lit}`findSome?_values_fill`: what a table filled by key
  and value holds, and in which order.
- Theorem {lit}`Indexes.store`: a table filled from a list holds under each key the last
  value with that key.
-/

namespace Collections

variable {κ β : Type*}

section Store

variable [DecidableEq κ]

/-- Store a value under a key. -/
def store (table : List (κ × β)) (key : κ) (value : β) : List (κ × β) :=
  match table with
  | [] => [(key, value)]
  | (k, v) :: rest =>
      if k = key then (k, value) :: rest else (k, v) :: store rest key value

@[simp]
theorem store_nil (key : κ) (value : β) : store [] key value = [(key, value)] :=
  rfl

/-- A new key comes last. -/
theorem store_of_not_mem {table : List (κ × β)} {key : κ} (h : key ∉ table.map Prod.fst)
    (value : β) : store table key value = table ++ [(key, value)] := by
  induction table with
  | nil => rfl
  | cons entry rest ih =>
      rw [List.map_cons, List.mem_cons, not_or] at h
      rw [store, if_neg (Ne.symm h.1), ih h.2, List.cons_append]

end Store

section Lookup

variable [BEq κ] [LawfulBEq κ]

/-- Where keys are distinct, what stands in the table is found. -/
theorem lookup_of_mem {table : List (κ × β)} (h : (table.map Prod.fst).Nodup) {key : κ} {value : β}
    (hmem : (key, value) ∈ table) : table.lookup key = some value := by
  induction table with
  | nil => contradiction
  | cons entry rest ih =>
      rcases List.nodup_cons.mp h with ⟨hnew, hrest⟩
      rcases List.mem_cons.mp hmem with rfl | hmem
      · rw [List.lookup_cons, beq_self_eq_true]
      · have hne : key ≠ entry.1 := by
          rintro rfl
          exact hnew (List.mem_map.mpr ⟨_, hmem, rfl⟩)
        rw [List.lookup_cons, beq_false_of_ne hne]
        exact ih hrest hmem

/-- A key that is not there is not found. -/
theorem lookup_of_not_mem {table : List (κ × β)} {key : κ} (h : key ∉ table.map Prod.fst) :
    table.lookup key = none := by
  rw [List.lookup_eq_none_iff]
  intro entry hentry
  rw [bne_iff_ne]
  rintro rfl
  exact h (List.mem_map_of_mem hentry)

/-- And nothing else. -/
theorem lookup_eq_some_iff_mem {table : List (κ × β)} (h : (table.map Prod.fst).Nodup) {key : κ}
    {value : β} : table.lookup key = some value ↔ (key, value) ∈ table := by
  constructor
  · intro hfound
    rcases List.lookup_eq_some_iff.mp hfound with ⟨before, after, htable, -⟩
    rw [htable]
    exact List.mem_append_right before List.mem_cons_self
  · exact lookup_of_mem h

/-- And nothing else is not found. -/
theorem notMem_keys_iff {table : List (κ × β)} {key : κ} :
    key ∉ table.map Prod.fst ↔ table.lookup key = none := by
  constructor
  · exact lookup_of_not_mem
  · intro hnone hmem
    rcases List.mem_map.mp hmem with ⟨entry, hentry, rfl⟩
    rw [List.lookup_eq_none_iff] at hnone
    exact absurd (hnone entry hentry) (by simp)

end Lookup

/-! ## Tables filled from a list -/

section Index

variable [DecidableEq κ] {key : β → κ} {table : List (κ × β)} {items : List β} {b : β}

/-- What was stored is found, and everything else as before. -/
theorem lookup_store (table : List (κ × β)) (key other : κ) (value : β) :
    (store table key value).lookup other =
      if other = key then some value else table.lookup other := by
  induction table with
  | nil =>
      rw [store_nil, List.lookup_cons]
      by_cases hother : other = key
      · simp [hother]
      · simp [hother, beq_false_of_ne hother]
  | cons entry rest ih =>
      rcases entry with ⟨k, v⟩
      by_cases hk : k = key
      · subst hk
        by_cases hother : other = k
        · simp [store, hother]
        · simp [store, hother, List.lookup_cons, beq_false_of_ne hother]
      · rw [store, if_neg hk, List.lookup_cons, List.lookup_cons, ih]
        by_cases hother : other = k
        · subst hother
          simp [hk]
        · simp [beq_false_of_ne hother]

/-- The keys are those of the table, and the new one. -/
theorem mem_keys_store (table : List (κ × β)) (key other : κ) (value : β) :
    other ∈ (store table key value).map Prod.fst ↔ other = key ∨ other ∈ table.map Prod.fst := by
  induction table with
  | nil => simp
  | cons entry rest ih =>
      rcases entry with ⟨k, v⟩
      by_cases hk : k = key
      · simp [store, hk]
      · rw [store, if_neg hk, List.map_cons, List.mem_cons, ih, List.map_cons, List.mem_cons]
        exact or_left_comm

/-- Distinct keys stay distinct. -/
theorem nodup_keys_store {table : List (κ × β)} (h : (table.map Prod.fst).Nodup) (key : κ)
    (value : β) : ((store table key value).map Prod.fst).Nodup := by
  induction table with
  | nil => simp
  | cons entry rest ih =>
      rcases entry with ⟨k, v⟩
      rcases List.nodup_cons.mp h with ⟨hnew, hrest⟩
      by_cases hk : k = key
      · rw [store, if_pos hk]
        exact h
      · rw [store, if_neg hk, List.map_cons, List.nodup_cons]
        refine ⟨?_, ih hrest⟩
        rw [mem_keys_store]
        rintro (heq | hmem)
        · exact hk heq
        · exact hnew hmem

/-- Where keys are distinct, the entries are the new one and those of the other keys. -/
theorem mem_store_iff {table : List (κ × β)} (h : (table.map Prod.fst).Nodup)
    {key other : κ} {value found : β} :
    (other, found) ∈ store table key value ↔
      if other = key then found = value else (other, found) ∈ table := by
  rw [← lookup_eq_some_iff_mem (nodup_keys_store h key value), lookup_store]
  split_ifs
  · rw [Option.some.injEq, eq_comm]
  · exact lookup_eq_some_iff_mem h

/-- The table holds under each key the last value of the list with that key. -/
structure Indexes (key : β → κ) (table : List (κ × β)) (items : List β) : Prop where
  last : ∀ k, table.lookup k = items.reverse.find? fun b => key b = k
  distinct : (table.map Prod.fst).Nodup

/-- The empty table is that of the empty list. -/
theorem Indexes.nil : Indexes key [] [] :=
  ⟨fun _ => rfl, List.nodup_nil⟩

/-- Storing one more value under its key. -/
theorem Indexes.store (h : Indexes key table items) (b : β) :
    Indexes key (Collections.store table (key b) b) (items ++ [b]) := by
  refine ⟨?_, nodup_keys_store h.distinct _ b⟩
  intro other
  rw [lookup_store, List.reverse_append, List.reverse_singleton, List.singleton_append,
    List.find?_cons]
  by_cases hother : other = key b
  · simp [hother]
  · rw [if_neg hother, h.last, decide_eq_false (Ne.symm hother)]

section Selected

variable {α : Type*} {select : α → Option β} {done : List α} {a : α}

/-- One more element that is not selected. -/
theorem Indexes.skip (h : Indexes key table (done.filterMap select)) (ha : select a = none) :
    Indexes key table ((done ++ [a]).filterMap select) := by
  rw [List.filterMap_append, List.filterMap_cons_none ha, List.filterMap_nil, List.append_nil]
  exact h

/-- One more element that is. -/
theorem Indexes.take (h : Indexes key table (done.filterMap select)) (ha : select a = some b) :
    Indexes key (Collections.store table (key b) b) ((done ++ [a]).filterMap select) := by
  rw [List.filterMap_append, List.filterMap_cons_some ha, List.filterMap_nil]
  exact h.store b

end Selected

end Index

/-! ## Tables filled by key and value -/

section Fill

variable [DecidableEq κ] {ι γ : Type*} {key : ι → κ} {value : ι → β}

/-- Store for each element its value under its key. -/
def fill (key : ι → κ) (value : ι → β) (xs : List ι) : List (κ × β) :=
  xs.foldl (fun table x => store table (key x) (value x)) []

/-- The last element is stored last. -/
theorem fill_concat (xs : List ι) (x : ι) :
    fill key value (xs ++ [x]) = store (fill key value xs) (key x) (value x) := by
  simp [fill]

/-- No key is filled twice. -/
theorem nodup_keys_fill (xs : List ι) : ((fill key value xs).map Prod.fst).Nodup := by
  induction xs using List.reverseRecOn with
  | nil => exact List.nodup_nil
  | append_singleton xs x ih =>
      rw [fill_concat]
      exact nodup_keys_store ih _ _

/-- Under each key stands the value of the last element with it. -/
theorem lookup_fill (xs : List ι) (k : κ) :
    (fill key value xs).lookup k = ((xs.filter fun x => key x = k).getLast?).map value := by
  induction xs using List.reverseRecOn with
  | nil => rfl
  | append_singleton xs x ih =>
      rw [fill_concat, lookup_store, List.filter_append, ih]
      by_cases hkey : k = key x
      · simp [hkey]
      · simp [hkey, Ne.symm hkey]

/-- A key that is stored is looked at last, if it was not there. -/
theorem findSome?_keys_store (g : κ → Option γ) (table : List (κ × β)) (k : κ) (v : β) :
    ((store table k v).map Prod.fst).findSome? g = (table.map Prod.fst ++ [k]).findSome? g := by
  induction table with
  | nil => rfl
  | cons entry rest ih =>
      rcases entry with ⟨k', v'⟩
      by_cases hk : k' = k
      · subst hk
        rw [store, if_pos rfl]
        cases hg : g k' with
        | none => simp [hg]
        | some c => simp [hg]
      · rw [store, if_neg hk, List.map_cons, List.findSome?_cons, List.map_cons,
          List.cons_append, List.findSome?_cons, ih]

/-- The keys come in the order in which they first occur. -/
theorem findSome?_keys_fill (key : ι → κ) (value : ι → β) (g : κ → Option γ) (xs : List ι) :
    ((fill key value xs).map Prod.fst).findSome? g = (xs.map key).findSome? g := by
  induction xs using List.reverseRecOn with
  | nil => rfl
  | append_singleton xs x ih =>
      rw [fill_concat, findSome?_keys_store, List.findSome?_append, ih, List.map_append,
        List.findSome?_append]
      rfl

/-- So what is found first among the values is found first where each element has the value
stored last under its key. -/
theorem findSome?_values_fill (key : ι → κ) (value : ι → β) (g : β → Option γ) (xs : List ι) :
    ((fill key value xs).map Prod.snd).findSome? g =
      xs.findSome? fun x => ((fill key value xs).lookup (key x)).bind g := by
  have hvalues : ∀ entry ∈ fill key value xs, (g ∘ Prod.snd) entry =
      ((fun k => ((fill key value xs).lookup k).bind g) ∘ Prod.fst) entry := by
    intro entry hentry
    simp only [Function.comp_apply]
    rw [lookup_of_mem (nodup_keys_fill xs) hentry, Option.bind_some]
  have hkeys := findSome?_keys_fill key value
    (fun k => ((fill key value xs).lookup k).bind g) xs
  rw [List.findSome?_map, List.findSome?_map] at hkeys
  rw [List.findSome?_map, ← List.head?_filterMap, List.filterMap_congr hvalues,
    List.head?_filterMap]
  exact hkeys

end Fill

end Collections
