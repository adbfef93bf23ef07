import AioProxmox.Collections.Table
import Mathlib.Data.List.Nodup

/-!
# Collections - tables put together

A table updated by another holds what the other does and, under any other key, what it held
before.  A table that holds the values of a list of elements with distinct keys goes on doing
so when such a table is put to it.

Main results:

- Definition {lit}`update`: one table put to another.
- Theorem {lit}`lookup_update`: what is found in it.
- Theorem {lit}`update_eq_append`: tables without a common key are put one after the other.
- Theorem {lit}`foldl_storeUnder`: a table under a key is filled value by value.
- Theorem {lit}`Tabulates.update`: tables of two lists are put together to one of both.
-/

namespace Collections

variable {ι κ κ' β : Type*}

/-- Keys of two lists are distinct if those of each are and no key is in both. -/
theorem nodup_keys_append_iff {key : ι → κ} {xs ys : List ι} :
    ((xs ++ ys).map key).Nodup ↔
      (xs.map key).Nodup ∧ (ys.map key).Nodup ∧ ∀ x ∈ xs, ∀ y ∈ ys, key x ≠ key y := by
  rw [List.map_append, List.nodup_append]
  simp

variable [DecidableEq κ] [DecidableEq κ']

/-- Store what stands in another table. -/
def update (table other : List (κ × β)) : List (κ × β) :=
  other.foldl (fun table entry => store table entry.1 entry.2) table

section Update

variable {table other : List (κ × β)}

@[simp]
theorem update_nil (table : List (κ × β)) : update table [] = table :=
  rfl

theorem update_cons (table other : List (κ × β)) (entry : κ × β) :
    update table (entry :: other) = update (store table entry.1 entry.2) other :=
  rfl

/-- What is stored last stays. -/
theorem store_store (table : List (κ × β)) (k : κ) (v v' : β) :
    store (store table k v) k v' = store table k v' := by
  induction table with
  | nil => simp [store]
  | cons entry rest ih =>
      by_cases hk : entry.1 = k
      · simp [store, hk]
      · simp [store, hk, ih]

/-- What stands in the other table is found, and everything else as before. -/
theorem lookup_update (table : List (κ × β)) (h : (other.map Prod.fst).Nodup) (k : κ) :
    (update table other).lookup k = (other.lookup k).or (table.lookup k) := by
  induction other generalizing table with
  | nil => simp
  | cons entry rest ih =>
      rcases List.nodup_cons.mp h with ⟨hnew, hrest⟩
      rw [update_cons, ih _ hrest, lookup_store, List.lookup_cons]
      by_cases hk : k = entry.1
      · subst hk
        rw [lookup_of_not_mem hnew, if_pos rfl, beq_self_eq_true]
        rfl
      · rw [if_neg hk, beq_false_of_ne hk]

/-- Distinct keys stay distinct. -/
theorem nodup_keys_update (h : (table.map Prod.fst).Nodup) (other : List (κ × β)) :
    ((update table other).map Prod.fst).Nodup := by
  induction other generalizing table with
  | nil => exact h
  | cons entry rest ih => exact ih (nodup_keys_store h entry.1 entry.2)

/-- Tables without a common key are put one after the other. -/
theorem update_eq_append (h : ((table ++ other).map Prod.fst).Nodup) :
    update table other = table ++ other := by
  induction other generalizing table with
  | nil => rw [update_nil, List.append_nil]
  | cons entry rest ih =>
      have hnew : entry.1 ∉ table.map Prod.fst := by
        rw [List.map_append, List.nodup_append] at h
        intro hmem
        exact h.2.2 _ hmem _ List.mem_cons_self rfl
      rw [update_cons, store_of_not_mem hnew, ih]
      · rw [List.append_assoc, List.singleton_append]
      · rw [List.append_assoc, List.singleton_append]
        exact h

/-- Store a value in the table under a key, an empty one where there is none. -/
def storeUnder (tables : List (κ × List (κ' × β))) (k : κ) (k' : κ') (v : β) :
    List (κ × List (κ' × β)) :=
  store tables k (store ((tables.lookup k).getD []) k' v)

/-- What is stored under a table just stored is stored in it. -/
theorem storeUnder_store (tables : List (κ × List (κ' × β))) (k : κ) (inner : List (κ' × β))
    (k' : κ') (v : β) :
    storeUnder (store tables k inner) k k' v = store tables k (store inner k' v) := by
  rw [storeUnder, lookup_store, if_pos rfl, Option.getD_some, store_store]

/-- One value after the other, the table under the key is updated. -/
theorem foldl_storeUnder (tables : List (κ × List (κ' × β))) (k : κ)
    (inner other : List (κ' × β)) :
    other.foldl (fun tables entry => storeUnder tables k entry.1 entry.2)
      (store tables k inner) = store tables k (update inner other) := by
  induction other generalizing inner with
  | nil => rfl
  | cons entry rest ih =>
      rw [List.foldl_cons, storeUnder_store, ih, update_cons]

end Update

/-! ## Tables of a list -/

/-- Under the key of each element of a list stands its value, if it has one, and nothing else
stands in the table. -/
structure Tabulates (key : ι → κ) (value? : ι → Option β) (table : List (κ × β))
    (items : List ι) : Prop where
  found : ∀ k, table.lookup k = (items.find? fun x => key x = k).bind value?
  distinct : (table.map Prod.fst).Nodup

section Tabulated

variable {key : ι → κ} {value? : ι → Option β} {table table' : List (κ × β)}
  {items items' : List ι} {x : ι} {v : β} {k : κ}

/-- No elements. -/
theorem Tabulates.nil : Tabulates key value? [] [] :=
  ⟨fun _ => rfl, List.nodup_nil⟩

/-- An element without a value. -/
theorem Tabulates.empty (h : value? x = none) : Tabulates key value? [] [x] := by
  refine ⟨?_, List.nodup_nil⟩
  intro k
  by_cases hk : key x = k
  · simp [hk, h]
  · simp [hk]

/-- An element with one. -/
theorem Tabulates.single (h : value? x = some v) :
    Tabulates key value? [(key x, v)] [x] := by
  refine ⟨?_, by simp⟩
  intro k
  rw [List.lookup_cons]
  by_cases hk : key x = k
  · subst hk
    simp [h]
  · simp [hk, beq_false_of_ne (Ne.symm hk)]

/-- A key of no element is not found. -/
theorem Tabulates.lookup_eq_none (h : Tabulates key value? table items)
    (hk : ∀ x ∈ items, key x ≠ k) : table.lookup k = none := by
  have hfind : items.find? (fun x => key x = k) = none := by
    rw [List.find?_eq_none]
    intro x hx
    simpa using hk x hx
  rw [h.found, hfind]
  rfl

/-- Tables of two lists without a common key are put together to one of both. -/
theorem Tabulates.update (h : Tabulates key value? table items)
    (h' : Tabulates key value? table' items')
    (hapart : ∀ x ∈ items, ∀ y ∈ items', key x ≠ key y) :
    Tabulates key value? (update table table') (items ++ items') := by
  refine ⟨?_, nodup_keys_update h.distinct table'⟩
  intro k
  rw [lookup_update table h'.distinct, List.find?_append]
  cases hfind : items.find? fun x => key x = k with
  | none =>
      rw [h.found, hfind, Option.none_or, h'.found]
      simp
  | some x =>
      -- The key is that of an element of the first list, and of none of the second.
      have hx := List.mem_of_find?_eq_some hfind
      have hkey : key x = k := by simpa using List.find?_some hfind
      have hnone : table'.lookup k = none := by
        apply h'.lookup_eq_none
        intro y hy hy'
        exact hapart x hx y hy (hkey.trans hy'.symm)
      rw [hnone, Option.none_or, h.found, hfind, Option.some_or]

/-- What is found under a key is the value of the one element that has it. -/
theorem Tabulates.lookup_eq_some_iff (h : Tabulates key value? table items)
    (hdistinct : (items.map key).Nodup) :
    table.lookup k = some v ↔ ∃ x ∈ items, key x = k ∧ value? x = some v := by
  rw [h.found, Option.bind_eq_some_iff]
  constructor
  · rintro ⟨x, hfind, hvalue⟩
    exact ⟨x, List.mem_of_find?_eq_some hfind, by simpa using List.find?_some hfind, hvalue⟩
  · rintro ⟨x, hx, hkey, hvalue⟩
    refine ⟨x, ?_, hvalue⟩
    cases hfind : items.find? fun y => key y = k with
    | none =>
        rw [List.find?_eq_none] at hfind
        exact absurd (decide_eq_true hkey) (hfind x hx)
    | some y =>
        have hy : key y = k := by simpa using List.find?_some hfind
        rw [List.inj_on_of_nodup_map hdistinct (List.mem_of_find?_eq_some hfind) hx
          (hy.trans hkey.symm)]

end Tabulated

end Collections
