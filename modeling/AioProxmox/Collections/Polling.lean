import Mathlib.Data.List.Infix

/-!
# Collections - asking in order until somebody accepts

Ask the elements of a list one after the other; each question is answered yes or
no, or raises, and anything but no ends the asking.  The replies come in the
order of the questions, whoever is asked.

Main results:

- Definitions {lit}`poll` and {lit}`polled`: how the asking ends, and who is asked.
- Theorem {lit}`poll_eq_raised_iff`: asking raises exactly where the first reply that is
  not no is an exception.
- Theorems {lit}`poll_of_fixed` and {lit}`polled_of_fixed`: where each element always
  replies the same, the first to accept is found and nobody after it is asked.
-/

namespace Collections

variable {α ε : Type*}

/-- How asking ends: nobody accepted, somebody did, or asking somebody raised. -/
inductive Poll (ε α : Type*) where
  | vain
  | accepted (a : α)
  | raised (a : α) (e : ε)
deriving DecidableEq

/-- Ask in order, the next reply being the n-th. -/
def poll (reply : Nat → Except ε Bool) : Nat → List α → Poll ε α
  | _, [] => .vain
  | n, a :: rest =>
      match reply n with
      | .ok true => .accepted a
      | .ok false => poll reply (n + 1) rest
      | .error e => .raised a e

/-- Those who are asked. -/
def polled (reply : Nat → Except ε Bool) : Nat → List α → List α
  | _, [] => []
  | n, a :: rest =>
      a :: match reply n with
        | .ok false => polled reply (n + 1) rest
        | _ => []

/-- The elements up to the first that is accepted, that one included. -/
def upToFirst (accept : α → Bool) (xs : List α) : List α :=
  xs.takeWhile (fun a => !accept a) ++ (xs.find? accept).toList

section Poll

variable {reply : Nat → Except ε Bool} {accept : α → Bool} {xs : List α} {a b : α} {n : Nat}

/-- A first element that is accepted ends the poll. -/
theorem poll_cons_accepted (h : reply n = .ok true) : poll reply n (a :: xs) = .accepted a := by
  rw [poll, h]

/-- A first element that is refused is passed over. -/
theorem poll_cons_refused (h : reply n = .ok false) :
    poll reply n (a :: xs) = poll reply (n + 1) xs := by
  rw [poll, h]

/-- A first element that raises ends the poll. -/
theorem poll_cons_raised {e : ε} (h : reply n = .error e) :
    poll reply n (a :: xs) = .raised a e := by
  rw [poll, h]

/-- A first element that is accepted is the only one polled. -/
theorem polled_cons_accepted (h : reply n = .ok true) : polled reply n (a :: xs) = [a] := by
  rw [polled, h]

/-- A first element that is refused is polled before the rest. -/
theorem polled_cons_refused (h : reply n = .ok false) :
    polled reply n (a :: xs) = a :: polled reply (n + 1) xs := by
  rw [polled, h]

/-- A first element that raises is the only one polled. -/
theorem polled_cons_raised {e : ε} (h : reply n = .error e) :
    polled reply n (a :: xs) = [a] := by
  rw [polled, h]

/-- The k-th of those asked is the first not to refuse, and asking it raises. -/
def RaisedAt (reply : Nat → Except ε Bool) (n : Nat) (xs : List α) (k : Nat) (a : α) (e : ε) :
    Prop :=
  xs[k]? = some a ∧ (∀ j < k, reply (n + j) = .ok false) ∧ reply (n + k) = .error e

/-- To be raised at the head is to be the head and to raise. -/
theorem raisedAt_zero_iff {e : ε} :
    RaisedAt reply n (a :: xs) 0 b e ↔ a = b ∧ reply n = .error e := by
  simp [RaisedAt]

/-- To be raised further down is to be raised below a head that is refused. -/
theorem raisedAt_succ_iff {e : ε} {k : Nat} :
    RaisedAt reply n (a :: xs) (k + 1) b e ↔
      reply n = .ok false ∧ RaisedAt reply (n + 1) xs k b e := by
  have hshift : ∀ j, n + 1 + j = n + (j + 1) := fun j => by omega
  constructor
  · rintro ⟨hk, hbefore, hraised⟩
    refine ⟨hbefore 0 (Nat.succ_pos k), hk, fun j hj => ?_, by rw [hshift]; exact hraised⟩
    rw [hshift]
    exact hbefore (j + 1) (Nat.succ_lt_succ hj)
  · rintro ⟨hrefused, hk, hbefore, hraised⟩
    refine ⟨hk, fun j hj => ?_, by rw [← hshift]; exact hraised⟩
    cases j with
    | zero => exact hrefused
    | succ j =>
        rw [← hshift]
        exact hbefore j (Nat.lt_of_succ_lt_succ hj)

/-- Asking raises exactly where the first reply that is not no is an exception. -/
theorem poll_eq_raised_iff {e : ε} :
    poll reply n xs = .raised a e ↔ ∃ k, RaisedAt reply n xs k a e := by
  induction xs generalizing n with
  | nil => simp [poll, RaisedAt]
  | cons x rest ih =>
      have hcases : (∃ k, RaisedAt reply n (x :: rest) k a e) ↔
          (x = a ∧ reply n = .error e) ∨
            (reply n = .ok false ∧ ∃ k, RaisedAt reply (n + 1) rest k a e) := by
        rw [← Nat.or_exists_add_one, raisedAt_zero_iff]
        simp only [raisedAt_succ_iff, exists_and_left]
      rw [hcases]
      rcases hreply : reply n with e' | there
      · simp [poll_cons_raised hreply]
      · cases there with
        | true => simp [poll_cons_accepted hreply]
        | false => simp [poll_cons_refused hreply, ih]

/-- Where each element always replies the same, the first to accept is found. -/
theorem poll_of_fixed
    (h : ∀ k a, (polled reply n xs)[k]? = some a → reply (n + k) = .ok (accept a)) :
    poll reply n xs = (xs.find? accept).elim .vain .accepted := by
  induction xs generalizing n with
  | nil => rfl
  | cons x rest ih =>
      have hreply : reply n = .ok (accept x) := h 0 x rfl
      cases haccept : accept x with
      | true =>
          rw [haccept] at hreply
          rw [poll_cons_accepted hreply, List.find?_cons_of_pos haccept, Option.elim_some]
      | false =>
          rw [haccept] at hreply
          rw [poll_cons_refused hreply, List.find?_cons_of_neg (by simp [haccept])]
          refine ih fun k a hk => ?_
          have hnext := h (k + 1) a (by rw [polled_cons_refused hreply]; exact hk)
          rw [← hnext, Nat.add_right_comm]
          rfl

/-- And nobody after it is asked. -/
theorem polled_of_fixed
    (h : ∀ k a, (polled reply n xs)[k]? = some a → reply (n + k) = .ok (accept a)) :
    polled reply n xs = upToFirst accept xs := by
  induction xs generalizing n with
  | nil => rfl
  | cons x rest ih =>
      have hreply : reply n = .ok (accept x) := h 0 x rfl
      cases haccept : accept x with
      | true =>
          rw [haccept] at hreply
          rw [polled_cons_accepted hreply]
          simp [upToFirst, haccept]
      | false =>
          rw [haccept] at hreply
          rw [polled_cons_refused hreply, ih fun k a hk => ?_]
          · simp [upToFirst, haccept]
          · have hnext := h (k + 1) a (by rw [polled_cons_refused hreply]; exact hk)
            rw [← hnext, Nat.add_right_comm]
            rfl

/-- Those up to the first that is accepted come first. -/
theorem prefix_upToFirst (accept : α → Bool) (xs : List α) : upToFirst accept xs <+: xs := by
  induction xs with
  | nil => exact List.prefix_refl []
  | cons a rest ih =>
      cases haccept : accept a with
      | true => simp [upToFirst, haccept]
      | false =>
          have hcons : upToFirst accept (a :: rest) = a :: upToFirst accept rest := by
            simp [upToFirst, haccept]
          rw [hcons]
          exact (List.prefix_cons_inj a).mpr ih

end Poll

end Collections
