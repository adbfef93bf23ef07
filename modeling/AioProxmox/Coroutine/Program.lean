import Mathlib.Logic.Basic

/-!
# Coroutines - programs and solitary runs

A cooperative task is a tree of atomic actions on a shared state.  Between two
suspension points nobody else runs, so reads and writes are ordinary nodes of
the tree; the suspension points are the awaited calls and the acquisition of a
lock.  Every node that the outside world can observe leaves an event in a
history, kept newest first.

This module has the syntax, the exception-carrying monad over it, and the run
of one task in surroundings that answer its calls and may change the shared
state while it is suspended.

Main results:

- Definition {lit}`Co.exec`: the run of a task in given surroundings; it is
  total, since a task is a well-founded tree.
- Theorems {lit}`Co.exec_bind` and {lit}`Co.exec_tryCatch`: a run of a
  composite task is the composition of the runs of its parts.
- Theorem {lit}`Co.stops_bind`: the same for the states in which a task is
  suspended.
-/

namespace Coroutine

/-- One observable action of a task: a call leaves and is answered, a remark is
made, the lock is taken and given back. -/
inductive Event (τ ι ρ ω : Type) where
  | sent (i : τ) (q : ι)
  | got (i : τ) (q : ι) (r : ρ)
  | noted (i : τ) (e : ω)
  | locked (i : τ)
  | released (i : τ)
deriving DecidableEq

/-- A cooperative task over the shared state {lit}`σ`, which makes calls {lit}`ι`
answered by {lit}`ρ`, raises {lit}`ε`, leaves remarks {lit}`ω` and returns
{lit}`α`. -/
inductive Co (σ ι ρ ε ω α : Type) : Type where
  | done (r : Except ε α)
  | get (k : σ → Co σ ι ρ ε ω α)
  | put (s : σ) (k : Co σ ι ρ ε ω α)
  | note (e : ω) (k : Co σ ι ρ ε ω α)
  | call (q : ι) (k : ρ → Co σ ι ρ ε ω α)
  | acquire (k : Co σ ι ρ ε ω α)
  | release (k : Co σ ι ρ ε ω α)

/-- The shared state together with everything that has been observed so far. -/
structure World (τ σ ι ρ ω : Type) where
  state : σ
  history : List (Event τ ι ρ ω)

/-- What lies outside a task: the answer to its n-th call, and what becomes of
the shared state while it waits for that answer. -/
structure Surroundings (σ ρ : Type) where
  during : Nat → σ → σ
  reply : Nat → ρ

/-- How a run ended: its result, the number of calls answered so far, and the
world it leaves. -/
structure Ending (τ σ ι ρ ε ω α : Type) where
  result : Except ε α
  calls : Nat
  world : World τ σ ι ρ ω

variable {τ σ ι ρ ε ω α β : Type}

/-- The world with one more event observed. -/
def World.log (w : World τ σ ι ρ ω) (e : Event τ ι ρ ω) : World τ σ ι ρ ω :=
  { w with history := e :: w.history }

@[simp]
theorem World.log_state (w : World τ σ ι ρ ω) (e : Event τ ι ρ ω) :
    (w.log e).state = w.state :=
  rfl

@[simp]
theorem World.log_history (w : World τ σ ι ρ ω) (e : Event τ ι ρ ω) :
    (w.log e).history = e :: w.history :=
  rfl

/-- Nothing has been removed from the history. -/
def World.Grows (w w' : World τ σ ι ρ ω) : Prop :=
  ∃ new, w'.history = new ++ w.history

/-- A history that has not changed has grown. -/
theorem World.Grows.refl (w : World τ σ ι ρ ω) : w.Grows w :=
  ⟨[], rfl⟩

/-- Histories grow on. -/
theorem World.Grows.trans {w₁ w₂ w₃ : World τ σ ι ρ ω} (h₁ : w₁.Grows w₂)
    (h₂ : w₂.Grows w₃) : w₁.Grows w₃ := by
  rcases h₁ with ⟨new₁, hnew₁⟩
  rcases h₂ with ⟨new₂, hnew₂⟩
  exact ⟨new₂ ++ new₁, by rw [hnew₂, hnew₁, List.append_assoc]⟩

/-- A further event makes a history grow. -/
theorem World.Grows.log {w w' : World τ σ ι ρ ω} (h : w.Grows w') (e : Event τ ι ρ ω) :
    w.Grows (w'.log e) := by
  rcases h with ⟨new, hnew⟩
  exact ⟨e :: new, by rw [World.log_history, hnew, List.cons_append]⟩

/-- What has happened has happened. -/
theorem World.Grows.mem {w w' : World τ σ ι ρ ω} (h : w.Grows w') {e : Event τ ι ρ ω}
    (he : e ∈ w.history) : e ∈ w'.history := by
  rcases h with ⟨new, hnew⟩
  rw [hnew]
  exact List.mem_append_right new he

section OnlyRemarks

variable {κ : Type} {see : σ → κ} {w w₁ w₂ w₃ w' : World τ σ ι ρ ω}

/-- Nothing that {lit}`see` tells has happened to the state, and nothing else but remarks. -/
def World.OnlyRemarks (see : σ → κ) (w w' : World τ σ ι ρ ω) : Prop :=
  see w'.state = see w.state ∧
    ∃ new, w'.history = new ++ w.history ∧ ∀ e ∈ new, ∃ j remark, e = .noted j remark

/-- Nothing is hidden by nothing. -/
theorem World.OnlyRemarks.refl (see : σ → κ) (w : World τ σ ι ρ ω) : w.OnlyRemarks see w :=
  ⟨rfl, [], rfl, by simp⟩

/-- Remarks after remarks are remarks. -/
theorem World.OnlyRemarks.trans (h₁ : w₁.OnlyRemarks see w₂) (h₂ : w₂.OnlyRemarks see w₃) :
    w₁.OnlyRemarks see w₃ := by
  rcases h₁ with ⟨hs₁, new₁, hnew₁, hall₁⟩
  rcases h₂ with ⟨hs₂, new₂, hnew₂, hall₂⟩
  refine ⟨hs₂.trans hs₁, new₂ ++ new₁, by rw [hnew₂, hnew₁, List.append_assoc], ?_⟩
  intro e he
  rcases List.mem_append.mp he with he | he
  · exact hall₂ e he
  · exact hall₁ e he

/-- A remark is one. -/
theorem World.OnlyRemarks.log (see : σ → κ) (w : World τ σ ι ρ ω) (i : τ) (e : ω) :
    w.OnlyRemarks see (w.log (.noted i e)) :=
  ⟨rfl, [.noted i e], rfl, by simp⟩

/-- What {lit}`see` does not tell may change. -/
theorem World.OnlyRemarks.unseen (w : World τ σ ι ρ ω) {s : σ} (h : see s = see w.state) :
    w.OnlyRemarks see { w with state := s } :=
  ⟨h, [], rfl, by simp⟩

/-- Remarks make a history grow. -/
theorem World.OnlyRemarks.grows (h : w.OnlyRemarks see w') : w.Grows w' := by
  rcases h with ⟨-, new, hnew, -⟩
  exact ⟨new, hnew⟩

/-- What is no remark was there before. -/
theorem World.OnlyRemarks.mem_iff (h : w.OnlyRemarks see w') {e : Event τ ι ρ ω}
    (he : ∀ j remark, e ≠ .noted j remark) : e ∈ w'.history ↔ e ∈ w.history := by
  rcases h with ⟨-, new, hnew, hall⟩
  rw [hnew, List.mem_append]
  constructor
  · rintro (hin | hin)
    · rcases hall e hin with ⟨j, remark, rfl⟩
      exact absurd rfl (he j remark)
    · exact hin
  · exact .inr

end OnlyRemarks

/-- The calls made so far, in order. -/
def World.sends (w : World τ σ ι ρ ω) : List ι :=
  (w.history.filterMap fun
    | .sent _ q => some q
    | _ => none).reverse

/-- A remark sends nothing. -/
@[simp]
theorem World.sends_log_noted (w : World τ σ ι ρ ω) (i : τ) (e : ω) :
    (w.log (.noted i e)).sends = w.sends :=
  rfl

/-- The calls that were sent are those of the history. -/
theorem World.mem_sends {w : World τ σ ι ρ ω} {q : ι} :
    q ∈ w.sends ↔ ∃ i, .sent i q ∈ w.history := by
  unfold sends
  rw [List.mem_reverse, List.mem_filterMap]
  constructor
  · rintro ⟨e, he, heq⟩
    cases e with
    | sent i q' =>
        cases heq
        exact ⟨i, he⟩
    | _ => contradiction
  · rintro ⟨i, hsent⟩
    exact ⟨_, hsent, rfl⟩

/-- The calls answered so far with their answers, in order. -/
def World.answered (w : World τ σ ι ρ ω) : List (ι × ρ) :=
  (w.history.filterMap fun
    | .got _ q r => some (q, r)
    | _ => none).reverse

/-- The answered calls are those of the history. -/
theorem World.mem_answered {w : World τ σ ι ρ ω} {q : ι} {r : ρ} :
    (q, r) ∈ w.answered ↔ ∃ i, .got i q r ∈ w.history := by
  unfold answered
  rw [List.mem_reverse, List.mem_filterMap]
  constructor
  · rintro ⟨e, he, heq⟩
    cases e with
    | got i q' r' =>
        cases heq
        exact ⟨i, he⟩
    | _ => contradiction
  · rintro ⟨i, hgot⟩
    exact ⟨_, hgot, rfl⟩

namespace Co

/-! ## The monad of tasks -/

/-- Run a task, then the task its value selects; an exception ends both. -/
def bind : Co σ ι ρ ε ω α → (α → Co σ ι ρ ε ω β) → Co σ ι ρ ε ω β
  | done (.ok a), f => f a
  | done (.error e), _ => done (.error e)
  | get k, f => get fun s => (k s).bind f
  | put s k, f => put s (k.bind f)
  | note e k, f => note e (k.bind f)
  | call q k, f => call q fun r => (k r).bind f
  | acquire k, f => acquire (k.bind f)
  | release k, f => release (k.bind f)

/-- Run a task; the exception it ends in, if any, selects what follows. -/
def handle : Co σ ι ρ ε ω α → (ε → Co σ ι ρ ε ω α) → Co σ ι ρ ε ω α
  | done (.ok a), _ => done (.ok a)
  | done (.error e), f => f e
  | get k, f => get fun s => (k s).handle f
  | put s k, f => put s (k.handle f)
  | note e k, f => note e (k.handle f)
  | call q k, f => call q fun r => (k r).handle f
  | acquire k, f => acquire (k.handle f)
  | release k, f => release (k.handle f)

instance : Monad (Co σ ι ρ ε ω) where
  pure a := done (.ok a)
  bind := bind

instance : MonadExceptOf ε (Co σ ι ρ ε ω) where
  throw e := done (.error e)
  tryCatch := handle

/-- Read the shared state. -/
def state : Co σ ι ρ ε ω σ :=
  get fun s => done (.ok s)

/-- Replace the shared state by its image under {lit}`f`. -/
def modify (f : σ → σ) : Co σ ι ρ ε ω Unit :=
  get fun s => put (f s) (done (.ok ()))

/-- Leave a remark in the history. -/
def remark (e : ω) : Co σ ι ρ ε ω Unit :=
  note e (done (.ok ()))

/-- Wait for the answer to a call, which is a value or an exception. -/
def await (q : ι) : Co σ ι (Except ε α) ε ω α :=
  call q done

/-- Return a value or raise an exception already computed. -/
def ofExcept (r : Except ε α) : Co σ ι ρ ε ω α :=
  done r

/-- Give the lock back once the task has ended, however it ended. -/
def thenRelease : Co σ ι ρ ε ω α → Co σ ι ρ ε ω α
  | done r => release (done r)
  | get k => get fun s => (k s).thenRelease
  | put s k => put s k.thenRelease
  | note e k => note e k.thenRelease
  | call q k => call q fun r => (k r).thenRelease
  | acquire k => acquire k.thenRelease
  | release k => release k.thenRelease

/-- Run a task while holding the lock. -/
def withLock (p : Co σ ι ρ ε ω α) : Co σ ι ρ ε ω α :=
  acquire p.thenRelease

/-! ## Solitary runs -/

/-- The run of task {lit}`i` in the given surroundings, {lit}`n` calls having
been answered before it.  Nobody else holds the lock. -/
def exec (E : Surroundings σ ρ) (i : τ) :
    Co σ ι ρ ε ω α → Nat → World τ σ ι ρ ω → Ending τ σ ι ρ ε ω α
  | done r, n, w => ⟨r, n, w⟩
  | get k, n, w => (k w.state).exec E i n w
  | put s k, n, w => k.exec E i n { w with state := s }
  | note e k, n, w => k.exec E i n (w.log (.noted i e))
  | call q k, n, w =>
      (k (E.reply n)).exec E i (n + 1)
        ⟨E.during n w.state, .got i q (E.reply n) :: .sent i q :: w.history⟩
  | acquire k, n, w => k.exec E i n (w.log (.locked i))
  | release k, n, w => k.exec E i n (w.log (.released i))

/-- The states in which the run of a task is suspended at a call, in order:
what anybody else who runs meanwhile finds. -/
def stops (E : Surroundings σ ρ) : Co σ ι ρ ε ω α → Nat → σ → List σ
  | done _, _, _ => []
  | get k, n, s => (k s).stops E n s
  | put s k, n, _ => k.stops E n s
  | note _ k, n, s => k.stops E n s
  | call _ k, n, s => s :: (k (E.reply n)).stops E (n + 1) (E.during n s)
  | acquire k, n, s => k.stops E n s
  | release k, n, s => k.stops E n s

section Exec

variable (E : Surroundings σ ρ) (i : τ) (n : Nat) (w : World τ σ ι ρ ω)

@[simp]
theorem exec_pure (a : α) :
    (pure a : Co σ ι ρ ε ω α).exec E i n w = ⟨.ok a, n, w⟩ :=
  rfl

@[simp]
theorem exec_throw (e : ε) :
    (throw e : Co σ ι ρ ε ω α).exec E i n w = ⟨.error e, n, w⟩ :=
  rfl

@[simp]
theorem exec_state :
    (state : Co σ ι ρ ε ω σ).exec E i n w = ⟨.ok w.state, n, w⟩ :=
  rfl

@[simp]
theorem exec_modify (f : σ → σ) :
    (modify f : Co σ ι ρ ε ω Unit).exec E i n w =
      ⟨.ok (), n, { w with state := f w.state }⟩ :=
  rfl

@[simp]
theorem exec_remark (e : ω) :
    (remark e : Co σ ι ρ ε ω Unit).exec E i n w = ⟨.ok (), n, w.log (.noted i e)⟩ :=
  rfl

@[simp]
theorem exec_ofExcept (r : Except ε α) :
    (ofExcept r : Co σ ι ρ ε ω α).exec E i n w = ⟨r, n, w⟩ :=
  rfl

/-- A call is sent, the state is what the others make of it meanwhile, and the answer comes. -/
@[simp]
theorem exec_await (E : Surroundings σ (Except ε α)) (q : ι)
    (w : World τ σ ι (Except ε α) ω) :
    (await q : Co σ ι (Except ε α) ε ω α).exec E i n w =
      ⟨E.reply n, n + 1,
        ⟨E.during n w.state, .got i q (E.reply n) :: .sent i q :: w.history⟩⟩ :=
  rfl

/-- Running a sequence is running its first part and, from where that left off,
the part its value selects. -/
@[simp]
theorem exec_bind (p : Co σ ι ρ ε ω α) (f : α → Co σ ι ρ ε ω β) :
    (p >>= f).exec E i n w =
      match p.exec E i n w with
      | ⟨.ok a, n', w'⟩ => (f a).exec E i n' w'
      | ⟨.error e, n', w'⟩ => ⟨.error e, n', w'⟩ := by
  change (p.bind f).exec E i n w = _
  induction p generalizing n w with
  | done r => cases r <;> rfl
  | get k ih => exact ih w.state n w
  | put s k ih => exact ih n _
  | note e k ih => exact ih n _
  | call q k ih => exact ih (E.reply n) (n + 1) _
  | acquire k ih => exact ih n _
  | release k ih => exact ih n _

/-- Running a guarded task is running it and, where it raised, its handler. -/
@[simp]
theorem exec_tryCatch (p : Co σ ι ρ ε ω α) (f : ε → Co σ ι ρ ε ω α) :
    (tryCatch p f).exec E i n w =
      match p.exec E i n w with
      | ⟨.ok a, n', w'⟩ => ⟨.ok a, n', w'⟩
      | ⟨.error e, n', w'⟩ => (f e).exec E i n' w' := by
  change (p.handle f).exec E i n w = _
  induction p generalizing n w with
  | done r => cases r <;> rfl
  | get k ih => exact ih w.state n w
  | put s k ih => exact ih n _
  | note e k ih => exact ih n _
  | call q k ih => exact ih (E.reply n) (n + 1) _
  | acquire k ih => exact ih n _
  | release k ih => exact ih n _

/-- Running under the lock adds its two events and changes nothing else. -/
@[simp]
theorem exec_withLock (p : Co σ ι ρ ε ω α) :
    p.withLock.exec E i n w =
      match p.exec E i n (w.log (.locked i)) with
      | ⟨r, n', w'⟩ => ⟨r, n', w'.log (.released i)⟩ := by
  change p.thenRelease.exec E i n (w.log (.locked i)) = _
  generalize w.log (.locked i) = w
  induction p generalizing n w with
  | done r => rfl
  | get k ih => exact ih w.state n w
  | put s k ih => exact ih n _
  | note e k ih => exact ih n _
  | call q k ih => exact ih (E.reply n) (n + 1) _
  | acquire k ih => exact ih n _
  | release k ih => exact ih n _

/-- A sequence is suspended where its first part is, and then, if that returned,
where the selected part is. -/
theorem stops_bind (p : Co σ ι ρ ε ω α) (f : α → Co σ ι ρ ε ω β) :
    (p >>= f).stops E n w.state =
      p.stops E n w.state ++
        match p.exec E i n w with
        | ⟨.ok a, n', w'⟩ => (f a).stops E n' w'.state
        | ⟨.error _, _, _⟩ => [] := by
  change (p.bind f).stops E n w.state = _
  induction p generalizing n w with
  | done r => cases r <;> rfl
  | get k ih => exact ih w.state n w
  | put s k ih => exact ih n { w with state := s }
  | note e k ih => exact ih n (w.log (.noted i e))
  | call q k ih =>
      have h := ih (E.reply n) (n + 1)
        ⟨E.during n w.state, .got i q (E.reply n) :: .sent i q :: w.history⟩
      exact congrArg (w.state :: ·) h
  | acquire k ih => exact ih n (w.log (.locked i))
  | release k ih => exact ih n (w.log (.released i))

end Exec

/-! ## Following one run -/

section Follow

variable {E : Surroundings σ ρ} {i : τ} {n n' : Nat} {w w' : World τ σ ι ρ ω}

/-- Where the first part of a sequence returned, the selected part runs on. -/
theorem exec_bind_ok {p : Co σ ι ρ ε ω α} {a : α} (h : p.exec E i n w = ⟨.ok a, n', w'⟩)
    (f : α → Co σ ι ρ ε ω β) : (p >>= f).exec E i n w = (f a).exec E i n' w' := by
  rw [exec_bind, h]

/-- Where the first part of a sequence raised, the sequence did. -/
theorem exec_bind_error {p : Co σ ι ρ ε ω α} {e : ε}
    (h : p.exec E i n w = ⟨.error e, n', w'⟩) (f : α → Co σ ι ρ ε ω β) :
    (p >>= f).exec E i n w = ⟨.error e, n', w'⟩ := by
  rw [exec_bind, h]

/-- Where a guarded task returned, its handler is not consulted. -/
theorem exec_tryCatch_ok {p : Co σ ι ρ ε ω α} {a : α}
    (h : p.exec E i n w = ⟨.ok a, n', w'⟩) (f : ε → Co σ ι ρ ε ω α) :
    (tryCatch p f).exec E i n w = ⟨.ok a, n', w'⟩ := by
  rw [exec_tryCatch, h]

/-- Where a guarded task raised, its handler runs on. -/
theorem exec_tryCatch_error {p : Co σ ι ρ ε ω α} {e : ε}
    (h : p.exec E i n w = ⟨.error e, n', w'⟩) (f : ε → Co σ ι ρ ε ω α) :
    (tryCatch p f).exec E i n w = (f e).exec E i n' w' := by
  rw [exec_tryCatch, h]

/-- The suspension points of a sequence are those of its parts. -/
theorem stops_bind_ok {p : Co σ ι ρ ε ω α} {a : α} (h : p.exec E i n w = ⟨.ok a, n', w'⟩)
    (f : α → Co σ ι ρ ε ω β) :
    (p >>= f).stops E n w.state = p.stops E n w.state ++ (f a).stops E n' w'.state := by
  rw [stops_bind E i n w, h]

/-- Where the first part raises they are those of that part. -/
theorem stops_bind_error {p : Co σ ι ρ ε ω α} {e : ε}
    (h : p.exec E i n w = ⟨.error e, n', w'⟩) (f : α → Co σ ι ρ ε ω β) :
    (p >>= f).stops E n w.state = p.stops E n w.state := by
  rw [stops_bind E i n w, h]
  exact List.append_nil _

end Follow

/-! ## Suspension points of the atoms -/

section Stops

variable (E : Surroundings σ ρ) (n : Nat) (s : σ)

@[simp]
theorem stops_pure (a : α) : (pure a : Co σ ι ρ ε ω α).stops E n s = [] :=
  rfl

@[simp]
theorem stops_throw (e : ε) : (throw e : Co σ ι ρ ε ω α).stops E n s = [] :=
  rfl

@[simp]
theorem stops_modify (f : σ → σ) :
    (modify f : Co σ ι ρ ε ω Unit).stops E n s = [] :=
  rfl

@[simp]
theorem stops_ofExcept (r : Except ε α) :
    (ofExcept r : Co σ ι ρ ε ω α).stops E n s = [] :=
  rfl

/-- A call is a suspension point. -/
@[simp]
theorem stops_await (E : Surroundings σ (Except ε α)) (q : ι) :
    (await q : Co σ ι (Except ε α) ε ω α).stops E n s = [s] :=
  rfl

/-- A sequence of parts that are never suspended is never suspended. -/
theorem stops_bind_nil {E : Surroundings σ ρ} {p : Co σ ι ρ ε ω α}
    {f : α → Co σ ι ρ ε ω β} (hp : ∀ n s, p.stops E n s = [])
    (hf : ∀ a n s, (f a).stops E n s = []) (n : Nat) (s : σ) :
    (p >>= f).stops E n s = [] := by
  have hstops := stops_bind E () n (⟨s, []⟩ : World Unit σ ι ρ ω) p f
  rw [hp, List.nil_append] at hstops
  rcases hrun : p.exec E () n ⟨s, []⟩ with ⟨e | a, n', w'⟩
  · rw [hrun] at hstops
    exact hstops
  · rw [hrun] at hstops
    exact hstops.trans (hf a n' w'.state)

end Stops

end Co

end Coroutine
