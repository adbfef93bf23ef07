import AioProxmox.Coroutine.Interface
import AioProxmox.Coroutine.Tasks

/-!
# Coroutines - pools over a component

A pool of tasks can be run in two ways: with each call answered by the scheduler, at once
and with anything, or with each call answered by a task of a component that is itself
interleaved with all others.  Whatever the second pool reaches, the first can reach, with
the same state of its own and the same results.  An invariant of the first pool is
therefore one of the second.

The tasks leave the lock to the component.

Main results:

- Definition {lit}`Co.Lockless`: a task that does not touch the lock.
- Theorem {lit}`Config.Serving.step`: a step of the second pool is any number of steps of
  the first.
- Theorem {lit}`Config.Reaches.servedBy`: what the second pool reaches, the first does.
-/

namespace Coroutine

variable {τ σ σ' ι ι' ρ ρ' ε ω α β : Type}

namespace Co

/-- A task that does not touch the lock. -/
def Lockless : Co σ ι ρ ε ω α → Prop
  | done _ => True
  | get k => ∀ s, (k s).Lockless
  | put _ k => k.Lockless
  | note _ k => k.Lockless
  | call _ k => ∀ r, (k r).Lockless
  | acquire _ => False
  | release _ => False

section Lockless

/-- A sequence of tasks that leave the lock alone leaves it alone. -/
theorem Lockless.bind {p : Co σ ι ρ ε ω α} {f : α → Co σ ι ρ ε ω β} (hp : p.Lockless)
    (hf : ∀ a, (f a).Lockless) : (p >>= f).Lockless := by
  change (p.bind f).Lockless
  induction p with
  | done r =>
      cases r with
      | error e => exact trivial
      | ok a => exact hf a
  | get k ih => exact fun s => ih s (hp s)
  | put s k ih => exact ih hp
  | note e k ih => exact ih hp
  | call q k ih => exact fun r => ih r (hp r)
  | acquire k ih => exact hp.elim
  | release k ih => exact hp.elim

/-- A task with its handler leaves the lock alone where both do. -/
theorem Lockless.tryCatch {p : Co σ ι ρ ε ω α} {f : ε → Co σ ι ρ ε ω α} (hp : p.Lockless)
    (hf : ∀ e, (f e).Lockless) : (MonadExcept.tryCatch p f : Co σ ι ρ ε ω α).Lockless := by
  change (p.handle f).Lockless
  induction p with
  | done r =>
      cases r with
      | error e => exact hf e
      | ok a => exact trivial
  | get k ih => exact fun s => ih s (hp s)
  | put s k ih => exact ih hp
  | note e k ih => exact ih hp
  | call q k ih => exact fun r => ih r (hp r)
  | acquire k ih => exact hp.elim
  | release k ih => exact hp.elim

/-- A call leaves the lock alone. -/
theorem Lockless.await (q : ι) : (Co.await q : Co σ ι (Except ε α) ε ω α).Lockless :=
  fun _ => trivial

theorem Lockless.state : (Co.state : Co σ ι ρ ε ω σ).Lockless :=
  fun _ => trivial

theorem Lockless.modify (f : σ → σ) : (Co.modify f : Co σ ι ρ ε ω Unit).Lockless :=
  fun _ => trivial

theorem Lockless.ofExcept (r : Except ε α) : (Co.ofExcept r : Co σ ι ρ ε ω α).Lockless :=
  trivial

end Lockless

/-- What is left of a task that waits while its component works on a call. -/
inductive Awaits (f : Except ε α → Co (σ × σ') ι' ρ' ε ω β) : Co (σ × σ') ι' ρ' ε ω β → Prop where
  | call (q : ι') (k : ρ' → Co σ' ι' ρ' ε ω α) :
      Awaits f (.call q fun r => (k r).beside.attempt f)
  | acquire (k : Co σ' ι' ρ' ε ω α) : Awaits f (.acquire (k.beside.attempt f))

/-- A component works on a call until it is suspended or has an answer, and leaves the state
of its callers alone. -/
theorem advance_attempt (f : Except ε α → Co (σ × σ') ι' ρ' ε ω β) (i : τ)
    (x : Co σ' ι' ρ' ε ω α) (h : Bool) (w : World τ (σ × σ') ι' ρ' ω) :
    (Awaits f ((x.beside.attempt f).advance i h w).1 ∧
        ((x.beside.attempt f).advance i h w).2.2.state.1 = w.state.1) ∨
      ∃ r h' w', w'.state.1 = w.state.1 ∧
        (x.beside.attempt f).advance i h w = (f r).advance i h' w' := by
  induction x generalizing h w with
  | done r => exact .inr ⟨r, h, w, rfl, rfl⟩
  | get k ih => exact ih w.state.2 h w
  | put s k ih => exact ih h { w with state := (w.state.1, s) }
  | note e k ih => exact ih h (w.log (.noted i e))
  | call q k ih => exact .inl ⟨.call q k, rfl⟩
  | acquire k ih => exact .inl ⟨.acquire k, rfl⟩
  | release k ih => exact ih false (w.log (.released i))

end Co

namespace Config

/-- A task of the second pool and the same task of the first: neither has started, both have
ended alike, or the component works on the call that the first waits for. -/
inductive Follows (serve : ι → Co σ' ι' ρ' ε ω α) :
    Thread (σ × σ') ι' ρ' ε ω β → Thread σ ι (Except ε α) ε ω β → Prop where
  | fresh (p : Co σ ι (Except ε α) ε ω β) (hp : p.Lockless) :
      Follows serve (.fresh (p.servedBy serve)) (.fresh p)
  | ended (r : Except ε β) : Follows serve (.parked (.done r)) (.parked (.done r))
  | asked (q : ι) (k : Except ε α → Co σ ι (Except ε α) ε ω β) (hk : ∀ r, (k r).Lockless)
      {p : Co (σ × σ') ι' ρ' ε ω β} (hp : Co.Awaits (fun r => (k r).servedBy serve) p) :
      Follows serve (.parked p) (.parked (.call q k))

/-- The two pools agree on the state of the tasks, and task by task. -/
structure Serving (serve : ι → Co σ' ι' ρ' ε ω α) (c : Config τ (σ × σ') ι' ρ' ε ω β)
    (a : Config τ σ ι (Except ε α) ε ω β) : Prop where
  state : a.world.state = c.world.state.1
  holder : a.holder = none
  pool : ∀ i, Follows serve (c.pool i) (a.pool i)

/-- Others change nothing of the state of the tasks. -/
def FirstKept (_ : Config τ (σ × σ') ι' ρ' ε ω β) (act : Action τ (σ × σ') ρ') : Prop :=
  ∀ f, act = .environment f → ∀ s, (f s).1 = s.1

section Simulation

variable {serve : ι → Co σ' ι' ρ' ε ω α}

/-- At the start each task serves the one it was made from. -/
theorem initial_serving (s : σ) (s' : σ') {p : τ → Co σ ι (Except ε α) ε ω β}
    (hp : ∀ i, (p i).Lockless) :
    Serving serve (initial (s, s') fun i => (p i).servedBy serve) (initial s p) where
  state := rfl
  holder := rfl
  pool i := .fresh (p i) (hp i)

/-- Where a task follows another they have ended alike. -/
theorem Follows.result {c : Config τ (σ × σ') ι' ρ' ε ω β}
    {a : Config τ σ ι (Except ε α) ε ω β} {i : τ} (h : Follows serve (c.pool i) (a.pool i)) :
    a.result i = c.result i := by
  unfold Config.result
  generalize c.pool i = concrete, a.pool i = abstract at h
  cases h with
  | fresh p hp => rfl
  | ended r => rfl
  | asked q k hk hp => cases hp <;> rfl

variable [DecidableEq τ] {c c' : Config τ (σ × σ') ι' ρ' ε ω β}
  {a : Config τ σ ι (Except ε α) ε ω β}

/-- While a task of the second pool runs, so does the one of the first; it is resumed for each
call that the component answers without being suspended. -/
theorem advance_follows (serve : ι → Co σ' ι' ρ' ε ω α) {p : Co σ ι (Except ε α) ε ω β}
    (hp : p.Lockless) (i : τ) (h : Bool) (w : World τ (σ × σ') ι' ρ' ω)
    (a : Config τ σ ι (Except ε α) ε ω β) (v : World τ σ ι (Except ε α) ω)
    (ha : a.holder = none) (hstate : v.state = w.state.1) :
    ∃ a', Reaches SchedulerOnly (a.advanceTask i p false v) a' ∧
      Follows serve (.parked ((p.servedBy serve).advance i h w).1) (a'.pool i) ∧
      a'.world.state = ((p.servedBy serve).advance i h w).2.2.state.1 ∧ a'.holder = none ∧
      ∀ j, j ≠ i → a'.pool j = a.pool j := by
  induction p generalizing h w a v with
  | done r =>
      refine ⟨_, .refl _, ?_, hstate, ha, fun j hij => advanceTask_pool_of_ne a hij _ _ _⟩
      rw [advanceTask_pool_self]
      exact .ended r
  | get k ih =>
      have hsame : a.advanceTask i (.get k) false v = a.advanceTask i (k w.state.1) false v := by
        rw [← hstate]
        rfl
      rw [hsame]
      exact ih w.state.1 (hp w.state.1) h w a v ha hstate
  | put s k ih =>
      exact ih hp h { w with state := (s, w.state.2) } a { v with state := s } ha rfl
  | note e k ih => exact ih hp h (w.log (.noted i e)) a (v.log (.noted i e)) ha hstate
  | call q k ih =>
      have hothers : ∀ j, j ≠ i → (a.advanceTask i (.call q k) false v).pool j = a.pool j :=
        fun j hij => advanceTask_pool_of_ne a hij _ _ _
      rcases Co.advance_attempt (fun r => (k r).servedBy serve) i (serve q) h w with
        ⟨hawaits, hkept⟩ | ⟨r, h', w', hkept, hadvance⟩
      · refine ⟨_, .refl _, ?_, hstate.trans hkept.symm, ha, hothers⟩
        rw [advanceTask_pool_self]
        exact .asked q k hp hawaits
      · -- the call is answered at once: the first pool delivers the answer
        let b := a.advanceTask i (.call q k) false v
        have hstep : b.step (.resume i r) =
            some (b.advanceTask i (k r) false (b.world.log (.got i q r))) := by
          have hpool : b.pool i = .parked (.call q k) := advanceTask_pool_self a i _ _ _
          have hfree : b.holder = none := ha
          simp only [step, hpool, hfree]
          rfl
        rcases ih r (hp r) h' w' b (b.world.log (.got i q r)) ha (hstate.trans hkept.symm) with
          ⟨a', hreach, hfollows, hstate', hfree', hothers'⟩
        have hrun : ((Co.call q k).servedBy serve).advance i h w =
            ((k r).servedBy serve).advance i h' w' := hadvance
        rw [hrun]
        exact ⟨a', .head (fun f hf => by contradiction) hstep hreach, hfollows, hstate', hfree',
          fun j hij => (hothers' j hij).trans (hothers j hij)⟩
  | acquire k ih => exact hp.elim
  | release k ih => exact hp.elim

/-- The pools agree after a task has run in both. -/
theorem Serving.advanceTask (hserving : Serving serve c a) {i : τ}
    {p : Co (σ × σ') ι' ρ' ε ω β} {h : Bool} {w : World τ (σ × σ') ι' ρ' ω}
    {a' : Config τ σ ι (Except ε α) ε ω β}
    (hfollows : Follows serve (.parked (p.advance i h w).1) (a'.pool i))
    (hstate : a'.world.state = (p.advance i h w).2.2.state.1) (hfree : a'.holder = none)
    (hothers : ∀ j, j ≠ i → a'.pool j = a.pool j) :
    Serving serve (c.advanceTask i p h w) a' where
  state := hstate
  holder := hfree
  pool j := by
    by_cases hij : j = i
    · subst hij
      rw [advanceTask_pool_self]
      exact hfollows
    · rw [advanceTask_pool_of_ne c hij, hothers j hij]
      exact hserving.pool j

omit [DecidableEq τ] in
/-- What a task of one pool is in the other. -/
theorem Serving.thread (hserving : Serving serve c a) {i : τ}
    {t : Thread (σ × σ') ι' ρ' ε ω β} (hpool : c.pool i = t) :
    ∃ thread, a.pool i = thread ∧ Follows serve t thread := by
  have hfollows := hserving.pool i
  rw [hpool] at hfollows
  exact ⟨a.pool i, rfl, hfollows⟩

/-- The component works on: the first pool waits, or is given the answer. -/
theorem Serving.work (hserving : Serving serve c a) {i : τ} {q : ι}
    {k : Except ε α → Co σ ι (Except ε α) ε ω β} (hpool : a.pool i = .parked (.call q k))
    (hk : ∀ r, (k r).Lockless) (x : Co σ' ι' ρ' ε ω α) (h : Bool)
    {w : World τ (σ × σ') ι' ρ' ω} (hw : w.state = c.world.state) :
    ∃ a', Reaches SchedulerOnly a a' ∧
      Serving serve
        (c.advanceTask i (x.beside.attempt fun r => (k r).servedBy serve) h w) a' := by
  have hstate : a.world.state = w.state.1 := hserving.state.trans (congrArg Prod.fst hw.symm)
  rcases Co.advance_attempt (fun r => (k r).servedBy serve) i x h w with
    ⟨hawaits, hkept⟩ | ⟨r, h', w', hkept, hadvance⟩
  · refine ⟨a, .refl a, hserving.advanceTask ?_ (hstate.trans hkept.symm) hserving.holder
      fun _ _ => rfl⟩
    rw [hpool]
    exact .asked q k hk hawaits
  · have hstep : a.step (.resume i r) =
        some (a.advanceTask i (k r) false (a.world.log (.got i q r))) := by
      simp only [Config.step, hpool, hserving.holder]
      rfl
    rcases advance_follows serve (hk r) i h' w' a (a.world.log (.got i q r))
      hserving.holder (hstate.trans hkept.symm) with
      ⟨a', hreach, hfollows, hstate', hfree, hothers⟩
    rw [← hadvance] at hfollows hstate'
    exact ⟨a', .head (fun f hf => by contradiction) hstep hreach,
      hserving.advanceTask hfollows hstate' hfree hothers⟩

/-- A step of the second pool is any number of steps of the first. -/
theorem Serving.step (hserving : Serving serve c a) {act : Action τ (σ × σ') ρ'}
    (hpermit : FirstKept c act) (hstep : c.step act = some c') :
    ∃ a', Reaches SchedulerOnly a a' ∧ Serving serve c' a' := by
  rcases step_cases hstep with ⟨i, p, rfl, hpool, rfl⟩ | ⟨i, r, q, k, rfl, hpool, rfl⟩ |
    ⟨i, k, rfl, hpool, -, rfl⟩ | ⟨f, rfl, rfl⟩
  · rcases hserving.thread hpool with ⟨thread, hthread, hfollows⟩
    cases hfollows with
    | fresh p hp =>
        have hstart : a.step (.start i) = some (a.advanceTask i p false a.world) := by
          simp only [Config.step, hthread]
        rcases advance_follows serve hp i false c.world a a.world hserving.holder
          hserving.state with ⟨a', hreach, hfollows, hstate, hfree, hothers⟩
        exact ⟨a', .head (fun f hf => by contradiction) hstart hreach,
          hserving.advanceTask hfollows hstate hfree hothers⟩
  · rcases hserving.thread hpool with ⟨thread, hthread, hfollows⟩
    cases hfollows with
    | asked q' k' hk hp =>
        cases hp with
        | call q x => exact hserving.work hthread hk (x r) _ rfl
  · rcases hserving.thread hpool with ⟨thread, hthread, hfollows⟩
    cases hfollows with
    | asked q' k' hk hp =>
        cases hp with
        | acquire x => exact hserving.work hthread hk x _ rfl
  · exact ⟨a, .refl a, hserving.state.trans (hpermit f rfl c.world.state).symm, hserving.holder,
      hserving.pool⟩

/-- What a pool over a component reaches, the pool whose calls the scheduler answers reaches
too, with the same state of the tasks and the same results. -/
theorem Reaches.servedBy {s : σ} {s' : σ'} {p : τ → Co σ ι (Except ε α) ε ω β}
    (hp : ∀ i, (p i).Lockless) {d : Config τ (σ × σ') ι' ρ' ε ω β}
    (hrun : Reaches FirstKept (initial (s, s') fun i => (p i).servedBy serve) d) :
    ∃ a, Reaches SchedulerOnly (initial s p) a ∧ a.world.state = d.world.state.1 ∧
      ∀ i, a.result i = d.result i := by
  have hserving : ∃ a, Reaches SchedulerOnly (initial s p) a ∧ Serving serve d a := by
    refine hrun.invariant
      (I := fun c => ∃ a, Reaches SchedulerOnly (initial s p) a ∧ Serving serve c a)
      (fun c act c' hpermit hstep hc => ?_) ⟨_, .refl _, initial_serving s s' hp⟩
    rcases hc with ⟨a, hreach, hserving⟩
    rcases hserving.step hpermit hstep with ⟨a', hmore, hserving'⟩
    exact ⟨a', hreach.trans hmore, hserving'⟩
  rcases hserving with ⟨a, hreach, hserving⟩
  exact ⟨a, hreach, hserving.state, fun i => (hserving.pool i).result⟩

end Simulation

end Config

end Coroutine
