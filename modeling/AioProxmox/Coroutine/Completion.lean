import AioProxmox.Coroutine.RelyGuarantee
import Mathlib.Data.Fintype.Basic
import Mathlib.Logic.Hydra

/-!
# Coroutines - schedules come to an end

Every task is a well-founded tree, so finitely many of them take finitely many
steps.  A pool that keeps to a discipline whose tasks end without the lock never
gets stuck before all of them have ended: whoever holds the lock waits for an
answer.

Main results:

- Theorem {lit}`Config.next_wellFounded`: no schedule of finitely many tasks goes
  on forever.
- Theorem {lit}`Config.Respects.enabled`: some task can go on until all have
  ended.
- Theorem {lit}`Config.Respects.completes`: so every run can be carried on until
  all have ended.
-/

namespace Coroutine

variable {τ σ ι ρ ε ω α : Type}

namespace Co

/-! ## The order of tasks -/

/-- What is left of a task after its first action. -/
inductive Rest : Co σ ι ρ ε ω α → Co σ ι ρ ε ω α → Prop where
  | get (k : σ → Co σ ι ρ ε ω α) (s : σ) : Rest (k s) (get k)
  | put (s : σ) (k : Co σ ι ρ ε ω α) : Rest k (put s k)
  | note (e : ω) (k : Co σ ι ρ ε ω α) : Rest k (note e k)
  | call (q : ι) (k : ρ → Co σ ι ρ ε ω α) (r : ρ) : Rest (k r) (call q k)
  | acquire (k : Co σ ι ρ ε ω α) : Rest k (acquire k)
  | release (k : Co σ ι ρ ε ω α) : Rest k (release k)

/-- No task has infinitely many actions before it. -/
theorem rest_wellFounded :
    WellFounded (Rest : Co σ ι ρ ε ω α → Co σ ι ρ ε ω α → Prop) := by
  constructor
  intro p
  induction p with
  | done r => exact ⟨_, fun q hq => by cases hq⟩
  | get k ih => exact ⟨_, fun q hq => by cases hq; exact ih _⟩
  | put s k ih => exact ⟨_, fun q hq => by cases hq; exact ih⟩
  | note e k ih => exact ⟨_, fun q hq => by cases hq; exact ih⟩
  | call q k ih => exact ⟨_, fun q hq => by cases hq; exact ih _⟩
  | acquire k ih => exact ⟨_, fun q hq => by cases hq; exact ih⟩
  | release k ih => exact ⟨_, fun q hq => by cases hq; exact ih⟩

/-- A later part of a task. -/
abbrev Later : Co σ ι ρ ε ω α → Co σ ι ρ ε ω α → Prop :=
  Relation.TransGen Rest

/-- Running up to the next suspension point leaves the task or a later part. -/
theorem advance_later (i : τ) (p : Co σ ι ρ ε ω α) (h : Bool) (w : World τ σ ι ρ ω) :
    Relation.ReflTransGen Rest (p.advance i h w).1 p := by
  induction p generalizing h w with
  | done r => exact .refl
  | get k ih => exact (ih w.state h w).tail (.get k w.state)
  | put s k ih => exact (ih h _).tail (.put s k)
  | note e k ih => exact (ih h _).tail (.note e k)
  | call q k ih => exact .refl
  | acquire k ih => exact .refl
  | release k ih => exact (ih false _).tail (.release k)

/-- Where an action has been taken already, running on leaves less of the task. -/
theorem advance_later_of_rest (i : τ) {p q : Co σ ι ρ ε ω α} (hrest : Rest p q) (h : Bool)
    (w : World τ σ ι ρ ω) : Later (p.advance i h w).1 q :=
  Relation.TransGen.tail' (advance_later i p h w) hrest

/-- Stopped at a suspension point. -/
def Stopped : Co σ ι ρ ε ω α → Prop
  | done _ => True
  | call _ _ => True
  | acquire _ => True
  | _ => False

/-- Running stops at the next suspension point. -/
theorem advance_stopped (i : τ) (p : Co σ ι ρ ε ω α) (h : Bool) (w : World τ σ ι ρ ω) :
    (p.advance i h w).1.Stopped := by
  induction p generalizing h w with
  | done r => exact trivial
  | get k ih => exact ih _ h w
  | put s k ih => exact ih h _
  | note e k ih => exact ih h _
  | call q k ih => exact trivial
  | acquire k ih => exact trivial
  | release k ih => exact ih false _

/-- Running up to the next suspension point adds no answer. -/
theorem advance_assume {D : Discipline τ σ ι ρ ω}
    (hother : ∀ e hist, (∀ j q r, e ≠ .got j q r) → D.assume hist → D.assume (e :: hist))
    (i : τ) (p : Co σ ι ρ ε ω α) (h : Bool) (w : World τ σ ι ρ ω)
    (hw : D.assume w.history) : D.assume (p.advance i h w).2.2.history := by
  induction p generalizing h w with
  | done r => exact hw
  | get k ih => exact ih _ h w hw
  | put s k ih => exact ih h _ hw
  | note e k ih => exact ih h _ (hother _ _ (by simp) hw)
  | call q k ih => exact hother _ _ (by simp) hw
  | acquire k ih => exact hw
  | release k ih => exact ih false _ (hother _ _ (by simp) hw)

end Co

/-- What a thread has still to do, as a task: one not started has to be started. -/
def Thread.ahead : Thread σ ι ρ ε ω α → Co σ ι ρ ε ω α
  | .fresh p => .acquire p
  | .parked p => p

namespace Config

/-- Every task that has started is stopped at a suspension point. -/
def AllStopped (c : Config τ σ ι ρ ε ω α) : Prop :=
  ∀ i p, c.pool i = .parked p → p.Stopped

theorem initial_allStopped (s : σ) (tasks : τ → Co σ ι ρ ε ω α) :
    AllStopped (initial s tasks) := by
  intro i p hp
  cases hp

variable [DecidableEq τ]

/-! ## No schedule goes on forever -/

/-- One configuration comes after another by an action of the scheduler. -/
def Next (c' c : Config τ σ ι ρ ε ω α) : Prop :=
  ∃ a, SchedulerOnly c a ∧ c.step a = some c'

/-- An action of the scheduler shortens what one thread has to do. -/
theorem next_ahead {c c' : Config τ σ ι ρ ε ω α} (h : Next c' c) :
    ∃ i t, c'.pool = Function.update c.pool i t ∧ Co.Later t.ahead (c.pool i).ahead := by
  rcases h with ⟨a, hscheduler, hstep⟩
  rcases step_cases hstep with ⟨i, p, -, hpool, rfl⟩ | ⟨i, r, q, k, -, hpool, rfl⟩ |
    ⟨i, k, -, hpool, -, rfl⟩ | ⟨f, rfl, -⟩
  · refine ⟨i, _, rfl, ?_⟩
    rw [hpool]
    exact Co.advance_later_of_rest i (.acquire p) _ _
  · refine ⟨i, _, rfl, ?_⟩
    rw [hpool]
    exact Co.advance_later_of_rest i (.call q k r) _ _
  · refine ⟨i, _, rfl, ?_⟩
    rw [hpool]
    exact Co.advance_later_of_rest i (.acquire k) _ _
  · exact absurd rfl (hscheduler f)

/-- Whoever goes on had not ended. -/
theorem Next.unended {c c' : Config τ σ ι ρ ε ω α} (h : Next c' c) : ∃ i, c.result i = none := by
  rcases h with ⟨a, hscheduler, hstep⟩
  rcases step_cases hstep with ⟨i, p, -, hpool, -⟩ | ⟨i, r, q, k, -, hpool, -⟩ |
    ⟨i, k, -, hpool, -, -⟩ | ⟨f, rfl, -⟩
  · exact ⟨i, by simp [result, hpool]⟩
  · exact ⟨i, by simp [result, hpool]⟩
  · exact ⟨i, by simp [result, hpool]⟩
  · exact absurd rfl (hscheduler f)

/-- No schedule of finitely many tasks goes on forever. -/
theorem next_wellFounded [Fintype τ] :
    WellFounded (Next (τ := τ) (σ := σ) (ι := ι) (ρ := ρ) (ε := ε) (ω := ω) (α := α)) := by
  let work : Config τ σ ι ρ ε ω α → Multiset (Co σ ι ρ ε ω α) :=
    fun c => Finset.univ.val.map fun i => (c.pool i).ahead
  have hwf : WellFounded (Relation.CutExpand (Co.Later (σ := σ) (ι := ι) (ρ := ρ) (ε := ε)
      (ω := ω) (α := α))) :=
    Co.rest_wellFounded.transGen.cutExpand
  refine Subrelation.wf ?_ (InvImage.wf work hwf)
  intro c' c h
  rcases next_ahead h with ⟨i, t, hpool, hlater⟩
  -- one element of the multiset is replaced by a later one
  have hsplit : ∀ pool : τ → Thread σ ι ρ ε ω α, (Finset.univ.val.map fun j => (pool j).ahead) =
      (pool i).ahead ::ₘ ((Finset.univ.erase i).val.map fun j => (pool j).ahead) := by
    intro pool
    have hcons := Multiset.map_cons (fun j => (pool j).ahead) i (Finset.univ.erase i).val
    rw [← hcons, Finset.erase_val, Multiset.cons_erase (Finset.mem_univ i)]
  have hothers : ((Finset.univ.erase i).val.map fun j => (c'.pool j).ahead) =
      (Finset.univ.erase i).val.map fun j => (c.pool j).ahead := by
    refine Multiset.map_congr rfl fun j hj => ?_
    have hij : j ≠ i := Finset.ne_of_mem_erase hj
    rw [hpool, Function.update_of_ne hij]
  have hself : (c'.pool i).ahead = t.ahead := by
    rw [hpool, Function.update_self]
  change Relation.CutExpand _ (Finset.univ.val.map fun j => (c'.pool j).ahead)
    (Finset.univ.val.map fun j => (c.pool j).ahead)
  rw [hsplit c'.pool, hsplit c.pool, hothers, hself, ← Multiset.singleton_add,
    ← Multiset.singleton_add]
  exact Relation.cutExpand_single_add hlater _

/-! ## Nobody waits in vain -/

/-- A segment of a task leaves all threads stopped. -/
theorem AllStopped.advanceTask {c : Config τ σ ι ρ ε ω α} (hc : AllStopped c) (i : τ)
    (p : Co σ ι ρ ε ω α) (h : Bool) (w : World τ σ ι ρ ω) :
    AllStopped (c.advanceTask i p h w) := by
  intro j q hq
  by_cases hij : j = i
  · subst hij
    rw [advanceTask_pool_self] at hq
    cases hq
    exact Co.advance_stopped j p h w
  · rw [advanceTask_pool_of_ne c hij] at hq
    exact hc j q hq

/-- All threads are stopped in every run. -/
theorem AllStopped.reaches {permit : Config τ σ ι ρ ε ω α → Action τ σ ρ → Prop}
    {c c' : Config τ σ ι ρ ε ω α} (hrun : Reaches permit c c') (hc : AllStopped c) :
    AllStopped c' := by
  refine hrun.invariant (fun c a c' _ hstep hc => ?_) hc
  rcases step_cases hstep with ⟨i, p, -, -, rfl⟩ | ⟨i, r, q, k, -, -, rfl⟩ |
    ⟨i, k, -, -, -, rfl⟩ | ⟨f, -, rfl⟩
  · exact hc.advanceTask _ _ _ _
  · exact hc.advanceTask _ _ _ _
  · exact hc.advanceTask _ _ _ _
  · exact hc

/-- A task that can go on: it can be started, get the lock, or be answered. -/
def Enabled (c : Config τ σ ι ρ ε ω α) (i : τ) : Prop :=
  (∃ c', c.step (.start i) = some c') ∨ (∃ c', c.step (.lock i) = some c') ∨
    ∃ q k, c.pool i = .parked (.call q k)

/-- Where tasks end without the lock, some task can go on until all have ended. -/
theorem Respects.enabled {D : Discipline τ σ ι ρ ω} {Q : τ → Post τ σ ι ρ ε ω α}
    {c : Config τ σ ι ρ ε ω α} (hc : Respects D Q c) (hstopped : AllStopped c)
    (hunlocked : ∀ i r w, ¬ Q i true r w) {i : τ} (hi : c.result i = none) :
    ∃ j, Enabled c j := by
  cases hpool : c.pool i with
  | fresh p =>
      refine ⟨i, .inl ?_⟩
      simp only [Config.step, hpool]
      exact ⟨_, rfl⟩
  | parked p =>
      have hp := hstopped i p hpool
      cases p with
      | done r => simp [Config.result, hpool] at hi
      | call q k => exact ⟨i, .inr (.inr ⟨q, k, hpool⟩)⟩
      | acquire k =>
          cases hholder : c.holder with
          | none =>
              refine ⟨i, .inr (.inl ?_)⟩
              simp only [Config.step, hpool, hholder]
              exact ⟨_, rfl⟩
          | some j =>
              -- whoever holds the lock waits for an answer
              have hj := hc.threads j
              rw [hholder, decide_eq_true rfl] at hj
              cases hpool' : c.pool j with
              | fresh p =>
                  rw [hpool'] at hj
                  exact absurd hj.1 (by decide)
              | parked p =>
                  have hp' := hstopped j p hpool'
                  rw [hpool'] at hj
                  cases p with
                  | done r =>
                      exact absurd (hj c.world (D.rely_refl _ _ _) hc.suspended)
                        (hunlocked j r c.world)
                  | call q k' => exact ⟨j, .inr (.inr ⟨q, k', hpool'⟩)⟩
                  | acquire k' =>
                      have hnot := (hj c.world (D.rely_refl _ _ _) hc.suspended).1
                      exact absurd hnot (by decide)
                  | get k' => exact hp'.elim
                  | put s k' => exact hp'.elim
                  | note e k' => exact hp'.elim
                  | release k' => exact hp'.elim
      | get k => exact hp.elim
      | put s k => exact hp.elim
      | note e k => exact hp.elim
      | release k => exact hp.elim

/-- Once all tasks have ended, nobody holds the lock. -/
theorem Respects.holder_eq_none {D : Discipline τ σ ι ρ ω} {Q : τ → Post τ σ ι ρ ε ω α}
    {c : Config τ σ ι ρ ε ω α} (hc : Respects D Q c) (hunlocked : ∀ i r w, ¬ Q i true r w)
    (hall : ∀ i, c.result i ≠ none) : c.holder = none := by
  cases hholder : c.holder with
  | none => rfl
  | some i =>
      rcases Option.ne_none_iff_exists'.mp (hall i) with ⟨r, hr⟩
      have hi := hc.result hr
      rw [hholder, decide_eq_true rfl] at hi
      exact absurd hi (hunlocked i r c.world)

/-- Where every call can be answered as assumed, every run of finitely many tasks
can be carried on until all of them have ended. -/
theorem Respects.completes [Fintype τ] {D : Discipline τ σ ι ρ ω}
    {Q : τ → Post τ σ ι ρ ε ω α} (hQ : ∀ i, Co.Lasting D i (Q i))
    (hunlocked : ∀ i r w, ¬ Q i true r w)
    (hanswer : ∀ j q hist, D.assume hist → ∃ r, D.assume (.got j q r :: hist))
    (hother : ∀ e hist, (∀ j q r, e ≠ .got j q r) → D.assume hist → D.assume (e :: hist))
    {c : Config τ σ ι ρ ε ω α} (hc : Respects D Q c) (hstopped : AllStopped c)
    (hassume : D.assume c.world.history) :
    ∃ c', Reaches SchedulerOnly c c' ∧ Respects D Q c' ∧
      D.assume c'.world.history ∧ ∀ i, c'.result i ≠ none := by
  have hwf : WellFounded (Next : Config τ σ ι ρ ε ω α → Config τ σ ι ρ ε ω α → Prop) :=
    next_wellFounded
  induction c using hwf.induction with
  | _ c ih =>
      have hgo : ∀ a c', (∀ f, a ≠ .environment f) → c.step a = some c' →
          D.assume c'.world.history →
          ∃ c'', Reaches SchedulerOnly c c'' ∧ Respects D Q c'' ∧
            D.assume c''.world.history ∧ ∀ i, c''.result i ≠ none := by
        intro a c' ha hstep hassume'
        have hc' := hc.step hQ hstep (fun f hf => absurd hf (ha f)) hassume'
        have hstopped' := hstopped.reaches
          (.tail (.refl c) trivial hstep : Reaches (fun _ _ => True) c c')
        rcases ih c' ⟨a, ha, hstep⟩ hc' hstopped' hassume' with ⟨c'', hrun, hrest⟩
        exact ⟨c'', .head ha hstep hrun, hrest⟩
      by_cases hall : ∀ i, c.result i ≠ none
      · exact ⟨c, .refl c, hc, hassume, hall⟩
      · push Not at hall
        rcases hall with ⟨i, hi⟩
        rcases hc.enabled hstopped hunlocked hi with ⟨j, ⟨c', hstep⟩ | ⟨c', hstep⟩ | ⟨q, k, hpool⟩⟩
        · refine hgo _ c' (by simp) hstep ?_
          simp only [Config.step] at hstep
          split at hstep
          · cases hstep
            exact Co.advance_assume hother j _ _ _ hassume
          · contradiction
        · refine hgo _ c' (by simp) hstep ?_
          simp only [Config.step] at hstep
          split at hstep
          · cases hstep
            exact Co.advance_assume hother j _ _ _ (hother _ _ (by simp) hassume)
          · contradiction
        · rcases hanswer j q _ hassume with ⟨r, hr⟩
          refine hgo (.resume j r) _ (by simp) (by simp only [Config.step, hpool]; rfl) ?_
          exact Co.advance_assume hother j _ _ _ hr

end Config

end Coroutine
