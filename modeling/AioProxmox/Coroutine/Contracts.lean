import AioProxmox.Coroutine.Completion
import AioProxmox.Coroutine.Interface
import AioProxmox.Coroutine.Refinement

/-!
# Coroutines - contracts of tasks

A task meets a contract under a discipline: started where the common invariant holds, it
keeps to the discipline, ends where the invariant holds again, with the lock as it found it,
and how it ended is related to the world it leaves.  Contracts compose the way tasks do, and
the contract of a component is one of every task that calls it.

Main results:

- Definition {lit}`Co.Meets`: a task meets its contract.
- Theorems {lit}`Co.Meets.bind`, {lit}`Co.Meets.tryCatch` and {lit}`Co.Meets.withLock`:
  contracts of composite tasks.
- Theorem {lit}`Co.Meets.servedBy`: a task whose calls a component answers keeps to the
  discipline of the component.
- Theorem {lit}`Config.Kept.reaches`: a pool of tasks that meet their contracts keeps to the
  discipline.
- Theorems {lit}`Config.Kept.others` and {lit}`Config.Kept.enabled`: what a step without the
  lock leaves alone, and that somebody can go on.
-/

namespace Coroutine

variable {τ σ σ' ι ι' ρ ρ' ε ω α β : Type}

/-! ## Disciplines -/

/-- Nothing leaves the task with the event, and nothing comes in. -/
def Event.Internal : Event τ ι ρ ω → Prop
  | .sent .. | .got .. => False
  | _ => True

/-- A property of state and history holds whenever all tasks are suspended; nothing else is
relied on but that the history grows. -/
def worldDiscipline (J : World τ σ ι ρ ω → Prop) : Discipline τ σ ι ρ ω where
  assume _ := True
  environment _ s s' := ∀ history, J ⟨s, history⟩ → J ⟨s', history⟩
  suspended := J
  free _ := True
  rely _ _ := World.Grows
  assume_tail _ _ _ := trivial
  rely_refl _ _ := World.Grows.refl
  rely_trans _ _ _ _ _ := World.Grows.trans
  rely_weaken _ _ _ h := h
  environment_suspended _ w _ h hJ := h w.history hJ
  environment_rely _ _ _ _ _ _ := ⟨[], rfl⟩
  environment_free _ _ _ _ _ := trivial

/-- The discipline of a component, for tasks that have a state of their own beside it. -/
def Discipline.second (D : Discipline τ σ' ι ρ ω) : Discipline τ (σ × σ') ι ρ ω where
  assume := D.assume
  environment h s s' := D.environment h s.2 s'.2
  suspended w := D.suspended w.second
  free w := D.free w.second
  rely i h w w' := D.rely i h w.second w'.second
  assume_tail := D.assume_tail
  rely_refl i h w := D.rely_refl i h w.second
  rely_trans i h w₁ w₂ w₃ := D.rely_trans i h w₁.second w₂.second w₃.second
  rely_weaken i w₁ w₂ := D.rely_weaken i w₁.second w₂.second
  environment_suspended h w s := D.environment_suspended h w.second s.2
  environment_rely i h w s := D.environment_rely i h w.second s.2
  environment_free w s := D.environment_free w.second s.2

namespace Discipline

variable {D : Discipline τ σ' ι ρ ω} {i : τ} {h : Bool}

/-- What is allowed in the second component is allowed beside the first. -/
theorem Allows.second {w w' : World τ (σ × σ') ι ρ ω}
    (ha : D.Allows i h w.second w'.second) : D.second.Allows i h w w' where
  others := ha.others
  free := ha.free

/-- An event of the component is one of the task that calls it. -/
theorem Logs.second {w : World τ (σ × σ') ι ρ ω} {e : Event τ ι ρ ω}
    {K : World τ σ' ι ρ ω → Prop} {K' : World τ (σ × σ') ι ρ ω → Prop}
    (hlogs : D.Logs i h w.second e K) (hK : K (w.second.log e) → K' (w.log e)) :
    D.second.Logs i h w e K' := by
  intro hassume
  rcases hlogs hassume with ⟨hallowed, hk⟩
  exact ⟨hallowed.second, hK hk⟩

end Discipline

namespace Co

/-! ## Contracts -/

section Contracts

variable {D : Discipline τ σ ι ρ ω} {i : τ} {h : Bool}
  {R : Except ε α → World τ σ ι ρ ω → Prop}

/-- How a task that meets its contract ends. -/
def Ended (D : Discipline τ σ ι ρ ω) (h : Bool) (R : Except ε α → World τ σ ι ρ ω → Prop) :
    Post τ σ ι ρ ε ω α :=
  fun h' r w => h' = h ∧ D.suspended w ∧ R r w

/-- A task meets its contract. -/
def Meets (D : Discipline τ σ ι ρ ω) (i : τ) (h : Bool)
    (R : Except ε α → World τ σ ι ρ ω → Prop) (p : Co σ ι ρ ε ω α) : Prop :=
  ∀ w, D.suspended w → p.wp D i h (Ended D h R) w

/-- Nothing is promised of how the task ends. -/
abbrev Anyhow : Except ε α → World τ σ ι ρ ω → Prop :=
  fun _ _ => True

namespace Meets

/-- A value meets what it satisfies. -/
theorem pure {a : α} (hR : ∀ w, D.suspended w → R (.ok a) w) :
    Meets D i h R (Pure.pure a : Co σ ι ρ ε ω α) :=
  fun w hw => ⟨rfl, hw, hR w hw⟩

/-- An exception meets what it satisfies. -/
theorem throw {e : ε} (hR : ∀ w, D.suspended w → R (.error e) w) :
    Meets D i h R (MonadExcept.throw e : Co σ ι ρ ε ω α) :=
  fun w hw => ⟨rfl, hw, hR w hw⟩

/-- A result that is known beforehand meets what it satisfies. -/
theorem ofExcept {r : Except ε α} (hR : ∀ w, D.suspended w → R r w) :
    Meets D i h R (Co.ofExcept r : Co σ ι ρ ε ω α) :=
  fun w hw => ⟨rfl, hw, hR w hw⟩

/-- A remark that is allowed says nothing of the result. -/
theorem remark {e : ω} (he : ∀ w, D.suspended w → D.Logs i h w (.noted i e) D.suspended) :
    Meets D i h Anyhow (Co.remark e : Co σ ι ρ ε ω Unit) :=
  fun w hw => (he w hw).mono fun _ hw' => ⟨rfl, hw', trivial⟩

/-- An assignment that is allowed says nothing of the result. -/
theorem modify {f : σ → σ}
    (hf : ∀ w, D.suspended w → D.Allows i h w { w with state := f w.state } ∧
      D.suspended { w with state := f w.state }) :
    Meets D i h Anyhow (Co.modify f : Co σ ι ρ ε ω Unit) :=
  fun w hw => ⟨(hf w hw).1, rfl, (hf w hw).2, trivial⟩

/-- A contract may be told less of the result. -/
theorem mono {R' : Except ε α → World τ σ ι ρ ω → Prop} {p : Co σ ι ρ ε ω α}
    (hp : Meets D i h R p) (hR : ∀ r w, R r w → R' r w) : Meets D i h R' p :=
  fun w hw => wp_mono (hp w hw) fun _ r w' hended => ⟨hended.1, hended.2.1, hR r w' hended.2.2⟩

/-- What follows a task may use what its contract says of its value. -/
theorem bind {R' : Except ε β → World τ σ ι ρ ω → Prop} {p : Co σ ι ρ ε ω α}
    {f : α → Co σ ι ρ ε ω β} (hp : Meets D i h R p)
    (hf : ∀ a w, D.suspended w → R (.ok a) w → (f a).wp D i h (Ended D h R') w)
    (herror : ∀ e w, R (.error e) w → R' (.error e) w) : Meets D i h R' (p >>= f) := by
  intro w hw
  rw [wp_bind]
  apply wp_mono (hp w hw)
  rintro _ r w' ⟨rfl, hw', hr⟩
  cases r with
  | ok a => exact hf a w' hw' hr
  | error e => exact ⟨rfl, hw', herror e w' hr⟩

/-- A sequence of tasks of which nothing is promised but that they keep to the discipline. -/
theorem andThen {p : Co σ ι ρ ε ω α} {f : α → Co σ ι ρ ε ω β} (hp : Meets D i h R p)
    (hf : ∀ a, Meets D i h Anyhow (f a)) : Meets D i h Anyhow (p >>= f) :=
  hp.bind (fun a w hw _ => hf a w hw) fun _ _ _ => trivial

/-- A handler may use what the contract of the guarded task says of its exception. -/
theorem tryCatch {R' : Except ε α → World τ σ ι ρ ω → Prop} {p : Co σ ι ρ ε ω α}
    {f : ε → Co σ ι ρ ε ω α} (hp : Meets D i h R p)
    (hvalue : ∀ a w, R (.ok a) w → R' (.ok a) w)
    (hf : ∀ e w, D.suspended w → R (.error e) w → (f e).wp D i h (Ended D h R') w) :
    Meets D i h R' (MonadExcept.tryCatch p f) := by
  intro w hw
  refine (congrFun (wp_tryCatch (D := D) (i := i) p f h (Ended D h R')) w).mpr ?_
  apply wp_mono (hp w hw)
  rintro _ r w' ⟨rfl, hw', hr⟩
  cases r with
  | ok a => exact ⟨rfl, hw', hvalue a w' hr⟩
  | error e => exact hf e w' hw' hr

/-- A handler of any exception leaves no exception to tell of. -/
theorem orElse {p : Co σ ι ρ ε ω α} {f : ε → Co σ ι ρ ε ω α} (hp : Meets D i h R p)
    (hf : ∀ e, Meets D i h Anyhow (f e)) : Meets D i h Anyhow (MonadExcept.tryCatch p f) :=
  hp.tryCatch (fun _ _ _ => trivial) fun e w hw _ => hf e w hw

/-- A task that meets its contract with the lock meets it under the lock. -/
theorem withLock {p : Co σ ι ρ ε ω α} (hp : Meets D i true R p)
    (hlocked : ∀ w, D.suspended w → D.free w → D.Logs i true w (.locked i) D.suspended)
    (hreleased : ∀ w, D.suspended w →
      D.Logs i true w (.released i) fun w' => D.free w' ∧ D.suspended w') :
    Meets D i false Anyhow p.withLock := by
  intro w hw
  rw [wp_withLock]
  refine ⟨hw, fun w₁ _ hw₁ hfree => (hlocked w₁ hw₁ hfree).mono fun w₂ hw₂ => ?_⟩
  apply wp_mono (hp w₂ hw₂)
  rintro _ r w₃ ⟨rfl, hw₃, -⟩
  exact ⟨rfl, (hreleased w₃ hw₃).mono fun w₄ hw₄ => ⟨hw₄.1, rfl, hw₄.2, trivial⟩⟩

end Meets

/-- What a task that has ended without the lock tells stays true. -/
theorem ended_lasting (i : τ) :
    Lasting D i (Ended D false Anyhow : Post τ σ ι ρ ε ω α) where
  suspended _ _ _ hended := hended.2.1
  stable _ _ _ _ hended _ hsuspended := ⟨hended.1, hsuspended, trivial⟩

/-- Such a task does not hold the lock. -/
theorem ended_unlocked (r : Except ε α) (w : World τ σ ι ρ ω) : ¬ Ended D false R true r w :=
  fun hended => absurd hended.1 (by decide)

end Contracts

/-! ## Components -/

section Components

variable {D : Discipline τ σ' ι' ρ' ω} {i : τ}

/-- The condition of a task on the second of two states. -/
theorem wp_beside {p : Co σ' ι' ρ' ε ω α} {h : Bool} {Q : Post τ σ' ι' ρ' ε ω α}
    {w : World τ (σ × σ') ι' ρ' ω} (hp : p.wp D i h Q w.second) :
    p.beside.wp D.second i h (fun h' r w' => Q h' r w'.second) w := by
  induction p generalizing h w with
  | done r => exact hp
  | get k ih => exact ih w.state.2 hp
  | put s k ih => exact ⟨Discipline.Allows.second hp.1, ih hp.2⟩
  | note e k ih => exact Discipline.Logs.second hp fun hk => ih (w := w.log (.noted i e)) hk
  | call q k ih =>
      refine Discipline.Logs.second hp fun hk => ⟨hk.1, fun w₂ r hr hs => ?_⟩
      exact (hk.2 w₂.second r hr hs).second fun hk' => ih r (w := w₂.log (.got i q r)) hk'
  | acquire k ih =>
      refine ⟨hp.1, hp.2.1, fun w₁ hr hs hfree => ?_⟩
      exact (hp.2.2 w₁.second hr hs hfree).second fun hk => ih (w := w₁.log (.locked i)) hk
  | release k ih =>
      refine ⟨hp.1, Discipline.Logs.second hp.2 fun hk => ?_⟩
      exact ⟨hk.1, ih (w := w.log (.released i)) hk.2⟩

/-- The condition of a task and what follows it. -/
theorem wp_attempt {D : Discipline τ σ ι ρ ω} (p : Co σ ι ρ ε ω α)
    (f : Except ε α → Co σ ι ρ ε ω β) (h : Bool) (Q : Post τ σ ι ρ ε ω β) :
    (p.attempt f).wp D i h Q = p.wp D i h fun h r w => (f r).wp D i h Q w := by
  induction p generalizing h with
  | done r => rfl
  | get k ih => funext w; simp only [attempt, wp, ih]
  | put s k ih => funext w; simp only [attempt, wp, ih]
  | note e k ih => funext w; simp only [attempt, wp, ih]
  | call q k ih => funext w; simp only [attempt, wp, ih]
  | acquire k ih => funext w; simp only [attempt, wp, ih]
  | release k ih => funext w; simp only [attempt, wp, ih]

/-- A task of the second component meets its contract beside the first. -/
theorem Meets.beside {h : Bool} {R : Except ε α → World τ σ' ι' ρ' ω → Prop}
    {p : Co σ' ι' ρ' ε ω α} (hp : Meets D i h R p) :
    Meets D.second i h (fun r (w : World τ (σ × σ') ι' ρ' ω) => R r w.second) p.beside :=
  fun w hw => wp_beside (hp w.second hw)

/-- A task whose calls a component answers keeps to the discipline of the component. -/
theorem Meets.servedBy {serve : ι → Co σ' ι' ρ' ε ω α} {p : Co σ ι (Except ε α) ε ω β}
    (hp : p.Lockless) (hserve : ∀ q, Meets D i false Anyhow (serve q))
    (hnotes : ∀ w e, D.suspended w → D.Logs i false w (.noted i e) D.suspended) :
    Meets D.second i false Anyhow (p.servedBy serve) := by
  intro w hw
  induction p generalizing w with
  | done r => exact ⟨rfl, hw, trivial⟩
  | get k ih => exact ih w.state.1 (hp w.state.1) w hw
  | put s k ih =>
      have hsame : D.Allows i false w.second
          (World.second { w with state := (s, w.state.2) }) := .refl i false w.second
      exact ⟨hsame.second, ih hp _ hw⟩
  | note e k ih => exact (hnotes w.second e hw).second fun hw' => ih hp _ hw'
  | call q k ih =>
      change ((serve q).beside.attempt fun r => (k r).servedBy serve).wp _ _ _ _ _
      rw [wp_attempt]
      apply wp_mono ((hserve q).beside w hw)
      rintro _ r w' ⟨rfl, hw', -⟩
      exact ih r (hp r) w' hw'
  | acquire k ih => exact hp.elim
  | release k ih => exact hp.elim

end Components

end Co

/-! ## Pools -/

namespace Config

/-- Every task of a pool meets a contract under a discipline that holds at the start, and
that considers every history. -/
structure Kept (D : Discipline τ σ ι ρ ω) (s : σ) (tasks : τ → Co σ ι ρ ε ω α) : Prop where
  assume : ∀ history, D.assume history
  suspended : D.suspended ⟨s, []⟩
  free : D.free ⟨s, []⟩
  tasks : ∀ i, Co.Meets D i false Co.Anyhow (tasks i)

variable [DecidableEq τ] {D : Discipline τ σ ι ρ ω} {s : σ} {tasks : τ → Co σ ι ρ ε ω α}
  {permit : Config τ σ ι ρ ε ω α → Action τ σ ρ → Prop} {c c' : Config τ σ ι ρ ε ω α}

/-- What the pool reaches keeps to the discipline. -/
theorem Kept.respects (hkept : Kept D s tasks)
    (hpermit : ∀ c f, permit c (.environment f) →
      D.environment c.holder.isSome c.world.state (f c.world.state))
    (hrun : Reaches permit (.initial s tasks) c) :
    Respects D (fun _ => Co.Ended D false Co.Anyhow) c :=
  Respects.reaches Co.ended_lasting hpermit
    (initial_respects hkept.suspended hkept.free fun i w _ hw => hkept.tasks i w hw) hrun
    (hkept.assume _)

/-- The common invariant holds of everything reached. -/
theorem Kept.reaches (hkept : Kept D s tasks)
    (hpermit : ∀ c f, permit c (.environment f) →
      D.environment c.holder.isSome c.world.state (f c.world.state))
    (hrun : Reaches permit (.initial s tasks) c) : D.suspended c.world :=
  (hkept.respects hpermit hrun).suspended

/-- A step of a task that neither holds nor takes the lock leaves alone what the holder of
the lock relies on. -/
theorem Respects.others {Q : τ → Post τ σ ι ρ ε ω α} (hQ : ∀ i, Co.Lasting D i (Q i))
    (hc : Respects D Q c) (hassume : ∀ history, D.assume history) {i j : τ} (hij : j ≠ i)
    {a : Action τ σ ρ} (ha : a = .start i ∨ ∃ r, a = .resume i r) (hholder : c.holder ≠ some i)
    (hstep : c.step a = some c') : D.rely j true c.world c'.world := by
  have hi := hc.threads i
  rcases step_cases hstep with ⟨k, p, rfl, hpool, rfl⟩ | ⟨k, r, q, f, rfl, hpool, rfl⟩ |
    ⟨k, f, rfl, -, -, -⟩ | ⟨f, rfl, -⟩
  · obtain rfl : k = i := by simpa using ha
    rw [hpool] at hi
    have hp := hi.2 c.world (D.rely_refl _ _ _) hc.suspended
    exact ((Co.advance_segment (hQ k) p false c.world hp (hassume _)).holder rfl).2.others j hij
  · obtain rfl : k = i := by simpa using ha
    rw [hpool, decide_eq_false hholder] at hi
    rcases hi c.world r (D.rely_refl _ _ _) hc.suspended (hassume _) with ⟨hallowed, hp⟩
    have hseg := (Co.advance_segment (hQ k) (f r) false _ hp (hassume _)).prepend hallowed
    rw [decide_eq_false hholder]
    exact (hseg.holder rfl).2.others j hij
  · simp at ha
  · simp at ha

/-- The scheduler can let a task go on that is able to, whatever its call is answered. -/
theorem Enabled.next {i : τ} (h : Enabled c i) (r : ρ) : ∃ c', Next c' c := by
  have hscheduler : ∀ a : Action τ σ ρ, (∀ f, a ≠ .environment f) → SchedulerOnly c a :=
    fun _ ha => ha
  rcases h with ⟨c', hstep⟩ | ⟨c', hstep⟩ | ⟨q, k, hpool⟩
  · exact ⟨c', _, hscheduler _ (by simp), hstep⟩
  · exact ⟨c', _, hscheduler _ (by simp), hstep⟩
  · have hstep : ∃ c', c.step (.resume i r) = some c' := by simp [step, hpool]
    rcases hstep with ⟨c', hstep⟩
    exact ⟨c', _, hscheduler _ (by simp), hstep⟩

/-- While somebody has not ended, somebody can go on; and once all have ended, the lock is
free. -/
theorem Kept.enabled (hkept : Kept D s tasks)
    (hpermit : ∀ c f, permit c (.environment f) →
      D.environment c.holder.isSome c.world.state (f c.world.state))
    (hrun : Reaches permit (.initial s tasks) c) :
    (∀ i, c.result i = none → ∃ j, Enabled c j) ∧
      ((∀ i, c.result i ≠ none) → c.holder = none) := by
  have hc := hkept.respects hpermit hrun
  constructor
  · intro i hi
    exact hc.enabled (AllStopped.reaches hrun (initial_allStopped s tasks))
      (fun _ => Co.ended_unlocked) hi
  · exact hc.holder_eq_none fun _ => Co.ended_unlocked

end Config

end Coroutine
