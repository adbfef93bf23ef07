import AioProxmox.Coroutine.RelyGuarantee

/-!
# Coroutines - invariants along tasks and histories

Three ways in which something holds all along: a property that each event of a
history has together with what came before it, an invariant of the world that a
task upholds from one suspension point to the next, and the order of events by
which a task that has ended is known to have run.

Main results:

- Definition {lit}`Along`: a property of each event and the history before it.
- Definition {lit}`Co.Upholds`: the task keeps an invariant and raises exceptions
  of one kind only; it has one rule for each way of composing tasks.
- Theorem {lit}`Config.Reaches.steady`: a property of the state that each task keeps from
  one suspension point to the next holds of everything reached.
- Theorem {lit}`Config.acted_since`: a task that has ended since some moment has
  left an event since, unless it had left none before.
-/

namespace Coroutine

variable {τ σ ι ρ ε ω α β : Type}

/-! ## Events with what came before them -/

section Along

variable {P Q : Event τ ι ρ ω → List (Event τ ι ρ ω) → Prop} {e : Event τ ι ρ ω}
  {before : List (Event τ ι ρ ω)}

/-- Each event of a history satisfies {lit}`P` together with the history before it. -/
def Along (P : Event τ ι ρ ω → List (Event τ ι ρ ω) → Prop) :
    List (Event τ ι ρ ω) → Prop
  | [] => True
  | e :: before => P e before ∧ Along P before

@[simp]
theorem along_nil : Along P [] :=
  trivial

@[simp]
theorem along_cons : Along P (e :: before) ↔ P e before ∧ Along P before :=
  Iff.rfl

/-- Two properties hold all along where each does. -/
theorem along_and {history : List (Event τ ι ρ ω)} :
    Along (fun e before => P e before ∧ Q e before) history ↔
      Along P history ∧ Along Q history := by
  induction history with
  | nil => simp
  | cons e before ih =>
      rw [along_cons, along_cons, along_cons, ih]
      tauto

/-- An event of the history satisfies {lit}`P` with what came before it. -/
theorem Along.of_mem {history : List (Event τ ι ρ ω)} (h : Along P history) (he : e ∈ history) :
    ∃ before, P e before := by
  induction history with
  | nil => contradiction
  | cons e' before ih =>
      rcases List.mem_cons.mp he with rfl | he
      · exact ⟨before, h.1⟩
      · exact ih h.2 he

end Along

/-- The task that an event is about. -/
def Event.actor : Event τ ι ρ ω → τ
  | sent i _ | got i _ _ | noted i _ | locked i | released i => i

/-- The history has grown by events of others than task {lit}`j`. -/
def World.GrowsWithout (j : τ) (w w' : World τ σ ι ρ ω) : Prop :=
  ∃ new, w'.history = new ++ w.history ∧ ∀ e ∈ new, e.actor ≠ j

section GrowsWithout

variable {j : τ} {w w' w₁ w₂ w₃ : World τ σ ι ρ ω}

/-- Nothing has happened yet. -/
theorem World.GrowsWithout.refl (w : World τ σ ι ρ ω) : w.GrowsWithout j w :=
  ⟨[], rfl, by simp⟩

/-- What no event of a task lies between may be put together. -/
theorem World.GrowsWithout.trans (h₁ : w₁.GrowsWithout j w₂) (h₂ : w₂.GrowsWithout j w₃) :
    w₁.GrowsWithout j w₃ := by
  rcases h₁ with ⟨new₁, hnew₁, hother₁⟩
  rcases h₂ with ⟨new₂, hnew₂, hother₂⟩
  refine ⟨new₂ ++ new₁, by rw [hnew₂, hnew₁, List.append_assoc], fun e he => ?_⟩
  rcases List.mem_append.mp he with he | he
  · exact hother₂ e he
  · exact hother₁ e he

/-- An event of another task is no event of this one. -/
theorem World.GrowsWithout.log (w : World τ σ ι ρ ω) {e : Event τ ι ρ ω}
    (he : e.actor ≠ j) : w.GrowsWithout j (w.log e) :=
  ⟨[e], rfl, by simpa using he⟩

/-- One event at most, of another task. -/
theorem World.GrowsWithout.of_one {i : τ}
    (h : w'.history = w.history ∨ ∃ e, e.actor = i ∧ w'.history = e :: w.history)
    (hij : j ≠ i) : w.GrowsWithout j w' := by
  rcases h with hsame | ⟨e, hactor, hsaid⟩
  · exact ⟨[], hsame, by simp⟩
  · exact ⟨[e], hsaid, by simpa [hactor] using hij.symm⟩

/-- Without an event of that task or with it, the history grows. -/
theorem World.GrowsWithout.grows (h : w.GrowsWithout j w') : w.Grows w' := by
  rcases h with ⟨new, hnew, -⟩
  exact ⟨new, hnew⟩

end GrowsWithout

/-! ## Invariants that a task upholds -/

namespace Co

/-- Task {lit}`i` keeps the invariant {lit}`J` while it runs {lit}`p`, and raises
only exceptions of {lit}`P`. -/
def Upholds (D : Discipline τ σ ι ρ ω) (i : τ) (h : Bool) (J : World τ σ ι ρ ω → Prop)
    (P : ε → Prop) (p : Co σ ι ρ ε ω α) : Prop :=
  ∀ w, J w → p.wp D i h (fun h' r w' => h' = h ∧ J w' ∧ ∀ e, r = .error e → P e) w

namespace Upholds

variable {D : Discipline τ σ ι ρ ω} {i : τ} {h : Bool} {J : World τ σ ι ρ ω → Prop}
  {P : ε → Prop}

/-- A value upholds what holds. -/
theorem pure (a : α) : Upholds D i h J P (Pure.pure a : Co σ ι ρ ε ω α) :=
  fun _ hJ => ⟨rfl, hJ, by simp⟩

/-- An exception has to be one of those that may be raised. -/
theorem throw {e : ε} (he : P e) :
    Upholds D i h J P (MonadExcept.throw e : Co σ ι ρ ε ω α) := by
  intro w hJ
  refine ⟨rfl, hJ, fun e' he' => ?_⟩
  cases he'
  exact he

/-- The exception of a result that is known beforehand has to be one that may be raised. -/
theorem ofExcept {r : Except ε α} (hr : ∀ e, r = .error e → P e) :
    Upholds D i h J P (Co.ofExcept r : Co σ ι ρ ε ω α) :=
  fun _ hJ => ⟨rfl, hJ, hr⟩

/-- An assignment upholds the invariant if it is allowed and keeps it. -/
theorem modify {f : σ → σ}
    (hf : ∀ w, J w → D.Allows i h w { w with state := f w.state } ∧
      J { w with state := f w.state }) :
    Upholds D i h J P (Co.modify f : Co σ ι ρ ε ω Unit) :=
  fun w hJ => ⟨(hf w hJ).1, rfl, (hf w hJ).2, by simp⟩

/-- A remark upholds the invariant if it is allowed and keeps it. -/
theorem remark {e : ω} (he : ∀ w, J w → D.Logs i h w (.noted i e) J) :
    Upholds D i h J P (Co.remark e : Co σ ι ρ ε ω Unit) :=
  fun w hJ => (he w hJ).mono fun _ hJ' => ⟨rfl, hJ', by simp⟩

/-- A sequence upholds what its parts uphold. -/
theorem bind {p : Co σ ι ρ ε ω α} {f : α → Co σ ι ρ ε ω β} (hp : Upholds D i h J P p)
    (hf : ∀ a, Upholds D i h J P (f a)) : Upholds D i h J P (p >>= f) := by
  intro w hJ
  rw [wp_bind]
  apply wp_mono (hp w hJ)
  rintro _ r w' ⟨rfl, hJ', hr⟩
  cases r with
  | ok a => exact hf a w' hJ'
  | error e =>
      refine ⟨rfl, hJ', fun e' he' => ?_⟩
      cases he'
      exact hr e rfl

/-- A handler has to uphold it after each exception that may be raised. -/
theorem tryCatch {P' : ε → Prop} {p : Co σ ι ρ ε ω α} {f : ε → Co σ ι ρ ε ω α}
    (hp : Upholds D i h J P' p) (hf : ∀ e, P' e → Upholds D i h J P (f e)) :
    Upholds D i h J P (MonadExcept.tryCatch p f) := by
  intro w hJ
  have hguarded := wp_tryCatch (D := D) (i := i) p f h
    fun h' r w' => h' = h ∧ J w' ∧ ∀ e, r = .error e → P e
  refine (congrFun hguarded w).mpr ?_
  apply wp_mono (hp w hJ)
  rintro _ r w' ⟨rfl, hJ', hr⟩
  cases r with
  | ok a => exact ⟨rfl, hJ', by simp⟩
  | error e => exact hf e (hr e rfl) w' hJ'

/-- More exceptions may be let pass. -/
theorem mono {P' : ε → Prop} {p : Co σ ι ρ ε ω α} (hp : Upholds D i h J P p)
    (hP : ∀ e, P e → P' e) : Upholds D i h J P' p := by
  intro w hJ
  apply wp_mono (hp w hJ)
  rintro _ r w' ⟨rfl, hJ', hr⟩
  exact ⟨rfl, hJ', fun e he => hP e (hr e he)⟩

end Upholds

/-! ## Invariants of the state alone -/

/-- Nothing is relied on but that a property of the state holds whenever all tasks are
suspended; the environment may do what keeps it. -/
def stateDiscipline (J : σ → Prop) : Discipline τ σ ι ρ ω where
  assume _ := True
  environment _ s s' := J s → J s'
  suspended w := J w.state
  free _ := True
  rely _ _ _ _ := True
  assume_tail _ _ _ := trivial
  rely_refl _ _ _ := trivial
  rely_trans _ _ _ _ _ _ _ := trivial
  rely_weaken _ _ _ _ := trivial
  environment_suspended _ _ _ h hJ := h hJ
  environment_rely _ _ _ _ _ _ := trivial
  environment_free _ _ _ _ _ := trivial

/-- The task keeps a property of the state from one suspension point to the next. -/
abbrev Steady (J : σ → Prop) (i : τ) (h : Bool) (p : Co σ ι ρ ε ω α) : Prop :=
  Upholds (stateDiscipline J) i h (fun w => J w.state) (fun _ => True) p

namespace Steady

variable {J : σ → Prop} {i : τ} {h : Bool}

/-- Nothing is relied on but the state. -/
theorem allows (w w' : World τ σ ι ρ ω) : (stateDiscipline J).Allows i h w w' :=
  ⟨fun _ _ => trivial, fun _ _ => trivial⟩

/-- Reading the state is steady. -/
theorem state : Steady J i h (Co.state : Co σ ι ρ ε ω σ) :=
  fun _ hJ => ⟨rfl, hJ, by simp⟩

/-- An assignment is steady that keeps the property. -/
theorem modify {f : σ → σ} (hf : ∀ s, J s → J (f s)) :
    Steady J i h (Co.modify f : Co σ ι ρ ε ω Unit) :=
  Upholds.modify fun w hJ => ⟨allows _ _, hf w.state hJ⟩

/-- A remark is steady. -/
theorem remark (e : ω) : Steady J i h (Co.remark e : Co σ ι ρ ε ω Unit) :=
  Upholds.remark fun _ hJ _ => ⟨allows _ _, hJ⟩

/-- A result that is known beforehand is steady. -/
theorem ofExcept (r : Except ε α) : Steady J i h (Co.ofExcept r : Co σ ι ρ ε ω α) :=
  Upholds.ofExcept fun _ _ => trivial

/-- A call is steady, the others being so. -/
theorem await (q : ι) : Steady J i h (Co.await q : Co σ ι (Except ε α) ε ω α) :=
  fun _ hJ _ => ⟨allows _ _, hJ, fun _ _ _ hJ' _ => ⟨allows _ _, rfl, hJ', fun _ _ => trivial⟩⟩

/-- A task that is steady with the lock is steady when it takes it. -/
theorem withLock {p : Co σ ι ρ ε ω α} (hp : Steady J i true p) : Steady J i false p.withLock := by
  intro w hJ
  rw [wp_withLock]
  refine ⟨hJ, fun w₁ _ hJ₁ _ _ => ⟨allows _ _, ?_⟩⟩
  apply wp_mono (hp (w₁.log (.locked i)) hJ₁)
  rintro _ r w₂ ⟨rfl, hJ₂, -⟩
  exact ⟨rfl, fun _ => ⟨allows _ _, trivial, rfl, hJ₂, fun _ _ => trivial⟩⟩

end Steady

/-! ## Who has acted -/

/-- A segment of a task leaves events of that task only. -/
theorem advance_actor (i : τ) (p : Co σ ι ρ ε ω α) (h : Bool) (w : World τ σ ι ρ ω) :
    ∃ new, (p.advance i h w).2.2.history = new ++ w.history ∧ ∀ e ∈ new, e.actor = i := by
  induction p generalizing h w with
  | done r => exact ⟨[], rfl, by simp⟩
  | get k ih => exact ih _ h w
  | put s k ih => exact ih h { w with state := s }
  | note e k ih =>
      rcases ih h (w.log (.noted i e)) with ⟨new, hnew, hall⟩
      exact ⟨new ++ [.noted i e], by simpa [advance] using hnew, by
        simpa [or_imp, forall_and, Event.actor] using hall⟩
  | call q k ih => exact ⟨[.sent i q], rfl, by simp [Event.actor]⟩
  | acquire k ih => exact ⟨[], rfl, by simp⟩
  | release k ih =>
      rcases ih false (w.log (.released i)) with ⟨new, hnew, hall⟩
      exact ⟨new ++ [.released i], by simpa [advance] using hnew, by
        simpa [or_imp, forall_and, Event.actor] using hall⟩

end Co

namespace Config

variable [DecidableEq τ] {permit : Config τ σ ι ρ ε ω α → Action τ σ ρ → Prop}
  {c c' : Config τ σ ι ρ ε ω α} {i : τ}

/-- A property that every task keeps, and the environment as well, holds of everything
reached. -/
theorem Reaches.steady {J : σ → Prop} {s : σ} {tasks : τ → Co σ ι ρ ε ω α}
    (htasks : ∀ i, Co.Steady J i false (tasks i)) (hinit : J s)
    (hpermit : ∀ c f, permit c (.environment f) → J c.world.state → J (f c.world.state))
    (hrun : Reaches permit (.initial s tasks) c) : J c.world.state := by
  have hlasting : ∀ i, Co.Lasting (Co.stateDiscipline J) i
      (fun _ _ w => J w.state : Post τ σ ι ρ ε ω α) :=
    fun i => ⟨fun _ _ _ hJ => hJ, fun _ _ _ _ _ _ hJ => hJ⟩
  have hrespects : Respects (Co.stateDiscipline J) (fun _ _ _ w => J w.state)
      (.initial s tasks : Config τ σ ι ρ ε ω α) := by
    refine initial_respects hinit trivial fun i w _ hJ => ?_
    exact Co.wp_mono (htasks i w hJ) fun _ _ _ hended => hended.2.1
  exact (hrespects.reaches hlasting hpermit hrun trivial).suspended

/-- A step of task {lit}`j`: its events are that task's, it leaves one unless it is
the first step of the task, and the other tasks are where they were. -/
structure StepOf (j : τ) (c c' : Config τ σ ι ρ ε ω α) (new : List (Event τ ι ρ ω)) :
    Prop where
  history : c'.world.history = new ++ c.world.history
  actor : ∀ e ∈ new, e.actor = j
  others : ∀ i, i ≠ j → c'.pool i = c.pool i
  parked : ∃ p, c'.pool j = .parked p
  first : new = [] → ∃ p, c.pool j = .fresh p

/-- What the scheduler lets a task do is a step of that task. -/
theorem advanceTask_stepOf (c : Config τ σ ι ρ ε ω α) (j : τ) (p : Co σ ι ρ ε ω α)
    (h : Bool) {w : World τ σ ι ρ ω} (logged : List (Event τ ι ρ ω))
    (hw : w.history = logged ++ c.world.history) (hactor : ∀ e ∈ logged, e.actor = j)
    (hfirst : logged = [] → ∃ p, c.pool j = .fresh p) :
    ∃ new, StepOf j c (c.advanceTask j p h w) new := by
  rcases Co.advance_actor j p h w with ⟨new, hnew, hall⟩
  refine ⟨new ++ logged, ?_, fun e he => ?_, fun i hij => ?_,
    ⟨_, advanceTask_pool_self c j p h w⟩, fun hnil => ?_⟩
  · rw [List.append_assoc, ← hw]
    exact hnew
  · rcases List.mem_append.mp he with he | he
    · exact hall e he
    · exact hactor e he
  · exact advanceTask_pool_of_ne c hij p h w
  · exact hfirst (List.append_eq_nil_iff.mp hnil).2

/-- A step is one task's, or the environment's. -/
theorem step_of {a : Action τ σ ρ} (hstep : c.step a = some c') :
    (∃ j new, StepOf j c c' new) ∨
      c'.world.history = c.world.history ∧ c'.pool = c.pool := by
  rcases step_cases hstep with ⟨j, p, rfl, hpool, rfl⟩ | ⟨j, r, q, k, rfl, -, rfl⟩ |
    ⟨j, k, rfl, -, -, rfl⟩ | ⟨f, rfl, rfl⟩
  · left
    exact ⟨j, c.advanceTask_stepOf j p false [] rfl (by simp) fun _ => ⟨p, hpool⟩⟩
  · left
    exact ⟨j, c.advanceTask_stepOf j (k r) _ [.got j q r] rfl
      (by simp [Event.actor]) (by simp)⟩
  · left
    exact ⟨j, c.advanceTask_stepOf j k true [.locked j] rfl
      (by simp [Event.actor]) (by simp)⟩
  · right
    exact ⟨rfl, rfl⟩

/-- A task that has not started has left no events. -/
theorem fresh_silent {s : σ} {tasks : τ → Co σ ι ρ ε ω α}
    (hrun : Reaches permit (.initial s tasks) c) {p : Co σ ι ρ ε ω α}
    (hfresh : c.pool i = .fresh p) : ∀ e ∈ c.world.history, e.actor ≠ i := by
  induction hrun with
  | refl => simp [initial]
  | tail _ _ hstep ih =>
      rcases step_of hstep with ⟨j, new, hof⟩ | ⟨hhistory, hpool⟩
      · have hij : i ≠ j := by
          rintro rfl
          rcases hof.parked with ⟨q, hq⟩
          rw [hq] at hfresh
          contradiction
        intro e he
        rw [hof.history] at he
        rcases List.mem_append.mp he with he | he
        · rw [hof.actor e he]
          exact hij.symm
        · exact ih ((hof.others i hij).symm.trans hfresh) e he
      · rw [hhistory]
        exact ih ((congrFun hpool i).symm.trans hfresh)

/-- A task that has started and has ended since has left an event since. -/
theorem acted_of_started (hrun : Reaches permit c c') {p : Co σ ι ρ ε ω α}
    (hstarted : c.pool i = .parked p) (hbefore : c.result i = none) {r : Except ε α}
    (hafter : c'.result i = some r) :
    ∃ new, c'.world.history = new ++ c.world.history ∧ ∃ e ∈ new, e.actor = i := by
  suffices h : c'.pool i = c.pool i ∨
      ∃ new, c'.world.history = new ++ c.world.history ∧ ∃ e ∈ new, e.actor = i by
    rcases h with hsame | hacted
    · simp only [result, hsame] at hafter hbefore
      rw [hbefore] at hafter
      contradiction
    · exact hacted
  clear hafter
  induction hrun with
  | refl => exact .inl rfl
  | tail hprev _ hstep ih =>
      rcases step_of hstep with ⟨j, new, hof⟩ | ⟨hhistory, hpool⟩
      · rcases ih with hsame | ⟨old, hold, e, he, hactor⟩
        · by_cases hij : i = j
          · subst hij
            right
            rcases reaches_grows hprev with ⟨older, holder⟩
            have hacts : new ≠ [] := by
              intro hnil
              rcases hof.first hnil with ⟨q, hq⟩
              rw [hsame, hstarted] at hq
              contradiction
            rcases List.exists_mem_of_ne_nil new hacts with ⟨e, he⟩
            exact ⟨new ++ older, by rw [hof.history, holder, List.append_assoc], e,
              List.mem_append_left _ he, hof.actor e he⟩
          · left
            rw [hof.others i hij, hsame]
        · right
          exact ⟨new ++ old, by rw [hof.history, hold, List.append_assoc], e,
            List.mem_append_right _ he, hactor⟩
      · rw [hhistory, hpool]
        exact ih

/-- A task that has ended since some moment of a run has left an event since, unless
it had left none before. -/
theorem acted_since {s : σ} {tasks : τ → Co σ ι ρ ε ω α}
    (hrun : Reaches permit (.initial s tasks) c) (hafter : Reaches permit c c')
    (hbefore : c.result i = none) {r : Except ε α} (hended : c'.result i = some r) :
    (∃ new, c'.world.history = new ++ c.world.history ∧ ∃ e ∈ new, e.actor = i) ∨
      ∀ e ∈ c.world.history, e.actor ≠ i := by
  cases hpool : c.pool i with
  | fresh p => exact .inr (fresh_silent hrun hpool)
  | parked p => exact .inl (acted_of_started hafter hpool hbefore hended)

end Config

end Coroutine
