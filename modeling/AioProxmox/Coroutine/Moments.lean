import AioProxmox.Coroutine.Conversations

/-!
# Coroutines - what holds at the moment of a call

A protocol says what a task may ask after what it was told.  Here it also says in which state:
between two suspensions nobody else runs, so what a task has read or assigned still holds when
it makes its next call; once it waits, nothing is known of the state any more.  And what a task
goes on with may depend on the state in which it made a call: two moments of one run are then
compared.

Main results:

- Definition {lit}`Co.Throughout`: what holds at each call of a task, of the state in which it
  is made and of what the task goes on with.
- Theorems {lit}`Co.throughout_bind` and {lit}`Co.throughout_tryCatch`: the calls of composite
  tasks.
- Definition {lit}`Co.Minds`: the calls of a task are allowed in the state in which they are
  made.
- Theorem {lit}`Co.TalksIn.minds`: a task that keeps to a protocol, together with what it minds.
- Theorem {lit}`Config.Reaches.minds`: so it is for each call of every run, whatever the
  others do.
- Definition {lit}`Co.Lasts` and theorem {lit}`Config.Reaches.lasts`: calls that are allowed by
  the state in which an earlier call was made, likewise.
-/

namespace Coroutine

variable {τ σ σ' ι ρ ε ω α β : Type}

namespace Co

/-- Of each call of the task {lit}`P` holds, in the state and after the conversation in which it
is made, and of what the task goes on with; and the task ends as told.  While the task waits
anything may become of the state. -/
def Throughout (P : σ → List (ι × ρ) → ι → (ρ → Co σ ι ρ ε ω α) → Prop) :
    Co σ ι ρ ε ω α → (Except ε α → σ → List (ι × ρ) → Prop) → σ → List (ι × ρ) → Prop
  | done r, Q, s, l => Q r s l
  | get k, Q, s, l => (k s).Throughout P Q s l
  | put s k, Q, _, l => k.Throughout P Q s l
  | note _ k, Q, s, l => k.Throughout P Q s l
  | call q k, Q, s, l => P s l q k ∧ ∀ r s', (k r).Throughout P Q s' ((q, r) :: l)
  | acquire k, Q, _, l => ∀ s', k.Throughout P Q s' l
  | release k, Q, s, l => k.Throughout P Q s l

/-- Each call of the task is allowed in the state and after the conversation in which it is
made, and the task ends as told. -/
def Minds (may : σ → List (ι × ρ) → ι → Prop) (p : Co σ ι ρ ε ω α) :
    (Except ε α → σ → List (ι × ρ) → Prop) → σ → List (ι × ρ) → Prop :=
  p.Throughout fun s l q _ => may s l q

/-- Whatever the task does after a call that is picked is allowed by the state in which that
call was made. -/
def Lasts (pick : ι → Prop) (may : σ → σ → List (ι × ρ) → ι → Prop) (p : Co σ ι ρ ε ω α) :
    σ → List (ι × ρ) → Prop :=
  p.Throughout
    (fun s l q k => pick q → ∀ r s', (k r).Minds (may s) (fun _ _ _ => True) s' ((q, r) :: l))
    fun _ _ _ => True

section Throughout

variable {P P' : σ → List (ι × ρ) → ι → (ρ → Co σ ι ρ ε ω α) → Prop} {s : σ}
  {l : List (ι × ρ)} {Q Q' : Except ε α → σ → List (ι × ρ) → Prop}

/-- The calls of a sequence are those of its parts. -/
theorem throughout_bind (P : σ → List (ι × ρ) → ι → (ρ → Co σ ι ρ ε ω β) → Prop)
    (p : Co σ ι ρ ε ω α) (f : α → Co σ ι ρ ε ω β) (Q : Except ε β → σ → List (ι × ρ) → Prop) :
    (p >>= f).Throughout P Q =
      p.Throughout (fun s l q k => P s l q fun r => k r >>= f) fun r s l =>
        match r with
        | .ok a => (f a).Throughout P Q s l
        | .error e => Q (.error e) s l := by
  change (p.bind f).Throughout P Q = _
  induction p with
  | done r =>
      cases r with
      | ok a => rfl
      | error e => rfl
  | get k ih => funext s l; simp only [bind, Throughout, ih]
  | put s k ih => funext s l; simp only [bind, Throughout, ih]
  | note e k ih => funext s l; simp only [bind, Throughout, ih]
  | call q k ih =>
      funext s l
      simp only [bind, Throughout, ih]
      rfl
  | acquire k ih => funext s l; simp only [bind, Throughout, ih]
  | release k ih => funext s l; simp only [bind, Throughout, ih]

/-- The calls of a guarded task are its own and those of the handler. -/
theorem throughout_tryCatch (P : σ → List (ι × ρ) → ι → (ρ → Co σ ι ρ ε ω α) → Prop)
    (p : Co σ ι ρ ε ω α) (f : ε → Co σ ι ρ ε ω α) (Q : Except ε α → σ → List (ι × ρ) → Prop) :
    (tryCatch p f : Co σ ι ρ ε ω α).Throughout P Q =
      p.Throughout (fun s l q k => P s l q fun r => tryCatch (k r) f) fun r s l =>
        match r with
        | .ok a => Q (.ok a) s l
        | .error e => (f e).Throughout P Q s l := by
  change (p.handle f).Throughout P Q = _
  induction p with
  | done r =>
      cases r with
      | ok a => rfl
      | error e => rfl
  | get k ih => funext s l; simp only [handle, Throughout, ih]
  | put s k ih => funext s l; simp only [handle, Throughout, ih]
  | note e k ih => funext s l; simp only [handle, Throughout, ih]
  | call q k ih =>
      funext s l
      simp only [handle, Throughout, ih]
      rfl
  | acquire k ih => funext s l; simp only [handle, Throughout, ih]
  | release k ih => funext s l; simp only [handle, Throughout, ih]

/-- Once the lock is held, in whatever state, the task goes on. -/
theorem throughout_withLock (p : Co σ ι ρ ε ω α) :
    p.withLock.Throughout P Q s l ↔
      ∀ s', p.Throughout (fun s l q k => P s l q fun r => (k r).thenRelease) Q s' l := by
  have hrelease : p.thenRelease.Throughout P Q =
      p.Throughout (fun s l q k => P s l q fun r => (k r).thenRelease) Q := by
    induction p with
    | done r => rfl
    | get k ih => funext s l; simp only [thenRelease, Throughout, ih]
    | put s k ih => funext s l; simp only [thenRelease, Throughout, ih]
    | note e k ih => funext s l; simp only [thenRelease, Throughout, ih]
    | call q k ih => funext s l; simp only [thenRelease, Throughout, ih]
    | acquire k ih => funext s l; simp only [thenRelease, Throughout, ih]
    | release k ih => funext s l; simp only [thenRelease, Throughout, ih]
  change (∀ s', p.thenRelease.Throughout P Q s' l) ↔ _
  rw [hrelease]

/-- Less may be asked of the calls, and told of the end. -/
theorem Throughout.mono {p : Co σ ι ρ ε ω α} (hp : p.Throughout P Q s l)
    (hP : ∀ s l q k, P s l q k → P' s l q k) (hQ : ∀ r s l, Q r s l → Q' r s l) :
    p.Throughout P' Q' s l := by
  induction p generalizing s l with
  | done r => exact hQ r s l hp
  | get k ih => exact ih s hp
  | put s k ih => exact ih hp
  | note e k ih => exact ih hp
  | call q k ih => exact ⟨hP s l q k hp.1, fun r s' => ih r (hp.2 r s')⟩
  | acquire k ih => exact fun s' => ih (hp s')
  | release k ih => exact ih hp

end Throughout

section Minds

variable {may : σ → List (ι × ρ) → ι → Prop} {s : σ} {l : List (ι × ρ)}
  {Q : Except ε α → σ → List (ι × ρ) → Prop}

@[simp]
theorem minds_pure (a : α) :
    (pure a : Co σ ι ρ ε ω α).Minds may Q s l ↔ Q (.ok a) s l :=
  Iff.rfl

@[simp]
theorem minds_throw (e : ε) :
    (throw e : Co σ ι ρ ε ω α).Minds may Q s l ↔ Q (.error e) s l :=
  Iff.rfl

@[simp]
theorem minds_ofExcept (r : Except ε α) :
    (ofExcept r : Co σ ι ρ ε ω α).Minds may Q s l ↔ Q r s l :=
  Iff.rfl

@[simp]
theorem minds_state {Q : Except ε σ → σ → List (ι × ρ) → Prop} :
    (state : Co σ ι ρ ε ω σ).Minds may Q s l ↔ Q (.ok s) s l :=
  Iff.rfl

@[simp]
theorem minds_modify {Q : Except ε Unit → σ → List (ι × ρ) → Prop} (f : σ → σ) :
    (modify f : Co σ ι ρ ε ω Unit).Minds may Q s l ↔ Q (.ok ()) (f s) l :=
  Iff.rfl

@[simp]
theorem minds_remark {Q : Except ε Unit → σ → List (ι × ρ) → Prop} (e : ω) :
    (remark e : Co σ ι ρ ε ω Unit).Minds may Q s l ↔ Q (.ok ()) s l :=
  Iff.rfl

@[simp]
theorem minds_await {may : σ → List (ι × Except ε α) → ι → Prop} {l : List (ι × Except ε α)}
    {Q : Except ε α → σ → List (ι × Except ε α) → Prop} (q : ι) :
    (await q : Co σ ι (Except ε α) ε ω α).Minds may Q s l ↔
      may s l q ∧ ∀ r s', Q r s' ((q, r) :: l) :=
  Iff.rfl

/-- The calls of a sequence are those of its parts. -/
theorem minds_bind (p : Co σ ι ρ ε ω α) (f : α → Co σ ι ρ ε ω β)
    (Q : Except ε β → σ → List (ι × ρ) → Prop) :
    (p >>= f).Minds may Q =
      p.Minds may fun r s l =>
        match r with
        | .ok a => (f a).Minds may Q s l
        | .error e => Q (.error e) s l :=
  throughout_bind _ p f Q

/-- The calls of a guarded task are its own and those of the handler. -/
theorem minds_tryCatch (p : Co σ ι ρ ε ω α) (f : ε → Co σ ι ρ ε ω α)
    (Q : Except ε α → σ → List (ι × ρ) → Prop) :
    (tryCatch p f : Co σ ι ρ ε ω α).Minds may Q =
      p.Minds may fun r s l =>
        match r with
        | .ok a => Q (.ok a) s l
        | .error e => (f e).Minds may Q s l :=
  throughout_tryCatch _ p f Q

/-- Once the lock is held, in whatever state, the task goes on. -/
theorem minds_withLock (p : Co σ ι ρ ε ω α) :
    p.withLock.Minds may Q s l ↔ ∀ s', p.Minds may Q s' l :=
  throughout_withLock p

/-- More may be allowed, and less told of the end. -/
theorem Minds.mono {p : Co σ ι ρ ε ω α} {may' : σ → List (ι × ρ) → ι → Prop}
    {Q' : Except ε α → σ → List (ι × ρ) → Prop} (hp : p.Minds may Q s l)
    (hmay : ∀ s l q, may s l q → may' s l q) (hQ : ∀ r s l, Q r s l → Q' r s l) :
    p.Minds may' Q' s l :=
  Throughout.mono hp (fun s l q _ => hmay s l q) hQ

/-- Every task minds nothing. -/
theorem minds_nothing (p : Co σ ι ρ ε ω α) (s : σ) (l : List (ι × ρ)) :
    p.Minds (fun _ _ _ => True) (fun _ _ _ => True) s l := by
  induction p generalizing s l with
  | done r => trivial
  | get k ih => exact ih s s l
  | put s' k ih => exact ih s' l
  | note e k ih => exact ih s l
  | call q k ih => exact ⟨trivial, fun r s' => ih r s' _⟩
  | acquire k ih => exact fun s' => ih s' l
  | release k ih => exact ih s l

/-- A task that keeps to a protocol keeps to it in every state, besides what it minds. -/
theorem TalksIn.minds {p : Co σ ι ρ ε ω α} {allowed : List (ι × ρ) → ι → Prop}
    {R : Except ε α → List (ι × ρ) → Prop} {P : σ → Prop}
    (hp : p.TalksIn (fun _ => True) allowed P l R) (hs : P s) (hminds : p.Minds may Q s l) :
    p.Minds (fun s l q => allowed l q ∧ may s l q) (fun r s l => R r l ∧ Q r s l) s l := by
  induction p generalizing s l P with
  | done r => exact ⟨hp, hminds⟩
  | get k ih => exact ih s (hp s hs) rfl hminds
  | put s k ih => exact ih hp.2 rfl hminds
  | note e k ih => exact ih hp hs hminds
  | call q k ih => exact ⟨⟨hp.1, hminds.1⟩, fun r s' => ih r (hp.2 r) trivial (hminds.2 r s')⟩
  | acquire k ih => exact fun s' => ih hp trivial (hminds s')
  | release k ih => exact ih hp hs hminds

/-- A task on the second of two states minds that state. -/
theorem Minds.beside {p : Co σ ι ρ ε ω α} {both : σ' × σ} (hp : p.Minds may Q both.2 l) :
    p.beside.Minds (fun both l q => may both.2 l q) (fun r both l => Q r both.2 l) both l := by
  induction p generalizing both l with
  | done r => exact hp
  | get k ih => exact ih both.2 hp
  | put s k ih => exact ih hp
  | note e k ih => exact ih hp
  | call q k ih => exact ⟨hp.1, fun r s' => ih r (hp.2 r s'.2)⟩
  | acquire k ih => exact fun s' => ih (hp s'.2)
  | release k ih => exact ih hp

end Minds

section Lasts

variable {pick : ι → Prop} {may : σ → σ → List (ι × ρ) → ι → Prop} {s : σ} {l : List (ι × ρ)}

/-- A first part that makes no call that is picked has no say in what follows it. -/
theorem lasts_bind {p : Co σ ι ρ ε ω α} {f : α → Co σ ι ρ ε ω β}
    {R : Except ε α → σ → List (ι × ρ) → Prop} (hp : p.Minds (fun _ _ q => ¬ pick q) R s l)
    (hf : ∀ a s l, R (.ok a) s l → (f a).Lasts pick may s l) :
    (p >>= f).Lasts pick may s l := by
  unfold Lasts
  rw [throughout_bind]
  refine Throughout.mono hp (fun s l q _ hpick h => absurd h hpick) fun r s l hr => ?_
  cases r with
  | ok a => exact hf a s l hr
  | error e => trivial

/-- A task on the second of two states goes on as that state was. -/
theorem Lasts.beside {p : Co σ ι ρ ε ω α} {both : σ' × σ} (hp : p.Lasts pick may both.2 l) :
    p.beside.Lasts pick (fun before now => may before.2 now.2) both l := by
  induction p generalizing both l with
  | done r => trivial
  | get k ih => exact ih both.2 hp
  | put s k ih => exact ih hp
  | note e k ih => exact ih hp
  | call q k ih =>
      exact ⟨fun hpick r s' => (hp.1 hpick r s'.2).beside, fun r s' => ih r (hp.2 r s'.2)⟩
  | acquire k ih => exact fun s' => ih (hp s'.2)
  | release k ih => exact ih hp

end Lasts

end Co

/-! ## Runs -/

section Runs

variable [DecidableEq τ] {P : σ → List (ι × ρ) → ι → (ρ → Co σ ι ρ ε ω α) → Prop} {i : τ}
  {Q : Except ε α → σ → List (ι × ρ) → Prop}

/-- What holds of a thread's calls to come, in whatever state it goes on. -/
def Thread.Throughout (P : σ → List (ι × ρ) → ι → (ρ → Co σ ι ρ ε ω α) → Prop)
    (Q : Except ε α → σ → List (ι × ρ) → Prop) (l : List (ι × ρ)) :
    Thread σ ι ρ ε ω α → Prop
  | fresh p => ∀ s, p.Throughout P Q s l
  | parked (.done _) => True
  | parked (.call q k) => ∀ r s, (k r).Throughout P Q s ((q, r) :: l)
  | parked (.acquire k) => ∀ s, k.Throughout P Q s l
  | parked p => ∀ s, p.Throughout P Q s l

/-- Where the task has asked something among the new events of a segment, it waits for the
answer, and {lit}`P` holds of the call in the state in which the segment ends. -/
def AskedNow (P : σ → List (ι × ρ) → ι → (ρ → Co σ ι ρ ε ω α) → Prop) (i : τ)
    (thread : Thread σ ι ρ ε ω α) (w w' : World τ σ ι ρ ω) : Prop :=
  ∀ new q, w'.history = new ++ w.history → .sent i q ∈ new →
    ∃ k, thread = .parked (.call q k) ∧ P w'.state (conversation i w'.history) q k

/-- An event that asks nothing comes first. -/
theorem AskedNow.log {thread : Thread σ ι ρ ε ω α} {w w' : World τ σ ι ρ ω}
    {e : Event τ ι ρ ω} (hgrows : (w.log e).Grows w') (he : ∀ q, e ≠ .sent i q)
    (h : AskedNow P i thread (w.log e) w') : AskedNow P i thread w w' := by
  intro new q hnew hsent
  rcases hgrows with ⟨late, hlate⟩
  have hwhole : new ++ w.history = (late ++ [e]) ++ w.history := by
    rw [← hnew, hlate, World.log_history, List.append_assoc]
    rfl
  have hsplit : new = late ++ [e] := List.append_cancel_right hwhole
  rw [hsplit, List.mem_append, List.mem_singleton] at hsent
  rcases hsent with hsent | heq
  · exact h late q hlate hsent
  · exact absurd heq.symm (he q)

/-- One segment of a task, and the call it ends in. -/
theorem Co.Throughout.advance {p : Co σ ι ρ ε ω α} {h : Bool} {w : World τ σ ι ρ ω}
    (hp : p.Throughout P Q w.state (conversation i w.history)) :
    (Thread.parked (p.advance i h w).1).Throughout P Q
        (conversation i (p.advance i h w).2.2.history) ∧
      AskedNow P i (.parked (p.advance i h w).1) w (p.advance i h w).2.2 := by
  have hgrows : ∀ (p : Co σ ι ρ ε ω α) (h : Bool) (w : World τ σ ι ρ ω),
      w.Grows (p.advance i h w).2.2 := fun p h w => by
    rcases p.advance_actor i h w with ⟨new, hnew, -⟩
    exact ⟨new, hnew⟩
  have hstill : ∀ (thread : Thread σ ι ρ ε ω α) (w : World τ σ ι ρ ω) state,
      AskedNow P i thread w { w with state := state } := fun _ w state new q hnew hsent => by
    rw [List.self_eq_append_left.mp hnew] at hsent
    contradiction
  induction p generalizing h w with
  | done r => exact ⟨trivial, hstill _ w w.state⟩
  | get k ih => exact ih w.state hp
  | put s k ih => exact ih (w := { w with state := s }) hp
  | note e k ih =>
      rcases ih (h := h) (w := w.log (.noted i e)) hp with ⟨hthread, hasked⟩
      exact ⟨hthread, hasked.log (hgrows k h _) (by simp)⟩
  | call q k ih =>
      refine ⟨fun r s => ?_, fun new q' hnew hsent => ?_⟩
      · exact hp.2 r s
      · have hone : [.sent i q] ++ w.history = new ++ w.history := hnew
        obtain rfl : [.sent i q] = new := List.append_cancel_right hone
        cases List.mem_singleton.mp hsent
        exact ⟨k, rfl, hp.1⟩
  | acquire k ih => exact ⟨hp, hstill _ w w.state⟩
  | release k ih =>
      rcases ih (h := false) (w := w.log (.released i)) hp with ⟨hthread, hasked⟩
      exact ⟨hthread, hasked.log (hgrows k false _) (by simp)⟩

namespace Config

variable {permit : Config τ σ ι ρ ε ω α → Action τ σ ρ → Prop} {c c' : Config τ σ ι ρ ε ω α}

/-- A segment of the task, whatever was logged as it began. -/
theorem throughout_advanceTask {p : Co σ ι ρ ε ω α} {h : Bool} {w : World τ σ ι ρ ω}
    (hp : p.Throughout P Q w.state (conversation i w.history)) :
    ((c.advanceTask i p h w).pool i).Throughout P Q
        (conversation i (c.advanceTask i p h w).world.history) ∧
      AskedNow P i ((c.advanceTask i p h w).pool i) w (c.advanceTask i p h w).world := by
  rw [advanceTask_pool_self]
  exact hp.advance

/-- Another task's step asks nothing for the task. -/
theorem throughout_other {j : τ}
    (hc : (c.pool i).Throughout P Q (conversation i c.world.history))
    (hstep : ∃ new, StepOf j c c' new) (hij : i ≠ j) :
    (c'.pool i).Throughout P Q (conversation i c'.world.history) ∧
      AskedNow P i (c'.pool i) c.world c'.world := by
  rcases hstep with ⟨new, hof⟩
  have hactor : ∀ e ∈ new, e.actor ≠ i := fun e he => hof.actor e he ▸ hij.symm
  constructor
  · rw [hof.others i hij, hof.history, conversation_append_of_actor_ne hactor]
    exact hc
  · intro new' q hnew hsent
    obtain rfl : new' = new := List.append_cancel_right (hnew.symm.trans hof.history)
    exact absurd rfl (hactor _ hsent)

/-- One step: what holds of the calls to come, and of the one that is made. -/
theorem throughout_step {a : Action τ σ ρ}
    (hc : (c.pool i).Throughout P Q (conversation i c.world.history))
    (hstep : c.step a = some c') :
    (c'.pool i).Throughout P Q (conversation i c'.world.history) ∧
      AskedNow P i (c'.pool i) c.world c'.world := by
  rcases step_cases hstep with ⟨j, p, rfl, hpool, rfl⟩ | ⟨j, r, q, k, rfl, hpool, rfl⟩ |
    ⟨j, k, rfl, hpool, -, rfl⟩ | ⟨f, rfl, rfl⟩
  · by_cases hij : i = j
    · subst hij
      rw [hpool] at hc
      exact throughout_advanceTask (hc c.world.state)
    · exact throughout_other hc (c.advanceTask_stepOf j p false [] rfl (by simp)
        fun _ => ⟨p, hpool⟩) hij
  · by_cases hij : i = j
    · subst hij
      rw [hpool] at hc
      have hp : (k r).Throughout P Q (c.world.log (.got i q r)).state
          (conversation i (c.world.log (.got i q r)).history) := by
        simpa using hc r c.world.state
      rcases throughout_advanceTask (c := c) (h := decide (c.holder = some i)) hp with
        ⟨hthread, hasked⟩
      refine ⟨hthread, hasked.log ?_ (by simp)⟩
      rcases (k r).advance_actor i (c.holder = some i) (c.world.log (.got i q r)) with
        ⟨new, hnew, -⟩
      exact ⟨new, hnew⟩
    · exact throughout_other hc (c.advanceTask_stepOf j (k r) _ [.got j q r] rfl
        (by simp [Event.actor]) (by simp)) hij
  · by_cases hij : i = j
    · subst hij
      rw [hpool] at hc
      rcases throughout_advanceTask (c := c) (h := true) (w := c.world.log (.locked i))
        (hc c.world.state) with ⟨hthread, hasked⟩
      refine ⟨hthread, hasked.log ?_ (by simp)⟩
      rcases k.advance_actor i true (c.world.log (.locked i)) with ⟨new, hnew, -⟩
      exact ⟨new, hnew⟩
    · exact throughout_other hc (c.advanceTask_stepOf j k true [.locked j] rfl
        (by simp [Event.actor]) (by simp)) hij
  · refine ⟨hc, fun new q hnew hsent => ?_⟩
    rw [List.self_eq_append_left.mp hnew] at hsent
    contradiction

/-- Whatever the others do, what holds of the calls a task has to make holds of each call that
it makes. -/
theorem Reaches.throughout {start : Config τ σ ι ρ ε ω α}
    (hp : (start.pool i).Throughout P Q (conversation i start.world.history))
    (hrun : Reaches permit start c) {a : Action τ σ ρ} (hstep : c.step a = some c') :
    AskedNow P i (c'.pool i) c.world c'.world := by
  have hc : (c.pool i).Throughout P Q (conversation i c.world.history) :=
    hrun.invariant (I := fun c => (c.pool i).Throughout P Q (conversation i c.world.history))
      (fun _ _ _ _ hstep hc => (throughout_step hc hstep).1) hp
  exact (throughout_step hc hstep).2

/-- Whatever the others do, each call of a task that minds the moment is allowed in the state
and after the conversation in which it is made. -/
theorem Reaches.minds {may : σ → List (ι × ρ) → ι → Prop} {s : σ} {tasks : τ → Co σ ι ρ ε ω α}
    (hp : ∀ s, (tasks i).Minds may Q s []) (hrun : Reaches permit (.initial s tasks) c)
    {a : Action τ σ ρ} (hstep : c.step a = some c') {new : List (Event τ ι ρ ω)} {q : ι}
    (hnew : c'.world.history = new ++ c.world.history) (hsent : .sent i q ∈ new) :
    may c'.world.state (conversation i c'.world.history) q := by
  have hstart : ((initial s tasks).pool i).Throughout (fun s l q _ => may s l q) Q
      (conversation i (initial s tasks).world.history) := hp
  rcases hrun.throughout hstart hstep new q hnew hsent with ⟨k, -, hq⟩
  exact hq

/-- Whatever the others do, after a call that is picked each call of the task is allowed by the
state in which that call was made. -/
theorem Reaches.lasts {pick : ι → Prop} {may : σ → σ → List (ι × ρ) → ι → Prop} {s : σ}
    {tasks : τ → Co σ ι ρ ε ω α} (hp : ∀ s, (tasks i).Lasts pick may s [])
    (hfirst : Reaches permit (.initial s tasks) c) {a : Action τ σ ρ}
    (hstep : c.step a = some c') {new : List (Event τ ι ρ ω)} {q : ι}
    (hnew : c'.world.history = new ++ c.world.history) (hsent : .sent i q ∈ new) (hq : pick q)
    {d d' : Config τ σ ι ρ ε ω α} (hthen : Reaches permit c' d) {a' : Action τ σ ρ}
    (hstep' : d.step a' = some d') {new' : List (Event τ ι ρ ω)} {q' : ι}
    (hnew' : d'.world.history = new' ++ d.world.history) (hsent' : .sent i q' ∈ new') :
    may c'.world.state d'.world.state (conversation i d'.world.history) q' := by
  have hstart : ((initial s tasks).pool i).Throughout
      (fun s l q k => pick q → ∀ r s', (k r).Minds (may s) (fun _ _ _ => True) s' ((q, r) :: l))
      (fun _ _ _ => True) (conversation i (initial s tasks).world.history) := hp
  rcases hfirst.throughout hstart hstep new q hnew hsent with ⟨k, hthread, hrest⟩
  have hrest' : (c'.pool i).Throughout (fun s l q _ => may c'.world.state s l q)
      (fun _ _ _ => True) (conversation i c'.world.history) := by
    rw [hthread]
    exact hrest hq
  rcases hthen.throughout hrest' hstep' new' q' hnew' hsent' with ⟨k', -, hq'⟩
  exact hq'

end Config

end Runs

end Coroutine
