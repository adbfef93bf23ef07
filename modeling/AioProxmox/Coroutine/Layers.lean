import AioProxmox.Coroutine.Conversations
import AioProxmox.Coroutine.Interface

/-!
# Coroutines - conversations on two levels

A task whose calls are served by tasks holds two conversations: one with the component that
it calls, and one that the component holds for it with the world.  The second one is made of
segments, one for each call of the first; where the task keeps to a protocol above and the
component to one for each call, what is said below is known as a whole.

Main results:

- Definition {lit}`Layered`: a conversation above and the one that is held for it below.
- Theorem {lit}`Co.Talks.servedBy`: what a served task says, from what it calls and from how
  its calls are served.
- Theorem {lit}`Co.Spends.servedBy`: what it costs, from what its calls cost.
- Theorem {lit}`Config.Reaches.talks_servedBy`: what it says in every run, whatever the others do.
-/

namespace Coroutine

variable {τ σ σ' ι ι' ρ ρ' ε ω α β : Type}

/-- A conversation above and one below: each call has a segment of its own, and how it was
answered is told by that. -/
inductive Layered (ends : ι → ρ → List (ι' × ρ') → Prop) :
    List (ι × ρ) → List (ι' × ρ') → Prop
  | nil : Layered ends [] []
  | call {above : List (ι × ρ)} {below segment : List (ι' × ρ')} {q : ι} {r : ρ}
      (h : Layered ends above below) (hends : ends q r segment) :
      Layered ends ((q, r) :: above) (segment ++ below)

/-- What may be asked below: what the call that is being made may ask, after what was said for
it so far. -/
def MayBelow (ends : ι → ρ → List (ι' × ρ') → Prop) (may : List (ι × ρ) → ι → Prop)
    (mayServe : ι → List (ι' × ρ') → ι' → Prop) (l : List (ι' × ρ')) (q' : ι') : Prop :=
  ∃ above below segment q, Layered ends above below ∧ l = segment ++ below ∧
    may above q ∧ mayServe q segment q'

/-- How a task ends below: as it does above. -/
def EndsBelow (ends : ι → ρ → List (ι' × ρ') → Prop) (Q : Except ε β → List (ι × ρ) → Prop)
    (r : Except ε β) (l : List (ι' × ρ')) : Prop :=
  ∃ above, Layered ends above l ∧ Q r above

namespace Co

section Talks

variable {S P : σ → Prop} {may : List (ι × ρ) → ι → Prop} {l : List (ι × ρ)}
  {Q : Except ε α → List (ι × ρ) → Prop}

/-- A conversation may be the continuation of another one. -/
theorem TalksIn.onto {p : Co σ ι ρ ε ω α} (hp : p.TalksIn S may P l Q) (before : List (ι × ρ)) :
    p.TalksIn S (fun l q => ∃ segment, l = segment ++ before ∧ may segment q) P (l ++ before)
      fun r l => ∃ segment, l = segment ++ before ∧ Q r segment := by
  induction p generalizing l P with
  | done r => exact ⟨l, rfl, hp⟩
  | get k ih => exact fun s hs => ih s (hp s hs)
  | put s k ih => exact ⟨hp.1, ih hp.2⟩
  | note e k ih => exact ih hp
  | call q k ih => exact ⟨⟨l, rfl, hp.1⟩, fun r => ih r (hp.2 r)⟩
  | acquire k ih => exact ih hp
  | release k ih => exact ih hp

/-- What follows a task goes on with its conversation, however the task has ended. -/
theorem TalksIn.attempt {p : Co σ ι ρ ε ω α} {f : Except ε α → Co σ ι ρ ε ω β}
    {Q' : Except ε β → List (ι × ρ) → Prop} (hp : p.TalksIn S may P l Q)
    (hP : ∀ s, P s → S s) (hf : ∀ r l', Q r l' → (f r).Talks S may l' Q') :
    (p.attempt f).TalksIn S may P l Q' := by
  induction p generalizing l P with
  | done r => exact (hf r l hp).within hP
  | get k ih =>
      intro s hs
      refine ih s (hp s hs) ?_
      rintro _ rfl
      exact hP _ hs
  | put s k ih =>
      refine ⟨hp.1, ih hp.2 ?_⟩
      rintro _ rfl
      exact hp.1
  | note e k ih => exact ih hp hP
  | call q k ih => exact ⟨hp.1, fun r => ih r (hp.2 r) fun _ hs => hs⟩
  | acquire k ih => exact ih hp fun _ hs => hs
  | release k ih => exact ih hp hP

end Talks

section Served

variable {S : σ' → Prop} {serve : ι → Co σ' ι' ρ' ε ω α}
  {ends : ι → Except ε α → List (ι' × ρ') → Prop} {may : List (ι × Except ε α) → ι → Prop}
  {mayServe : ι → List (ι' × ρ') → ι' → Prop}
  {Q : Except ε β → List (ι × Except ε α) → Prop}

/-- A served task goes on below as it does above. -/
theorem TalksIn.servedBy_from {p : Co σ ι (Except ε α) ε ω β} {P : σ → Prop}
    {P' : σ × σ' → Prop} {above : List (ι × Except ε α)} {below : List (ι' × ρ')}
    (hp : p.TalksIn (fun _ => True) may P above Q) (hP : ∀ s, P' s → P s.1 ∧ S s.2)
    (hserve : ∀ q, (serve q).Talks S (mayServe q) [] (ends q)) (h : Layered ends above below) :
    (p.servedBy serve).TalksIn (fun s : σ × σ' => S s.2) (MayBelow ends may mayServe) P' below
      (EndsBelow ends Q) := by
  induction p generalizing above below P P' with
  | done r => exact ⟨above, h, hp⟩
  | get k ih =>
      intro s hs
      refine ih s.1 (hp s.1 (hP s hs).1) ?_ h
      rintro _ rfl
      exact ⟨rfl, (hP _ hs).2⟩
  | put s k ih =>
      intro both hboth
      refine ⟨(hP both hboth).2, ih hp.2 ?_ h⟩
      rintro _ rfl
      exact ⟨rfl, (hP both hboth).2⟩
  | note e k ih => exact ih hp hP h
  | call q k ih =>
      have hkept : ∀ s, P' s → S s.2 := fun s hs => (hP s hs).2
      have hbelow := TalksIn.beside ((hserve q).onto below) hkept
      refine (hbelow.mono (fun l q' hq' => ?_) fun _ _ hends => hends).attempt hkept
        fun r l' hl' => ?_
      · rcases hq' with ⟨segment, hl, hq'⟩
        exact ⟨above, below, segment, q, h, hl, hp.1, hq'⟩
      · rcases hl' with ⟨segment, rfl, hends⟩
        exact ih r (hp.2 r) (fun s hs => ⟨trivial, hs⟩) (.call h hends)
  | acquire k ih => exact ih hp (fun s hs => ⟨trivial, hs⟩) h
  | release k ih => exact ih hp hP h

/-- What a served task says: for each of its calls a segment that the protocol of the call
allows, as long as it may make that call. -/
theorem Talks.servedBy {p : Co σ ι (Except ε α) ε ω β}
    (hp : p.Talks (fun _ => True) may [] Q)
    (hserve : ∀ q, (serve q).Talks S (mayServe q) [] (ends q)) :
    (p.servedBy serve).Talks (fun s : σ × σ' => S s.2) (MayBelow ends may mayServe) []
      (EndsBelow ends Q) :=
  TalksIn.servedBy_from hp (fun _ hs => ⟨trivial, hs⟩) hserve .nil

end Served

/-! ## Costs -/

section Costs

variable {κ : Type} [AddCommMonoid κ] [PartialOrder κ] [IsOrderedAddMonoid κ] {S : σ' → Prop}
  {serve : ι → Co σ' ι' ρ' ε ω α} {price : ι → κ} {cost : ι' → κ} {b : κ}

/-- A served task that has paid for the calls it made so far. -/
theorem Spends.servedBy_from {p : Co σ ι (Except ε α) ε ω β} {P : σ → Prop}
    {P' : σ × σ' → Prop} {above : List (ι × Except ε α)} {below l : List (ι' × ρ')}
    (hp : p.TalksIn (fun _ => True) (fun above q => spent price above + price q ≤ b) P above
      fun _ above => spent price above ≤ b)
    (hP : ∀ s, P' s → P s.1 ∧ S s.2) (hserve : ∀ q, (serve q).Spends S cost (price q))
    (hpaid : spent cost below ≤ spent cost l + spent price above) :
    (p.servedBy serve).TalksIn (fun s : σ × σ' => S s.2)
      (fun l' q => spent cost l' + cost q ≤ spent cost l + b) P' below
      fun _ l' => spent cost l' ≤ spent cost l + b := by
  induction p generalizing above below P P' with
  | done r => exact hpaid.trans (add_le_add_right hp _)
  | get k ih =>
      intro s hs
      refine ih s.1 (hp s.1 (hP s hs).1) ?_ hpaid
      rintro _ rfl
      exact ⟨rfl, (hP _ hs).2⟩
  | put s k ih =>
      intro both hboth
      refine ⟨(hP both hboth).2, ih hp.2 ?_ hpaid⟩
      rintro _ rfl
      exact ⟨rfl, (hP both hboth).2⟩
  | note e k ih => exact ih hp hP hpaid
  | call q k ih =>
      have hleft : spent cost below + price q ≤ spent cost l + (spent price above + price q) := by
        rw [← add_assoc]
        exact add_le_add_left hpaid _
      have hkept : ∀ s, P' s → S s.2 := fun s hs => (hP s hs).2
      have hbelow := TalksIn.beside ((hserve q).talks below) hkept
      refine (hbelow.mono (fun l' q' hq' => ?_) fun _ _ h => h).attempt hkept
        fun r l' hl' => ih r (hp.2 r) (fun s hs => ⟨trivial, hs⟩) ?_
      · exact hq'.trans (hleft.trans (add_le_add_right hp.1 _))
      · rw [spent_cons, add_comm (price q)]
        exact hl'.trans hleft
  | acquire k ih => exact ih hp (fun s hs => ⟨trivial, hs⟩) hpaid
  | release k ih => exact ih hp hP hpaid

/-- Where each call costs its price at most, a served task costs below what its calls are priced
above. -/
theorem Spends.servedBy {p : Co σ ι (Except ε α) ε ω β}
    (hp : p.Talks (fun _ => True) (fun above q => spent price above + price q ≤ b) []
      fun _ above => spent price above ≤ b)
    (hb : 0 ≤ b) (hserve : ∀ q, (serve q).Spends S cost (price q)) :
    (p.servedBy serve).Spends (fun s : σ × σ' => S s.2) cost b where
  nonneg := hb
  talks l := Spends.servedBy_from hp (fun _ hs => ⟨trivial, hs⟩) hserve
    (by rw [spent_nil, add_zero])

end Costs

end Co

/-- Whatever the others do, a served task has said what its calls allowed, and where it has
ended it has ended as its calls were answered. -/
theorem Config.Reaches.talks_servedBy [DecidableEq τ] {i : τ} {S : σ' → Prop}
    {serve : ι → Co σ' ι' ρ' ε ω α} {ends : ι → Except ε α → List (ι' × ρ') → Prop}
    {may : List (ι × Except ε α) → ι → Prop} {mayServe : ι → List (ι' × ρ') → ι' → Prop}
    {Q : Except ε β → List (ι × Except ε α) → Prop} {p : Co σ ι (Except ε α) ε ω β}
    {permit : Config τ (σ × σ') ι' ρ' ε ω β → Action τ (σ × σ') ρ' → Prop}
    {c : Config τ (σ × σ') ι' ρ' ε ω β} {s : σ × σ'} {tasks : τ → Co (σ × σ') ι' ρ' ε ω β}
    (hi : tasks i = p.servedBy serve) (hp : p.Talks (fun _ => True) may [] Q)
    (hserve : ∀ q, (serve q).Talks S (mayServe q) [] (ends q))
    (hpermit : ∀ c a, permit c a → S c.world.state.2)
    (hrun : Config.Reaches permit (.initial s tasks) c) :
    Along (Asked (MayBelow ends may mayServe) i) c.world.history ∧
      ∀ r, c.result i = some r → EndsBelow ends Q r (conversation i c.world.history) := by
  refine hrun.talks (S := fun both => S both.2) ?_ hpermit
  rw [hi]
  exact hp.servedBy hserve

end Coroutine
