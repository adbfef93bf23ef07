import AioProxmox.Client.Rules
import AioProxmox.Collections.Cyclic
import AioProxmox.Coroutine.Completion

/-!
# Client - a burst of failed requests

Any number of tasks that call {lit}`failover(from_host=A)` while {lit}`A` is in
use, each host answering probes or not throughout.  The invariant of the lock says
that either nobody has moved the client or one call has, to the first host after
{lit}`A` in cyclic order that answers; what a call finds decides what it does.

Main results:

- Theorem {lit}`wp_failover_burst`: one call of the burst meets its condition.
- Theorem {lit}`burst_agrees`: verdicts, host in use and probes over every order
  in which the calls obtain the lock.
-/

namespace AioProxmox

open Coroutine Collections

/-! ## Using a host -/

/-- The client uses a host of the list it had at first, and can build its
headers. -/
structure Uses (first : ProxmoxVE) (host : String) (c : ProxmoxVE) : Prop where
  hosts : c.hosts = first.hosts
  port : c.port = first.port
  current : c.hosts[c.hostIndex]? = some host
  url : c.baseUrl = apiUrl host c.port
  headers : c.auth.headersError = none

/-- The host in use is the one that is used. -/
theorem Uses.host {first c : ProxmoxVE} {host : String} (h : Uses first host c) :
    c.host = .ok host :=
  ProxmoxVE.host_eq_ok_iff.mpr h.current

/-- Using another host of the list. -/
theorem Uses.placedAt {first c : ProxmoxVE} {host other : String} {index : Nat}
    (h : Uses first host c) (hother : c.hosts[index]? = some other) :
    Uses first other (c.placedAt index other) where
  hosts := h.hosts
  port := h.port
  current := hother
  url := rfl
  headers := by
    rw [ProxmoxVE.placedAt_auth, Auth.headersError, Auth.getHeaders_setBaseUrl]
    exact h.headers

/-- Where a probe of a host goes. -/
def probeUrl (first : ProxmoxVE) (host : String) : String :=
  addressOf (apiUrl host first.port) "version"

/-- A probe goes to the host in use. -/
theorem Uses.probeUrl_eq {first c : ProxmoxVE} {host : String} (h : Uses first host c) :
    addressOf c.baseUrl "version" = probeUrl first host := by
  rw [h.url, h.port]
  rfl

/-! ## The discipline -/

section Burst

variable {τ : Type}

/-- Every probe of a host ends as that host's probes do. -/
def AnswersFixed (first : ProxmoxVE) (answering : String → Bool)
    (history : List (Event τ Exchange Outcome Remark)) : Prop :=
  ∀ j q r host, .got j q r ∈ history → q.request.url = probeUrl first host →
    verdictOf r = .ok (answering host)

/-- Where a failover from the host in use leads, if anywhere. -/
def destination (first : ProxmoxVE) (answering : String → Bool) : Option String :=
  match first.hosts[first.hostIndex]? with
  | some current =>
      if answering current then none else firstAfter answering first.hosts first.hostIndex
  | none => none

/-- A probe of a host was made by a task and has ended. -/
def Probed (first : ProxmoxVE) (i : τ) (host : String)
    (history : List (Event τ Exchange Outcome Remark)) : Prop :=
  ∃ q r, .got i q r ∈ history ∧ q.request.url = probeUrl first host

/-- Nobody else than one task has sent anything. -/
def OnlyBy (i : τ) (history : List (Event τ Exchange Outcome Remark)) : Prop :=
  ∀ j q, .sent j q ∈ history → j = i

/-- All that was sent was sent by one task. -/
def OneSender (history : List (Event τ Exchange Outcome Remark)) : Prop :=
  ∀ j k q q', .sent j q ∈ history → .sent k q' ∈ history → j = k

/-- Where one task has sent everything, nobody else has sent. -/
theorem OnlyBy.oneSender {i : τ} {history : List (Event τ Exchange Outcome Remark)}
    (h : OnlyBy i history) : OneSender history :=
  fun j k q q' hj hk => (h j q hj).trans (h k q' hk).symm

/-- Nothing was exchanged. -/
def Silent (history : List (Event τ Exchange Outcome Remark)) : Prop :=
  (∀ j q, .sent j q ∉ history) ∧ ∀ j q r, .got j q r ∉ history

/-- What the lock's owner leaves: the client is where it was, and no probe was made
if there is somewhere to go; or one task has moved it there. -/
def Settled (first : ProxmoxVE) (answering : String → Bool) (current : String)
    (w : World τ Machine Exchange Outcome Remark) : Prop :=
  (Uses first current w.state.client ∧
      ((destination first answering).isSome = true → Silent w.history)) ∨
    ∃ host i, destination first answering = some host ∧ Uses first host w.state.client ∧
      Probed first i host w.history ∧ OnlyBy i w.history

/-- Nobody moves the client but a call that holds the lock; the others only leave
remarks. -/
def burstDiscipline (first : ProxmoxVE) (answering : String → Bool) (current : String) :
    Discipline τ Machine Exchange Outcome Remark where
  assume := AnswersFixed first answering
  environment _ s s' := s'.client = s.client
  suspended w := (destination first answering).isSome = true → OneSender w.history
  free := Settled first answering current
  rely _ held w w' := if held then w.OnlyRemarks Machine.client w' else w.Grows w'
  assume_tail e history h j q r host hgot := h j q r host (List.mem_cons_of_mem e hgot)
  rely_refl _ held w := by
    cases held with
    | true => exact World.OnlyRemarks.refl Machine.client w
    | false => exact World.Grows.refl w
  rely_trans _ held w₁ w₂ w₃ h₁ h₂ := by
    cases held with
    | true => exact World.OnlyRemarks.trans h₁ h₂
    | false => exact World.Grows.trans h₁ h₂
  rely_weaken _ _ _ h := World.OnlyRemarks.grows h
  environment_suspended _ _ _ _ hs := hs
  environment_rely _ held w _ h _ := by
    cases held with
    | true => exact World.OnlyRemarks.unseen w h
    | false => exact World.Grows.refl w
  environment_free _ _ h _ hfree := by simpa only [Settled, h] using hfree

variable {first : ProxmoxVE} {answering : String → Bool} {current : String} {i : τ}
  {w w' : World τ Machine Exchange Outcome Remark}

/-- What the lock's owner leaves depends on the client and on the exchanges. -/
theorem Settled.congr (h : Settled first answering current w)
    (hstate : w'.state.client = w.state.client)
    (hsent : ∀ j q, .sent j q ∈ w'.history ↔ .sent j q ∈ w.history)
    (hgot : ∀ j q r, .got j q r ∈ w'.history ↔ .got j q r ∈ w.history) :
    Settled first answering current w' := by
  rcases h with ⟨huses, hsilent⟩ | ⟨host, k, hdest, huses, ⟨q, r, hprobe, hurl⟩, honly⟩
  · left
    rw [hstate]
    refine ⟨huses, fun hsome => ?_⟩
    constructor
    · intro j q
      rw [hsent]
      exact (hsilent hsome).1 j q
    · intro j q r
      rw [hgot]
      exact (hsilent hsome).2 j q r
  · right
    rw [hstate]
    refine ⟨host, k, hdest, huses, ⟨q, r, (hgot k q r).mpr hprobe, hurl⟩, fun j q hj => ?_⟩
    exact honly j q ((hsent j q).mp hj)

/-- Remarks leave everything settled. -/
theorem Settled.remarks (h : Settled first answering current w)
    (hr : w.OnlyRemarks Machine.client w') : Settled first answering current w' :=
  h.congr hr.1 (fun _ _ => hr.mem_iff (by simp)) fun _ _ _ => hr.mem_iff (by simp)

/-- The lock's owner may do anything that adds to the history. -/
theorem allows_owner (h : w.Grows w') :
    (burstDiscipline first answering current).Allows i true w w' where
  others _ _ := h
  free hheld := absurd hheld (by decide)

/-- Another task may leave remarks. -/
theorem allows_remark (e : Remark) :
    (burstDiscipline first answering current).Allows i false w (w.log (.noted i e)) where
  others _ _ := World.OnlyRemarks.log Machine.client w i e
  free _ hfree := hfree.remarks (World.OnlyRemarks.log Machine.client w i e)

/-! ## One call -/

/-- A probe under the lock. -/
theorem wp_answers_burst {candidate : Bool} {host : String} {Q : Ends τ Bool}
    (huses : Uses first host w.state.client)
    (hown : (destination first answering).isSome = true → OnlyBy i w.history)
    (hok : ∀ w', Uses first host w'.state.client → Probed first i host w'.history →
      ((destination first answering).isSome = true → OnlyBy i w'.history) →
      Q true (.ok (answering host)) w') :
    (answers candidate).wp (burstDiscipline first answering current) i true Q w := by
  refine wp_answers (fun e he => ?_) fun request _ hurl => ?_
  · rw [huses.headers] at he
    contradiction
  · rw [huses.probeUrl_eq] at hurl
    let q : Exchange := ⟨.probe candidate, request⟩
    have hown₁ : (destination first answering).isSome = true →
        OnlyBy i (w.log (.sent i q)).history := by
      intro hsome j q' hin
      rcases List.mem_cons.mp hin with heq | hin
      · cases heq
        rfl
      · exact hown hsome j q' hin
    intro _
    refine ⟨allows_owner ((World.Grows.refl w).log _), fun hsome => (hown₁ hsome).oneSender, ?_⟩
    intro w₂ r hr _ hfixed
    have hr : (w.log (.sent i q)).OnlyRemarks Machine.client w₂ := hr
    have huses₂ : Uses first host w₂.state.client := by
      rw [hr.1]
      exact huses
    refine ⟨allows_owner ((World.Grows.refl w₂).log _), ⟨host, huses₂.host⟩, ?_⟩
    rw [hfixed i q r host List.mem_cons_self hurl]
    refine hok _ huses₂ ⟨q, r, List.mem_cons_self, hurl⟩ fun hsome j q' hin => ?_
    rcases List.mem_cons.mp hin with heq | hin
    · cases heq
    · exact hown₁ hsome j q' ((hr.mem_iff (by simp)).mp hin)

/-- How a walk over some candidates ends. -/
structure WalkEnded (first : ProxmoxVE) (answering : String → Bool) (current : String) (i : τ)
    (candidates : List String) (r : Except Exc Bool)
    (w : World τ Machine Exchange Outcome Remark) : Prop where
  own : (destination first answering).isSome = true → OnlyBy i w.history
  found : ∀ host, candidates.find? answering = some host →
    r = .ok true ∧ Uses first host w.state.client ∧ Probed first i host w.history
  nobody : candidates.find? answering = none → r = .ok false ∧ Uses first current w.state.client

/-- The walk probes its candidates in order, up to the first that answers. -/
theorem wp_walk_burst (hcurrent : first.hosts[first.hostIndex]? = some current)
    (offsets : List Nat) (candidates : List String)
    (hmap : offsets.map (fun offset => first.hosts[cyclicIndex first.hosts first.hostIndex
      offset]?) = candidates.map some) {here : String} (huses : Uses first here w.state.client)
    (hown : (destination first answering).isSome = true → OnlyBy i w.history) :
    (walk first.hostIndex offsets).wp (burstDiscipline first answering current) i true
      (fun held r w' => held = true ∧
        WalkEnded first answering current i candidates r w') w := by
  refine wp_walk (I := fun offsets w => ∃ rest here,
    offsets.map (fun offset => first.hosts[cyclicIndex first.hosts first.hostIndex offset]?) =
        rest.map some ∧
      rest.find? answering = candidates.find? answering ∧ Uses first here w.state.client ∧
      ((destination first answering).isSome = true → OnlyBy i w.history)) ?_ ?_ ?_ ?_ offsets
    ⟨candidates, here, hmap, rfl, huses, hown⟩
  · intro _ w w₁ w₂ _ h₁ h₂
    exact allows_owner ⟨[], by rw [h₁, h₂]; rfl⟩
  · rintro _ w ⟨_, here, -, -, huses, -⟩
    rw [huses.hosts]
    exact (List.getElem?_eq_some_iff.mp hcurrent).1
  · rintro w host ⟨rest, here, hmap, hfind, huses, hown⟩ hhost
    have hnone : rest = [] := by simpa using hmap.symm
    subst hnone
    have hsame : host = current := by
      rw [huses.hosts, hcurrent, Option.some.injEq] at hhost
      exact hhost.symm
    subst hsame
    refine ⟨rfl, hown, fun found hfound => ?_, fun _ => ⟨rfl, huses.placedAt hhost⟩⟩
    rw [← hfind] at hfound
    contradiction
  · rintro offset offsets w index host ⟨rest, here, hmap, hfind, huses, hown⟩ rfl hhost
    cases rest with
    | nil => simp at hmap
    | cons candidate others =>
        rw [List.map_cons, List.map_cons, List.cons.injEq] at hmap
        have hsame : host = candidate := by
          have hcandidate : some host = some candidate := by
            rw [← hhost, huses.hosts]
            exact hmap.1
          exact Option.some.inj hcandidate
        subst hsame
        refine wp_answers_burst (huses.placedAt hhost) hown fun w' huses' hprobed hown' => ?_
        cases hanswers : answering host with
        | true =>
            rw [List.find?_cons_of_pos hanswers] at hfind
            refine ⟨?_, ⟨host, huses'.host⟩, rfl, hown', fun found hfound => ?_, fun hnone => ?_⟩
            · rw [huses'.hosts]
              exact (List.getElem?_eq_some_iff.mp hcurrent).1
            · rw [← hfind, Option.some.injEq] at hfound
              subst hfound
              exact ⟨rfl, huses', hprobed⟩
            · rw [← hfind] at hnone
              contradiction
        | false =>
            rw [List.find?_cons_of_neg (by simp [hanswers])] at hfind
            exact ⟨rfl, others, host, hmap.2, hfind, huses', hown'⟩

/-- The verdict of the burst, where it is settled, and the probe that moved the
client. -/
structure CallEnded (first : ProxmoxVE) (answering : String → Bool) (r : Except Exc Bool)
    (w : World τ Machine Exchange Outcome Remark) : Prop where
  verdict : r = .ok (destination first answering).isSome
  moved : ∀ host, destination first answering = some host →
    ∃ i, Probed first i host w.history
  own : (destination first answering).isSome = true → OneSender w.history

/-- Where a search goes: nowhere if the host in use answers, and else to the next that does. -/
theorem destination_eq (hcurrent : first.hosts[first.hostIndex]? = some current) :
    destination first answering =
      if answering current then none
      else firstAfter answering first.hosts first.hostIndex := by
  unfold destination
  rw [hcurrent]

/-- The destination is another host. -/
theorem destination_ne (hcurrent : first.hosts[first.hostIndex]? = some current)
    (hnodup : first.hosts.Nodup) {host : String}
    (h : destination first answering = some host) : host ≠ current := by
  rw [destination_eq hcurrent] at h
  split_ifs at h
  rcases List.getElem?_eq_some_iff.mp hcurrent with ⟨hlt, hget⟩
  rw [← hget]
  exact firstAfter_ne hnodup hlt h

/-- The search under the lock, by the first call that gets it. -/
theorem wp_switchHost_first (hcurrent : first.hosts[first.hostIndex]? = some current)
    (hnodup : first.hosts.Nodup) (huses : Uses first current w.state.client)
    (hsilent : (destination first answering).isSome = true → Silent w.history) :
    (switchHost (some current) true).wp (burstDiscipline first answering current) i true
      (fun held r w' => held = true ∧ ∃ candidates,
        WalkEnded first answering current i candidates r w' ∧
          candidates.find? answering = destination first answering) w := by
  have hindex : w.state.client.hostIndex = first.hostIndex := by
    have hhere := huses.current
    rw [huses.hosts] at hhere
    exact (List.getElem?_inj (List.getElem?_eq_some_iff.mp hhere).1 hnodup).mp
      (hhere.trans hcurrent.symm)
  have hown : (destination first answering).isSome = true → OnlyBy i w.history :=
    fun hsome j q hin => absurd hin ((hsilent hsome).1 j q)
  refine wp_switchHost huses.host (fun hne => by simp at hne) fun _ => ?_
  rw [stillAnswers_true]
  refine wp_answers_burst huses hown fun w' huses' hprobed hown' => ?_
  have hdest : destination first answering =
      if answering current then none else firstAfter answering first.hosts first.hostIndex :=
    destination_eq hcurrent
  cases hanswers : answering current with
  | true =>
      rw [if_pos hanswers] at hdest
      exact ⟨⟨current, huses'.host⟩, rfl, [], ⟨hown', by simp, fun _ => ⟨rfl, huses'⟩⟩,
        hdest.symm⟩
  | false =>
      rw [if_neg (by simp [hanswers])] at hdest
      rw [hindex, huses'.hosts]
      have hwalk := wp_walk_burst (i := i) hcurrent _ _
        (map_offsets_eq_cyclicAfter first.hosts first.hostIndex) huses' hown'
      apply Co.wp_mono hwalk
      rintro held r w'' ⟨hheld, hended⟩
      exact ⟨hheld, _, hended, hdest.symm⟩

/-- The search under the lock, by any call of the burst. -/
theorem wp_switchHost_burst (hcurrent : first.hosts[first.hostIndex]? = some current)
    (hnodup : first.hosts.Nodup) (hfree : Settled first answering current w) :
    (switchHost (some current) true).wp (burstDiscipline first answering current) i true
      (fun held r w' => held = true ∧ Settled first answering current w' ∧
        CallEnded first answering r w') w := by
  rcases hfree with ⟨huses, hsilent⟩ | ⟨host, k, hdest, huses, hprobed, honly⟩
  · apply Co.wp_mono (wp_switchHost_first hcurrent hnodup huses hsilent)
    rintro held r w' ⟨hheld, candidates, hended, hfind⟩
    refine ⟨hheld, ?_⟩
    rcases hdest : destination first answering with _ | host
    · rcases hended.nobody (hfind.trans hdest) with ⟨hr, huses'⟩
      constructor
      · left
        exact ⟨huses', fun hsome => by simp [hdest] at hsome⟩
      · refine ⟨by rw [hr, hdest]; rfl, fun host hhost => by simp [hdest] at hhost, ?_⟩
        intro hsome
        simp [hdest] at hsome
    · rcases hended.found host (hfind.trans hdest) with ⟨hr, huses', hprobed⟩
      have honly : OnlyBy i w'.history := hended.own (by rw [hdest]; rfl)
      constructor
      · right
        exact ⟨host, i, hdest, huses', hprobed, honly⟩
      · refine ⟨by rw [hr, hdest]; rfl, fun other hother => ?_, fun _ => honly.oneSender⟩
        rw [hdest, Option.some.injEq] at hother
        subst hother
        exact ⟨i, hprobed⟩
  · have hne : current ≠ host := (destination_ne hcurrent hnodup hdest).symm
    refine wp_switchHost huses.host (fun _ => ?_) fun hsame => by simp [hne] at hsame
    refine ⟨rfl, .inr ⟨host, k, hdest, huses, hprobed, honly⟩, ⟨by rw [hdest]; rfl, ?_,
      fun _ => honly.oneSender⟩⟩
    intro other hother
    rw [hdest, Option.some.injEq] at hother
    subst hother
    exact ⟨k, hprobed⟩

/-- A call that has ended goes on having ended. -/
theorem CallEnded.grows {r : Except Exc Bool} (h : CallEnded first answering r w)
    (hown : (destination first answering).isSome = true → OneSender w'.history)
    (hgrows : w.Grows w') : CallEnded first answering r w' where
  verdict := h.verdict
  moved host hhost := by
    rcases h.moved host hhost with ⟨k, q, reply, hgot, hurl⟩
    exact ⟨k, q, reply, hgrows.mem hgot, hurl⟩
  own := hown

/-- An event that is no sending changes nothing about the senders. -/
theorem oneSender_log {e : Event τ Exchange Outcome Remark} (he : ∀ j q, e ≠ .sent j q)
    (h : (destination first answering).isSome = true → OneSender w.history) :
    (destination first answering).isSome = true → OneSender (w.log e).history := by
  have hold : ∀ {j q}, .sent j q ∈ (w.log e).history → .sent j q ∈ w.history := by
    intro j q hin
    rcases List.mem_cons.mp hin with heq | hin
    · exact absurd heq.symm (he j q)
    · exact hin
  intro hsome j k q q' hj hk
  exact h hsome j k q q' (hold hj) (hold hk)

/-- One call of the burst. -/
theorem wp_failover_burst (hcurrent : first.hosts[first.hostIndex]? = some current)
    (hnodup : first.hosts.Nodup)
    (hown : (destination first answering).isSome = true → OneSender w.history) :
    (failover (some current) true).wp (burstDiscipline first answering current) i false
      (fun held r w' => held = false ∧ CallEnded first answering r w') w := by
  apply wp_failover
  intro _
  refine ⟨allows_remark _, oneSender_log (by simp) hown, fun w₁ _ _ hfree _ => ?_⟩
  refine ⟨allows_owner ((World.Grows.refl w₁).log _), ?_⟩
  have hlocked : Settled first answering current (w₁.log (.locked i)) :=
    hfree.congr rfl (by simp) (by simp)
  apply Co.wp_mono (wp_switchHost_burst hcurrent hnodup hlocked)
  rintro _ r w₂ ⟨rfl, hsettled, hended⟩
  have hreleased : CallEnded first answering r (w₂.log (.released i)) :=
    hended.grows (oneSender_log (by simp) hended.own) ((World.Grows.refl w₂).log _)
  refine ⟨rfl, fun _ => ⟨allows_owner ((World.Grows.refl w₂).log _), ?_, ?_, ?_⟩⟩
  · exact hsettled.congr rfl (by simp) (by simp)
  · rintro verdict rfl _
    exact ⟨allows_remark _, rfl, hreleased.grows (oneSender_log (by simp) hreleased.own)
      ((World.Grows.refl _).log _)⟩
  · intro e hr
    rw [hended.verdict] at hr
    contradiction

end Burst

/-! ## Every run of the burst -/

/-- What a burst has come to at some point of a run. -/
structure BurstAgrees {τ : Type} (first : ProxmoxVE) (answering : String → Bool)
    (current : String) (c : Config τ Machine Exchange Outcome Exc Remark Bool) : Prop where
  /-- All calls that have ended returned the same verdict. -/
  verdict : ∀ i r, c.result i = some r → r = .ok (destination first answering).isSome
  /-- While nobody is searching, the client is where it was or where the search
  leads, -/
  host : c.holder = none → c.world.state.client.host = .ok current ∨
    ∃ host, destination first answering = some host ∧ c.world.state.client.host = .ok host
  /-- and once a call has ended, where all of them leave it. -/
  ended : c.holder = none → ∀ i r, c.result i = some r →
    c.world.state.client.host = .ok ((destination first answering).getD current)
  /-- If the host in use has changed, one call has probed the new one, and nobody
  else has sent anything. -/
  moved : c.holder = none → c.world.state.client.host ≠ .ok current →
    ∃ host i, destination first answering = some host ∧ Probed first i host c.world.history ∧
      OnlyBy i c.world.history

section Runs

variable {τ : Type} {first : ProxmoxVE} {answering : String → Bool} {current : String}

/-- How each call of the burst ends. -/
def burstEnds (first : ProxmoxVE) (answering : String → Bool) : Ends τ Bool :=
  fun held r w => held = false ∧ CallEnded first answering r w

/-- What is told of the end of a call stays true. -/
theorem burstEnds_lasting (i : τ) :
    Co.Lasting (burstDiscipline first answering current) i (burstEnds first answering) where
  suspended _ _ _ h := h.2.own
  stable held r w₁ w₂ h hr hs := by
    rcases h with ⟨rfl, hended⟩
    exact ⟨rfl, hended.grows hs hr⟩

/-- A call that has ended does not hold the lock. -/
theorem burstEnds_unlocked (r : Except Exc Bool)
    (w : World τ Machine Exchange Outcome Remark) : ¬ burstEnds first answering true r w :=
  fun h => absurd h.1 (by decide)

variable [DecidableEq τ]

/-- Every burst keeps to the discipline from the start. -/
theorem burst_respects {m : Machine} (huses : Uses m.client current m.client)
    (hnodup : m.client.hosts.Nodup) :
    Config.Respects (burstDiscipline m.client answering current)
      (fun _ => burstEnds m.client answering)
      (.initial m fun _ : τ => failover (some current) true) := by
  apply Config.initial_respects
  · intro _ j k q q' hj
    contradiction
  · left
    exact ⟨huses, fun _ => ⟨fun j q hin => by contradiction, fun j q r hin => by contradiction⟩⟩
  · intro i w _ hs
    exact wp_failover_burst huses.current hnodup hs

/-- What the discipline says of a configuration. -/
theorem agrees_of_respects {c : Config τ Machine Exchange Outcome Exc Remark Bool}
    (hc : Config.Respects (burstDiscipline first answering current)
      (fun _ => burstEnds first answering) c) : BurstAgrees first answering current c where
  verdict i r hr := (hc.result hr).2.verdict
  host hfree := by
    rcases hc.free hfree with ⟨huses, -⟩ | ⟨host, k, hdest, huses, -, -⟩
    · exact .inl huses.host
    · exact .inr ⟨host, hdest, huses.host⟩
  ended hfree i r hr := by
    have hended := (hc.result hr).2
    rcases hc.free hfree with ⟨huses, hsilent⟩ | ⟨host, k, hdest, huses, -, -⟩
    · rcases hdest : destination first answering with _ | host
      · exact huses.host
      · rcases hended.moved host hdest with ⟨k, q, reply, hgot, -⟩
        exact absurd hgot ((hsilent (by rw [hdest]; rfl)).2 k q reply)
    · rw [hdest]
      exact huses.host
  moved hfree hne := by
    rcases hc.free hfree with ⟨huses, -⟩ | ⟨host, k, hdest, -, hprobed, honly⟩
    · exact absurd huses.host hne
    · exact ⟨host, k, hdest, hprobed, honly⟩

end Runs

/-- Every probe can be answered as the host it is sent to answers. -/
theorem answersFixed_got {τ : Type} {first : ProxmoxVE} {answering : String → Bool}
    {history : List (Event τ Exchange Outcome Remark)}
    (h : AnswersFixed first answering history) (j : τ) (q : Exchange) :
    ∃ r, AnswersFixed first answering (.got j q r :: history) := by
  by_cases hprobe : ∃ host, q.request.url = probeUrl first host
  · rcases hprobe with ⟨host, hurl⟩
    refine ⟨replyOf (answering host), fun k q' r other hgot hurl' => ?_⟩
    rcases List.mem_cons.mp hgot with heq | hgot
    · cases heq
      rw [verdictOf_replyOf, addressOf_injective (hurl.symm.trans hurl')]
    · exact h k q' r other hgot hurl'
  · refine ⟨replyOf true, fun k q' r other hgot hurl' => ?_⟩
    rcases List.mem_cons.mp hgot with heq | hgot
    · cases heq
      exact absurd ⟨other, hurl'⟩ hprobe
    · exact h k q' r other hgot hurl'

/-- The calls of a burst agree on the verdict; while nobody searches, the host in
use has changed at most once, to the first host after the one in use that answers,
if that one does not; and every run can be carried on until all have returned. -/
theorem burst_agrees {n : Nat} {m : Machine} {current : String} (answering : String → Bool)
    (huses : Uses m.client current m.client) (hnodup : m.client.hosts.Nodup)
    {c c' : Config (Fin n) Machine Exchange Outcome Exc Remark Bool}
    (hrun : Config.Reaches ClientKept
      (.initial m fun _ => failover (some current) true) c)
    (hafter : Config.Reaches ClientKept c c')
    (hfixed : AnswersFixed m.client answering c'.world.history) :
    BurstAgrees m.client answering current c' ∧
      (c.holder = none → c'.holder = none → c.world.state.client.host ≠ .ok current →
        c'.world.state.client.host = c.world.state.client.host) ∧
      ∃ c'', Config.Reaches Config.SchedulerOnly c' c'' ∧
        AnswersFixed m.client answering c''.world.history ∧ c''.holder = none ∧
        ∀ i, c''.result i = some (.ok (destination m.client answering).isSome) := by
  let D : Discipline (Fin n) Machine Exchange Outcome Remark :=
    burstDiscipline m.client answering current
  have hgrows : c.world.Grows c'.world := Config.reaches_grows hafter
  have hearlier : AnswersFixed m.client answering c.world.history :=
    fun j q r host hgot => hfixed j q r host (hgrows.mem hgot)
  have hinit : Config.Respects D (fun _ => burstEnds m.client answering) _ :=
    burst_respects huses hnodup
  have hc := hinit.reaches burstEnds_lasting (fun c f hf => hf) hrun hearlier
  have hc' := hc.reaches burstEnds_lasting (fun c f hf => hf) hafter hfixed
  refine ⟨agrees_of_respects hc', fun hfree hfree' hne => ?_, ?_⟩
  · rcases hc.free hfree with ⟨huses', -⟩ | ⟨host, i, hdest, huses', ⟨q, r, hgot, -⟩, -⟩
    · exact absurd huses'.host hne
    · rcases hc'.free hfree' with ⟨-, hsilent⟩ | ⟨other, j, hother, huses'', -, -⟩
      · have hsome : (destination m.client answering).isSome = true := by rw [hdest]; rfl
        exact absurd (hgrows.mem hgot) ((hsilent hsome).2 i q r)
      · rw [hdest, Option.some.injEq] at hother
        subst hother
        rw [huses'.host, huses''.host]
  · have hstopped := Config.AllStopped.reaches (hrun.trans hafter)
      (Config.initial_allStopped m fun _ : Fin n => failover (some current) true)
    have hother : ∀ (e : Event (Fin n) Exchange Outcome Remark) history,
        (∀ j q r, e ≠ .got j q r) → AnswersFixed m.client answering history →
        AnswersFixed m.client answering (e :: history) := by
      intro e history he h j q r host hgot
      rcases List.mem_cons.mp hgot with heq | hgot
      · exact absurd heq.symm (he j q r)
      · exact h j q r host hgot
    rcases hc'.completes burstEnds_lasting (fun _ => burstEnds_unlocked)
      (fun j q _ h => answersFixed_got h j q) hother hstopped hfixed with
      ⟨c'', hrest, hc'', hfixed'', hall⟩
    refine ⟨c'', hrest, hfixed'', hc''.holder_eq_none (fun _ => burstEnds_unlocked) hall,
      fun i => ?_⟩
    rcases Option.ne_none_iff_exists'.mp (hall i) with ⟨r, hr⟩
    rw [hr, (agrees_of_respects hc'').verdict i r hr]

/-- Two calls; the host in use is silent and the next one answers. -/
theorem burst_agrees_witness :
    ∃ c, c.result (0 : Fin 2) = some (.ok true) ∧ c.result 1 = some (.ok true) ∧
      BurstAgrees (ProxmoxVE.loggedIn ["192.0.2.1", "192.0.2.2"]) (· == "192.0.2.2")
        "192.0.2.1" c := by
  let schedule : List (Action (Fin 2) Machine Outcome) :=
    [.start 0, .start 1, .lock 0, .resume 0 (replyOf false), .resume 0 (replyOf true), .lock 1]
  have hschedule : ∀ c : Config (Fin 2) Machine Exchange Outcome Exc Remark Bool,
      ∀ a ∈ schedule, ClientKept c a := by
    simp [schedule, ClientKept]
  obtain ⟨c, hrun, hfirst, hsecond, hgot⟩ : ∃ c,
      Config.run (.initial ⟨ProxmoxVE.loggedIn ["192.0.2.1", "192.0.2.2"], 0⟩
        fun _ : Fin 2 => failover (some "192.0.2.1") true) schedule = some c ∧
      c.result 0 = some (.ok true) ∧ c.result 1 = some (.ok true) ∧
      ∀ j q r, .got j q r ∈ c.world.history →
        q.request.url = probeUrl (.loggedIn ["192.0.2.1", "192.0.2.2"]) "192.0.2.2" ∧
            r = replyOf true ∨
          q.request.url = probeUrl (.loggedIn ["192.0.2.1", "192.0.2.2"]) "192.0.2.1" ∧
            r = replyOf false := by
    refine ⟨_, rfl, rfl, rfl, fun j q r hgot => ?_⟩
    have hgot : Event.got j q r ∈ ([_, _, _, _, _, _, _, _, _, _, _, _] : List _) := hgot
    simp only [List.mem_cons, List.not_mem_nil, or_false, reduceCtorEq, false_or,
      Event.got.injEq] at hgot
    rcases hgot with ⟨-, rfl, rfl⟩ | ⟨-, rfl, rfl⟩
    · exact .inl ⟨rfl, rfl⟩
    · exact .inr ⟨rfl, rfl⟩
  refine ⟨c, hfirst, hsecond, (burst_agrees (· == "192.0.2.2")
    (m := ⟨ProxmoxVE.loggedIn ["192.0.2.1", "192.0.2.2"], 0⟩) ⟨rfl, rfl, rfl, rfl, rfl⟩
    (by decide) (Config.reaches_of_run hschedule hrun) (.refl c) fun j q r host hin hurl => ?_).1⟩
  rcases hgot j q r hin with ⟨hhere, rfl⟩ | ⟨hhere, rfl⟩
  · rw [← addressOf_injective (hhere.symm.trans hurl)]
    rfl
  · rw [← addressOf_injective (hhere.symm.trans hurl)]
    rfl

end AioProxmox
