import AioProxmox.Client.LoginRules
import Mathlib.Data.Fin.VecNotation

/-!
# Client - who gets the caller's traffic

Any number of tasks that call {lit}`request` or {lit}`failover` on one client.  A
search tries a candidate by using it, so a task that runs while the candidate has
not answered yet sends to it; if no task does, everything but the probes goes to the
configured host or to one that has answered.

Main results:

- Theorem {lit}`wp_failover_traffic`: a failover leaves the client on a proven host.
- Theorem {lit}`traffic_proven`: every send of every such run goes to a proven host,
  where nobody sends while a candidate is unanswered.
-/

namespace AioProxmox

open Coroutine

/-! ## Calls on one client -/

/-- The arguments of a call of {lit}`request`. -/
structure RequestCall where
  method : String
  path : String
  jsonData : Option Dict := none
  params : Option Dict := none

/-- The call itself. -/
def RequestCall.run (call : RequestCall) : Prog Json :=
  request call.method call.path call.jsonData call.params

/-- A call that users of a client make. -/
inductive ClientCall where
  | request (call : RequestCall)
  | failover (fromHost : Option String) (verifyCurrent : Bool)

namespace ClientCall

/-- The call itself. -/
def run : ClientCall → Prog Json
  | request call => call.run
  | failover fromHost verifyCurrent => do
      let verdict ← AioProxmox.failover fromHost verifyCurrent
      return .bool verdict

/-- The path a call asks for; a failover asks for none of its own. -/
def path : ClientCall → String
  | request call => call.path
  | failover .. => ""

end ClientCall

section Traffic

variable {τ : Type}

/-! ## Proven hosts -/

/-- A host has answered a probe. -/
def Answered (port : Nat) (history : List (Event τ Exchange Outcome Remark))
    (host : String) : Prop :=
  ∃ j q r, .got j q r ∈ history ∧ q.purpose.isProbe = true ∧ q.GoesTo port "version" host ∧
    verdictOf r = .ok true

/-- The configured host, or one that has answered a probe. -/
def Proven (first : ProxmoxVE) (history : List (Event τ Exchange Outcome Remark))
    (host : String) : Prop :=
  first.hosts[0]? = some host ∨ Answered first.port history host

/-- What a call sends, if it is no probe, goes to a proven host. -/
def SentToProven (first : ProxmoxVE) (calls : τ → ClientCall)
    (e : Event τ Exchange Outcome Remark)
    (before : List (Event τ Exchange Outcome Remark)) : Prop :=
  ∀ j q, e = .sent j q → q.purpose.isProbe = false →
    ∃ host, q.GoesTo first.port (calls j).path host ∧ Proven first before host

/-- The probe of a candidate that waits for its answer.  A search holds the lock, so
there is at most one, and the newest event about a candidate tells. -/
def outstanding : List (Event τ Exchange Outcome Remark) → Option Exchange
  | [] => none
  | .sent _ q :: before => if q.purpose = .probe true then some q else outstanding before
  | .got _ q _ :: before => if q.purpose = .probe true then none else outstanding before
  | _ :: before => outstanding before

/-- Nobody sends anything but probes while a candidate that is not proven has yet to
answer, and the probe of such a candidate ends in an answer or in an error that
{lit}`_answers` takes for silence. -/
structure Patient (first : ProxmoxVE) (e : Event τ Exchange Outcome Remark)
    (before : List (Event τ Exchange Outcome Remark)) : Prop where
  waits : ∀ j q, e = .sent j q → q.purpose.isProbe = false → ∀ p, outstanding before = some p →
    ∃ host, p.GoesTo first.port "version" host ∧ Proven first before host
  answered : ∀ j q r, e = .got j q r → q.purpose = .probe true →
    (∃ there, verdictOf r = .ok there) ∨
      ∃ host, q.GoesTo first.port "version" host ∧ Proven first before host

/-- An event of a candidate's probe. -/
def ofCandidate : Event τ Exchange Outcome Remark → Prop
  | .sent _ q | .got _ q _ => q.purpose = .probe true
  | _ => False

/-- An event that is none of a candidate leaves the candidate under way as it is. -/
theorem outstanding_cons {e : Event τ Exchange Outcome Remark} (he : ¬ ofCandidate e)
    (before : List (Event τ Exchange Outcome Remark)) :
    outstanding (e :: before) = outstanding before := by
  cases e with
  | sent j q => exact if_neg he
  | got j q r => exact if_neg he
  | noted j e => rfl
  | locked j => rfl
  | released j => rfl

/-- Once proven, a host remains so. -/
theorem Proven.grows {first : ProxmoxVE} {host : String}
    {w w' : World τ Machine Exchange Outcome Remark} (h : Proven first w.history host)
    (hgrows : w.Grows w') : Proven first w'.history host := by
  rcases h with hfirst | ⟨j, q, r, hgot, hrest⟩
  · exact .inl hfirst
  · exact .inr ⟨j, q, r, hgrows.mem hgot, hrest⟩

/-! ## The discipline -/

/-- What holds whenever all tasks are suspended: everything sent so far went to proven
hosts, and the client uses a proven host or the candidate that is being asked. -/
structure TrafficKept (first : ProxmoxVE) (calls : τ → ClientCall)
    (w : World τ Machine Exchange Outcome Remark) : Prop where
  serves : Serves first w.state.client
  sent : Along (SentToProven first calls) w.history
  asked : first.auth.headersError = none → ∀ host, w.state.client.host = .ok host →
    ∀ p, outstanding w.history = some p → p.GoesTo first.port "version" host
  proven : first.auth.headersError = none → ∀ host, w.state.client.host = .ok host →
    outstanding w.history = none → Proven first w.history host

/-- The clock does not matter. -/
theorem TrafficKept.sameClient {first : ProxmoxVE} {calls : τ → ClientCall}
    {w : World τ Machine Exchange Outcome Remark} (h : TrafficKept first calls w) {s : Machine}
    (hsame : s.client = w.state.client) : TrafficKept first calls { w with state := s } where
  serves := by simpa only [hsame] using h.serves
  sent := h.sent
  asked := by simpa only [hsame] using h.asked
  proven := by simpa only [hsame] using h.proven

/-- Only a call that holds the lock moves the client or asks candidates. -/
def trafficDiscipline (first : ProxmoxVE) (calls : τ → ClientCall) :
    Discipline τ Machine Exchange Outcome Remark where
  assume := Along (Patient first)
  environment _ s s' := s'.client = s.client
  suspended := TrafficKept first calls
  free w := outstanding w.history = none
  rely _ held w w' := w.Grows w' ∧ (held = true →
    w'.state.client.withoutTokens = w.state.client.withoutTokens ∧
      outstanding w'.history = outstanding w.history)
  assume_tail _ _ h := h.2
  rely_refl _ _ w := ⟨World.Grows.refl w, fun _ => ⟨rfl, rfl⟩⟩
  rely_trans _ _ _ _ _ h₁ h₂ :=
    ⟨h₁.1.trans h₂.1, fun hheld =>
      ⟨(h₂.2 hheld).1.trans (h₁.2 hheld).1, (h₂.2 hheld).2.trans (h₁.2 hheld).2⟩⟩
  rely_weaken _ _ _ h := ⟨h.1, fun hheld => absurd hheld (by decide)⟩
  environment_suspended _ _ _ h hs := hs.sameClient h
  environment_rely _ _ w _ h _ := ⟨World.Grows.refl w, fun _ => ⟨by rw [h], rfl⟩⟩
  environment_free _ _ _ _ hfree := hfree

variable {first : ProxmoxVE} {calls : τ → ClientCall} {i : τ} {host : String}
  {w w' : World τ Machine Exchange Outcome Remark} {e : Event τ Exchange Outcome Remark}

/-- The invariant survives what is no event of a candidate's probe. -/
theorem TrafficKept.log (h : TrafficKept first calls w) (he : ¬ ofCandidate e)
    (hsent : SentToProven first calls e w.history) : TrafficKept first calls (w.log e) where
  serves := h.serves
  sent := ⟨hsent, h.sent⟩
  asked hheaders host hhost p hp := by
    rw [World.log_history, outstanding_cons he] at hp
    exact h.asked hheaders host hhost p hp
  proven hheaders host hhost hnone := by
    rw [World.log_history, outstanding_cons he] at hnone
    exact (h.proven hheaders host hhost hnone).grows ((World.Grows.refl w).log e)

/-- What is no sending goes nowhere. -/
theorem sentToProven_of_not (he : ∀ j q, e ≠ .sent j q)
    (before : List (Event τ Exchange Outcome Remark)) : SentToProven first calls e before :=
  fun j q heq => absurd heq (he j q)

/-- So does a probe, as far as traffic is concerned. -/
theorem sentToProven_probe {q : Exchange} (hq : q.purpose.isProbe = true)
    (before : List (Event τ Exchange Outcome Remark)) :
    SentToProven first calls (.sent i q) before := by
  intro j q' heq hprobe
  cases heq
  rw [hq] at hprobe
  contradiction

/-- What a patient task sends to the host in use goes to a proven host. -/
theorem TrafficKept.sends (h : TrafficKept first calls w)
    (hheaders : first.auth.headersError = none) (hhost : w.state.client.host = .ok host)
    {q : Exchange} (hgoes : q.GoesTo first.port (calls i).path host)
    (hpatient : Patient first (.sent i q) w.history) :
    SentToProven first calls (.sent i q) w.history := by
  intro j q' heq hprobe
  cases heq
  refine ⟨host, hgoes, ?_⟩
  cases hout : outstanding w.history with
  | none => exact h.proven hheaders host hhost hout
  | some p =>
      rcases hpatient.waits i q rfl hprobe p hout with ⟨other, hother, hproven⟩
      rw [← hother.unique (h.asked hheaders host hhost p hout)]
      exact hproven

/-! ## Tasks without the lock -/

/-- Without the lock a task may log what is no event of a candidate's probe. -/
theorem allows_log (he : ¬ ofCandidate e) :
    (trafficDiscipline first calls).Allows i false w (w.log e) where
  others _ _ := ⟨(World.Grows.refl w).log e, fun _ => ⟨rfl, outstanding_cons he _⟩⟩
  free _ hfree := (outstanding_cons he _).trans hfree

/-- An exchange of a task without the lock, with the host in use. -/
theorem logs_exchange (h : TrafficKept first calls w)
    (hheaders : first.auth.headersError = none) (hhost : w.state.client.host = .ok host)
    {q : Exchange} (hgoes : q.GoesTo first.port (calls i).path host)
    (hprobe : q.purpose.isProbe = false)
    {K : Outcome → World τ Machine Exchange Outcome Remark → Prop}
    (hK : ∀ r w₃, TrafficKept first calls w₃ → K r w₃) :
    (trafficDiscipline first calls).Logs i false w (.sent i q) fun w₁ =>
      TrafficKept first calls w₁ ∧
        ∀ w₂ r, (trafficDiscipline first calls).rely i false w₁ w₂ → TrafficKept first calls w₂ →
          (trafficDiscipline first calls).Logs i false w₂ (.got i q r) (K r) := by
  have hno : q.purpose ≠ .probe true := by
    intro heq
    rw [heq] at hprobe
    contradiction
  intro hpatient
  refine ⟨allows_log hno, h.log hno (h.sends hheaders hhost hgoes hpatient.1), ?_⟩
  intro w₂ r _ hs _
  exact ⟨allows_log hno, hK r _ (hs.log hno (sentToProven_of_not (by simp) _))⟩

/-- The logins of any call. -/
theorem traffic_logins : Logins (trafficDiscipline first calls) i false
    (TrafficKept first calls) fun _ => True where
  errors := ⟨fun _ _ => trivial, fun _ => trivial⟩
  tokens w s h hframe := by
    rcases h.serves.tokens (hframe : s.client.withoutTokens = _) with ⟨hserves, hsame⟩
    constructor
    · exact ⟨fun _ _ => ⟨⟨[], rfl⟩, fun _ => ⟨hframe, rfl⟩⟩, fun _ hfree => hfree⟩
    · refine ⟨hserves, h.sent, fun hheaders host hhost => ?_, fun hheaders host hhost => ?_⟩
      · exact h.asked hheaders host (hsame.symm.trans hhost)
      · exact h.proven hheaders host (hsame.symm.trans hhost)
  remarks w e h _ _ :=
    ⟨allows_log id, h.log id (sentToProven_of_not (by simp) _)⟩
  posts w q auth h hauth hlogin hurl := by
    rcases h.serves.exists_host with ⟨host, hhost, -⟩
    have hheaders : first.auth.headersError = none := by
      rw [← h.serves.headers, hauth]
      rfl
    refine logs_exchange h hheaders hhost (h.serves.login_goesTo hhost hauth hlogin hurl)
      (Purpose.isProbe_of_isLogin hlogin) fun r w₃ h₃ => ?_
    exact ⟨h₃, fun _ _ => trivial, fun _ _ _ _ => trivial⟩

/-- A sending of the caller's request. -/
theorem send_upholds_traffic (method : String) {path : String} (jsonData params : Option Dict)
    (hpath : (calls i).path = path) :
    Co.Upholds (trafficDiscipline first calls) i false (TrafficKept first calls)
      (fun _ => True) (requestOnce .request method path jsonData params none) := by
  intro w h
  refine wp_requestOnce (fun e _ => ⟨rfl, h, by simp⟩) fun request hheaders hurl => ?_
  rcases h.serves.exists_host with ⟨host, hhost, -⟩
  rw [h.serves.headers] at hheaders
  exact logs_exchange h hheaders hhost (h.serves.goesTo hhost rfl hurl hpath.symm) rfl
    fun r w₃ h₃ => ⟨rfl, h₃, by simp⟩

/-! ## The search -/

/-- Where a search stands between two probes, whatever host it has put in use. -/
structure Walking (first : ProxmoxVE) (calls : τ → ClientCall)
    (w : World τ Machine Exchange Outcome Remark) : Prop where
  serves : Serves first w.state.client
  sent : Along (SentToProven first calls) w.history
  idle : outstanding w.history = none

/-- On a proven host, nobody is asked. -/
theorem Walking.kept (h : Walking first calls w)
    (hproven : first.auth.headersError = none → ∀ host, w.state.client.host = .ok host →
      Proven first w.history host) : TrafficKept first calls w where
  serves := h.serves
  sent := h.sent
  asked _ _ _ p hp := by
    rw [h.idle] at hp
    contradiction
  proven hheaders host hhost _ := hproven hheaders host hhost

/-- With no candidate under way the walk can begin. -/
theorem TrafficKept.walking (h : TrafficKept first calls w)
    (hidle : outstanding w.history = none) : Walking first calls w :=
  ⟨h.serves, h.sent, hidle⟩

/-- An event that is none of a candidate leaves the walk as it is. -/
theorem Walking.log (h : Walking first calls w) (he : ¬ ofCandidate e)
    (hsent : SentToProven first calls e w.history) : Walking first calls (w.log e) where
  serves := h.serves
  sent := ⟨hsent, h.sent⟩
  idle := (outstanding_cons he _).trans h.idle

/-- Putting another host in use, with the lock. -/
theorem Walking.placedAt (h : Walking first calls w) {index : Nat}
    (hhost : w.state.client.hosts[index]? = some host) :
    Walking first calls { w with state := w.state.placedAt index host } :=
  ⟨h.serves.placedAt hhost, h.sent, h.idle⟩

/-- The lock's owner may do anything that adds to the history. -/
theorem allows_search (h : w.Grows w') :
    (trafficDiscipline first calls).Allows i true w w' where
  others _ _ := ⟨h, fun hheld => absurd hheld (by decide)⟩
  free hheld := absurd hheld (by decide)

/-- The probe of a candidate: an answer proves it, and nobody uses it before. -/
theorem wp_answers_candidate {Q : Ends τ Bool} (h : Walking first calls w)
    (hthere : ∀ w', w.Grows w' → Walking first calls w' → TrafficKept first calls w' →
      Q true (.ok true) w')
    (hsilent : ∀ w', w.Grows w' → Walking first calls w' → Q true (.ok false) w')
    (herror : ∀ e w', Walking first calls w' → TrafficKept first calls w' →
      Q true (.error e) w') :
    (answers true).wp (trafficDiscipline first calls) i true Q w := by
  refine wp_answers (fun e he => ?_) fun request hheaders hurl => ?_
  · refine herror e w h (h.kept fun hheaders => ?_)
    rw [h.serves.headers, hheaders] at he
    contradiction
  · rcases h.serves.exists_host with ⟨host, hhost, -⟩
    have hgoes : Exchange.GoesTo first.port "version" host ⟨.probe true, request⟩ :=
      h.serves.goesTo hhost rfl hurl rfl
    intro _
    refine ⟨allows_search ((World.Grows.refl w).log _), ?_, fun w₂ r hr hs => ?_⟩
    · refine ⟨h.serves, ⟨sentToProven_probe rfl _, h.sent⟩, fun _ other hother p hp => ?_,
        fun _ _ _ hnone => by simp [outstanding] at hnone⟩
      rw [World.log_state, hhost, Except.ok.injEq] at hother
      subst hother
      simp only [World.log_history, outstanding, if_true, Option.some.injEq] at hp
      subst hp
      exact hgoes
    · rcases hr.2 rfl with ⟨hsame, -⟩
      rcases h.serves.tokens hsame with ⟨-, hhost₂⟩
      intro hpatient
      let got : Event τ Exchange Outcome Remark := .got i ⟨.probe true, request⟩ r
      have hgrows : w.Grows (w₂.log got) :=
        (((World.Grows.refl w).log _).trans hr.1).log got
      have hwalking : Walking first calls (w₂.log got) :=
        ⟨hs.serves, ⟨sentToProven_of_not (by simp [got]) _, hs.sent⟩, by
          simp [got, outstanding]⟩
      have hhere : w₂.state.client.host = .ok host := hhost₂.trans hhost
      refine ⟨allows_search ((World.Grows.refl w₂).log _), ⟨host, hhere⟩, ?_⟩
      rcases hverdict : verdictOf r with e | there
      · refine herror e _ hwalking (hwalking.kept fun _ other hother => ?_)
        rcases hpatient.1.answered i _ r rfl rfl with ⟨there, hthere⟩ | ⟨other', hgoes', hproven⟩
        · rw [hverdict] at hthere
          contradiction
        · have heq : other' = other := by
            rw [World.log_state, hhere, Except.ok.injEq] at hother
            rw [← hother]
            exact hgoes'.unique hgoes
          rw [← heq]
          exact hproven.grows ((World.Grows.refl w₂).log got)
      · cases there with
        | false => exact hsilent _ hgrows hwalking
        | true =>
            refine hthere _ hgrows hwalking (hwalking.kept fun _ other hother => .inr ?_)
            rw [World.log_state, hhere, Except.ok.injEq] at hother
            subst hother
            exact ⟨i, _, r, List.mem_cons_self, rfl, hgoes, hverdict⟩

/-- The probe of the host in use leaves things as they are. -/
theorem wp_answers_current {Q : Ends τ Bool} (h : TrafficKept first calls w)
    (hidle : outstanding w.history = none)
    (hQ : ∀ r w', w.Grows w' → TrafficKept first calls w' → outstanding w'.history = none →
      w'.state.client.withoutTokens = w.state.client.withoutTokens → Q true r w') :
    (answers false).wp (trafficDiscipline first calls) i true Q w := by
  refine wp_answers (fun e _ => hQ _ w (World.Grows.refl w) h hidle rfl) fun request _ _ => ?_
  let q : Exchange := ⟨.probe false, request⟩
  have hno : ∀ e : Event τ Exchange Outcome Remark, e = .sent i q ∨ (∃ r, e = .got i q r) →
      ¬ ofCandidate e := by
    rintro _ (rfl | ⟨r, rfl⟩) <;> simp [ofCandidate, q]
  intro _
  refine ⟨allows_search ((World.Grows.refl w).log _),
    h.log (hno _ (.inl rfl)) (sentToProven_probe rfl _), fun w₂ r hr hs _ => ?_⟩
  rcases hr.2 rfl with ⟨hsame, hout⟩
  have hidle₂ : outstanding w₂.history = none := by
    rw [hout, World.log_history, outstanding_cons (hno _ (.inl rfl)), hidle]
  have hkept := hs.log (hno (.got i q r) (.inr ⟨r, rfl⟩)) (sentToProven_of_not (by simp) _)
  rcases hs.serves.exists_host with ⟨host, hhost, -⟩
  refine ⟨allows_search ((World.Grows.refl w₂).log _), ⟨host, hhost⟩, ?_⟩
  refine hQ _ _ ((((World.Grows.refl w).log _).trans hr.1).log _) hkept ?_ hsame
  exact (outstanding_cons (hno _ (.inr ⟨r, rfl⟩)) _).trans hidle₂

/-- How a search ends: on a proven host, with nobody being asked. -/
def searchEnds (first : ProxmoxVE) (calls : τ → ClientCall) : Ends τ Bool :=
  fun held _ w => held = true ∧ TrafficKept first calls w ∧ outstanding w.history = none

/-- The walk ends on a candidate that answered, or on the proven host it set out from. -/
theorem wp_walk_traffic {start : Nat} {origin : String}
    (hstart : first.hosts[start]? = some origin) (offsets : List Nat)
    (h : Walking first calls w)
    (horigin : first.auth.headersError = none → Proven first w.history origin) :
    (walk start offsets).wp (trafficDiscipline first calls) i true
      (searchEnds first calls) w := by
  have hlt : ∀ {w : World τ Machine Exchange Outcome Remark}, Walking first calls w →
      start < w.state.client.hosts.length := by
    intro w h
    rw [h.serves.hosts]
    exact (List.getElem?_eq_some_iff.mp hstart).1
  refine wp_walk (I := fun _ w => Walking first calls w ∧
    (first.auth.headersError = none → Proven first w.history origin)) ?_ ?_ ?_ ?_ offsets
    ⟨h, horigin⟩
  · intro _ w w₁ w₂ _ h₁ h₂
    exact allows_search ⟨[], h₂.trans h₁.symm⟩
  · intro _ w hw
    exact hlt hw.1
  · intro w host ⟨hwalking, horigin⟩ hback
    have hsame : origin = host := by
      rw [hwalking.serves.hosts, hstart] at hback
      exact Option.some.inj hback
    subst hsame
    refine ⟨rfl, (hwalking.placedAt hback).kept fun hheaders host hhost => ?_, hwalking.idle⟩
    have hplaced : ProxmoxVE.host (w.state.client.placedAt start origin) = .ok origin :=
      ProxmoxVE.host_eq_ok_iff.mpr hback
    cases hplaced.symm.trans hhost
    exact horigin hheaders
  · intro _ _ w index host ⟨hwalking, horigin⟩ _ hhost
    apply wp_answers_candidate (hwalking.placedAt hhost)
    · intro w' _ hwalking' hkept
      rcases hkept.serves.exists_host with ⟨current, hcurrent, -⟩
      exact ⟨hlt hwalking', ⟨current, hcurrent⟩, rfl, hkept, hwalking'.idle⟩
    · intro w' hgrows hwalking'
      exact ⟨rfl, hwalking', fun hheaders => (horigin hheaders).grows hgrows⟩
    · intro e w' hwalking' hkept
      exact ⟨rfl, hkept, hwalking'.idle⟩

/-- The search under the lock. -/
theorem wp_switchHost_traffic (fromHost : Option String) (verifyCurrent : Bool)
    (h : TrafficKept first calls w) (hidle : outstanding w.history = none) :
    (switchHost fromHost verifyCurrent).wp (trafficDiscipline first calls) i true
      (searchEnds first calls) w := by
  rcases h.serves.exists_host with ⟨origin, horigin, -⟩
  have hwalk : ∀ {w₁ : World τ Machine Exchange Outcome Remark} (offsets : List Nat),
      w.Grows w₁ → Walking first calls w₁ →
      (walk w.state.client.hostIndex offsets).wp (trafficDiscipline first calls) i true
        (searchEnds first calls) w₁ := by
    intro w₁ offsets hgrows hwalking
    have hstart : first.hosts[w.state.client.hostIndex]? = some origin := by
      rw [← h.serves.hosts]
      exact ProxmoxVE.host_eq_ok_iff.mp horigin
    exact wp_walk_traffic hstart offsets hwalking fun hheaders =>
      (h.proven hheaders origin horigin hidle).grows hgrows
  refine wp_switchHost horigin (fun _ => ⟨rfl, h, hidle⟩) fun _ => ?_
  cases verifyCurrent with
  | false => exact hwalk _ (World.Grows.refl w) (h.walking hidle)
  | true =>
      rw [stillAnswers_true]
      refine wp_answers_current h hidle fun r w₁ hgrows hkept hidle₁ _ => ?_
      match r with
      | .ok true =>
          rcases hkept.serves.exists_host with ⟨host, hhost, -⟩
          exact ⟨⟨host, hhost⟩, rfl, hkept, hidle₁⟩
      | .ok false => exact hwalk _ hgrows (hkept.walking hidle₁)
      | .error e => exact ⟨rfl, hkept, hidle₁⟩

/-- A failover leaves the client on a proven host. -/
theorem wp_failover_traffic (fromHost : Option String) (verifyCurrent : Bool) :
    Co.Upholds (trafficDiscipline first calls) i false (TrafficKept first calls)
      (fun _ => True) (failover fromHost verifyCurrent) := by
  intro w h
  have hquiet : ∀ {w : World τ Machine Exchange Outcome Remark}
      {e : Event τ Exchange Outcome Remark}, TrafficKept first calls w → ¬ ofCandidate e →
      (∀ j q, e ≠ .sent j q) → TrafficKept first calls (w.log e) :=
    fun h he hno => h.log he (sentToProven_of_not hno _)
  apply wp_failover
  intro _
  refine ⟨allows_log id, hquiet h id (by simp), fun w₁ _ hs hfree _ => ?_⟩
  refine ⟨allows_search ((World.Grows.refl w₁).log _), ?_⟩
  have hlocked := hquiet (e := .locked i) hs id (by simp)
  apply Co.wp_mono (wp_switchHost_traffic fromHost verifyCurrent hlocked hfree)
  rintro _ r w₂ ⟨rfl, hkept, hidle⟩
  have hreleased := hquiet (e := .released i) hkept id (by simp)
  refine ⟨rfl, fun _ => ⟨allows_search ((World.Grows.refl w₂).log _), hidle, ?_, ?_⟩⟩
  · rintro verdict rfl _
    exact ⟨allows_log id, rfl, hquiet hreleased id (by simp), by simp⟩
  · rintro e rfl
    exact ⟨rfl, hreleased, by simp⟩

/-! ## Whole calls -/

/-- {lit}`failover` keeps the traffic where there are peers. -/
theorem failoverIfPeers_upholds_traffic (fromHost : Option String) (verifyCurrent : Bool) :
    Co.Upholds (trafficDiscipline first calls) i false (TrafficKept first calls)
      (fun _ => True) (failoverIfPeers fromHost verifyCurrent) := by
  refine Co.Upholds.bind (fun w h => ⟨rfl, h, by simp⟩) fun client => ?_
  split_ifs
  · exact Co.Upholds.pure _
  · exact wp_failover_traffic fromHost verifyCurrent

/-- A request, with both its recoveries. -/
theorem request_upholds_traffic (method : String) {path : String}
    (jsonData params : Option Dict) (hpath : (calls i).path = path) :
    Co.Upholds (trafficDiscipline first calls) i false (TrafficKept first calls)
      (fun _ => True) (request method path jsonData params) := by
  have hsend : Co.Upholds (trafficDiscipline first calls) i false (TrafficKept first calls)
      (fun _ => True) (requestOnce .request method path jsonData params none) :=
    send_upholds_traffic method jsonData params hpath
  refine Co.Upholds.bind ((checkAndRefresh_upholds traffic_logins).tryCatch fun err _ => ?_)
    fun _ => Co.Upholds.bind ?_ fun hostBefore => hsend.tryCatch fun err _ => ?_
  · unfold renewElsewhere
    split_ifs
    · refine (failoverIfPeers_upholds_traffic _ _).bind fun moved => ?_
      split_ifs
      · exact checkAndRefresh_upholds traffic_logins
      · exact Co.Upholds.throw trivial
    · exact Co.Upholds.throw trivial
  · exact fun w h => ⟨rfl, h, fun _ _ => trivial⟩
  · unfold recover
    split
    · refine Co.Upholds.bind (fun w h => ⟨rfl, h, by simp⟩) fun client => ?_
      split_ifs
      · exact Co.Upholds.throw trivial
      · exact (relogin_upholds traffic_logins).bind fun _ => hsend
    · split_ifs
      · refine (failoverIfPeers_upholds_traffic _ _).bind fun moved => ?_
        split_ifs
        · exact hsend
        · exact Co.Upholds.throw trivial
      · exact Co.Upholds.throw trivial

/-- Any call of a client. -/
theorem call_upholds_traffic :
    Co.Upholds (trafficDiscipline first calls) i false (TrafficKept first calls)
      (fun _ => True) (calls i).run := by
  cases hcall : calls i with
  | request call =>
      exact request_upholds_traffic _ _ _ (by rw [hcall]; rfl)
  | failover fromHost verifyCurrent =>
      exact (wp_failover_traffic fromHost verifyCurrent).bind fun verdict => Co.Upholds.pure _

end Traffic

/-! ## Every run -/

/-- In every run of any calls on a client that starts on its configured host, where
nobody sends while a candidate has yet to answer, whatever is sent and is no probe goes
to the configured host or to one that had answered a probe before. -/
theorem traffic_proven {τ : Type} [DecidableEq τ] {m : Machine} (calls : τ → ClientCall)
    (hm : m.client.Coherent) (hfirst : m.client.hostIndex = 0)
    {c : Config τ Machine Exchange Outcome Exc Remark Json}
    (hrun : Config.Reaches ClientKept (.initial m fun i => (calls i).run) c)
    (hpatient : Along (Patient m.client) c.world.history) :
    Along (SentToProven m.client calls) c.world.history := by
  have hstart : TrafficKept m.client calls (⟨m, []⟩ : World τ Machine Exchange Outcome Remark) := by
    refine ⟨Serves.refl hm, trivial, fun _ _ _ p hp => by contradiction, fun _ host hhost _ => ?_⟩
    left
    rw [← hfirst]
    exact ProxmoxVE.host_eq_ok_iff.mp hhost
  have hlasting : ∀ i, Co.Lasting (trafficDiscipline m.client calls) i
      (fun held _ w => held = false ∧ TrafficKept m.client calls w : Ends τ Json) := by
    intro i
    constructor
    · intro _ _ w h
      exact h.2
    · intro _ _ w₁ w₂ h _ hs
      exact ⟨h.1, hs⟩
  have hinit : Config.Respects (trafficDiscipline m.client calls)
      (fun _ held _ w => held = false ∧ TrafficKept m.client calls w)
      (.initial m fun i => (calls i).run) := by
    apply Config.initial_respects hstart rfl
    intro i w _ hs
    apply Co.wp_mono (call_upholds_traffic w hs)
    intro _ r w' hended
    exact ⟨hended.1, hended.2.1⟩
  have hc := hinit.reaches hlasting (fun c f hf => hf) hrun hpatient
  exact hc.suspended.sent

/-- A client with an API token, on the first of some hosts. -/
def ProxmoxVE.withToken (hosts : List String) : ProxmoxVE :=
  let url := apiUrl (hosts.headD "") defaultPvePort
  { auth := .token {
      username := "root@pam", tokenName := "monitor", tokenValue := "secret", baseUrl := url }
    baseUrl := url, hosts := hosts, hostIndex := 0, port := defaultPvePort
    verifySsl := .flag true, timeout := 5 }

/-- A failover beside a request. -/
def failoverBeside : Fin 2 → ClientCall :=
  ![.failover none false, .request { method := "GET", path := "nodes" }]

/-- A client with a token is coherent. -/
theorem withToken_coherent (host : String) (others : List String) :
    (ProxmoxVE.withToken (host :: others)).Coherent where
  host := ⟨host, rfl, rfl⟩
  auth h := by contradiction

/-- The request starts once the candidate has answered. -/
theorem traffic_proven_witness :
    ∃ c : Config (Fin 2) Machine Exchange Outcome Exc Remark Json,
      c.result 1 = some (.ok .null) ∧
      Along (SentToProven (.withToken ["192.0.2.1", "192.0.2.2"]) failoverBeside)
        c.world.history := by
  let schedule : List (Action (Fin 2) Machine Outcome) :=
    [.start 0, .lock 0, .resume 0 (.ok { status := 200 }), .start 1,
      .resume 1 (.ok { status := 200 })]
  have hschedule : ∀ c : Config (Fin 2) Machine Exchange Outcome Exc Remark Json,
      ∀ a ∈ schedule, ClientKept c a := by
    simp [schedule, ClientKept]
  obtain ⟨c, p, q, hrun, hended, hhistory, hp, hq⟩ : ∃ c p q,
      Config.run (.initial ⟨.withToken ["192.0.2.1", "192.0.2.2"], 0⟩
        fun i => (failoverBeside i).run) schedule = some c ∧ c.result 1 = some (.ok .null) ∧
      c.world.history = [.got 1 q (.ok { status := 200 }), .sent 1 q,
        .noted 0 (.failoverReturned true), .released 0, .got 0 p (.ok { status := 200 }),
        .sent 0 p, .locked 0, .noted 0 (.failoverEntered none false)] ∧
      p.purpose = .probe true ∧ q.purpose = .request :=
    ⟨_, _, _, rfl, rfl, rfl, rfl, rfl⟩
  have hanswered : verdictOf (.ok { status := 200 }) = .ok true := rfl
  have hpatient : Along (Patient (.withToken ["192.0.2.1", "192.0.2.2"])) c.world.history := by
    rw [hhistory]
    refine ⟨?_, ?_, ?_, ?_, ?_, ?_, ?_, ?_, trivial⟩ <;> constructor <;>
      simp [outstanding, hp, hq, hanswered, Purpose.isProbe]
  exact ⟨c, hended, traffic_proven failoverBeside
    (m := ⟨.withToken ["192.0.2.1", "192.0.2.2"], 0⟩) (withToken_coherent _ _) rfl
    (Config.reaches_of_run hschedule hrun) hpatient⟩

/-- The request starts while the candidate is asked, and goes to it. -/
theorem traffic_proven_counterexample :
    ¬ ∀ c, Config.Reaches Config.SchedulerOnly
        (.initial ⟨.withToken ["192.0.2.1", "192.0.2.2"], 0⟩ fun i => (failoverBeside i).run) c →
      Along (SentToProven (.withToken ["192.0.2.1", "192.0.2.2"]) failoverBeside)
        c.world.history := by
  intro hall
  have hkept := hall _ (.tail (a := .start 1) (.tail (a := .lock 0)
    (.tail (a := .start 0) (.refl _) (by simp [Config.SchedulerOnly]) rfl)
      (by simp [Config.SchedulerOnly]) rfl) (by simp [Config.SchedulerOnly]) rfl)
  rcases hkept.1 1 _ rfl rfl with ⟨host, hgoes, hproven⟩
  have hsecond : host = "192.0.2.2" := hgoes.unique rfl
  subst hsecond
  rcases hproven with hconfigured | ⟨j, q, r, hgot, -⟩
  · have hsame : "192.0.2.1" = "192.0.2.2" := Option.some.inj hconfigured
    exact absurd hsame (by decide)
  · have hgot : Event.got j q r ∈ ([_, _, _] : List _) := hgot
    simp at hgot

end AioProxmox
