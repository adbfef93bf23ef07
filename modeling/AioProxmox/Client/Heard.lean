import AioProxmox.Client.HostList
import AioProxmox.Client.RequestRuns

/-!
# Client - probes that are heard

A probe is heard if it ends in a way that {lit}`_answers` has a clause for.  Then
failover returns with a verdict; an exception that no clause names gets out of it,
and out of everything that has called it.

Main results:

- Theorem {lit}`failoverIfPeers_returns`: a failover whose probes are heard ends
  in a verdict, on a host of the list.
- Theorem {lit}`failoverIfPeers_letsOut`: a failover one of whose probes is not
  heard ends in an exception that {lit}`_answers` does not name.
-/

namespace AioProxmox

open Coroutine

/-! ## Failover returns -/

/-- A probe ends in an answer, or in an error that {lit}`_answers` takes for
silence. -/
def Heard (reply : Outcome) : Prop :=
  ∀ e, (reply >>= readResponse "version") = .error e →
    (e.isProxmoxError || e.isClientError || e.isTimeoutError) = true

/-- If the exchange is a probe, it is heard. -/
def ProbeHeard (q : Exchange) (reply : Outcome) : Prop :=
  ∀ candidate, q.purpose = .probe candidate → Heard reply

/-- Every probe in a history is heard. -/
abbrev AllHeard {τ : Type} (i : τ) (history : List (Event τ Exchange Outcome Remark)) : Prop :=
  Co.AllGot i ProbeHeard history

/-- No clause of {lit}`_answers` names the exception. -/
def Unnamed (e : Exc) : Prop :=
  (e.isProxmoxError || e.isClientError || e.isTimeoutError) = false

section Returns

variable {τ : Type} {E : Surroundings Machine Outcome} {i : τ} {n : Nat}
  {w : World τ Machine Exchange Outcome Remark}

/-- A probe that is heard gives a verdict on the host. -/
theorem answers_returns (hE : Quiet E) (hin : w.state.client.InRange)
    (hheaders : w.state.client.auth.headersError = none) (candidate : Bool)
    (hheard : AllHeard i ((answers candidate).exec E i n w).world.history) :
    ∃ there n' w', (answers candidate).exec E i n w = ⟨.ok there, n', w'⟩ ∧
      w'.state.client = w.state.client := by
  rcases exec_attempt (E := E) (i := i) (n := n) (.probe candidate) "GET" "version" none none
    (some probeTimeout) hheaders with ⟨q, hpurpose, -, hrun⟩
  have hclient : (exchanged E i q n w).state.client = w.state.client := hE n w.state
  have hread : ∃ host, currentHost.exec E i (n + 1) (exchanged E i q n w) =
      ⟨.ok host, n + 1, exchanged E i q n w⟩ := by
    rcases hin.host with ⟨host, hhost⟩
    exact ⟨host, by rw [exec_currentHost, hclient, hhost]⟩
  rcases hread with ⟨host, hread⟩
  unfold answers at hheard ⊢
  rcases hreply : E.reply n >>= readResponse "version" with e | v
  · rw [hreply] at hrun
    have hfailed := Co.exec_bind_error hrun fun _ => (pure true : Prog Bool)
    rw [Co.exec_tryCatch_error hfailed] at hheard ⊢
    have hin : Event.got i q (E.reply n) ∈
        ((silent e).exec E i (n + 1) (exchanged E i q n w)).world.history :=
      Co.mem_exec_history List.mem_cons_self
    have hhandled := hheard q (E.reply n) hin candidate hpurpose e hreply
    have hsilent : silent e = (currentHost >>= fun _ => pure e.isProxmoxAPIError) := by
      cases e <;> first | rfl | contradiction
    refine ⟨e.isProxmoxAPIError, n + 1, exchanged E i q n w, ?_, hclient⟩
    rw [hsilent, Co.exec_bind_ok hread, Co.exec_pure]
  · rw [hreply] at hrun
    have hanswered := Co.exec_bind_ok hrun fun _ => (pure true : Prog Bool)
    rw [Co.exec_pure] at hanswered
    exact ⟨true, n + 1, exchanged E i q n w, Co.exec_tryCatch_ok hanswered _, hclient⟩

/-- On a host of the list the index is in range. -/
theorem inRange_placedAt {client : ProxmoxVE} {index : Nat} (host : String)
    (h : index < client.hosts.length) : (client.placedAt index host).InRange :=
  h

/-- A walk whose probes are heard ends in a verdict. -/
theorem walk_returns (hE : Quiet E) {start : Nat} (offsets : List Nat) (n : Nat)
    (w : World τ Machine Exchange Outcome Remark)
    (hstart : start < w.state.client.hosts.length)
    (hheaders : w.state.client.auth.headersError = none)
    (hheard : AllHeard i ((walk start offsets).exec E i n w).world.history) :
    ∃ verdict n' w', (walk start offsets).exec E i n w = ⟨.ok verdict, n', w'⟩ ∧
      w'.state.client.InRange := by
  induction offsets generalizing n w with
  | nil =>
      have hused := exec_useHost (E := E) (i := i) (n := n) (List.getElem?_eq_getElem hstart)
      rw [walk, Co.exec_bind_ok hused]
      exact ⟨false, n, _, rfl, inRange_placedAt _ hstart⟩
  | cons offset rest ih =>
      rcases w with ⟨m, history⟩
      have hlt : (start + offset) % m.client.hosts.length < m.client.hosts.length :=
        Nat.mod_lt _ (Nat.zero_lt_of_lt hstart)
      let host := m.client.hosts[(start + offset) % m.client.hosts.length]
      let m₁ := m.placedAt ((start + offset) % m.client.hosts.length) host
      have hused : (useHost ((start + offset) % m.client.hosts.length)).exec E i n ⟨m, history⟩ =
          ⟨.ok (), n, ⟨m₁, history⟩⟩ :=
        exec_useHost (List.getElem?_eq_getElem hlt)
      have hheaders₁ : m₁.client.auth.headersError = none := by
        rw [Machine.placedAt_client, ProxmoxVE.placedAt_auth, Auth.headersError,
          Auth.getHeaders_setBaseUrl]
        exact hheaders
      rw [walk, Co.exec_bind, exec_self] at hheard ⊢
      simp only at hheard ⊢
      rw [Co.exec_bind_ok hused] at hheard ⊢
      rcases answers_returns hE (w := ⟨m₁, history⟩) (inRange_placedAt host hlt) hheaders₁ true
        (fun q r hin => hheard q r (Co.mem_exec_bind hin)) with
        ⟨there, n', w', hprobe, hclient⟩
      rw [Co.exec_bind_ok hprobe] at hheard ⊢
      cases there with
      | false =>
          refine ih n' w' ?_ ?_ hheard
          · rw [hclient]
            exact hstart
          · rw [hclient]
            exact hheaders₁
      | true =>
          have hin : w'.state.client.InRange := by
            rw [hclient]
            exact inRange_placedAt host hlt
          have hwarned : w'.state.client.hostAt start = .ok m.client.hosts[start] := by
            rw [hclient]
            exact ProxmoxVE.hostAt_eq_ok_iff.mpr (List.getElem?_eq_getElem hstart)
          rcases hin.host with ⟨current, hcurrent⟩
          refine ⟨true, n', w', ?_, hin⟩
          simp [hwarned, hcurrent]

/-- So does the search that failover makes under the lock. -/
theorem switchHost_returns (hE : Quiet E) (fromHost : Option String) (verifyCurrent : Bool)
    (hin : w.state.client.InRange)
    (hheaders : w.state.client.auth.headersError = none)
    (hheard : AllHeard i ((switchHost fromHost verifyCurrent).exec E i n w).world.history) :
    ∃ verdict n' w', (switchHost fromHost verifyCurrent).exec E i n w =
      ⟨.ok verdict, n', w'⟩ ∧ w'.state.client.InRange := by
  rcases hin.host with ⟨current, hcurrent⟩
  have hread : ∀ n' w', w'.state.client = w.state.client →
      currentHost.exec E i n' w' = ⟨.ok current, n', w'⟩ := by
    intro n' w' hsame
    rw [exec_currentHost, hsame, hcurrent]
  have hmoved := exec_movedFrom E i n w hcurrent fromHost
  generalize fromHost.any (· != current) = moved at hmoved
  unfold switchHost at hheard ⊢
  rw [Co.exec_bind, exec_self] at hheard ⊢
  simp only at hheard ⊢
  rw [Co.exec_bind_ok hmoved] at hheard ⊢
  cases moved with
  | true =>
      simp only [if_true] at hheard ⊢
      exact ⟨true, n, w, Co.exec_bind_ok (hread n w rfl) _, hin⟩
  | false =>
      simp only [Bool.false_eq_true, if_false] at hheard ⊢
      have hstill : ∃ there n' w', (stillAnswers verifyCurrent).exec E i n w =
          ⟨.ok there, n', w'⟩ ∧ w'.state.client = w.state.client := by
        unfold stillAnswers at hheard ⊢
        split_ifs at hheard ⊢
        · exact answers_returns hE hin hheaders false
            (fun q r hgot => hheard q r (Co.mem_exec_bind hgot))
        · exact ⟨false, n, w, rfl, rfl⟩
      rcases hstill with ⟨there, n', w', hstill, hsame⟩
      rw [Co.exec_bind_ok hstill] at hheard ⊢
      cases there with
      | true =>
          refine ⟨false, n', w', Co.exec_bind_ok (hread n' w' hsame) _, ?_⟩
          rw [hsame]
          exact hin
      | false =>
          simp only [Bool.false_eq_true, if_false] at hheard ⊢
          rw [Co.exec_bind, exec_self] at hheard ⊢
          simp only at hheard ⊢
          have hstart : w.state.client.hostIndex < w'.state.client.hosts.length := by
            rw [hsame]
            exact hin
          have hheaders' : w'.state.client.auth.headersError = none := by
            rw [hsame]
            exact hheaders
          exact walk_returns hE _ n' w' hstart hheaders' hheard

/-- A failover whose probes are heard ends in a verdict, and says so; it only
claims to have moved where another host is known. -/
theorem failoverIfPeers_returns (hE : Quiet E) (fromHost : Option String)
    (verifyCurrent : Bool) (hin : w.state.client.InRange)
    (hheaders : w.state.client.auth.headersError = none)
    (hheard : AllHeard i
      ((failoverIfPeers fromHost verifyCurrent).exec E i n w).world.history) :
    ∃ verdict n' w', (failoverIfPeers fromHost verifyCurrent).exec E i n w =
      ⟨.ok verdict, n', w'⟩ ∧ w'.state.client.InRange ∧
      (verdict = true → 2 ≤ w.state.client.hosts.length ∧
        ∃ old, w'.history = .noted i (.failoverReturned true) :: old) := by
  unfold failoverIfPeers at hheard ⊢
  rw [Co.exec_bind, exec_self] at hheard ⊢
  simp only at hheard ⊢
  split_ifs at hheard ⊢ with hpeers
  · exact ⟨false, n, w, rfl, hin, by simp⟩
  · unfold failover at hheard ⊢
    rw [Co.exec_bind, Co.exec_remark] at hheard ⊢
    simp only at hheard ⊢
    let w₀ := w.log (.noted i (.failoverEntered fromHost verifyCurrent))
    have hlocked : AllHeard i
        ((switchHost fromHost verifyCurrent).exec E i n (w₀.log (.locked i))).world.history := by
      intro q r hgot
      refine hheard q r (Co.mem_exec_bind ?_)
      rw [Co.exec_withLock]
      exact List.mem_cons_of_mem _ hgot
    rcases switchHost_returns hE fromHost verifyCurrent (w := w₀.log (.locked i)) hin hheaders
      hlocked with ⟨verdict, n', w', hrun, hin'⟩
    have hwith : (switchHost fromHost verifyCurrent).withLock.exec E i n w₀ =
        ⟨.ok verdict, n', w'.log (.released i)⟩ := by
      rw [Co.exec_withLock, hrun]
    refine ⟨verdict, n', (w'.log (.released i)).log (.noted i (.failoverReturned verdict)),
      ?_, hin', ?_⟩
    · rw [Co.exec_bind_ok hwith, Co.exec_bind, Co.exec_remark]
      rfl
    · rintro rfl
      exact ⟨by omega, _, rfl⟩

end Returns

/-! ## What is not heard gets out -/

section LetsOut

variable {τ : Type} {E : Surroundings Machine Outcome} {i : τ}

/-- A task that makes no calls lets nothing out. -/
theorem mute_letsOut {α : Type} {p : Prog α} (hp : Co.Leaves i (∃ remark, · = .noted i remark) p) :
    Co.LetsOut E i ProbeHeard Unnamed p :=
  .of_leaves hp fun _ _ h => by
    rcases h with ⟨remark, h⟩
    cases h

/-- A value lets out nothing. -/
theorem pure_letsOut {α : Type} (a : α) :
    Co.LetsOut E i ProbeHeard Unnamed (pure a : Prog α) :=
  mute_letsOut (Co.Leaves.pure a)

/-- The name of the host in use is there while the index is in range. -/
theorem currentHost_letsOut : Co.LetsOut E i ProbeHeard Unnamed currentHost :=
  mute_letsOut currentHost_leaves

/-- Reading the client lets out nothing. -/
theorem self_letsOut : Co.LetsOut E i ProbeHeard Unnamed self :=
  mute_letsOut fun _ => trivial

/-- A remark lets out nothing. -/
theorem remark_letsOut (remark : Remark) :
    Co.LetsOut E i ProbeHeard Unnamed (Co.remark remark : Prog Unit) :=
  mute_letsOut ⟨⟨remark, rfl⟩, trivial⟩

/-- Only probes have to be heard. -/
theorem probeHeard_of_purpose {q : Exchange} (hq : ∀ candidate, q.purpose ≠ .probe candidate)
    (reply : Outcome) : ProbeHeard q reply :=
  fun candidate h => absurd h (hq candidate)

/-- The exchanges of a login are no probes. -/
theorem ofLogin_probeHeard {q : Exchange} {reply : Outcome}
    (h : ofLogin (.got i q reply)) : ProbeHeard q reply := by
  apply probeHeard_of_purpose
  intro candidate hprobe
  rcases h with h | ⟨password, h⟩
  · rw [hprobe] at h
    contradiction
  · rw [hprobe] at h
    contradiction

/-- An attempt that is a probe lets out what it is not heard for. -/
theorem requestOnce_letsOut (candidate : Bool) (timeout : Option ℚ) :
    Co.LetsOut E i ProbeHeard Unnamed
      (requestOnce (.probe candidate) "GET" "version" none none timeout) := by
  intro n w hw
  rw [exec_requestOnce]
  cases buildRequest w.state.client "GET" "version" none none timeout with
  | error e => exact .inl hw
  | ok request =>
      by_cases hheard : Heard (E.reply n)
      · left
        intro q r hgot
        simp only [List.mem_cons, Event.got.injEq, reduceCtorEq, false_or] at hgot
        rcases hgot with ⟨-, -, rfl⟩ | hold
        · exact fun _ _ => hheard
        · exact hw q r hold
      · right
        unfold Heard at hheard
        push Not at hheard
        rcases hheard with ⟨e, he, hnot⟩
        exact ⟨e, he, Bool.eq_false_iff.mpr hnot⟩

/-- The clauses of {lit}`_answers` raise again what they do not name. -/
theorem silent_unnamed {e : Exc} (h : Unnamed e) : silent e = throw e := by
  cases e <;> first | rfl | contradiction

/-- A probe that is heard lets out nothing. -/
theorem answers_letsOut (candidate : Bool) :
    Co.LetsOut E i ProbeHeard Unnamed (answers candidate) := by
  have hprobe : Co.LetsOut E i ProbeHeard Unnamed (do
      let _ ← requestOnce (.probe candidate) "GET" "version" none none (some probeTimeout)
      return true) :=
    (requestOnce_letsOut candidate _).bind fun _ =>
      pure_letsOut _
  refine hprobe.tryCatch (fun e => ?_) fun e => silent_unnamed
  unfold silent
  split
  · exact currentHost_letsOut.bind fun _ => pure_letsOut _
  · split_ifs
    · exact currentHost_letsOut.bind fun _ => pure_letsOut _
    · exact mute_letsOut (Co.Leaves.throw _)

/-- The walk stops at the first probe that is not heard. -/
theorem walk_letsOut (start : Nat) (offsets : List Nat) :
    Co.LetsOut E i ProbeHeard Unnamed (walk start offsets) := by
  induction offsets with
  | nil => exact (mute_letsOut (useHost_leaves start)).bind fun _ => pure_letsOut _
  | cons offset rest ih =>
      refine self_letsOut.bind fun client => (mute_letsOut (useHost_leaves _)).bind fun _ =>
        (answers_letsOut true).bind fun there => ?_
      split_ifs
      · exact self_letsOut.bind fun client => (mute_letsOut (Co.Leaves.ofExcept _)).bind
          fun _ => currentHost_letsOut.bind fun _ => pure_letsOut _
      · exact ih

/-- So does the search that failover makes under the lock, -/
theorem switchHost_letsOut (fromHost : Option String) (verifyCurrent : Bool) :
    Co.LetsOut E i ProbeHeard Unnamed (switchHost fromHost verifyCurrent) := by
  refine self_letsOut.bind fun client => Co.LetsOut.bind ?_ fun moved => ?_
  · unfold movedFrom
    split
    · exact pure_letsOut _
    · exact currentHost_letsOut.bind fun _ => pure_letsOut _
  · split_ifs
    · exact currentHost_letsOut.bind fun _ => pure_letsOut _
    · refine Co.LetsOut.bind ?_ fun stillThere => ?_
      · unfold stillAnswers
        split_ifs
        · exact answers_letsOut false
        · exact pure_letsOut _
      · split_ifs
        · exact currentHost_letsOut.bind fun _ => pure_letsOut _
        · exact self_letsOut.bind fun _ => walk_letsOut _ _

/-- and failover itself. -/
theorem failoverIfPeers_letsOut (fromHost : Option String) (verifyCurrent : Bool) :
    Co.LetsOut E i ProbeHeard Unnamed (failoverIfPeers fromHost verifyCurrent) := by
  refine self_letsOut.bind fun client => ?_
  split_ifs
  · exact pure_letsOut _
  · exact (remark_letsOut _).bind fun _ => (switchHost_letsOut _ _).withLock.bind fun _ =>
      (remark_letsOut _).bind fun _ => pure_letsOut _

end LetsOut

end AioProxmox
