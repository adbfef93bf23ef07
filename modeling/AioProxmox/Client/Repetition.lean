import AioProxmox.Client.Heard
import AioProxmox.Client.Recovery

/-!
# Client - how often a request is sent

One undisturbed {lit}`request` sends the caller's request at most twice, the same
both times, and the second time for one of two reasons.  What the caller gets is
the outcome of a sending, or of the login that kept it from being sent, unless an
exception gets out of failover that {lit}`_answers` has no clause for.

Main results:

- Theorem {lit}`request_repetition_iff`: a request ends in one of three ways
  exactly if each of its probes is heard.
-/

namespace AioProxmox

open Coroutine

/-! ## The caller's request in a history -/

/-- The sendings of the caller's request, in order (the history is newest first). -/
def requestsOf {τ : Type} (history : List (Event τ Exchange Outcome Remark)) :
    List Exchange :=
  (history.filterMap fun
    | .sent _ q => if q.purpose = .request then some q else none
    | _ => none).reverse

/-- Later requests stand behind earlier ones. -/
theorem requestsOf_append {τ : Type} (newer older : List (Event τ Exchange Outcome Remark)) :
    requestsOf (newer ++ older) = requestsOf older ++ requestsOf newer := by
  simp [requestsOf]

/-- Logins and failovers do not send the caller's request. -/
theorem requestsOf_eq_nil {τ : Type} {history : List (Event τ Exchange Outcome Remark)}
    (h : ∀ e ∈ history, ofLogin e ∨ ofFailover e) : requestsOf history = [] := by
  unfold requestsOf
  rw [List.reverse_eq_nil_iff, List.filterMap_eq_nil_iff]
  intro e he
  cases e with
  | sent j q =>
      have hnot : q.purpose ≠ .request := by
        intro hq
        rcases h _ he with (hlogin | ⟨_, hlogin⟩) | ⟨_, hprobe⟩
        · rw [hq] at hlogin
          contradiction
        · rw [hq] at hlogin
          contradiction
        · rw [hq] at hprobe
          contradiction
      simp [hnot]
  | got j q r => rfl
  | noted j e => rfl
  | locked j => rfl
  | released j => rfl

/-- An exchange of a request adds that request. -/
theorem requestsOf_exchanged {τ : Type} {E : Surroundings Machine Outcome} {i : τ}
    {q : Exchange} {n : Nat} {w : World τ Machine Exchange Outcome Remark}
    (hq : q.purpose = .request) :
    requestsOf (exchanged E i q n w).history = requestsOf w.history ++ [q] := by
  simp [exchanged, requestsOf, hq]

/-! ## The ways a request can end -/

section Repetition

variable {τ : Type} (E : Surroundings Machine Outcome) (i : τ) (method path : String)
  (jsonData params : Option Dict) (n : Nat) (m : Machine)

/-- Why a request was sent again: the first sending was refused, the client has a
password and a login returned; or nobody answered it, another host is known, and
failover said it moved. -/
def Justified (r : Outcome) (q₁ q₂ : Exchange)
    (history : List (Event τ Exchange Outcome Remark)) : Prop :=
  (Unauthorized r ∧ m.client.auth.hasRelogin = true ∧
      [.sent i q₂, .noted i .reloginReturned, .got i q₁ r].Sublist history) ∨
    ((∃ e, (r >>= readResponse path) = .error e ∧ e.isLostHost = true) ∧
      2 ≤ m.client.hosts.length ∧
      [.sent i q₂, .noted i (.failoverReturned true), .got i q₁ r].Sublist history)

/-- What a renewal that kept the request from being sent ended in: the first one, or
the one after failover said it moved. -/
def RenewalError {α : Type} (ending : Ending τ Machine Exchange Outcome Exc Remark α)
    (e : Exc) : Prop :=
  (checkAndRefresh.exec E i n ⟨m, []⟩).result = .error e ∨
    ∃ e₀ n₀ w₀ n₁ w₁, checkAndRefresh.exec E i n ⟨m, []⟩ = ⟨.error e₀, n₀, w₀⟩ ∧
      (failoverIfPeers none false).exec E i n₀ w₀ = ⟨.ok true, n₁, w₁⟩ ∧
      checkAndRefresh.exec E i n₁ w₁ = ⟨.error e, ending.calls, ending.world⟩

/-- A request was not sent, sent once, or sent twice. -/
inductive Repetition (ending : Ending τ Machine Exchange Outcome Exc Remark Json) : Prop where
  | unsent (e : Exc) (hnone : requestsOf ending.world.history = [])
      (hresult : ending.result = .error e)
      (hcause : RenewalError E i n m ending e ∨ m.client.auth.headersError = some e)
  | once (q : Exchange) (r : Outcome) (hone : requestsOf ending.world.history = [q])
      (hcarries : Carries method path jsonData params q)
      (hgot : .got i q r ∈ ending.world.history)
      (hresult : ending.result = (r >>= readResponse path) ∨
        Unauthorized r ∧ ∃ e n₂ w₂, .got i q r ∈ w₂.history ∧ ending.result = .error e ∧
          relogin.exec E i n₂ w₂ = ⟨.error e, ending.calls, ending.world⟩)
  | twice (q₁ q₂ : Exchange) (r₁ r₂ : Outcome)
      (htwo : requestsOf ending.world.history = [q₁, q₂])
      (hcarries₁ : Carries method path jsonData params q₁)
      (hcarries₂ : Carries method path jsonData params q₂)
      (hjustified : Justified i path m r₁ q₁ q₂ ending.world.history)
      (hgot : .got i q₂ r₂ ∈ ending.world.history)
      (hresult : ending.result = (r₂ >>= readResponse path))

end Repetition

section Repetition

variable {τ : Type} {E : Surroundings Machine Outcome} {i : τ} {method path : String}
  {jsonData params : Option Dict} {n : Nat} {m : Machine}

/-- A login leaves the index in range. -/
theorem inRange_of_loginFrame {m m' : Machine} (h : LoginFrame m m') (hin : m.client.InRange) :
    m'.client.InRange := by
  have hsame : m'.client.withoutTokens = m.client.withoutTokens := h
  have hindex := congrArg ProxmoxVE.hostIndex hsame
  have hhosts := congrArg ProxmoxVE.hosts hsame
  have hindex : m'.client.hostIndex = m.client.hostIndex := hindex
  have hhosts : m'.client.hosts = m.client.hosts := hhosts
  unfold ProxmoxVE.InRange
  rw [hindex, hhosts]
  exact hin

/-- Only a password client renews, and its headers can always be built. -/
theorem headers_of_renewal {e : Exc} {n₁ : Nat} {w₁ : World τ Machine Exchange Outcome Remark}
    (hrenew : checkAndRefresh.exec E i n ⟨m, []⟩ = ⟨.error e, n₁, w₁⟩) :
    m.client.auth.headersError = none := by
  rcases hauth : m.client.auth with auth | auth
  · rfl
  · unfold checkAndRefresh at hrenew
    rw [Co.exec_bind, Co.exec_state] at hrenew
    simp only [hauth] at hrenew
    cases hrenew

/-- A renewal stage whose probes are heard returns with the index in range, or
ends in the error of a renewal. -/
theorem renewalStage_returns (hE : Quiet E) (hin : m.client.InRange)
    (hheard : AllHeard i (renewalStage.exec E i n ⟨m, []⟩).world.history) :
    (∃ n₁ w₁, renewalStage.exec E i n ⟨m, []⟩ = ⟨.ok (), n₁, w₁⟩ ∧ w₁.state.client.InRange) ∨
      ∃ e n₁ w₁, renewalStage.exec E i n ⟨m, []⟩ = ⟨.error e, n₁, w₁⟩ ∧
        RenewalError E i n m (renewalStage.exec E i n ⟨m, []⟩) e := by
  unfold renewalStage at hheard ⊢
  rcases hrenew : checkAndRefresh.exec E i n ⟨m, []⟩ with ⟨e | _, n₁, w₁⟩
  · rw [Co.exec_tryCatch_error hrenew] at hheard ⊢
    have hfirst := checkAndRefresh_keeps (i := i) hE n ⟨m, []⟩
    rw [hrenew] at hfirst
    unfold renewElsewhere at hheard ⊢
    by_cases hlost : e.isLostHost = true
    · rw [if_pos hlost] at hheard ⊢
      have hheaders : w₁.state.client.auth.headersError = none :=
        (congrArg Fixed.headersError (fixed_of_loginFrame _ _ hfirst)).trans
          (headers_of_renewal hrenew)
      rcases failoverIfPeers_returns hE none false (inRange_of_loginFrame hfirst hin) hheaders
        (fun q r hgot => hheard q r (Co.mem_exec_bind hgot)) with
        ⟨verdict, n₂, w₂, hmove, hin₂, hverdict⟩
      rw [Co.exec_bind_ok hmove]
      cases verdict with
      | true =>
          simp only [if_true]
          have hsecond := checkAndRefresh_keeps (i := i) hE n₂ w₂
          rcases hagain : checkAndRefresh.exec E i n₂ w₂ with ⟨e' | _, n₃, w₃⟩
          · exact .inr ⟨e', n₃, w₃, rfl, .inr ⟨e, n₁, w₁, n₂, w₂, hrenew, hmove, hagain⟩⟩
          · rw [hagain] at hsecond
            exact .inl ⟨n₃, w₃, rfl, inRange_of_loginFrame hsecond hin₂⟩
      | false => exact .inr ⟨e, n₂, w₂, rfl, .inl (congrArg Ending.result hrenew)⟩
    · rw [if_neg hlost]
      exact .inr ⟨e, n₁, w₁, rfl, .inl (congrArg Ending.result hrenew)⟩
  · rw [Co.exec_tryCatch_ok hrenew]
    left
    have hframe := checkAndRefresh_keeps (i := i) hE n ⟨m, []⟩
    rw [hrenew] at hframe
    exact ⟨n₁, w₁, rfl, inRange_of_loginFrame hframe hin⟩

/-! ## The courses, one by one -/

/-- A renewal stage leaves the fixed part of the client alone, -/
theorem stage_fixed (hE : Quiet E) {n₁ : Nat} {w₁ : World τ Machine Exchange Outcome Remark}
    {r : Except Exc Unit} (hrenew : renewalStage.exec E i n ⟨m, []⟩ = ⟨r, n₁, w₁⟩) :
    w₁.state.client.fixed = m.client.fixed := by
  have hkept := renewalStage_keepsFixed (i := i) hE n ⟨m, []⟩
  rw [hrenew] at hkept
  exact hkept

/-- does not send the caller's request, -/
theorem stage_requests {n₁ : Nat} {w₁ : World τ Machine Exchange Outcome Remark}
    {r : Except Exc Unit} (hrenew : renewalStage.exec E i n ⟨m, []⟩ = ⟨r, n₁, w₁⟩) :
    requestsOf w₁.history = [] := by
  rcases renewalStage_leaves.exec E n ⟨m, []⟩ with ⟨old, hold, hall⟩
  rw [hrenew, List.append_nil] at hold
  exact requestsOf_eq_nil (by rw [hold]; exact hall)

/-- and after it the first sending leaves the fixed part alone, too. -/
theorem sent_fixed (hE : Quiet E) {n₁ n₂ : Nat}
    {w₁ w₂ : World τ Machine Exchange Outcome Remark} {r : Except Exc Json}
    (hrenew : renewalStage.exec E i n ⟨m, []⟩ = ⟨.ok (), n₁, w₁⟩)
    (hsend : (send method path jsonData params).exec E i n₁ w₁ = ⟨r, n₂, w₂⟩) :
    w₂.state.client.fixed = m.client.fixed := by
  have hkept := send_keepsFixed (i := i) hE method path jsonData params n₁ w₁
  rw [hsend] at hkept
  exact hkept.trans (stage_fixed hE hrenew)

/-- The first sending is an exchange, or raises before anything is sent. -/
theorem first_sent (hE : Quiet E) {n₁ n₂ : Nat}
    {w₁ w₂ : World τ Machine Exchange Outcome Remark} {r : Except Exc Json}
    (hrenew : renewalStage.exec E i n ⟨m, []⟩ = ⟨.ok (), n₁, w₁⟩)
    (hsend : (send method path jsonData params).exec E i n₁ w₁ = ⟨r, n₂, w₂⟩) :
    (∃ key, r = .error (.keyError key) ∧ m.client.auth.headersError = some (.keyError key) ∧
        w₂ = w₁) ∨
      m.client.auth.headersError = none ∧ r = (E.reply n₁ >>= readResponse path) ∧
        ∃ q, Carries method path jsonData params q ∧ w₂ = exchanged E i q n₁ w₁ ∧
          requestsOf w₂.history = [q] := by
  have hsame : w₁.state.client.auth.headersError = m.client.auth.headersError :=
    congrArg Fixed.headersError (stage_fixed hE hrenew)
  unfold send at hsend
  rcases hheaders : m.client.auth.headersError with _ | e
  · right
    rcases exec_attempt (E := E) (i := i) (n := n₁) .request method path jsonData params none
      (hsame.trans hheaders) with ⟨q, hpurpose, hcarries, hrun⟩
    rw [hrun] at hsend
    rcases Ending.mk.inj hsend with ⟨hr, -, hw₂⟩
    refine ⟨rfl, hr.symm, q, hcarries, hw₂.symm, ?_⟩
    rw [← hw₂, requestsOf_exchanged hpurpose, stage_requests hrenew]
    rfl
  · left
    rw [exec_attempt_error _ _ _ _ _ _ (hsame.trans hheaders)] at hsend
    rcases (Auth.headersError_keyError hheaders).2 with ⟨key, rfl⟩
    rcases Ending.mk.inj hsend with ⟨hr, -, hw₂⟩
    exact ⟨key, hr.symm, rfl, hw₂.symm⟩

variable (E i method path jsonData params) in
/-- A request made again, after something that did not send it. -/
theorem second_sent (n₃ : Nat) {q₁ : Exchange} {w₂ w₃ : World τ Machine Exchange Outcome Remark}
    {new : List (Event τ Exchange Outcome Remark)} (hfirst : requestsOf w₂.history = [q₁])
    (hhistory : w₃.history = new ++ w₂.history) (hnew : ∀ e ∈ new, ofLogin e ∨ ofFailover e)
    (hheaders : w₃.state.client.auth.headersError = none) :
    ∃ q₂, Carries method path jsonData params q₂ ∧
      (send method path jsonData params).exec E i n₃ w₃ =
        ⟨E.reply n₃ >>= readResponse path, n₃ + 1, exchanged E i q₂ n₃ w₃⟩ ∧
      requestsOf (exchanged E i q₂ n₃ w₃).history = [q₁, q₂] := by
  rcases exec_attempt (E := E) (i := i) (n := n₃) .request method path jsonData params none
    hheaders with ⟨q₂, hpurpose, hcarries, hsend⟩
  refine ⟨q₂, hcarries, hsend, ?_⟩
  rw [requestsOf_exchanged hpurpose, hhistory, requestsOf_append, hfirst,
    requestsOf_eq_nil hnew]
  rfl

/-- After a 401 the request is sent again or ends in the error of the login. -/
theorem repetition_after_refusal (hE : Quiet E) (hgenuine : ∀ n, Genuine (E.reply n))
    {message endpoint : String} {n₁ n₂ : Nat}
    {w₁ w₂ : World τ Machine Exchange Outcome Remark}
    (hrenew : renewalStage.exec E i n ⟨m, []⟩ = ⟨.ok (), n₁, w₁⟩)
    (hsend : (send method path jsonData params).exec E i n₁ w₁ =
      ⟨.error (.proxmoxAPIError 401 message endpoint), n₂, w₂⟩)
    (hpassword : w₂.state.client.auth.hasRelogin = true) :
    Repetition E i method path jsonData params n m
      ((relogin >>= fun _ => send method path jsonData params).exec E i n₂ w₂) := by
  rcases first_sent hE hrenew hsend with ⟨key, hr, -⟩ | ⟨hheaders, hr, q, hcarries, hw₂, hone⟩
  · cases hr
  have hrefused : Unauthorized (E.reply n₁) :=
    (unauthorized_iff (hgenuine n₁)).mpr ⟨_, _, hr.symm⟩
  have hgot : Event.got i q (E.reply n₁) ∈ w₂.history := by
    rw [hw₂]
    exact List.mem_cons_self
  have hframe := relogin_keepsFixed (i := i) hE n₂ w₂
  rcases relogin_leaves.exec E n₂ w₂ with ⟨new, hnew, hall⟩
  rcases hlogin : relogin.exec E i n₂ w₂ with ⟨e | _, n₃, w₃⟩
  · rw [hlogin] at hnew
    simp only at hnew
    rw [Co.exec_bind_error hlogin]
    refine .once q (E.reply n₁) ?_ hcarries ?_ (.inr ⟨hrefused, e, n₂, w₂, hgot, rfl, hlogin⟩)
    · rw [hnew, requestsOf_append, hone, requestsOf_eq_nil fun e he => .inl (hall e he)]
      rfl
    · rw [hnew]
      exact List.mem_append_right new hgot
  · rw [hlogin] at hnew hframe
    rw [Co.exec_bind_ok hlogin]
    have hheaders₃ : w₃.state.client.auth.headersError = none :=
      (congrArg Fixed.headersError (hframe.trans (sent_fixed hE hrenew hsend))).trans hheaders
    rcases second_sent E i method path jsonData params n₃ hone hnew
      (fun e he => .inl (hall e he)) hheaders₃ with ⟨q₂, hcarries₂, hrepeat, htwo⟩
    rw [hrepeat]
    have hown : m.client.auth.hasRelogin = true := by
      have hcred : w₂.state.client.credentials = m.client.credentials :=
        congrArg Fixed.credentials (sent_fixed hE hrenew hsend)
      rw [ProxmoxVE.hasRelogin_eq, ← hcred, ← ProxmoxVE.hasRelogin_eq]
      exact hpassword
    have hauth : ∃ auth, w₂.state.client.auth = .ticket auth := by
      cases hauth : w₂.state.client.auth with
      | ticket auth => exact ⟨auth, rfl⟩
      | token auth =>
          rw [hauth] at hpassword
          contradiction
    rcases hauth with ⟨auth, hauth⟩
    rcases history_relogin hauth hlogin with ⟨mid, hmid, -⟩
    refine .twice q q₂ (E.reply n₁) (E.reply n₃) htwo hcarries hcarries₂
      (.inl ⟨hrefused, hown, ?_⟩) List.mem_cons_self rfl
    have hearlier : [Event.got i q (E.reply n₁)].Sublist (mid ++ w₂.history) :=
      List.singleton_sublist.mpr (List.mem_append_right mid hgot)
    simp only [exchanged, hmid]
    exact .cons _ (.cons_cons _ (.cons_cons _ hearlier))

/-- After a lost host the request is sent again where failover moved, and where it
did not the loss is what the caller gets. -/
theorem repetition_after_loss (hE : Quiet E) {host : String} {e : Exc} {n₁ n₂ : Nat}
    {w₁ w₂ : World τ Machine Exchange Outcome Remark}
    (hrenew : renewalStage.exec E i n ⟨m, []⟩ = ⟨.ok (), n₁, w₁⟩)
    (hin : w₁.state.client.InRange)
    (hsend : (send method path jsonData params).exec E i n₁ w₁ = ⟨.error e, n₂, w₂⟩)
    (hlost : e.isLostHost = true) :
    let rest : Prog Json := do
      let moved ← failoverIfPeers (some host) true
      if moved then send method path jsonData params else throw e
    AllHeard i (rest.exec E i n₂ w₂).world.history →
      Repetition E i method path jsonData params n m (rest.exec E i n₂ w₂) := by
  intro rest hheard
  rcases first_sent hE hrenew hsend with ⟨key, hr, -⟩ | ⟨hheaders, hr, q, hcarries, hw₂, hone⟩
  · cases hr
    contradiction
  have hgot : Event.got i q (E.reply n₁) ∈ w₂.history := by
    rw [hw₂]
    exact List.mem_cons_self
  have hfixed := sent_fixed hE hrenew hsend
  have hclient : w₂.state.client = w₁.state.client := by
    rw [hw₂]
    exact hE n₁ w₁.state
  have hframe := failoverIfPeers_keepsFixed (i := i) hE (some host) true n₂ w₂
  rcases (failoverIfPeers_leaves (some host) true).exec E n₂ w₂ with ⟨new, hnew, hall⟩
  rcases failoverIfPeers_returns hE (some host) true (w := w₂) (by rw [hclient]; exact hin)
    ((congrArg Fixed.headersError hfixed).trans hheaders)
    (fun q r hgot => hheard q r (Co.mem_exec_bind hgot)) with
    ⟨verdict, n₃, w₃, hmove, -, hverdict⟩
  rw [hmove] at hnew hframe
  simp only at hnew
  rw [Co.exec_bind_ok hmove]
  cases verdict with
  | false =>
      refine .once q (E.reply n₁) ?_ hcarries ?_ (.inl hr)
      · simp only [Bool.false_eq_true, if_false, Co.exec_throw]
        rw [hnew, requestsOf_append, hone, requestsOf_eq_nil fun e he => .inr (hall e he)]
        rfl
      · simp only [Bool.false_eq_true, if_false, Co.exec_throw]
        rw [hnew]
        exact List.mem_append_right new hgot
  | true =>
      rcases hverdict rfl with ⟨hpeers, old, hold⟩
      have hheaders₃ : w₃.state.client.auth.headersError = none :=
        (congrArg Fixed.headersError (hframe.trans hfixed)).trans hheaders
      rcases second_sent E i method path jsonData params n₃ hone hnew
        (fun e he => .inr (hall e he)) hheaders₃ with ⟨q₂, hcarries₂, hrepeat, htwo⟩
      simp only [if_true]
      rw [hrepeat]
      refine .twice q q₂ (E.reply n₁) (E.reply n₃) htwo hcarries hcarries₂
        (.inr ⟨⟨e, hr.symm, hlost⟩, ?_, ?_⟩) List.mem_cons_self rfl
      · have hhosts : w₂.state.client.hosts = m.client.hosts := congrArg Fixed.hosts hfixed
        rw [← hhosts]
        exact hpeers
      · have hearlier : Event.got i q (E.reply n₁) ∈ old := by
          have hin : Event.got i q (E.reply n₁) ∈ w₃.history := by
            rw [hnew]
            exact List.mem_append_right new hgot
          rw [hold] at hin
          rcases List.mem_cons.mp hin with hnot | hin
          · cases hnot
          · exact hin
        simp only [exchanged, hold]
        exact .cons _ (.cons_cons _ (.cons_cons _ (List.singleton_sublist.mpr hearlier)))

/-- A request whose probes are heard ends in one of the three ways. -/
theorem repetition_of_heard (hE : Quiet E) (hgenuine : ∀ n, Genuine (E.reply n))
    (hin : m.client.InRange)
    (hheard : AllHeard i ((request method path jsonData params).exec E i n ⟨m, []⟩).world.history) :
    Repetition E i method path jsonData params n m
      ((request method path jsonData params).exec E i n ⟨m, []⟩) := by
  have hstage := renewalStage_returns (i := i) (n := n) hE hin fun q r hgot =>
    hheard q r (by rw [request_eq]; exact Co.mem_exec_bind hgot)
  rcases hstage with ⟨n₁, w₁, hrenew, hin₁⟩ | ⟨e, n₁, w₁, hrenew, hcause⟩
  · rcases hin₁.host with ⟨host, hhost⟩
    rcases hsend : (send method path jsonData params).exec E i n₁ w₁ with ⟨e | v, n₂, w₂⟩
    · by_cases hlost : e.isLostHost = true
      · rw [exec_request_lost hrenew hhost hsend hlost] at hheard ⊢
        exact repetition_after_loss hE hrenew hin₁ hsend hlost hheard
      · by_cases hrefused : (∃ message endpoint, e = .proxmoxAPIError 401 message endpoint) ∧
            w₂.state.client.auth.hasRelogin = true
        · rcases hrefused with ⟨⟨message, endpoint, rfl⟩, hpassword⟩
          rw [exec_request_unauthorized hrenew hhost hsend hpassword]
          exact repetition_after_refusal hE hgenuine hrenew hsend hpassword
        · have hrefusal : ∀ message endpoint, e = .proxmoxAPIError 401 message endpoint →
              w₂.state.client.auth.hasRelogin = false := by
            intro message endpoint he
            by_contra hpassword
            exact hrefused ⟨⟨message, endpoint, he⟩, by simpa using hpassword⟩
          rw [exec_request_failed hrenew hhost hsend hrefusal (by simpa using hlost)]
          rcases first_sent hE hrenew hsend with
            ⟨key, hr, hheaders, rfl⟩ | ⟨-, hr, q, hcarries, rfl, hone⟩
          · cases hr
            exact .unsent _ (stage_requests hrenew) rfl (.inr hheaders)
          · exact .once q (E.reply n₁) hone hcarries List.mem_cons_self (.inl hr)
    · rw [exec_request_renewed hrenew hhost, Co.exec_tryCatch_ok hsend]
      rcases first_sent hE hrenew hsend with ⟨key, hr, -⟩ | ⟨-, hr, q, hcarries, rfl, hone⟩
      · cases hr
      · exact .once q (E.reply n₁) hone hcarries List.mem_cons_self (.inl hr)
  · rw [request_eq, Co.exec_bind_error hrenew]
    rw [hrenew] at hcause
    exact .unsent e (stage_requests hrenew) rfl (.inl hcause)

/-! ## A probe that is not heard -/

/-- A lost host is an exception that {lit}`_answers` names. -/
theorem not_unnamed_of_lost {e : Exc} (h : e.isLostHost = true) : ¬ Unnamed e := by
  cases e <;> first | contradiction | simp [Unnamed, Exc.isClientError, Exc.isTimeoutError]

/-- A renewal leaves the probes heard, -/
theorem checkAndRefresh_heard {n : Nat} {w : World τ Machine Exchange Outcome Remark}
    (hw : AllHeard i w.history) : AllHeard i (checkAndRefresh.exec E i n w).world.history :=
  hw.of_leaves login_leaves fun _ _ h => ofLogin_probeHeard h

/-- so does a login, -/
theorem relogin_heard {n n' : Nat} {w w' : World τ Machine Exchange Outcome Remark}
    {r : Except Exc Unit} (hw : AllHeard i w.history)
    (hlogin : relogin.exec E i n w = ⟨r, n', w'⟩) : AllHeard i w'.history := by
  have hkept := hw.of_leaves (E := E) (n := n) relogin_leaves fun _ _ h => ofLogin_probeHeard h
  rw [hlogin] at hkept
  exact hkept

/-- and so does a sending. -/
theorem send_heard {n n' : Nat} {w w' : World τ Machine Exchange Outcome Remark}
    {r : Except Exc Json} (hw : AllHeard i w.history)
    (hsend : (send method path jsonData params).exec E i n w = ⟨r, n', w'⟩) :
    AllHeard i w'.history := by
  have hleaves : Co.Leaves i (ofAttempt .request) (send method path jsonData params) :=
    attempt_leaves _ _ _ _ _ _ fun _ h => h
  have hkept := hw.of_leaves (E := E) (n := n) hleaves fun q r h =>
    probeHeard_of_purpose (fun candidate hq => by rw [ofAttempt, hq] at h; contradiction) r
  rw [hsend] at hkept
  exact hkept

/-- A renewal stage that ends well, or in the error of a renewal, has heard its probes. -/
theorem renewalStage_heard
    (hcause : ∀ e, (renewalStage.exec E i n ⟨m, []⟩).result = .error e →
      RenewalError E i n m (renewalStage.exec E i n ⟨m, []⟩) e) :
    AllHeard i (renewalStage.exec E i n ⟨m, []⟩).world.history := by
  have hnone : AllHeard i (World.mk m [] : World τ Machine Exchange Outcome Remark).history := by
    intro q r hgot
    cases hgot
  have hfirst := checkAndRefresh_heard (E := E) (n := n) hnone
  unfold renewalStage at hcause ⊢
  rcases hrenew : checkAndRefresh.exec E i n ⟨m, []⟩ with ⟨e₀ | _, n₀, w₀⟩
  · rw [hrenew] at hfirst
    rw [Co.exec_tryCatch_error hrenew] at hcause ⊢
    unfold renewElsewhere at hcause ⊢
    split_ifs at hcause ⊢ with hlost
    · rcases hmove : (failoverIfPeers none false).exec E i n₀ w₀ with ⟨e | moved, n₁, w₁⟩
      · rw [Co.exec_bind_error hmove] at hcause ⊢
        refine (failoverIfPeers_letsOut none false).allGot hfirst hmove fun e' he' hunnamed => ?_
        cases he'
        rcases hcause e rfl with hsame | ⟨e₁, n₂, w₂, n₃, w₃, hagain, hmoved, -⟩
        · rw [hrenew] at hsame
          cases hsame
          exact not_unnamed_of_lost hlost hunnamed
        · rw [hrenew] at hagain
          cases hagain
          rw [hmove] at hmoved
          cases hmoved
      · have hheard := (failoverIfPeers_letsOut none false).allGot hfirst hmove
          fun e he => by cases he
        rw [Co.exec_bind_ok hmove]
        split_ifs
        · exact checkAndRefresh_heard hheard
        · exact hheard
    · exact hfirst
  · rw [hrenew] at hfirst
    rw [Co.exec_tryCatch_ok hrenew]
    exact hfirst

/-- The requests in a history are the caller's. -/
theorem purpose_of_mem_requestsOf {history : List (Event τ Exchange Outcome Remark)}
    {q : Exchange} (h : q ∈ requestsOf history) : q.purpose = .request := by
  simp only [requestsOf, List.mem_reverse, List.mem_filterMap] at h
  rcases h with ⟨e, -, he⟩
  cases e <;> simp only [reduceCtorEq] at he
  split_ifs at he with hq
  cases he
  exact hq

/-- A request that was not sent and whose headers can be built ends in the error of a
renewal. -/
theorem Repetition.renewalError {e : Exc} {calls : Nat}
    {world : World τ Machine Exchange Outcome Remark}
    (h : Repetition E i method path jsonData params n m ⟨.error e, calls, world⟩)
    (hnone : requestsOf world.history = []) (hheaders : m.client.auth.headersError = none) :
    RenewalError E i n m
      (⟨.error e, calls, world⟩ : Ending τ Machine Exchange Outcome Exc Remark Unit) e := by
  cases h with
  | unsent e' _ hresult hcause =>
      cases hresult
      rcases hcause with hcause | hcause
      · exact hcause
      · rw [hheaders] at hcause
        cases hcause
  | once q r hone =>
      rw [hnone] at hone
      cases hone
  | twice q₁ q₂ r₁ r₂ htwo =>
      rw [hnone] at htwo
      cases htwo

/-- A renewal stage that fails is one whose first renewal failed. -/
theorem headers_of_stage {e : Exc} {n₁ : Nat} {w₁ : World τ Machine Exchange Outcome Remark}
    (hstage : renewalStage.exec E i n ⟨m, []⟩ = ⟨.error e, n₁, w₁⟩) :
    m.client.auth.headersError = none := by
  rcases hrenew : checkAndRefresh.exec E i n ⟨m, []⟩ with ⟨e₀ | _, n₀, w₀⟩
  · exact headers_of_renewal hrenew
  · unfold renewalStage at hstage
    rw [Co.exec_tryCatch_ok hrenew] at hstage
    cases hstage

/-- The answer to a sending is an event of neither login nor failover. -/
theorem not_ofLogin_got {q : Exchange} (hq : q.purpose = .request) {r : Outcome} :
    ¬ (ofLogin (.got i q r) ∨ ofFailover (.got i q r)) := by
  rintro ((h | ⟨_, h⟩) | ⟨_, h⟩)
  · rw [hq] at h
    contradiction
  · rw [hq] at h
    contradiction
  · rw [hq] at h
    contradiction

/-- Where nobody answered the one sending, the request does not end in an exception that
{lit}`_answers` has no clause for. -/
theorem Repetition.not_stranded (hE : Quiet E) (hgenuine : ∀ n, Genuine (E.reply n))
    {host : String} {e e' : Exc} {n₁ n₂ n₃ : Nat}
    {w₁ w₂ w₃ : World τ Machine Exchange Outcome Remark}
    (h : Repetition E i method path jsonData params n m ⟨.error e', n₃, w₃⟩)
    (hrenew : renewalStage.exec E i n ⟨m, []⟩ = ⟨.ok (), n₁, w₁⟩)
    (hsend : (send method path jsonData params).exec E i n₁ w₁ = ⟨.error e, n₂, w₂⟩)
    (hlost : e.isLostHost = true)
    (hmove : (failoverIfPeers (some host) true).exec E i n₂ w₂ = ⟨.error e', n₃, w₃⟩)
    (hunnamed : Unnamed e') : False := by
  rcases first_sent hE hrenew hsend with ⟨key, hr, -⟩ | ⟨-, hr, q, -, hw₂, hone⟩
  · cases hr
    contradiction
  rcases (failoverIfPeers_leaves (some host) true).exec E n₂ w₂ with ⟨new, hnew, hall⟩
  rw [hmove] at hnew
  simp only at hnew
  have hsent : requestsOf w₃.history = [q] := by
    rw [hnew, requestsOf_append, hone, requestsOf_eq_nil fun e he => .inr (hall e he)]
    rfl
  cases h with
  | unsent _ hnone =>
      rw [hsent] at hnone
      cases hnone
  | once q' r hone' _ hgot hresult =>
      rw [hsent] at hone'
      cases hone'
      have hmem : q ∈ requestsOf w₃.history := by
        rw [hsent]
        exact List.mem_cons_self
      have hpurpose := purpose_of_mem_requestsOf hmem
      have hreply : r = E.reply n₁ := by
        rw [hnew, hw₂] at hgot
        rcases List.mem_append.mp hgot with hgot | hgot
        · exact absurd (.inr (hall _ hgot)) (not_ofLogin_got hpurpose)
        · simp only [exchanged, List.mem_cons, Event.got.injEq, reduceCtorEq, false_or] at hgot
          rcases hgot with ⟨-, -, hsame⟩ | hgot
          · exact hsame
          · rcases renewalStage_leaves.exec E n ⟨m, []⟩ with ⟨old, hold, hbefore⟩
            rw [hrenew, List.append_nil] at hold
            simp only at hold
            rw [hold] at hgot
            exact absurd (hbefore _ hgot) (not_ofLogin_got hpurpose)
      subst hreply
      rcases hresult with hresult | ⟨hrefused, -⟩
      · rw [← hr] at hresult
        cases hresult
        exact not_unnamed_of_lost hlost hunnamed
      · rcases (unauthorized_iff (hgenuine n₁)).mp hrefused with ⟨message, endpoint, hread⟩
        rw [← hr] at hread
        cases hread
        contradiction
  | twice q₁ q₂ r₁ r₂ htwo =>
      rw [hsent] at htwo
      cases htwo

/-- A request that ends in one of the three ways has heard its probes. -/
theorem heard_of_repetition (hE : Quiet E) (hgenuine : ∀ n, Genuine (E.reply n))
    (hends : Repetition E i method path jsonData params n m
      ((request method path jsonData params).exec E i n ⟨m, []⟩)) :
    AllHeard i ((request method path jsonData params).exec E i n ⟨m, []⟩).world.history := by
  have hcourse : RequestCourse E i method path jsonData params n ⟨m, []⟩ _ := request_course
  generalize (request method path jsonData params).exec E i n ⟨m, []⟩ = ending at hends hcourse ⊢
  -- the renewal ended well in all courses but the first
  have hrenewed : ∀ {n₁ w₁}, renewalStage.exec E i n ⟨m, []⟩ = ⟨.ok (), n₁, w₁⟩ →
      AllHeard i w₁.history := by
    intro n₁ w₁ hrenew
    have hheard := renewalStage_heard (E := E) (i := i) (n := n) (m := m) fun e he => by
      rw [hrenew] at he
      cases he
    rw [hrenew] at hheard
    exact hheard
  cases hcourse with
  | notRenewed hrenew =>
      have hheard := renewalStage_heard (E := E) (i := i) (n := n) (m := m) fun e he => by
        rw [hrenew] at he ⊢
        cases he
        exact hends.renewalError (stage_requests hrenew) (headers_of_stage hrenew)
      rw [hrenew] at hheard
      exact hheard
  | hostless hrenew => exact hrenewed hrenew
  | answered hrenew _ hsend => exact send_heard (hrenewed hrenew) hsend
  | failed hrenew _ hsend => exact send_heard (hrenewed hrenew) hsend
  | notLoggedIn hrenew _ hsend _ hlogin =>
      exact relogin_heard (send_heard (hrenewed hrenew) hsend) hlogin
  | repeatedAfterLogin hrenew _ hsend _ hlogin =>
      exact send_heard (relogin_heard (send_heard (hrenewed hrenew) hsend) hlogin) rfl
  | stranded hrenew _ hsend hlost hmove =>
      refine (failoverIfPeers_letsOut _ true).allGot (send_heard (hrenewed hrenew) hsend) hmove
        fun e he hunnamed => ?_
      cases he
      exact hends.not_stranded hE hgenuine hrenew hsend hlost hmove hunnamed
  | stayed hrenew _ hsend _ hmove =>
      exact (failoverIfPeers_letsOut _ true).allGot (send_heard (hrenewed hrenew) hsend) hmove
        fun e he => by cases he
  | repeatedElsewhere hrenew _ hsend _ hmove =>
      refine send_heard ?_ rfl
      exact (failoverIfPeers_letsOut _ true).allGot (send_heard (hrenewed hrenew) hsend) hmove
        fun e he => by cases he

/-- One undisturbed request sends what the caller asked for at most twice, the
second time for one of two reasons, and ends in the outcome of the last sending or
in the error that kept it from being made, exactly if each of its probes is heard. -/
theorem request_repetition_iff (hE : Quiet E) (hgenuine : ∀ n, Genuine (E.reply n))
    (hin : m.client.InRange) :
    Repetition E i method path jsonData params n m
        ((request method path jsonData params).exec E i n ⟨m, []⟩) ↔
      AllHeard i ((request method path jsonData params).exec E i n ⟨m, []⟩).world.history :=
  ⟨heard_of_repetition hE hgenuine, repetition_of_heard hE hgenuine hin⟩

end Repetition

/-- Nobody answers the sending and the first probe, and everything after that is answered:
what the next test has to say of the surroundings. -/
abbrev lostTwice : Surroundings Machine Outcome :=
  ⟨fun _ m => m, fun n =>
    if n < 2 then .error (.clientConnectionError "Cannot connect to host")
    else .ok { status := 200 }⟩

/-- The host is lost, another one answers, and the request is repeated there. -/
theorem request_repetition_iff_witness :
    Repetition lostTwice () "POST" "nodes/pve/vzdump" none none 0
      ⟨.loggedIn ["192.0.2.1", "192.0.2.2"], 0⟩
      ((request "POST" "nodes/pve/vzdump" none none).exec lostTwice () 0
        ⟨⟨.loggedIn ["192.0.2.1", "192.0.2.2"], 0⟩, []⟩) := by
  have hgenuine : ∀ n, Genuine (lostTwice.reply n) := by
    intro n
    by_cases hn : n < 2
    · simp only [if_pos hn]
      exact rfl
    · simp only [if_neg hn]
      exact ⟨fun e h => (by cases h), fun e h => (by cases h)⟩
  have hheard : ∀ n, Heard (lostTwice.reply n) := by
    intro n e he
    by_cases hn : n < 2
    · simp only [if_pos hn] at he
      cases he
      rfl
    · simp only [if_neg hn] at he
      cases he
  have hin : (ProxmoxVE.loggedIn ["192.0.2.1", "192.0.2.2"]).InRange := Nat.zero_lt_two
  refine (request_repetition_iff (fun _ _ => rfl) hgenuine hin).mpr ?_
  intro q r hgot candidate hq
  rcases Co.exec_got hgot with hold | ⟨k, rfl⟩
  · contradiction
  · exact hheard k

/-- Nobody answers the sending, and then the host in use answers the probe with status 200
and a body that is no JSON. -/
abbrev malformedProbe : Surroundings Machine Outcome :=
  ⟨fun _ m => m, fun n =>
    if n = 0 then .error (.clientConnectionError "Cannot connect to host")
    else .ok { status := 200, json := .error (.valueError "Expecting value") }⟩

/-- The request ends in what reading that body raises, which is the outcome of no sending
and of no renewal. -/
theorem request_repetition_counterexample :
    ∃ ending, (request "POST" "nodes/pve/vzdump" none none).exec malformedProbe () 0
        ⟨⟨.loggedIn ["192.0.2.1", "192.0.2.2"], 0⟩, []⟩ = ending ∧
      ending.result = .error (.valueError "Expecting value") ∧
      (requestsOf ending.world.history).length = 1 ∧
      ¬ Repetition malformedProbe () "POST" "nodes/pve/vzdump" none none 0
        ⟨.loggedIn ["192.0.2.1", "192.0.2.2"], 0⟩ ending := by
  have hgenuine : ∀ n, Genuine (malformedProbe.reply n) := by
    intro n
    by_cases hn : n = 0
    · simp only [if_pos hn]
      exact rfl
    · simp only [if_neg hn]
      exact ⟨fun e h => (by cases h), fun e h => (by cases h; rfl)⟩
  refine ⟨_, rfl, by with_unfolding_all rfl, by with_unfolding_all rfl, fun hends => ?_⟩
  have hheard := heard_of_repetition (fun _ _ => rfl) hgenuine hends
  obtain ⟨q, rest, hhistory, hprobe⟩ : ∃ q rest, ((request "POST" "nodes/pve/vzdump" none
        none).exec malformedProbe () 0
          ⟨⟨.loggedIn ["192.0.2.1", "192.0.2.2"], 0⟩, []⟩).world.history =
        .released () :: .got () q (malformedProbe.reply 1) :: rest ∧ q.purpose = .probe false :=
    ⟨_, _, by and_intros <;> with_unfolding_all rfl⟩
  have hgot : Event.got () q (malformedProbe.reply 1) ∈ ((request "POST" "nodes/pve/vzdump" none
      none).exec malformedProbe () 0
        ⟨⟨.loggedIn ["192.0.2.1", "192.0.2.2"], 0⟩, []⟩).world.history := by
    rw [hhistory]
    exact List.mem_cons_of_mem _ List.mem_cons_self
  have hnamed := hheard q _ hgot false hprobe (.valueError "Expecting value") rfl
  contradiction

end AioProxmox
