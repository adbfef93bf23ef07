import AioProxmox.Client.Credentials
import AioProxmox.Client.RequestRuns

/-!
# Client - the two recoveries of a request

A request recovers from a refused ticket by a login and from a lost host by a
failover.  The two are sibling clauses, so a failure inside one is not seen by
the other; the two theorems say exactly when that lets an error out.

Main results:

- Theorem {lit}`unauthorized_treated_iff`: when a 401 that ends a request has been
  answered by a login.
- Theorem {lit}`lostHost_consulted_iff`: when a lost host that ends a request has
  been answered by a failover.
-/

namespace AioProxmox

open Coroutine

/-! ## Entering failover -/

section Stage

variable {τ : Type} {E : Surroundings Machine Outcome} {i : τ}
  {n : Nat} {w : World τ Machine Exchange Outcome Remark}

/-- With another host known, failover is entered. -/
theorem entered_of_failoverIfPeers (hpeers : 2 ≤ w.state.client.hosts.length)
    (fromHost : Option String) (verifyCurrent : Bool) :
    .noted i (.failoverEntered fromHost verifyCurrent) ∈
      ((failoverIfPeers fromHost verifyCurrent).exec E i n w).world.history := by
  unfold failoverIfPeers
  rw [Co.exec_bind, exec_self]
  have hnot : ¬ w.state.client.hosts.length < 2 := by omega
  simp only [hnot, if_false]
  unfold failover
  rw [Co.exec_bind, Co.exec_remark]
  exact Co.mem_exec_history List.mem_cons_self

/-- A renewal that met a lost host made the stage enter failover. -/
theorem entered_of_lost (hE : Quiet E) (hpeers : 2 ≤ w.state.client.hosts.length) {e : Exc}
    (hlost : e.isLostHost = true) {n₁ : Nat} {w₁ : World τ Machine Exchange Outcome Remark}
    (hrenew : checkAndRefresh.exec E i n w = ⟨.error e, n₁, w₁⟩) :
    .noted i (.failoverEntered none false) ∈ (renewalStage.exec E i n w).world.history := by
  have hhosts : w₁.state.client.hosts = w.state.client.hosts := by
    have hkept := (checkAndRefresh_keepsFixed (i := i) hE).unchanged_comp Fixed.hosts n w
    rw [hrenew] at hkept
    exact hkept
  unfold renewalStage
  rw [Co.exec_tryCatch_error hrenew]
  unfold renewElsewhere
  rw [if_pos hlost]
  refine Co.mem_exec_bind (entered_of_failoverIfPeers ?_ none false)
  rw [hhosts]
  exact hpeers

/-- A renewal stage is a renewal that returned, one that failed without losing its
host, or it entered failover. -/
theorem renewalStage_cases (hE : Quiet E) (hpeers : 2 ≤ w.state.client.hosts.length) :
    (∃ n₁ w₁, checkAndRefresh.exec E i n w = ⟨.ok (), n₁, w₁⟩ ∧
        renewalStage.exec E i n w = ⟨.ok (), n₁, w₁⟩) ∨
      (∃ e n₁ w₁, e.isLostHost = false ∧ renewalStage.exec E i n w = ⟨.error e, n₁, w₁⟩) ∨
      .noted i (.failoverEntered none false) ∈ (renewalStage.exec E i n w).world.history := by
  rcases hrenew : checkAndRefresh.exec E i n w with ⟨e | _, n₁, w₁⟩
  · by_cases hlost : e.isLostHost = true
    · exact .inr (.inr (entered_of_lost hE hpeers hlost hrenew))
    · refine .inr (.inl ⟨e, n₁, w₁, by simpa using hlost, ?_⟩)
      unfold renewalStage
      rw [Co.exec_tryCatch_error hrenew]
      unfold renewElsewhere
      rw [if_neg hlost]
      rfl
  · exact .inl ⟨n₁, w₁, rfl, Co.exec_tryCatch_ok hrenew _⟩

end Stage

/-! ## A lost host -/

section LostHost

variable {τ : Type} (E : Surroundings Machine Outcome) (i : τ) (method path : String)
  (jsonData params : Option Dict) (n : Nat) (m : Machine)

/-- A request that ends in a lost host has looked for another. -/
def LostHostConsulted : Prop :=
  ∀ e, ((request method path jsonData params).exec E i n ⟨m, []⟩).result = .error e →
    e.isLostHost = true → ∃ fromHost verifyCurrent,
      .noted i (.failoverEntered fromHost verifyCurrent) ∈
        ((request method path jsonData params).exec E i n ⟨m, []⟩).world.history

/-- The host is lost inside the clause for a refused ticket: the renewal met no
lost host, the first sending was answered 401, and the login or the repeat fails. -/
def LostAfterRefusal : Prop :=
  ∃ host message endpoint n₁ w₁ n₂ w₂ e,
    checkAndRefresh.exec E i n ⟨m, []⟩ = ⟨.ok (), n₁, w₁⟩ ∧
    w₁.state.client.host = .ok host ∧
    (send method path jsonData params).exec E i n₁ w₁ =
      ⟨.error (.proxmoxAPIError 401 message endpoint), n₂, w₂⟩ ∧
    w₂.state.client.auth.hasRelogin = true ∧ e.isLostHost = true ∧
    ((relogin.exec E i n₂ w₂).result = .error e ∨
      ∃ n₃ w₃, relogin.exec E i n₂ w₂ = ⟨.ok (), n₃, w₃⟩ ∧
        ((send method path jsonData params).exec E i n₃ w₃).result = .error e)

end LostHost

section LostHost

variable {τ : Type} {E : Surroundings Machine Outcome} {i : τ} {method path : String}
  {jsonData params : Option Dict} {n : Nat} {m : Machine}

/-- A host lost inside the clause for a refused ticket goes unnoticed. -/
theorem not_consulted_of_lostAfterRefusal
    (h : LostAfterRefusal E i method path jsonData params n m) :
    ¬ LostHostConsulted E i method path jsonData params n m := by
  rcases h with ⟨host, message, endpoint, n₁, w₁, n₂, w₂, e, hrenew, hhost, hsend, hpassword,
    hlost, hfail⟩
  intro hconsulted
  have hstage : renewalStage.exec E i n ⟨m, []⟩ = ⟨.ok (), n₁, w₁⟩ :=
    Co.exec_tryCatch_ok hrenew _
  have hrun := exec_request_unauthorized hstage hhost hsend hpassword
  -- everything the run leaves belongs to a login or to a sending
  let P : Event τ Exchange Outcome Remark → Prop := fun e => ofLogin e ∨ ofAttempt .request e
  have hlogin : ∀ e : Event τ Exchange Outcome Remark, ofLogin e → P e := fun _ h => .inl h
  have hattempt : Co.Leaves i P (send method path jsonData params) :=
    attempt_leaves _ _ _ _ _ _ fun _ h => .inr h
  rcases (login_leaves.mono hlogin).exec E n ⟨m, []⟩ with ⟨new₁, hnew₁, hall₁⟩
  rcases hattempt.exec E n₁ w₁ with ⟨new₂, hnew₂, hall₂⟩
  rcases ((relogin_leaves.mono hlogin).bind fun _ => hattempt).exec E n₂ w₂ with
    ⟨new₃, hnew₃, hall₃⟩
  rw [hrenew, List.append_nil] at hnew₁
  rw [hsend] at hnew₂
  rw [← hrun] at hnew₃
  have hresult : ((request method path jsonData params).exec E i n ⟨m, []⟩).result =
      .error e := by
    rw [hrun]
    rcases hfail with hlogin | ⟨n₃, w₃, hlogin, hrepeat⟩
    · rcases hr : relogin.exec E i n₂ w₂ with ⟨r, n₃, w₃⟩
      rw [hr] at hlogin
      simp only at hlogin
      subst hlogin
      rw [Co.exec_bind_error hr]
    · rw [Co.exec_bind_ok hlogin]
      exact hrepeat
  rcases hconsulted e hresult hlost with ⟨fromHost, verifyCurrent, hentered⟩
  have hP : P (.noted i (.failoverEntered fromHost verifyCurrent)) := by
    simp only at hnew₁ hnew₂
    rw [hnew₃, hnew₂, hnew₁] at hentered
    rcases List.mem_append.mp hentered with hin | hin
    · exact hall₃ _ hin
    · rcases List.mem_append.mp hin with hin | hin
      · exact hall₂ _ hin
      · exact hall₁ _ hin
  rcases hP with (hP | hP) | hP
  · contradiction
  · contradiction
  · exact hP

/-- Once the first sending has run, the host list is still that of the beginning. -/
theorem hosts_sent (hE : Quiet E) {w : World τ Machine Exchange Outcome Remark} {n₁ n₂ : Nat}
    {w₁ w₂ : World τ Machine Exchange Outcome Remark} {r : Except Exc Json}
    (hrenew : renewalStage.exec E i n w = ⟨.ok (), n₁, w₁⟩)
    (hsend : (send method path jsonData params).exec E i n₁ w₁ = ⟨r, n₂, w₂⟩) :
    w₂.state.client.hosts = w.state.client.hosts := by
  have hfirst := (renewalStage_keepsFixed (i := i) hE).unchanged_comp Fixed.hosts n w
  have hsecond := (send_keepsFixed (i := i) hE method path jsonData params).unchanged_comp
    Fixed.hosts n₁ w₁
  rw [hrenew] at hfirst
  rw [hsend] at hsecond
  exact Eq.trans hsecond hfirst

/-- After a first sending that nobody answered, failover is entered. -/
theorem entered_after_loss (hE : Quiet E) {w : World τ Machine Exchange Outcome Remark}
    (hpeers : 2 ≤ w.state.client.hosts.length) {host : String} {n₁ n₂ n₃ : Nat}
    {w₁ w₂ w₃ : World τ Machine Exchange Outcome Remark} {r : Except Exc Json}
    {moved : Except Exc Bool}
    (hrenew : renewalStage.exec E i n w = ⟨.ok (), n₁, w₁⟩)
    (hsend : (send method path jsonData params).exec E i n₁ w₁ = ⟨r, n₂, w₂⟩)
    (hmove : (failoverIfPeers (some host) true).exec E i n₂ w₂ = ⟨moved, n₃, w₃⟩) :
    .noted i (.failoverEntered (some host) true) ∈ w₃.history := by
  have hhosts := hosts_sent hE hrenew hsend
  have hentered := entered_of_failoverIfPeers (E := E) (i := i) (n := n₂) (w := w₂)
    (by rw [hhosts]; exact hpeers) (some host) true
  rw [hmove] at hentered
  exact hentered

/-- A lost host that ends a request has been answered by a failover exactly if it
was not lost inside the clause for a refused ticket. -/
theorem lostHost_consulted_iff (hE : Quiet E) (hpeers : 2 ≤ m.client.hosts.length) :
    LostHostConsulted E i method path jsonData params n m ↔
      ¬ LostAfterRefusal E i method path jsonData params n m := by
  constructor
  · intro hconsulted hlost
    exact not_consulted_of_lostAfterRefusal hlost hconsulted
  · intro hnot e hresult hlost
    rcases renewalStage_cases (i := i) (n := n) (w := ⟨m, []⟩) hE hpeers with
      ⟨n₁, w₁, hrenew, hstage⟩ | ⟨e', n₁, w₁, hkept, hstage⟩ | hentered
    · have hcourse : RequestCourse E i method path jsonData params n ⟨m, []⟩ _ := request_course
      generalize (request method path jsonData params).exec E i n ⟨m, []⟩ = ending
        at hcourse hresult ⊢
      cases hcourse with
      | notRenewed hrenew' =>
          rw [hstage] at hrenew'
          cases hrenew'
      | hostless hrenew' hhost =>
          simp only [Except.error.injEq] at hresult
          subst hresult
          rw [Exc.isLookup_isLostHost (ProxmoxVE.hostAt_raises hhost)] at hlost
          contradiction
      | answered hrenew' hhost hsend => cases hresult
      | failed hrenew' hhost hsend hrefusal hlost' =>
          simp only [Except.error.injEq] at hresult
          subst hresult
          rw [hlost'] at hlost
          contradiction
      | notLoggedIn hrenew' hhost hsend hpassword hlogin =>
          simp only [Except.error.injEq] at hresult
          subst hresult
          rw [hstage] at hrenew'
          cases hrenew'
          exact absurd ⟨_, _, _, _, _, _, _, _, hrenew, hhost, hsend, hpassword, hlost,
            .inl (by rw [hlogin])⟩ hnot
      | repeatedAfterLogin hrenew' hhost hsend hpassword hlogin =>
          rw [hstage] at hrenew'
          cases hrenew'
          exact absurd ⟨_, _, _, _, _, _, _, e, hrenew, hhost, hsend, hpassword, hlost,
            .inr ⟨_, _, hlogin, hresult⟩⟩ hnot
      | stranded hrenew' hhost hsend hlost' hmove =>
          exact ⟨_, _, entered_after_loss hE hpeers hrenew' hsend hmove⟩
      | stayed hrenew' hhost hsend hlost' hmove =>
          exact ⟨_, _, entered_after_loss hE hpeers hrenew' hsend hmove⟩
      | repeatedElsewhere hrenew' hhost hsend hlost' hmove =>
          exact ⟨_, _, Co.mem_exec_history (entered_after_loss hE hpeers hrenew' hsend hmove)⟩
    · rw [request_eq, Co.exec_bind_error hstage] at hresult
      simp only [Except.error.injEq] at hresult
      subst hresult
      rw [hkept] at hlost
      contradiction
    · refine ⟨none, false, ?_⟩
      rw [request_eq]
      exact Co.mem_exec_bind hentered

end LostHost

/-- Two hosts, neither of which answers anything. -/
theorem lostHost_consulted_witness :
    LostHostConsulted
      ⟨fun _ m => m, fun _ => .error (.timeoutError "")⟩ () "GET" "nodes" none none 0
      ⟨ProxmoxVE.loggedIn ["192.0.2.1", "192.0.2.2"], 0⟩ := by
  refine (lostHost_consulted_iff (fun _ _ => rfl) (by decide)).mpr ?_
  rintro ⟨host, message, endpoint, n₁, w₁, n₂, w₂, e, hrenew, -, hsend, -⟩
  rw [exec_checkAndRefresh_loggedIn] at hrenew
  cases hrenew
  cases hsend

/-- The ticket is refused, and the host is gone when the login goes out. -/
theorem lostHost_consulted_counterexample :
    ¬ LostHostConsulted
      ⟨fun _ m => m, fun n =>
        if n = 0 then .ok { status := 401, reason := some "No ticket" }
        else .error (.clientConnectionError "Cannot connect to host")⟩
      () "GET" "nodes" none none 0
      ⟨ProxmoxVE.loggedIn ["192.0.2.1", "192.0.2.2"], 0⟩ := by
  refine not_consulted_of_lostAfterRefusal ⟨"192.0.2.1", _, _, _, _, _, _, _,
    exec_checkAndRefresh_loggedIn _ _, rfl, rfl, rfl, ?_, .inl rfl⟩
  rfl

/-! ## A refused ticket -/

/-- An answer that says 401, in words that can be read. -/
def Unauthorized (reply : Outcome) : Prop :=
  ∃ response text, reply = .ok response ∧ response.status = 401 ∧ response.text = .ok text

/-- Such an answer ends an attempt in a refusal, and no other genuine one does. -/
theorem unauthorized_iff {path : String} {reply : Outcome} (h : Genuine reply) :
    Unauthorized reply ↔
      ∃ message endpoint,
        (reply >>= readResponse path) = .error (.proxmoxAPIError 401 message endpoint) := by
  constructor
  · rintro ⟨response, text, rfl, hstatus, htext⟩
    refine ⟨Text.strip (refusalMessage (response.reason.getD "") text), path, ?_⟩
    change readResponse path response = _
    unfold readResponse
    rw [hstatus, htext]
    rfl
  · rintro ⟨message, endpoint, hread⟩
    cases reply with
    | error e =>
        change (Except.error e : Except Exc Json) = _ at hread
        cases hread
        contradiction
    | ok response =>
        change readResponse path response = _ at hread
        unfold readResponse at hread
        split_ifs at hread
        · rcases hjson : response.json with e | payload
          · rw [hjson] at hread
            cases hread
            have hnot : true = false := h.2 _ hjson
            contradiction
          · rw [hjson] at hread
            cases payload <;> cases hread
        · rcases htext : response.text with e | text
          · rw [htext] at hread
            cases hread
            have hnot : true = false := h.1 _ htext
            contradiction
          · rw [htext] at hread
            simp only [bind, Except.bind, throw, throwThe, MonadExceptOf.throw,
              Except.error.injEq, Exc.proxmoxAPIError.injEq] at hread
            exact ⟨response, text, rfl, hread.1, htext⟩

section Unauthorized

variable {τ : Type} (E : Surroundings Machine Outcome) (i : τ) (method path : String)
  (jsonData params : Option Dict) (n : Nat) (m : Machine)

/-- An attempt was answered 401, then a login with this password was made, and
then the repeated request was answered 401 again (the history is newest first). -/
def Treated (password : String) (history : List (Event τ Exchange Outcome Remark)) : Prop :=
  ∃ q₁ r₁ login q₂ r₂,
    [.got i q₂ r₂, .noted i .reloginReturned, .sent i login, .got i q₁ r₁].Sublist history ∧
    q₁.purpose = .request ∧ Unauthorized r₁ ∧ login.purpose = .login (some password) ∧
    q₂.purpose = .request ∧ Unauthorized r₂

/-- A request that ends in a 401 has had it treated. -/
def UnauthorizedTreated (password : String) : Prop :=
  ∀ message endpoint,
    ((request method path jsonData params).exec E i n ⟨m, []⟩).result =
      .error (.proxmoxAPIError 401 message endpoint) →
    Treated i password ((request method path jsonData params).exec E i n ⟨m, []⟩).world.history

/-- The ticket is refused inside the clause for a lost host: nobody answered the
first sending, failover moved, and the repeat is answered 401. -/
def RefusedAfterMove : Prop :=
  ∃ host e n₁ w₁ n₂ w₂ n₃ w₃,
    renewalStage.exec E i n ⟨m, []⟩ = ⟨.ok (), n₁, w₁⟩ ∧
    w₁.state.client.host = .ok host ∧
    (send method path jsonData params).exec E i n₁ w₁ = ⟨.error e, n₂, w₂⟩ ∧
    e.isLostHost = true ∧
    (failoverIfPeers (some host) true).exec E i n₂ w₂ = ⟨.ok true, n₃, w₃⟩ ∧
    Unauthorized (E.reply n₃)

end Unauthorized

section Unauthorized

variable {τ : Type} {E : Surroundings Machine Outcome} {i : τ} {method path : String}
  {jsonData params : Option Dict} {n : Nat} {m : Machine}

variable (E i method path jsonData params n) in
/-- The one exchange of a sending by a client with a password. -/
theorem exec_send {w : World τ Machine Exchange Outcome Remark} {auth : ProxmoxHTTPAuth}
    (h : w.state.client.auth = .ticket auth) :
    ∃ q, q.purpose = .request ∧ Carries method path jsonData params q ∧
      (send method path jsonData params).exec E i n w =
        ⟨E.reply n >>= readResponse path, n + 1, exchanged E i q n w⟩ := by
  refine exec_attempt _ _ _ _ _ _ ?_
  rw [h]
  rfl

/-- What a login that returned has left: its remark last, and its first post. -/
theorem history_relogin {w w' : World τ Machine Exchange Outcome Remark} {n' : Nat}
    {auth : ProxmoxHTTPAuth} (h : w.state.client.auth = .ticket auth)
    (hlogin : relogin.exec E i n w = ⟨.ok (), n', w'⟩) :
    ∃ mid, w'.history = .noted i .reloginReturned :: (mid ++ w.history) ∧
      .sent i (firstPost (some auth.password) auth) ∈ mid := by
  let w₀ := w.log (.noted i .reloginEntered)
  have hauth := exec_ticketAuth (E := E) (i := i) (n := n) (w := w₀) h
  have hposted : ∃ new, (asyncInit.exec E i n w₀).world.history =
      new ++ (exchanged E i (firstPost (some auth.password) auth) n w₀).history := by
    unfold asyncInit
    rw [Co.exec_bind_ok hauth]
    unfold getNewTokens
    rw [Co.exec_bind_ok hauth]
    have hpost : (postTicket (.login (some auth.password)) auth auth.timeout
        (loginData (some auth.password) auth)).exec E i n w₀ =
          ⟨E.reply n, n + 1, exchanged E i (firstPost (some auth.password) auth) n w₀⟩ := rfl
    rcases hr : E.reply n with e | response
    · rw [hr] at hpost
      rw [Co.exec_bind_error hpost]
      exact ⟨[], rfl⟩
    · rw [hr] at hpost
      rw [Co.exec_bind_ok hpost]
      exact Co.exec_history _ _ _ _ _
  rcases hposted with ⟨new, hnew⟩
  unfold relogin at hlogin
  rw [Co.exec_bind, Co.exec_remark] at hlogin
  simp only at hlogin
  rcases hrun : asyncInit.exec E i n w₀ with ⟨e | _, n₁, w₁⟩
  · rw [Co.exec_bind_error hrun] at hlogin
    cases hlogin
  · rw [Co.exec_bind_ok hrun, Co.exec_remark] at hlogin
    cases hlogin
    rw [hrun] at hnew
    refine ⟨new ++ [.got i (firstPost (some auth.password) auth) (E.reply n),
      .sent i (firstPost (some auth.password) auth), .noted i .reloginEntered], ?_, by simp⟩
    simp only at hnew
    simp [hnew, exchanged, w₀]

/-- What keeps the fixed part keeps the password of a client. -/
theorem password_kept {α : Type} {p : Prog α} (hp : Keeps E i FixedFrame p) {n n' : Nat}
    {w w' : World τ Machine Exchange Outcome Remark} {r : Except Exc α}
    {auth : ProxmoxHTTPAuth} (h : w.state.client.auth = .ticket auth)
    (hrun : p.exec E i n w = ⟨r, n', w'⟩) :
    ∃ auth', w'.state.client.auth = .ticket auth' ∧ auth'.password = auth.password := by
  have hkept := hp n w
  rw [hrun] at hkept
  have hcred : w'.state.client.credentials = some auth.credentials :=
    (congrArg Fixed.credentials hkept).trans (ProxmoxVE.credentials_eq h)
  rcases ProxmoxVE.exists_ticket hcred with ⟨auth', hauth', hsame⟩
  exact ⟨auth', hauth', congrArg Credentials.password hsame⟩

/-- The password of a client after the first two stages of a request. -/
theorem password_sent (hE : Quiet E) {auth : ProxmoxHTTPAuth}
    (hauth : m.client.auth = .ticket auth) {n₁ n₂ : Nat}
    {w₁ w₂ : World τ Machine Exchange Outcome Remark} {u : Except Exc Unit} {r : Except Exc Json}
    (hrenew : renewalStage.exec E i n ⟨m, []⟩ = ⟨u, n₁, w₁⟩)
    (hsend : (send method path jsonData params).exec E i n₁ w₁ = ⟨r, n₂, w₂⟩) :
    ∃ auth₁ auth₂, w₁.state.client.auth = .ticket auth₁ ∧ w₂.state.client.auth = .ticket auth₂ ∧
      auth₂.password = auth.password := by
  rcases password_kept (renewalStage_keepsFixed hE) hauth hrenew with ⟨auth₁, hauth₁, hsame₁⟩
  rcases password_kept (send_keepsFixed hE _ _ _ _) hauth₁ hsend with ⟨auth₂, hauth₂, hsame₂⟩
  exact ⟨auth₁, auth₂, hauth₁, hauth₂, hsame₂.trans hsame₁⟩

/-- A ticket refused inside the clause for a lost host reaches the caller. -/
theorem not_treated_of_refusedAfterMove (hE : Quiet E)
    (hgenuine : ∀ n, Genuine (E.reply n)) {auth : ProxmoxHTTPAuth}
    (hauth : m.client.auth = .ticket auth) (password : String)
    (h : RefusedAfterMove E i method path jsonData params n m) :
    ¬ UnauthorizedTreated E i method path jsonData params n m password := by
  rcases h with ⟨host, e, n₁, w₁, n₂, w₂, n₃, w₃, hrenew, hhost, hsend, hlost, hmove, hreply⟩
  intro htreated
  rcases password_sent hE hauth hrenew hsend with ⟨auth₁, auth₂, hauth₁, hauth₂, -⟩
  rcases password_kept (failoverIfPeers_keepsFixed hE _ _) hauth₂ hmove with
    ⟨auth₃, hauth₃, -⟩
  rcases exec_send E i method path jsonData params n₁ hauth₁ with ⟨q₁, hq₁, -, hfirst⟩
  rcases exec_send E i method path jsonData params n₃ hauth₃ with ⟨q₂, hq₂, -, hsecond⟩
  have hread : ∃ message endpoint, (E.reply n₃ >>= readResponse path) =
      .error (.proxmoxAPIError 401 message endpoint) :=
    (unauthorized_iff (hgenuine n₃)).mp hreply
  rcases hread with ⟨message, endpoint, hrefused⟩
  have hrun : (request method path jsonData params).exec E i n ⟨m, []⟩ =
      ⟨.error (.proxmoxAPIError 401 message endpoint), n₃ + 1, exchanged E i q₂ n₃ w₃⟩ := by
    rw [exec_request_lost hrenew hhost hsend hlost, Co.exec_bind_ok hmove]
    simp only [if_true]
    rw [hsecond, hrefused]
  have htreated := htreated message endpoint (by rw [hrun])
  rw [hrun] at htreated
  rcases htreated with ⟨q, r, login, q', r', hsub, hq, -⟩
  -- after the first sending nobody logged in, before it nothing was sent
  rcases (failoverIfPeers_leaves (i := i) (some host) true).exec E n₂ w₂ with
    ⟨new, hnew, hall⟩
  rcases (renewalStage_leaves (i := i)).exec E n ⟨m, []⟩ with ⟨old, hold, hbefore⟩
  rw [hrenew, List.append_nil] at hold
  rw [hmove] at hnew
  rw [hsend] at hfirst
  have hw₂ : w₂ = exchanged E i q₁ n₁ w₁ := (Ending.mk.inj hfirst).2.2
  have hpair : [Event.noted i Remark.reloginReturned, .got i q r].Sublist
      (([.got i q₂ (E.reply n₃), .sent i q₂] ++ new ++ [.got i q₁ (E.reply n₁), .sent i q₁]) ++
        w₁.history) := by
    have hlast : [Event.noted i Remark.reloginReturned, .got i q r].Sublist
        [.got i q' r', .noted i .reloginReturned, .sent i login, .got i q r] := by
      simp
    refine hlast.trans (hsub.trans ?_)
    simp only at hnew
    simp [exchanged, hnew, hw₂]
  rcases Co.mem_of_pair_sublist hpair with hin | hin
  · simp only [List.mem_append, List.mem_cons, reduceCtorEq, List.not_mem_nil, or_false,
      false_or] at hin
    exact hall _ hin
  · simp only at hold
    rw [hold] at hin
    rcases hbefore _ hin with (hlogin | ⟨_, hlogin⟩) | ⟨_, hprobe⟩
    · rw [hq] at hlogin
      contradiction
    · rw [hq] at hlogin
      contradiction
    · rw [hq] at hprobe
      contradiction

/-- A 401 that is followed by a login and by another one has been treated. -/
theorem treated_of_repeated (hE : Quiet E) (hgenuine : ∀ n, Genuine (E.reply n))
    {auth : ProxmoxHTTPAuth} (hauth : m.client.auth = .ticket auth) {n₁ n₂ n₃ : Nat}
    {w₁ w₂ w₃ : World τ Machine Exchange Outcome Remark}
    {message endpoint message' endpoint' : String}
    (hrenew : renewalStage.exec E i n ⟨m, []⟩ = ⟨.ok (), n₁, w₁⟩)
    (hsend : (send method path jsonData params).exec E i n₁ w₁ =
      ⟨.error (.proxmoxAPIError 401 message endpoint), n₂, w₂⟩)
    (hlogin : relogin.exec E i n₂ w₂ = ⟨.ok (), n₃, w₃⟩)
    (hresult : ((send method path jsonData params).exec E i n₃ w₃).result =
      .error (.proxmoxAPIError 401 message' endpoint')) :
    Treated i auth.password ((send method path jsonData params).exec E i n₃ w₃).world.history := by
  rcases password_sent hE hauth hrenew hsend with ⟨auth₁, auth₂, hauth₁, hauth₂, hsame⟩
  rcases password_kept (relogin_keepsFixed hE) hauth₂ hlogin with ⟨auth₃, hauth₃, -⟩
  rcases exec_send E i method path jsonData params n₁ hauth₁ with ⟨q₁, hq₁, -, hfirst⟩
  rcases exec_send E i method path jsonData params n₃ hauth₃ with ⟨q₂, hq₂, -, hsecond⟩
  rcases history_relogin hauth₂ hlogin with ⟨mid, hhistory, hposted⟩
  rw [hsend] at hfirst
  rcases Ending.mk.inj hfirst with ⟨hr₁, -, hw₂⟩
  rw [hsecond] at hresult ⊢
  refine ⟨q₁, E.reply n₁, firstPost (some auth₂.password) auth₂, q₂, E.reply n₃, ?_, hq₁, ?_,
    ?_, hq₂, ?_⟩
  · have hlater : [Event.sent i (firstPost (some auth₂.password) auth₂),
        .got i q₁ (E.reply n₁)].Sublist (mid ++ w₂.history) := by
      have hin : Event.got i q₁ (E.reply n₁) ∈ w₂.history := by
        rw [hw₂]
        exact List.mem_cons_self
      exact (List.singleton_sublist.mpr hposted).append (List.singleton_sublist.mpr hin)
    simp only [exchanged, hhistory]
    exact .cons_cons _ (.cons _ (.cons_cons _ hlater))
  · exact (unauthorized_iff (hgenuine n₁)).mpr ⟨_, _, hr₁.symm⟩
  · rw [← hsame]
    rfl
  · exact (unauthorized_iff (hgenuine n₃)).mpr ⟨_, _, hresult⟩

/-- A 401 that ends a request has been treated, unless the ticket was refused
inside the clause for a lost host. -/
theorem treated_of_not_refusedAfterMove (hE : Quiet E)
    (hgenuine : ∀ n, Genuine (E.reply n)) {auth : ProxmoxHTTPAuth}
    (hauth : m.client.auth = .ticket auth)
    (hnot : ¬ RefusedAfterMove E i method path jsonData params n m) :
    UnauthorizedTreated E i method path jsonData params n m auth.password := by
  intro message endpoint hresult
  have hraises : ∀ {p : Prog Unit} {n n' : Nat}
      {w w' : World τ Machine Exchange Outcome Remark} {e : Exc},
      Co.Raises (fun _ => Genuine) NotRefusal p → p.exec E i n w = ⟨.error e, n', w'⟩ →
      (∀ q r, .got i q r ∈ w'.history → Genuine r) → NotRefusal e := by
    intro p n n' w w' e hp hrun hall
    exact hp.exec (E := E) (i := i) (n := n) (w := w) (by rw [hrun]; exact hall) (by rw [hrun])
  have hgot : ∀ q r, .got i q r ∈
      ((request method path jsonData params).exec E i n ⟨m, []⟩).world.history → Genuine r := by
    intro q r hin
    rcases Co.exec_got hin with hold | ⟨k, rfl⟩
    · contradiction
    · exact hgenuine k
  have hcourse : RequestCourse E i method path jsonData params n ⟨m, []⟩ _ := request_course
  generalize (request method path jsonData params).exec E i n ⟨m, []⟩ = ending
    at hcourse hresult hgot ⊢
  cases hcourse with
  | notRenewed hrenew =>
      cases hresult
      exact Bool.noConfusion (hraises renewalStage_raises hrenew hgot)
  | hostless hrenew hhost =>
      cases hresult
      exact Bool.noConfusion (Exc.isLookup_isProxmoxError (ProxmoxVE.hostAt_raises hhost))
  | answered hrenew hhost hsend => cases hresult
  | failed hrenew hhost hsend hrefusal hlost =>
      cases hresult
      rcases password_sent hE hauth hrenew hsend with ⟨auth₁, auth₂, -, hauth₂, -⟩
      have hpassword := hrefusal message endpoint rfl
      rw [hauth₂] at hpassword
      contradiction
  | notLoggedIn hrenew hhost hsend hpassword hlogin =>
      cases hresult
      exact Bool.noConfusion (hraises
        (relogin_raises notRefusal_loginErrors fun _ _ => Genuine.exchangeErrors) hlogin hgot)
  | repeatedAfterLogin hrenew hhost hsend hpassword hlogin =>
      exact treated_of_repeated hE hgenuine hauth hrenew hsend hlogin hresult
  | stranded hrenew hhost hsend hlost hmove =>
      cases hresult
      have hnone := (failoverIfPeers_raises (G := fun _ => Genuine) _ _).exec
        (E := E) (i := i) (by rw [hmove]; exact hgot) (by rw [hmove])
      exact Bool.noConfusion hnone
  | stayed hrenew hhost hsend hlost hmove =>
      cases hresult
      contradiction
  | @repeatedElsewhere host _ n₁ w₁ n₂ w₂ n₃ w₃ hrenew hhost hsend hlost hmove =>
      rcases password_sent hE hauth hrenew hsend with ⟨auth₁, auth₂, -, hauth₂, -⟩
      rcases password_kept (failoverIfPeers_keepsFixed hE _ _) hauth₂ hmove with
        ⟨auth₃, hauth₃, -⟩
      rcases exec_send E i method path jsonData params n₃ hauth₃ with ⟨q₂, hq₂, -, hsecond⟩
      rw [hsecond] at hresult
      exact absurd ⟨host, _, n₁, w₁, n₂, w₂, n₃, w₃, hrenew, hhost, hsend, hlost, hmove,
        (unauthorized_iff (hgenuine n₃)).mpr ⟨_, _, hresult⟩⟩ hnot

/-- A 401 that ends a request has been treated exactly if the ticket was not
refused inside the clause for a lost host. -/
theorem unauthorized_treated_iff (hE : Quiet E) (hgenuine : ∀ n, Genuine (E.reply n))
    {auth : ProxmoxHTTPAuth} (hauth : m.client.auth = .ticket auth) :
    UnauthorizedTreated E i method path jsonData params n m auth.password ↔
      ¬ RefusedAfterMove E i method path jsonData params n m := by
  constructor
  · intro htreated hrefused
    exact not_treated_of_refusedAfterMove hE hgenuine hauth auth.password hrefused htreated
  · exact treated_of_not_refusedAfterMove hE hgenuine hauth

end Unauthorized

/-- A client whose every request is refused, a login between the two. -/
theorem unauthorized_treated_witness :
    UnauthorizedTreated
      ⟨fun _ m => m, fun n =>
        if n = 1 then .ok {
          status := 200
          json := .ok (.obj [("data", .obj [("ticket", .str "PVE:root@pam:2"),
            ("CSRFPreventionToken", .str "2:token")])]) }
        else .ok { status := 401, reason := some "No ticket" }⟩
      () "GET" "nodes" none none 0 ⟨ProxmoxVE.loggedIn ["192.0.2.1"], 0⟩ "secret" := by
  obtain ⟨auth, hauth, hpassword⟩ : ∃ auth,
      (ProxmoxVE.loggedIn ["192.0.2.1"]).auth = .ticket auth ∧ auth.password = "secret" :=
    ⟨_, rfl, rfl⟩
  rw [← hpassword]
  refine (unauthorized_treated_iff (fun _ _ => rfl) (fun n => ?_) hauth).mpr ?_
  · simp only
    split_ifs
    · exact ⟨fun e h => (by cases h), fun e h => (by cases h)⟩
    · exact ⟨fun e h => (by cases h), fun e h => (by cases h)⟩
  · rintro ⟨host, e, n₁, w₁, n₂, w₂, n₃, w₃, hrenew, -, hsend, hlost, -⟩
    unfold renewalStage at hrenew
    rw [Co.exec_tryCatch_ok (exec_checkAndRefresh_loggedIn _ _)] at hrenew
    cases hrenew
    cases hsend
    contradiction

/-- The host is lost, another one answers, and there the ticket is refused. -/
theorem unauthorized_treated_counterexample :
    ¬ UnauthorizedTreated
      ⟨fun _ m => m, fun n =>
        if n < 2 then .error (.clientConnectionError "Cannot connect to host")
        else if n = 2 then .ok { status := 200 }
        else .ok { status := 401, reason := some "No ticket" }⟩
      () "GET" "nodes" none none 0
      ⟨ProxmoxVE.loggedIn ["192.0.2.1", "192.0.2.2"], 0⟩ "secret" := by
  refine not_treated_of_refusedAfterMove (fun _ _ => rfl) (fun n => ?_) rfl _
    ⟨"192.0.2.1", _, _, _, _, _, _, _, Co.exec_tryCatch_ok
      (exec_checkAndRefresh_loggedIn _ _) _, rfl, rfl, rfl, rfl, ?_⟩
  · simp only
    split_ifs
    · exact rfl
    · exact ⟨fun e h => (by cases h), fun e h => (by cases h)⟩
    · exact ⟨fun e h => (by cases h), fun e h => (by cases h)⟩
  · exact ⟨_, _, rfl, rfl, rfl⟩

end AioProxmox
