import AioProxmox.Client.HostList
import AioProxmox.Client.LoginRuns

/-!
# Client - what a login sends

The posts of a login, from the credentials handed to the constructor: they are
stored once and nothing the client does changes them.

Main results:

- Theorem {lit}`sends_getNewTokens`: the posts of one conversation.
- Theorem {lit}`lived_credentials`: the stored credentials after any life of the
  client.
- Theorem {lit}`login_carriesCredentials_iff`: when a login carries the
  credentials the caller gave.
-/

namespace AioProxmox

open Coroutine

/-! ## The posts of a conversation -/

section Posts

variable {τ : Type} {E : Surroundings Machine Outcome} {i : τ}

/-- A second factor is one exchange, whatever becomes of it. -/
theorem history_secondFactor (hE : Quiet E) {n : Nat}
    {w : World τ Machine Exchange Outcome Remark} {auth : ProxmoxHTTPAuth}
    (h : w.state.client.auth = .ticket auth) (otp : Option Bool) (otptype : Option String)
    (timeout : ℚ) :
    ((secondFactor otp otptype timeout).exec E i n w).world.history =
      (exchanged E i (secondPost otp otptype timeout auth) n w).history := by
  have hauth := exec_ticketAuth (E := E) (i := i) (n := n) h
  have hlater := exchanged_auth (i := i) (n := n) hE h (secondPost otp otptype timeout auth)
  have hpost : (postTicket .secondFactor auth timeout (otpData otp otptype auth)).exec E i n w =
      ⟨E.reply n, n + 1, exchanged E i (secondPost otp otptype timeout auth) n w⟩ := rfl
  unfold secondFactor
  rw [Co.exec_bind_ok hauth]
  rcases hr : E.reply n with e | response
  · rw [hr] at hpost
    rw [Co.exec_bind_error hpost]
  · rw [hr] at hpost
    rw [Co.exec_bind_ok hpost]
    generalize exchanged E i (secondPost otp otptype timeout auth) n w = w' at hlater ⊢
    rw [Co.exec_bind, Co.exec_ofExcept]
    rcases response.json with e | body
    · rfl
    · simp only
      rw [Co.exec_bind, Co.exec_ofExcept]
      rcases body.dictGet "data" with e | data
      · rfl
      · simp only
        split_ifs
        · rw [exec_adoptTokens hlater]
        · rfl

/-- The second post of a login, where its first answer leads to one. -/
def laterPosts (E : Surroundings Machine Outcome) (n : Nat) (m : Machine)
    (auth : ProxmoxHTTPAuth) (otp : Option Bool) (otptype : Option String) : List Exchange :=
  match acceptedData (E.reply n) with
  | some data =>
      if usable data && needsTfa data then
        [secondPost otp otptype auth.timeout (auth.adopted (E.during n m).monotonic data)]
      else []
  | none => []

/-- The posts of a login. -/
theorem sends_getNewTokens (hE : Quiet E) {n : Nat}
    {w : World τ Machine Exchange Outcome Remark} {auth : ProxmoxHTTPAuth}
    (h : w.state.client.auth = .ticket auth) (password : Option String) (otp : Option Bool)
    (otptype : Option String) :
    ((getNewTokens password otp otptype).exec E i n w).world.sends =
      w.sends ++ firstPost password auth :: laterPosts E n w.state auth otp otptype := by
  have hfirst : (exchanged E i (firstPost password auth) n w).sends =
      w.sends ++ [firstPost password auth] := by
    simp [exchanged, World.sends]
  unfold laterPosts
  rcases hreply : acceptedData (E.reply n) with _ | data
  · rcases exec_getNewTokens_rejected hE (i := i) h password otp otptype hreply with
      ⟨⟨e, hrun⟩, -⟩
    rw [hrun]
    exact hfirst
  · rcases exec_getNewTokens_accepted (E := E) (i := i) h password otp otptype hreply with
      ⟨response, hbody, hrun, -⟩
    have hlater := exchanged_auth (i := i) (n := n) hE h (firstPost password auth)
    rw [hrun]
    by_cases husable : usable data = true
    · rcases exec_acceptLogin_usable (E := E) (i := i) (n := n + 1) hlater otp otptype
        auth.timeout hbody husable with ⟨hrest, -⟩
      rw [hrest]
      by_cases hneed : needsTfa data = true
      · simp only [hneed, if_true, husable, Bool.and_self]
        unfold World.sends
        rw [history_secondFactor hE (Machine.withTicket_auth _ _)]
        simp [exchanged]
      · simp only [hneed, husable, Bool.and_false, Bool.false_eq_true, if_false, Co.exec_pure]
        exact hfirst
    · rcases exec_acceptLogin_unusable (E := E) (i := i) (n := n + 1) hlater otp otptype
        auth.timeout hbody (by simpa using husable) with ⟨⟨e, hrest⟩, -⟩
      rw [hrest]
      simp only [husable, Bool.false_and, Bool.false_eq_true, if_false]
      exact hfirst

/-- The first login of a client posts with its password. -/
theorem sends_asyncInit (hE : Quiet E) {n : Nat}
    {w : World τ Machine Exchange Outcome Remark} {auth : ProxmoxHTTPAuth}
    (h : w.state.client.auth = .ticket auth) :
    (asyncInit.exec E i n w).world.sends =
      w.sends ++ firstPost (some auth.password) auth ::
        laterPosts E n w.state auth auth.otp (some auth.otptype) := by
  unfold asyncInit
  rw [Co.exec_bind_ok (exec_ticketAuth h)]
  exact sends_getNewTokens hE h _ _ _

/-- So does every later one. -/
theorem sends_relogin (hE : Quiet E) {n : Nat}
    {w : World τ Machine Exchange Outcome Remark} {auth : ProxmoxHTTPAuth}
    (h : w.state.client.auth = .ticket auth) :
    (relogin.exec E i n w).world.sends =
      w.sends ++ firstPost (some auth.password) auth ::
        laterPosts E n w.state auth auth.otp (some auth.otptype) := by
  have hlogin := sends_asyncInit (i := i) (n := n) (w := w.log (.noted i .reloginEntered)) hE h
  rw [World.sends_log_noted] at hlogin
  unfold relogin
  rw [Co.exec_bind, Co.exec_remark]
  simp only
  rcases hrun : asyncInit.exec E i n (w.log (.noted i .reloginEntered)) with ⟨e | a, n', w'⟩
  · rw [Co.exec_bind_error hrun]
    rw [hrun] at hlogin
    exact hlogin
  · rw [Co.exec_bind_ok hrun]
    rw [hrun] at hlogin
    exact hlogin

/-- A renewal is a conversation with the ticket, and where that is refused with a
{lit}`ProxmoxAuthError` a login after it. -/
theorem exec_checkAndRefresh_due {n : Nat} {w : World τ Machine Exchange Outcome Remark}
    {auth : ProxmoxHTTPAuth} (h : w.state.client.auth = .ticket auth)
    (hdue : auth.due w.state.monotonic = true) :
    checkAndRefresh.exec E i n w =
      match (getNewTokens none none none).exec E i n w with
      | ⟨.error (.proxmoxAuthError _), n', w'⟩ => relogin.exec E i n' w'
      | ending => ending := by
  unfold checkAndRefresh
  rw [Co.exec_bind, Co.exec_state]
  simp only [h, hdue, if_true]
  rcases hrun : (getNewTokens none none none).exec E i n w with ⟨e | a, n', w'⟩
  · rw [Co.exec_tryCatch_error hrun]
    unfold refused
    cases e <;> rfl
  · rw [Co.exec_tryCatch_ok hrun]

/-- Before it is due nothing is renewed. -/
theorem exec_checkAndRefresh_fresh {n : Nat} {w : World τ Machine Exchange Outcome Remark}
    {auth : ProxmoxHTTPAuth} (h : w.state.client.auth = .ticket auth)
    (hdue : auth.due w.state.monotonic = false) :
    checkAndRefresh.exec E i n w = ⟨.ok (), n, w⟩ := by
  unfold checkAndRefresh
  rw [Co.exec_bind, Co.exec_state]
  simp only [h, hdue, Bool.false_eq_true, if_false, Co.exec_pure]

/-- A client that has just logged in renews nothing. -/
theorem exec_checkAndRefresh_loggedIn (hosts : List String) (n : Nat) :
    checkAndRefresh.exec E i n ⟨⟨ProxmoxVE.loggedIn hosts, 0⟩, []⟩ =
      ⟨.ok (), n, ⟨⟨ProxmoxVE.loggedIn hosts, 0⟩, []⟩⟩ := by
  refine exec_checkAndRefresh_fresh rfl ?_
  change decide ((0 : ℚ) - 0 ≥ 3600) = false
  decide +kernel

end Posts

/-! ## The life of a client -/

/-- One thing that happens to a client: a login by any of its callers, a request,
or a change of its hosts. -/
inductive ClientStep where
  | login (E : Surroundings Machine Outcome) (password : Option String) (otp : Option Bool)
      (otptype : Option String)
  | checkAndRefresh (E : Surroundings Machine Outcome)
  | request (E : Surroundings Machine Outcome) (method path : String)
      (jsonData params : Option Dict)
  | host (step : HostStep)

namespace ClientStep

/-- Nobody else touches the client meanwhile. -/
def Undisturbed : ClientStep → Prop
  | login E .. => Quiet E
  | checkAndRefresh E => Quiet E
  | request E .. => Quiet E
  | host step => step.Undisturbed

/-- The machine after the step. -/
def apply (m : Machine) : ClientStep → Machine
  | login E password otp otptype =>
      ((getNewTokens password otp otptype).exec E () 0 ⟨m, []⟩).world.state
  | checkAndRefresh E => (AioProxmox.checkAndRefresh.exec E () 0 ⟨m, []⟩).world.state
  | request E method path jsonData params =>
      ((AioProxmox.request method path jsonData params).exec E () 0 ⟨m, []⟩).world.state
  | host step => step.apply m

/-- No step changes the stored credentials. -/
theorem apply_credentials {step : ClientStep} (hstep : step.Undisturbed) (m : Machine) :
    (step.apply m).client.credentials = m.client.credentials := by
  cases step with
  | login E password otp otptype =>
      exact ((login_keeps hstep password otp otptype).mono fixed_of_loginFrame).unchanged_comp
        Fixed.credentials 0 ⟨m, []⟩
  | checkAndRefresh E =>
      exact (checkAndRefresh_keepsFixed hstep).unchanged_comp Fixed.credentials 0 ⟨m, []⟩
  | request E method path jsonData params =>
      exact (request_keepsFixed hstep method path jsonData params).unchanged_comp
        Fixed.credentials 0 ⟨m, []⟩
  | host step =>
      cases step with
      | learn hosts replace =>
          simp only [apply, HostStep.apply]
          split
          · rename_i client hlearn
            simp only [ProxmoxVE.credentials, ProxmoxVE.learnHosts_auth hlearn]
          · rfl
      | failover E fromHost verifyCurrent =>
          exact ((failover_keeps hstep fromHost verifyCurrent).mono
            fixed_of_failoverFrame).unchanged_comp Fixed.credentials 0 ⟨m, []⟩

end ClientStep

/-- A machine that a newly constructed client has come to. -/
def Lived (client : ProxmoxVE) (m : Machine) : Prop :=
  ∃ (clock : ℚ) (steps : List ClientStep), (∀ step ∈ steps, step.Undisturbed) ∧
    m = steps.foldl ClientStep.apply ⟨client, clock⟩

/-- Whatever a client has been through, its credentials are those it was
constructed with. -/
theorem lived_credentials {client : ProxmoxVE} {m : Machine} (h : Lived client m) :
    m.client.credentials = client.credentials := by
  rcases h with ⟨clock, steps, hsteps, rfl⟩
  have hrun : ∀ m : Machine, (∀ step ∈ steps, step.Undisturbed) →
      (steps.foldl ClientStep.apply m).client.credentials = m.client.credentials := by
    clear hsteps
    induction steps with
    | nil => exact fun m _ => rfl
    | cons step rest ih =>
        intro m hsteps
        have hfirst := ClientStep.apply_credentials (hsteps step List.mem_cons_self) m
        have hrest := ih (step.apply m) fun s hs => hsteps s (List.mem_cons_of_mem step hs)
        exact hrest.trans hfirst
  exact hrun ⟨client, clock⟩ hsteps

/-! ## What the caller gave -/

/-- The exchange is a post of this form. -/
def Posts (q : Exchange) (form : Dict) : Prop :=
  q.request.method = "POST" ∧ q.request.data = some form

/-- The posts of a login with a password and a one-time code, its first post being
answered by {lit}`reply`. -/
def LoginPosts (user password otp : String) (reply : Outcome) (posts : List Exchange) : Prop :=
  ∃ first rest, posts = first :: rest ∧
    Posts first [("username", .str user), ("password", .str password)] ∧
    (∀ data, acceptedData reply = some data → needsTfa data = true →
      ∃ ticket second, data.field? "ticket" = some ticket ∧ rest = [second] ∧
        Posts second [("username", .str user), ("tfa-challenge", ticket),
          ("password", .str ("totp" ++ ":" ++ otp))]) ∧
    ((∀ data, acceptedData reply = some data → needsTfa data = false) → rest = [])

/-- What the logins and the renewal of a client send. -/
structure CarriesCredentials {τ : Type} (user password otp : String)
    (E : Surroundings Machine Outcome) (i : τ) (n : Nat) (m : Machine) : Prop where
  asyncInit : LoginPosts user password otp (E.reply n)
    (asyncInit.exec E i n ⟨m, []⟩).world.sends
  relogin : LoginPosts user password otp (E.reply n) (relogin.exec E i n ⟨m, []⟩).world.sends
  renewal : ∀ auth, m.client.auth = .ticket auth → auth.due m.monotonic = true →
    let renewal := (getNewTokens none none none).exec E i n ⟨m, []⟩
    let run := checkAndRefresh.exec E i n ⟨m, []⟩
    (∃ first rest, run.world.sends = first :: rest ∧
      Posts first [("username", .str user), ("password", auth.pveAuthTicket)]) ∧
    ((∃ q ∈ run.world.sends, q.purpose = .login (some password)) ↔
      ∃ text, renewal.result = .error (.proxmoxAuthError text)) ∧
    (∀ text, renewal.result = .error (.proxmoxAuthError text) →
      run = AioProxmox.relogin.exec E i renewal.calls renewal.world)

/-- The credentials stored by a constructor given a password and a code. -/
theorem init_credentials {args : ProxmoxVE.Arguments} {user password otp : String}
    {client : ProxmoxVE}
    (h : ProxmoxVE.init { args with
      user := some user, password := some password, otp := some otp, tokenName := none } =
        .ok client) :
    client.credentials = some ⟨user, password, some (otp != ""), "totp"⟩ := by
  unfold ProxmoxVE.init at h
  rcases hport : ProxmoxVE.portOf { args with
      user := some user, password := some password, otp := some otp, tokenName := none }
    with e | port
  · rw [hport] at h
    contradiction
  · rw [hport] at h
    cases h
    rfl

/-- The first post carries the password, unless that is empty and a ticket is
held. -/
theorem targetPassword_eq_iff (password : String) (auth : ProxmoxHTTPAuth) :
    targetPassword (some password) auth = .str password ↔
      password ≠ "" ∨ auth.pveAuthTicket = .str "" := by
  unfold targetPassword
  by_cases hempty : password = ""
  · simp [hempty]
  · simp [hempty]

/-- The code arrives as the text of the flag it was made into. -/
theorem otpText_eq_iff (otp : String) :
    "totp" ++ ":" ++ otpText (some (otp != "")) = "totp" ++ ":" ++ otp ↔ otp = "True" := by
  have hcancel : ∀ s : String, "totp" ++ ":" ++ s = "totp" ++ ":" ++ otp ↔ s = otp := by
    intro s
    constructor
    · intro h
      have hlist := congrArg String.toList h
      simp only [String.toList_append] at hlist
      exact String.toList_injective (List.append_cancel_left hlist)
    · intro h
      rw [h]
  rw [hcancel]
  by_cases hempty : otp = ""
  · subst hempty
    decide
  · have hflag : (otp != "") = true := by simpa using hempty
    rw [hflag]
    exact eq_comm

/-- When the posts of a login are what the caller gave. -/
theorem loginPosts_iff {E : Surroundings Machine Outcome} {n : Nat} {m : Machine}
    {auth : ProxmoxHTTPAuth} {user password otp : String}
    (hcred : auth.credentials = ⟨user, password, some (otp != ""), "totp"⟩) :
    LoginPosts user password otp (E.reply n)
        (firstPost (some auth.password) auth ::
          laterPosts E n m auth auth.otp (some auth.otptype)) ↔
      (password ≠ "" ∨ auth.pveAuthTicket = .str "") ∧
        ∀ data, acceptedData (E.reply n) = some data → needsTfa data = true →
          usable data = true ∧ otp = "True" := by
  simp only [ProxmoxHTTPAuth.credentials, Credentials.mk.injEq] at hcred
  rcases hcred with ⟨huser, hpassword, hotp, htype⟩
  have hfirst : Posts (firstPost (some auth.password) auth)
      [("username", .str user), ("password", .str password)] ↔
        password ≠ "" ∨ auth.pveAuthTicket = .str "" := by
    rw [← targetPassword_eq_iff]
    simp [Posts, firstPost, ticketExchange, loginData, huser, hpassword]
  have hlater : ∀ data, acceptedData (E.reply n) = some data →
      laterPosts E n m auth auth.otp (some auth.otptype) =
        if usable data && needsTfa data then
          [secondPost auth.otp (some auth.otptype) auth.timeout
            (auth.adopted (E.during n m).monotonic data)]
        else [] := by
    intro data hdata
    simp only [laterPosts, hdata]
  have hsecond : ∀ data ticket, usable data = true → data.field? "ticket" = some ticket →
      (Posts (secondPost auth.otp (some auth.otptype) auth.timeout
          (auth.adopted (E.during n m).monotonic data))
        [("username", .str user), ("tfa-challenge", ticket),
          ("password", .str ("totp" ++ ":" ++ otp))] ↔ otp = "True") := by
    intro data ticket husable ht
    rcases usable_eq_true husable with ⟨ticket', csrf, ht', hc, -⟩
    rw [← otpText_eq_iff otp]
    simp [Posts, secondPost, ticketExchange, otpData, ProxmoxHTTPAuth.adopted,
      ProxmoxHTTPAuth.assigned_eq _ _ ht hc, huser, hotp, htype]
  constructor
  · rintro ⟨first, rest, hposts, hform, hchallenge, -⟩
    rw [List.cons.injEq] at hposts
    rcases hposts with ⟨rfl, rfl⟩
    refine ⟨hfirst.mp hform, fun data hdata hneed => ?_⟩
    rcases hchallenge data hdata hneed with ⟨ticket, second, ht, hrest, hsent⟩
    rw [hlater data hdata] at hrest
    by_cases husable : usable data = true
    · simp only [husable, hneed, Bool.and_self, if_true, List.cons.injEq, and_true] at hrest
      subst hrest
      exact ⟨husable, (hsecond data ticket husable ht).mp hsent⟩
    · simp [husable] at hrest
  · rintro ⟨hform, hchallenge⟩
    refine ⟨_, _, rfl, hfirst.mpr hform, fun data hdata hneed => ?_, fun hplain => ?_⟩
    · rcases hchallenge data hdata hneed with ⟨husable, hcode⟩
      rcases usable_eq_true husable with ⟨ticket, csrf, ht, -, -⟩
      refine ⟨ticket, _, ht, ?_, (hsecond data ticket husable ht).mpr hcode⟩
      rw [hlater data hdata]
      simp only [husable, hneed, Bool.and_self, if_true]
    · rcases hreply : acceptedData (E.reply n) with _ | data
      · simp only [laterPosts, hreply]
      · rw [hlater data hreply, hplain data hreply]
        simp

section Renewal

variable {τ : Type} {E : Surroundings Machine Outcome} {i : τ} {n : Nat} {m : Machine}
  {w : World τ Machine Exchange Outcome Remark} {auth : ProxmoxHTTPAuth} {text : String}

/-- A renewal that is refused ends as the login after it does. -/
theorem exec_checkAndRefresh_refused (h : w.state.client.auth = .ticket auth)
    (hdue : auth.due w.state.monotonic = true)
    (hrefused : ((getNewTokens none none none).exec E i n w).result =
      .error (.proxmoxAuthError text)) :
    checkAndRefresh.exec E i n w =
      relogin.exec E i ((getNewTokens none none none).exec E i n w).calls
        ((getNewTokens none none none).exec E i n w).world := by
  rw [exec_checkAndRefresh_due h hdue]
  rcases hrun : (getNewTokens none none none).exec E i n w with ⟨r, n', w'⟩
  rw [hrun] at hrefused
  simp only at hrefused
  subst hrefused
  rfl

/-- And any other renewal as it does itself. -/
theorem exec_checkAndRefresh_renewed (h : w.state.client.auth = .ticket auth)
    (hdue : auth.due w.state.monotonic = true)
    (hrenewed : ∀ text, ((getNewTokens none none none).exec E i n w).result ≠
      .error (.proxmoxAuthError text)) :
    checkAndRefresh.exec E i n w = (getNewTokens none none none).exec E i n w := by
  rw [exec_checkAndRefresh_due h hdue]
  rcases hrun : (getNewTokens none none none).exec E i n w with ⟨e | a, n', w'⟩
  · cases e with
    | proxmoxAuthError text => exact absurd (by rw [hrun]) (hrenewed text)
    | _ => rfl
  · rfl

/-- No post of the renewal itself is a login with a password. -/
theorem purpose_renewal_ne (hE : Quiet E) (i : τ) (n : Nat)
    (h : m.client.auth = .ticket auth) {q : Exchange}
    (hq : q ∈ ((getNewTokens none none none).exec E i n ⟨m, []⟩).world.sends) :
    q.purpose ≠ .login (some auth.password) := by
  have hsends : ((getNewTokens none none none).exec E i n ⟨m, []⟩).world.sends =
      firstPost none auth :: laterPosts E n m auth none none :=
    sends_getNewTokens hE h none none none
  rw [hsends] at hq
  rcases List.mem_cons.mp hq with rfl | hq
  · simp [firstPost, ticketExchange]
  · unfold laterPosts at hq
    split at hq
    · split_ifs at hq
      · rw [List.mem_singleton] at hq
        subst hq
        simp [secondPost, ticketExchange]
      · contradiction
    · contradiction

/-- A login after a refused renewal posts the password. -/
theorem sends_relogin_renewal (hE : Quiet E) (i : τ) (n : Nat)
    (h : m.client.auth = .ticket auth) :
    let renewal := (getNewTokens none none none).exec E i n ⟨m, []⟩
    ∃ login rest, (relogin.exec E i renewal.calls renewal.world).world.sends =
        renewal.world.sends ++ login :: rest ∧ login.purpose = .login (some auth.password) := by
  intro renewal
  have hcred : renewal.world.state.client.credentials = some auth.credentials := by
    have hkept : renewal.world.state.client.credentials = m.client.credentials :=
      ((login_keeps hE none none none).mono fixed_of_loginFrame).unchanged_comp
        Fixed.credentials n ⟨m, []⟩
    rw [hkept, ProxmoxVE.credentials_eq h]
  rcases ProxmoxVE.exists_ticket hcred with ⟨auth', hauth', hsame⟩
  have hpassword : auth'.password = auth.password := congrArg Credentials.password hsame
  have hboth := sends_relogin (i := i) (n := renewal.calls) hE hauth'
  refine ⟨firstPost (some auth'.password) auth', _, hboth, ?_⟩
  rw [← hpassword]
  rfl

end Renewal

/-- The renewal sends the ticket, and a password login follows exactly where it is
refused. -/
theorem renewal_posts {τ : Type} {E : Surroundings Machine Outcome} (hE : Quiet E) (i : τ)
    (n : Nat) {m : Machine} {auth : ProxmoxHTTPAuth} (h : m.client.auth = .ticket auth)
    (hdue : auth.due m.monotonic = true) :
    let renewal := (getNewTokens none none none).exec E i n ⟨m, []⟩
    let run := checkAndRefresh.exec E i n ⟨m, []⟩
    (∃ first rest, run.world.sends = first :: rest ∧
      Posts first [("username", .str auth.username), ("password", auth.pveAuthTicket)]) ∧
    ((∃ q ∈ run.world.sends, q.purpose = .login (some auth.password)) ↔
      ∃ text, renewal.result = .error (.proxmoxAuthError text)) ∧
    (∀ text, renewal.result = .error (.proxmoxAuthError text) →
      run = relogin.exec E i renewal.calls renewal.world) := by
  intro renewal run
  have hsends : renewal.world.sends =
      firstPost none auth :: laterPosts E n m auth none none :=
    sends_getNewTokens hE h none none none
  by_cases hrefused : ∃ text, renewal.result = .error (.proxmoxAuthError text)
  · rcases hrefused with ⟨text, hresult⟩
    have hagain : run = relogin.exec E i renewal.calls renewal.world :=
      exec_checkAndRefresh_refused h hdue hresult
    rcases sends_relogin_renewal hE i n h with ⟨login, rest, hlogin, hpurpose⟩
    rw [← hagain] at hlogin
    refine ⟨⟨firstPost none auth, laterPosts E n m auth none none ++ login :: rest, ?_, rfl, rfl⟩,
      ⟨fun _ => ⟨text, hresult⟩, fun _ => ⟨login, ?_, hpurpose⟩⟩, fun _ _ => hagain⟩
    · rw [hlogin, hsends, List.cons_append]
    · rw [hlogin]
      exact List.mem_append_right _ List.mem_cons_self
  · rw [not_exists] at hrefused
    have hsame : run = renewal := exec_checkAndRefresh_renewed h hdue hrefused
    rw [hsame]
    refine ⟨⟨_, _, hsends, rfl, rfl⟩, ⟨?_, ?_⟩, ?_⟩
    · rintro ⟨q, hq, hpassword⟩
      exact absurd hpassword (purpose_renewal_ne hE i n h hq)
    · rintro ⟨text, hresult⟩
      exact absurd hresult (hrefused text)
    · intro text hresult
      exact absurd hresult (hrefused text)

/-- Logins carry the credentials the caller gave exactly if the password is not
empty, or no ticket is held in its place, and an accepted answer that asks for a
second factor lacks nothing, while the code is the text {lit}`True`. -/
theorem login_carriesCredentials_iff {τ : Type} (args : ProxmoxVE.Arguments)
    {user password otp : String} {client : ProxmoxVE}
    (hinit : ProxmoxVE.init { args with
      user := some user, password := some password, otp := some otp, tokenName := none } =
        .ok client)
    {m : Machine} (hlived : Lived client m) {E : Surroundings Machine Outcome} (hE : Quiet E)
    (i : τ) (n : Nat) :
    CarriesCredentials user password otp E i n m ↔
      (password ≠ "" ∨ ∃ auth, m.client.auth = .ticket auth ∧ auth.pveAuthTicket = .str "") ∧
        ∀ data, acceptedData (E.reply n) = some data → needsTfa data = true →
          usable data = true ∧ otp = "True" := by
  have hcred : m.client.credentials = some ⟨user, password, some (otp != ""), "totp"⟩ := by
    rw [lived_credentials hlived, init_credentials hinit]
  rcases ProxmoxVE.exists_ticket hcred with ⟨auth, hauth, hsame⟩
  have huser : auth.username = user := congrArg Credentials.username hsame
  have hpassword : auth.password = password := congrArg Credentials.password hsame
  have hposts := loginPosts_iff (E := E) (n := n) (m := m) hsame
  have hfirst : (asyncInit.exec E i n ⟨m, []⟩).world.sends =
      firstPost (some auth.password) auth ::
        laterPosts E n m auth auth.otp (some auth.otptype) :=
    sends_asyncInit hE hauth
  have hagain : (relogin.exec E i n ⟨m, []⟩).world.sends =
      firstPost (some auth.password) auth ::
        laterPosts E n m auth auth.otp (some auth.otptype) :=
    sends_relogin hE hauth
  have hheld : (∃ auth', m.client.auth = .ticket auth' ∧ auth'.pveAuthTicket = .str "") ↔
      auth.pveAuthTicket = .str "" := by
    simp [hauth]
  rw [hheld, ← hposts]
  constructor
  · intro hcarries
    rw [← hfirst]
    exact hcarries.asyncInit
  · intro hlogin
    refine ⟨by rw [hfirst]; exact hlogin, by rw [hagain]; exact hlogin, ?_⟩
    intro auth' hauth' hdue
    have hauths : auth' = auth := Auth.ticket.inj (hauth'.symm.trans hauth)
    subst hauths
    rw [← huser, ← hpassword]
    exact renewal_posts hE i n hauth hdue

/-- A client just constructed, and an answer without a second factor. -/
theorem login_carriesCredentials_witness :
    ∃ client, ProxmoxVE.init {
        host := "192.0.2.1", user := some "root@pam", password := some "secret"
        otp := some "123456" } = .ok client ∧
      CarriesCredentials "root@pam" "secret" "123456"
        ⟨fun _ m => m, fun _ => .ok {
          status := 200
          json := .ok (.obj [("data", .obj [("ticket", .str "PVE:root@pam:1"),
            ("CSRFPreventionToken", .str "1:token")])]) }⟩
        () 0 ⟨client, 0⟩ := by
  refine ⟨_, rfl, ?_⟩
  refine (login_carriesCredentials_iff { host := "192.0.2.1" } rfl
    ⟨0, [], by simp, rfl⟩ (fun _ _ => rfl) () 0).mpr ⟨.inl (by decide), ?_⟩
  intro data hdata hneed
  have hanswer : data = .obj [("ticket", .str "PVE:root@pam:1"),
      ("CSRFPreventionToken", .str "1:token")] :=
    (Option.some.inj hdata).symm
  subst hanswer
  exact absurd hneed (by decide)

/-- A code of six digits is posted as {lit}`True`. -/
theorem login_carriesCredentials_counterexample :
    ∃ client, ProxmoxVE.init {
        host := "192.0.2.1", user := some "root@pam", password := some "secret"
        otp := some "123456" } = .ok client ∧
      ¬ CarriesCredentials "root@pam" "secret" "123456"
        ⟨fun _ m => m, fun _ => .ok {
          status := 200
          json := .ok (.obj [("data", .obj [("ticket", .str "PVE:!tfa!1"),
            ("CSRFPreventionToken", .str "1:token"), ("NeedTFA", .int 1)])]) }⟩
        () 0 ⟨client, 0⟩ := by
  refine ⟨_, rfl, ?_⟩
  intro hcarries
  rcases hcarries.asyncInit with ⟨first, rest, hposts, -, hchallenge, -⟩
  rcases hchallenge _ rfl rfl with ⟨ticket, second, -, hrest, hsecond⟩
  subst hrest
  have hsent := congrArg (fun posts => posts[1]?.bind fun q => q.request.data) hposts
  have hform : some [("username", Json.str "root@pam"), ("tfa-challenge", .str "PVE:!tfa!1"),
      ("password", .str "totp:True")] = second.request.data := hsent
  rw [hsecond.2] at hform
  simp at hform

end AioProxmox
