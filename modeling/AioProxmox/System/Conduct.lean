import AioProxmox.System.Calls

/-!
# System - the client under a discipline

Every task of a pool of calls keeps to a discipline that allows what the client does.  The
proof follows the text of the client from the login to {lit}`request`, and hands each event
and assignment to the discipline together with what is known at that point.

Main results:

- Theorem {lit}`Conduct.getNewTokens`: a login, where there is an occasion for one.
- Theorem {lit}`Conduct.failover`: the search, under the lock.
- Theorem {lit}`Conduct.request`: a request, with what its answer tells.
- Theorem {lit}`Conduct.systemCall`: every call.
-/

namespace AioProxmox

open Coroutine

variable {τ σ : Type} {text : Json → String} {calls : τ → SystemCall σ}
  {D : Discipline τ Machine Exchange Outcome Remark} {i : τ} {h : Bool}
  {w : World τ Machine Exchange Outcome Remark}

namespace Conduct

/-! ## Logging in -/

/-- A post has ended when its task goes on. -/
theorem post (hC : Conduct text calls D) {auth : ProxmoxHTTPAuth} {purpose : Purpose}
    {timeout : ℚ} {data : Dict} {Q : Ends τ Response} (hw : D.suspended w)
    (hauth : w.state.client.auth = .ticket auth) (hform : LoginForm auth purpose data)
    (hoccasion : Occasion (calls i).logsIn i w)
    (hQ : ∀ w' r, D.suspended w' →
      .got i (ticketExchange purpose auth timeout data) r ∈ w'.history → Q false r w') :
    (postTicket purpose auth timeout data).wp D i false Q w := by
  intro hassume
  rcases hC.posts i w auth purpose timeout data hw hauth hform hoccasion hassume with
    ⟨hallowed, hsuspended, hgot⟩
  refine ⟨hallowed, hsuspended, fun w₂ r hr hs hassume' => ?_⟩
  rcases hgot w₂ r hr hs hassume' with ⟨hallowed', hw'⟩
  exact ⟨hallowed', hQ _ r hw' (by simp)⟩

/-- Reading the authentication, in a method of the class that has tickets. -/
theorem ticketAuth {Q : Ends τ ProxmoxHTTPAuth}
    (hticket : ∀ auth, w.state.client.auth = .ticket auth → Q h (.ok auth) w)
    (htoken : ∀ message, Q h (.error (.attributeError message)) w) :
    ticketAuth.wp D i h Q w := by
  cases hauth : w.state.client.auth with
  | ticket auth =>
      rw [wp_ticketAuth hauth]
      exact hticket auth hauth
  | token auth =>
      rw [wp_ticketAuth_token hauth]
      exact htoken _

/-- The assignments that adopt an answer. -/
theorem adoptTokens (hC : Conduct text calls D) {data : Json} {Q : Ends τ Unit}
    (hw : D.suspended w) (hdata : Offered w.history data)
    (hQ : ∀ r w', D.suspended w' → w'.history = w.history →
      (∀ e, r = .error e → e.isLookup = true) → Q false r w') :
    (adoptTokens data).wp D i false Q w := by
  apply Co.wp_mono (hC.tokens i w data hw hdata)
  rintro _ r w' ⟨rfl, hw', hsame, hlookup⟩
  exact hQ r w' hw' hsame hlookup

/-- Adopting the capabilities is one assignment, or raises a lookup error. -/
theorem adoptCapabilities (hC : Conduct text calls D) {data : Json} {Q : Ends τ Unit}
    (hw : D.suspended w)
    (hQ : ∀ r w', D.suspended w' → w'.history = w.history →
      (∀ e, r = .error e → e.isLookup = true) → Q false r w') :
    (adoptCapabilities data).wp D i false Q w := by
  unfold AioProxmox.adoptCapabilities
  split
  · rename_i cap hcap
    simp only [Co.wp_bind, Co.wp_modify, Co.wp_ofExcept]
    rcases hread : PVECapabilities.ofKwargs cap with e | capabilities
    · exact hQ _ _ hw rfl fun e' he => by
        cases he
        exact PVECapabilities.ofKwargs_raises hread
    · have hadopt := hC.capabilities i w capabilities hw
      exact ⟨hadopt.1, hQ _ _ hadopt.2 rfl (by simp)⟩
  · exact hQ _ _ hw rfl (by simp)

/-- How a login ends: an exception of its own class comes after a post. -/
def LoginEnds (i : τ) (r : Except Exc Unit) (w : World τ Machine Exchange Outcome Remark) :
    Prop :=
  ∀ message, r = .error (.proxmoxAuthError message) → Posted i w.history

/-- A login that ends in a lookup error, or in none, has ended as told. -/
theorem loginEnds_of_lookup {r : Except Exc Unit}
    (hr : ∀ e, r = .error e → e.isLookup = true) : LoginEnds i r w := by
  rintro message rfl
  exact absurd (hr _ rfl) (by simp [Exc.isLookup])

/-- What was answered to a post is on offer. -/
theorem offered {q : Exchange} {response : Response} {body data : Json}
    (hgot : .got i q (.ok response) ∈ w.history) (hlogin : q.purpose.isLogin = true)
    (hbody : response.json = .ok body) (hdata : body.field? "data" = some data) :
    Offered w.history data :=
  ⟨i, q, response, body, hgot, hlogin, hbody, hdata⟩

/-- A value that counts as true stands under its key. -/
theorem field?_of_truthy {body data : Json} {key : String} (hget : body.dictGet key = .ok data)
    (htruthy : data.truthy = true) : body.field? key = some data := by
  cases body with
  | obj fields =>
      simp only [Json.dictGet, Except.ok.injEq] at hget
      simp only [Json.field?]
      cases hlookup : fields.lookup key with
      | some value =>
          rw [hlookup] at hget
          exact congrArg some hget
      | none =>
          rw [hlookup] at hget
          cases hget
          contradiction
  | null => contradiction
  | bool b => contradiction
  | int n => contradiction
  | float q => contradiction
  | str s => contradiction
  | arr items => contradiction

/-- The second step of a login. -/
theorem secondFactor (hC : Conduct text calls D) {otp : Option Bool} {otptype : Option String}
    {timeout : ℚ} (hw : D.suspended w) (hposted : Posted i w.history) :
    (secondFactor otp otptype timeout).wp D i false (Co.Ended D false (LoginEnds i)) w := by
  unfold AioProxmox.secondFactor
  rw [Co.wp_bind]
  refine ticketAuth (fun auth hauth => ?_) fun message => ⟨rfl, hw, by simp [LoginEnds]⟩
  dsimp only
  rw [Co.wp_bind]
  refine hC.post hw hauth (.secondFactor otp otptype) (.posted hposted) fun w' r hw' hgot => ?_
  have hposted' : Posted i w'.history := ⟨_, r, hgot, rfl⟩
  cases r with
  | error e => exact ⟨rfl, hw', fun _ _ => hposted'⟩
  | ok response =>
      simp only [Co.wp_bind, Co.wp_ofExcept]
      rcases hbody : response.json with e | body
      · exact ⟨rfl, hw', fun _ _ => hposted'⟩
      · dsimp only
        rcases hdata : body.dictGet "data" with e | data
        · exact ⟨rfl, hw', fun _ _ => hposted'⟩
        · dsimp only
          split_ifs with htruthy
          · have hoffered := offered hgot rfl hbody (field?_of_truthy hdata htruthy)
            refine hC.adoptTokens hw' hoffered fun r w₃ hw₃ _ hlookup => ?_
            exact ⟨rfl, hw₃, loginEnds_of_lookup hlookup⟩
          · exact ⟨rfl, hw', fun _ _ => hposted'⟩

/-- A login, where there is an occasion for one. -/
theorem getNewTokens (hC : Conduct text calls D) {password : Option String}
    {otp : Option Bool} {otptype : Option String} (hw : D.suspended w)
    (hoccasion : Occasion (calls i).logsIn i w)
    (hform : ∀ auth, w.state.client.auth = .ticket auth →
      LoginForm auth (.login password) (loginData password auth)) :
    (getNewTokens password otp otptype).wp D i false (Co.Ended D false (LoginEnds i)) w := by
  unfold AioProxmox.getNewTokens
  rw [Co.wp_bind]
  refine ticketAuth (fun auth hauth => ?_) fun message => ⟨rfl, hw, by simp [LoginEnds]⟩
  dsimp only
  rw [Co.wp_bind]
  refine hC.post hw hauth (hform auth hauth) hoccasion fun w' r hw' hgot => ?_
  have hposted : Posted i w'.history := ⟨_, r, hgot, rfl⟩
  cases r with
  | error e => exact ⟨rfl, hw', fun _ _ => hposted⟩
  | ok response =>
      dsimp only
      split_ifs
      · unfold acceptLogin
        simp only [Co.wp_bind, Co.wp_ofExcept]
        rcases hbody : response.json with e | body
        · exact ⟨rfl, hw', fun _ _ => hposted⟩
        · dsimp only
          rcases hdata : body.getItem "data" with e | data
          · exact ⟨rfl, hw', fun _ _ => hposted⟩
          · have hoffered := offered hgot rfl hbody ((Json.getItem_eq_ok_iff _ _ _).mp hdata)
            refine hC.adoptTokens hw' hoffered fun r w₃ hw₃ hsame₃ hlookup₃ => ?_
            cases r with
            | error e => exact ⟨rfl, hw₃, loginEnds_of_lookup hlookup₃⟩
            | ok _ =>
                dsimp only
                refine hC.adoptCapabilities hw₃ fun r w₄ hw₄ hsame₄ hlookup₄ => ?_
                have hposted₄ : Posted i w₄.history := by
                  rw [hsame₄, hsame₃]
                  exact hposted
                cases r with
                | error e => exact ⟨rfl, hw₄, loginEnds_of_lookup hlookup₄⟩
                | ok _ =>
                    dsimp only
                    rcases data.dictGet "NeedTFA" with e | needTfa
                    · exact ⟨rfl, hw₄, fun _ _ => hposted₄⟩
                    · dsimp only
                      split_ifs
                      · exact hC.secondFactor hw₄ hposted₄
                      · exact ⟨rfl, hw₄, by simp [LoginEnds]⟩
      · rw [Co.wp_bind]
        refine ticketAuth (fun _ _ => ?_) fun message => ⟨rfl, hw', by simp [LoginEnds]⟩
        exact ⟨rfl, hw', fun _ _ => hposted⟩

/-- {lit}`async_init` keeps to the discipline where it has an occasion. -/
theorem asyncInit (hC : Conduct text calls D) (hw : D.suspended w)
    (hoccasion : Occasion (calls i).logsIn i w) :
    asyncInit.wp D i false (Co.Ended D false Co.Anyhow) w := by
  unfold AioProxmox.asyncInit
  rw [Co.wp_bind]
  refine ticketAuth (fun auth hauth => ?_) fun message => ⟨rfl, hw, trivial⟩
  refine Co.wp_mono (hC.getNewTokens hw hoccasion fun auth' hauth' => ?_)
    fun _ _ _ hended => ⟨hended.1, hended.2.1, trivial⟩
  rw [hauth] at hauth'
  cases hauth'
  exact .password

/-- {lit}`relogin` keeps to the discipline where it has an occasion. -/
theorem relogin (hC : Conduct text calls D) (hw : D.suspended w)
    (hoccasion : Occasion (calls i).logsIn i w) :
    relogin.wp D i false (Co.Ended D false Co.Anyhow) w := by
  unfold AioProxmox.relogin
  simp only [Co.wp_bind, Co.wp_remark]
  intro hassume
  rcases hC.remarks i w .reloginEntered hw hassume with ⟨hallowed, hw'⟩
  refine ⟨hallowed, Co.wp_mono (hC.asyncInit hw' (hoccasion.log _)) ?_⟩
  rintro _ r w₂ ⟨rfl, hw₂, -⟩
  cases r with
  | error e => exact ⟨rfl, hw₂, trivial⟩
  | ok _ => exact (hC.remarks i w₂ .reloginReturned hw₂).mono fun w₃ hw₃ => ⟨rfl, hw₃, trivial⟩

/-- A renewal: the ticket is due when it is made, and a login with the password follows one
that was refused. -/
theorem checkAndRefresh (hC : Conduct text calls D) :
    Co.Meets D i false Co.Anyhow checkAndRefresh := by
  intro w hw
  unfold AioProxmox.checkAndRefresh
  rw [Co.wp_bind]
  simp only [Co.wp_state]
  cases hauth : w.state.client.auth with
  | token auth => exact ⟨rfl, hw, trivial⟩
  | ticket auth =>
      dsimp only
      split_ifs with hdue
      · rw [Co.wp_tryCatch]
        refine Co.wp_mono (hC.getNewTokens hw (.due hauth hdue) fun _ _ => .renewal) ?_
        rintro _ r w₂ ⟨rfl, hw₂, hends⟩
        cases r with
        | ok _ => exact ⟨rfl, hw₂, trivial⟩
        | error e =>
            dsimp only
            unfold refused
            split
            · exact hC.relogin hw₂ (.posted (hends _ rfl))
            · exact ⟨rfl, hw₂, trivial⟩
      · exact ⟨rfl, hw, trivial⟩

/-! ## One attempt -/

/-- What the answer to an attempt tells. -/
def AttemptEnds (i : τ) (method path : String) (r : Except Exc Json)
    (w : World τ Machine Exchange Outcome Remark) : Prop :=
  (∀ value, r = .ok value → Replied w.history method path value) ∧
    ∀ message endpoint, r = .error (.proxmoxAPIError 401 message endpoint) →
      Unauthenticated i w.history

/-- The method of a request is the one it is built with. -/
theorem buildRequest_method {client : ProxmoxVE} {method path : String}
    {jsonData params : Option Dict} {timeout : Option ℚ} {request : HttpRequest}
    (hrequest : buildRequest client method path jsonData params timeout = .ok request) :
    request.method = method := by
  unfold buildRequest at hrequest
  rcases hheaders : client.auth.getHeaders with e | headers
  · rw [hheaders] at hrequest
    contradiction
  · rw [hheaders] at hrequest
    cases hrequest
    rfl

/-- What cannot be built is missing from the tables, and is no answer. -/
theorem buildRequest_raises {client : ProxmoxVE} {method path : String}
    {jsonData params : Option Dict} {timeout : Option ℚ} {e : Exc}
    (hrequest : buildRequest client method path jsonData params timeout = .error e) :
    ∃ key, e = .keyError key := by
  have herror : client.auth.headersError = some e := by
    unfold buildRequest at hrequest
    unfold Auth.headersError
    rcases hheaders : client.auth.getHeaders with e' | headers
    · rw [hheaders] at hrequest
      cases hrequest
      rfl
    · rw [hheaders] at hrequest
      contradiction
  exact (Auth.headersError_keyError herror).2

/-- An attempt is one exchange, if its request can be built. -/
theorem attempt (hC : Conduct text calls D) {purpose : Purpose} {method path : String}
    {jsonData params : Option Dict} {timeout : Option ℚ} {Q : Ends τ Json} (hw : D.suspended w)
    (hattempt : ∀ request,
      buildRequest w.state.client method path jsonData params timeout = .ok request →
      Attempt w.state.client ⟨purpose, request⟩)
    (hprobe : purpose = .probe true → h = true)
    (hunsent : ∀ key, Q h (.error (.keyError key)) w)
    (hsent : ∀ request w' r,
      buildRequest w.state.client method path jsonData params timeout = .ok request →
      D.suspended w' → .got i ⟨purpose, request⟩ r ∈ w'.history →
      Q h (r >>= readResponse path) w') :
    (requestOnce purpose method path jsonData params timeout).wp D i h Q w := by
  unfold requestOnce
  rw [Co.wp_bind]
  simp only [wp_self]
  rw [Co.wp_bind]
  simp only [Co.wp_ofExcept]
  rcases hrequest : buildRequest w.state.client method path jsonData params timeout with
    e | request
  · rcases buildRequest_raises hrequest with ⟨key, rfl⟩
    exact hunsent key
  · simp only [Co.wp_bind, Co.wp_await]
    intro hassume
    rcases hC.attempts i h w ⟨purpose, request⟩ hw (hattempt request hrequest) hprobe hassume with
      ⟨hallowed, hsuspended, hgot⟩
    refine ⟨hallowed, hsuspended, fun w₂ r hr hs hassume' => ?_⟩
    rcases hgot w₂ r hr hs hassume' with ⟨hallowed', hw'⟩
    refine ⟨hallowed', ?_⟩
    have hended := hsent request (w₂.log (.got i ⟨purpose, request⟩ r)) r hrequest hw' (by simp)
    cases r with
    | error e => exact hended
    | ok response => exact hended

/-- An attempt at the caller's request. -/
theorem sends (hC : Conduct text calls D) (method path : String)
    (jsonData params : Option Dict) :
    Co.Meets D i false (AttemptEnds i method path)
      (requestOnce .request method path jsonData params none) := by
  intro w hw
  refine hC.attempt hw (fun request hrequest => .request hrequest) (by simp)
    (fun key => ⟨rfl, hw, by simp [AttemptEnds]⟩) fun request w' r hrequest hw' hgot => ?_
  refine ⟨rfl, hw', fun value hvalue => ?_, fun message endpoint herror => ?_⟩
  · exact ⟨i, _, r, _, hgot, rfl, buildRequest_method hrequest, buildRequest_url hrequest, hvalue⟩
  · exact ⟨_, r, path, message, endpoint, hgot, rfl, herror⟩

/-! ## Moving to another host -/

theorem self : Co.Meets D i h Co.Anyhow AioProxmox.self :=
  fun _ hw => ⟨rfl, hw, trivial⟩

theorem currentHost : Co.Meets D i h Co.Anyhow AioProxmox.currentHost :=
  fun _ hw => ⟨rfl, hw, trivial⟩

/-- A probe; only a task with the lock asks a candidate. -/
theorem answers (hC : Conduct text calls D) {candidate : Bool}
    (hprobe : candidate = true → h = true) : Co.Meets D i h Co.Anyhow (answers candidate) := by
  have hsend : Co.Meets D i h Co.Anyhow
      (requestOnce (.probe candidate) "GET" "version" none none (some probeTimeout)) := by
    intro w hw
    refine hC.attempt hw (fun request hrequest => .probe hrequest) (fun heq => ?_)
      (fun key => ⟨rfl, hw, trivial⟩) fun request w' r _ hw' _ => ⟨rfl, hw', trivial⟩
    cases heq
    exact hprobe rfl
  refine (hsend.andThen fun _ => .pure fun _ _ => trivial).orElse fun err => ?_
  unfold silent
  split
  · exact currentHost.andThen fun _ => .pure fun _ _ => trivial
  · split_ifs
    · exact currentHost.andThen fun _ => .pure fun _ _ => trivial
    · exact .throw fun _ _ => trivial

/-- Another host is used. -/
theorem useHost (hC : Conduct text calls D) (index : Nat) :
    Co.Meets D i true Co.Anyhow (useHost index) := by
  intro w hw
  simp only [AioProxmox.useHost, Co.wp_bind, Co.wp_modify, wp_self, Co.wp_ofExcept]
  refine ⟨hC.locked i w _, ?_⟩
  rcases hat : ({ w.state.client with hostIndex := index } : ProxmoxVE).hostAt index with
    e | host
  · have hnone : w.state.client.hosts[index]? = none := by
      unfold ProxmoxVE.hostAt at hat
      cases hindex : w.state.client.hosts[index]? with
      | none => rfl
      | some host =>
          dsimp only at hat
          rw [hindex] at hat
          contradiction
    exact ⟨rfl, hC.moves w _ hw (.misses hnone), trivial⟩
  · refine ⟨hC.locked i { w with state := _ } _, rfl, ?_, trivial⟩
    exact hC.moves w _ hw (.points (ProxmoxVE.hostAt_eq_ok_iff.mp hat))

/-- The walk keeps to the discipline, with the lock. -/
theorem walk (hC : Conduct text calls D) (start : Nat) (offsets : List Nat) :
    Co.Meets D i true Co.Anyhow (walk start offsets) := by
  induction offsets with
  | nil => exact (hC.useHost start).andThen fun _ => .pure fun _ _ => trivial
  | cons offset rest ih =>
      refine self.andThen fun client => (hC.useHost _).andThen fun _ =>
        (hC.answers fun _ => rfl).andThen fun there => ?_
      split_ifs
      · exact self.andThen fun _ => (Co.Meets.ofExcept (R := Co.Anyhow) fun _ _ => trivial).andThen
          fun _ => currentHost.andThen fun _ => .pure fun _ _ => trivial
      · exact ih

/-- The whole search keeps to the discipline, with the lock. -/
theorem switchHost (hC : Conduct text calls D) (fromHost : Option String)
    (verifyCurrent : Bool) : Co.Meets D i true Co.Anyhow (switchHost fromHost verifyCurrent) := by
  have hmoved : Co.Meets D i true Co.Anyhow (movedFrom fromHost) := by
    cases fromHost with
    | none => exact .pure fun _ _ => trivial
    | some host => exact currentHost.andThen fun _ => .pure fun _ _ => trivial
  have hthere : Co.Meets D i true Co.Anyhow (stillAnswers verifyCurrent) := by
    cases verifyCurrent with
    | false => exact .pure fun _ _ => trivial
    | true => exact hC.answers fun _ => rfl
  refine self.andThen fun client => hmoved.andThen fun moved => ?_
  split_ifs
  · exact currentHost.andThen fun _ => .pure fun _ _ => trivial
  · refine hthere.andThen fun stillThere => ?_
    split_ifs
    · exact currentHost.andThen fun _ => .pure fun _ _ => trivial
    · exact self.andThen fun _ => hC.walk _ _

/-- The search, under the lock. -/
theorem failover (hC : Conduct text calls D) (fromHost : Option String)
    (verifyCurrent : Bool) : Co.Meets D i false Co.Anyhow (failover fromHost verifyCurrent) :=
  (Co.Meets.remark fun w hw => hC.remarks i w _ hw).andThen fun _ =>
    ((hC.switchHost fromHost verifyCurrent).withLock (hC.takes i) (hC.gives i)).andThen fun _ =>
      (Co.Meets.remark fun w hw => hC.remarks i w _ hw).andThen fun _ => .pure fun _ _ => trivial

/-- {lit}`failover` keeps to the discipline where there are peers. -/
theorem failoverIfPeers (hC : Conduct text calls D) (fromHost : Option String)
    (verifyCurrent : Bool) :
    Co.Meets D i false Co.Anyhow (failoverIfPeers fromHost verifyCurrent) := by
  refine self.andThen fun client => ?_
  split_ifs
  · exact .pure fun _ _ => trivial
  · exact hC.failover fromHost verifyCurrent

/-! ## The pipeline -/

/-- A renewal on another host keeps to the discipline. -/
theorem renewElsewhere (hC : Conduct text calls D) (err : Exc) :
    Co.Meets D i false Co.Anyhow (renewElsewhere err) := by
  unfold AioProxmox.renewElsewhere
  split_ifs
  · refine (hC.failoverIfPeers _ _).andThen fun moved => ?_
    split_ifs
    · exact hC.checkAndRefresh
    · exact .throw fun _ _ => trivial
  · exact .throw fun _ _ => trivial

/-- What a request was answered. -/
abbrev RequestEnds (method path : String) (r : Except Exc Json)
    (w : World τ Machine Exchange Outcome Remark) : Prop :=
  ∀ value, r = .ok value → Replied w.history method path value

/-- The recovery after a failed attempt: a login follows a 401 only. -/
theorem recover (hC : Conduct text calls D) {method path : String}
    {jsonData params : Option Dict} {hostBefore : String} {err : Exc} (hw : D.suspended w)
    (hends : AttemptEnds i method path (.error err) w) :
    (recover method path jsonData params hostBefore err).wp D i false
      (Co.Ended D false (RequestEnds method path)) w := by
  have hsend : Co.Meets D i false (RequestEnds method path)
      (requestOnce .request method path jsonData params none) :=
    (hC.sends method path jsonData params).mono fun _ _ hends => hends.1
  have hthrow : ∀ (w : World τ Machine Exchange Outcome Remark) (e : Exc), D.suspended w →
      Co.Ended D false (RequestEnds method path) false (.error e) w :=
    fun w e hw => ⟨rfl, hw, fun _ hvalue => by contradiction⟩
  unfold AioProxmox.recover
  split
  · rename_i status message endpoint
    rw [Co.wp_bind]
    simp only [wp_self]
    split_ifs with hstatus
    · exact hthrow w _ hw
    · rw [not_or, not_not] at hstatus
      rcases hstatus with ⟨rfl, -⟩
      rw [Co.wp_bind]
      refine Co.wp_mono
        (hC.relogin hw (.unauthenticated (hends.2 message endpoint rfl))) ?_
      rintro _ r w₂ ⟨rfl, hw₂, -⟩
      cases r with
      | error e => exact hthrow w₂ e hw₂
      | ok _ => exact hsend w₂ hw₂
  · split_ifs
    · rw [Co.wp_bind]
      refine Co.wp_mono (hC.failoverIfPeers _ _ w hw) ?_
      rintro _ r w₂ ⟨rfl, hw₂, -⟩
      cases r with
      | error e => exact hthrow w₂ e hw₂
      | ok moved =>
          dsimp only
          split_ifs
          · exact hsend w₂ hw₂
          · exact hthrow w₂ _ hw₂
    · exact hthrow w _ hw

/-- A request, with what its answer tells. -/
theorem request (hC : Conduct text calls D) (method path : String)
    (jsonData params : Option Dict) :
    Co.Meets D i false (RequestEnds method path) (request method path jsonData params) := by
  have hrenewal : Co.Meets D i false Co.Anyhow
      (tryCatch AioProxmox.checkAndRefresh AioProxmox.renewElsewhere) :=
    hC.checkAndRefresh.orElse hC.renewElsewhere
  refine hrenewal.bind (fun _ w₁ hw₁ _ => ?_) fun _ _ _ _ hvalue => by contradiction
  refine (currentHost.bind (fun hostBefore w₂ hw₂ _ => ?_)
    fun _ _ _ _ hvalue => by contradiction) w₁ hw₁
  refine (hC.sends method path jsonData params).tryCatch (fun value w hends => hends.1)
    (fun err w hw hends => hC.recover hw hends) w₂ hw₂

/-! ## Every call -/

/-- A call of {lit}`learn_hosts`, with names that are news once it has begun. -/
theorem hearHosts (hC : Conduct text calls D) {names : List Json} {replace : Bool}
    (hw : D.suspended w)
    (hnews : News text i (calls i) (.noted i .learnHostsEntered :: w.history) names replace) :
    (hearHosts names replace).wp D i false (Co.Ended D false Co.Anyhow) w := by
  simp only [AioProxmox.hearHosts, Co.wp_bind, Co.wp_remark, wp_self, Co.wp_ofExcept]
  intro hassume
  rcases hC.remarks i w .learnHostsEntered hw hassume with ⟨hallowed, hbegun⟩
  refine ⟨hallowed, ?_⟩
  dsimp only [World.log_state]
  rcases hlearn : w.state.client.learnHosts names replace with e | client
  · exact ⟨rfl, hbegun, trivial⟩
  · have hchanges := hC.hears i (w.log (.noted i .learnHostsEntered)) names replace client hbegun
      hnews hlearn
    exact ⟨hchanges.1, rfl, hchanges.2, trivial⟩

/-- What the cluster says of its nodes. -/
theorem clusterStatus (hC : Conduct text calls D) :
    Co.Meets D i false (fun r w => ∀ entries, r = .ok entries →
      News text i (calls i) w.history (nodeAddresses text entries) false) clusterStatus := by
  refine (hC.request "GET" "cluster/status" none none).bind (fun raw w hw hends => ?_)
    fun _ _ _ _ hentries => by contradiction
  cases raw with
  | arr items =>
      refine ⟨rfl, hw, fun entries hentries => ?_⟩
      cases hentries
      exact .cluster items (hends _ rfl)
  | null => exact ⟨rfl, hw, fun entries hentries => by cases hentries; exact .nothing⟩
  | bool b => exact ⟨rfl, hw, fun entries hentries => by cases hentries; exact .nothing⟩
  | int n => exact ⟨rfl, hw, fun entries hentries => by cases hentries; exact .nothing⟩
  | float q => exact ⟨rfl, hw, fun entries hentries => by cases hentries; exact .nothing⟩
  | str s => exact ⟨rfl, hw, fun entries hentries => by cases hentries; exact .nothing⟩
  | obj fields => exact ⟨rfl, hw, fun entries hentries => by cases hentries; exact .nothing⟩

/-- {lit}`learn_hosts_from_cluster` keeps to the discipline, with the names of the answer. -/
theorem learnHostsFromCluster (hC : Conduct text calls D) :
    Co.Meets D i false Co.Anyhow (learnHostsFromCluster text) := by
  have hasked : Co.Meets D i false (fun r w => ∀ entries, r = .ok (some entries) →
      News text i (calls i) w.history (nodeAddresses text entries) false)
      (do return some (← AioProxmox.clusterStatus)) := by
    refine hC.clusterStatus.bind (fun entries w hw hnews => ?_)
      fun _ _ _ _ hentries => by contradiction
    refine ⟨rfl, hw, fun entries' heq => ?_⟩
    cases heq
    exact hnews entries rfl
  have hguarded : Co.Meets D i false (fun r w => ∀ entries, r = .ok (some entries) →
      News text i (calls i) w.history (nodeAddresses text entries) false)
      (tryCatch (do return some (← AioProxmox.clusterStatus)) noStatus) := by
    refine hasked.tryCatch (fun _ _ hnews => hnews) fun err w hw _ => ?_
    unfold noStatus
    split_ifs
    · exact ⟨rfl, hw, by simp⟩
    · exact ⟨rfl, hw, by simp⟩
  refine hguarded.bind (fun entries w hw hnews => ?_) fun _ _ _ => trivial
  cases entries with
  | none => exact ⟨rfl, hw, trivial⟩
  | some entries => exact hC.hearHosts hw ((hnews entries rfl).mono (List.subset_cons_self _ _))

/-- Every call of the client keeps to the discipline. -/
theorem hostCall (hC : Conduct text calls D) {call : HostCall}
    (hcall : calls i = .host call) : Co.Meets D i false Co.Anyhow (call.run text) := by
  cases call with
  | client call =>
      refine Co.Meets.andThen (R := Co.Anyhow) ?_ fun _ => .pure fun _ _ => trivial
      cases call with
      | request call => exact (hC.request _ _ _ _).mono fun _ _ _ => trivial
      | failover fromHost verifyCurrent =>
          exact (hC.failover _ _).andThen fun _ => .pure fun _ _ => trivial
  | asyncInit => exact fun w hw => hC.asyncInit hw (.asked (by rw [hcall]; rfl))
  | learnHostsFromCluster => exact hC.learnHostsFromCluster

/-- The request that serves a call of an endpoint keeps to the discipline. -/
theorem serves (hC : Conduct text calls D) (call : ApiCall) :
    Co.Meets D i false Co.Anyhow call.serve :=
  (Co.Meets.ofExcept (R := Co.Anyhow) fun _ _ => trivial).andThen fun _ =>
    (hC.request _ _ _ _).mono fun _ _ _ => trivial

/-- A method of an endpoint keeps to the discipline beside its own state. -/
theorem endpoint (hC : Conduct text calls D) (method : EndpointMethod σ) :
    Co.Meets D.second i false Co.Anyhow (method.run.servedBy ApiCall.serve) :=
  Co.Meets.servedBy method.lockless hC.serves fun w e hw => hC.remarks i w e hw

/-- Every call keeps to the discipline. -/
theorem systemCall (hC : Conduct text calls D) (i : τ) :
    Co.Meets D.second i false Co.Anyhow ((calls i).run text) := by
  cases hcall : calls i with
  | endpoint method => exact hC.endpoint method
  | host call => exact (hC.hostCall hcall).beside
  | learnHosts names replace =>
      have hhears : Co.Meets D i false Co.Anyhow (AioProxmox.hearHosts names replace) :=
        fun w hw => hC.hearHosts hw (.given hcall (by simp))
      exact hhears.beside
  | connect fetch =>
      have hlogin : Co.Meets D i false Co.Anyhow connectLogin := by
        refine self.andThen fun client => ?_
        split_ifs
        · exact fun w hw => hC.asyncInit hw (.asked (by rw [hcall]; rfl))
        · exact .pure fun _ _ => trivial
      exact Co.Meets.andThen hlogin.beside fun _ => hC.endpoint fetch

/-- A pool of calls keeps to the discipline. -/
theorem kept (hC : Conduct text calls D) (hassume : ∀ history, D.assume history) {s : σ}
    {m : Machine} (hsuspended : D.suspended ⟨m, []⟩) (hfree : D.free ⟨m, []⟩) :
    Config.Kept D.second (s, m) fun i => (calls i).run text where
  assume := hassume
  suspended := hsuspended
  free := hfree
  tasks := hC.systemCall

end Conduct

end AioProxmox
