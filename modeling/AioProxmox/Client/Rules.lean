import AioProxmox.Client.HostList
import AioProxmox.Coroutine.RelyGuarantee

/-!
# Client - proof rules for the parts of the pipeline

The verification conditions of the coroutines that several tasks may run at the
same time, one rule for each, so that a proof about {lit}`failover` or
{lit}`request` among others follows their text.

Main results:

- Theorem {lit}`wp_useHost`: the two assignments of {lit}`_use_host`.
- Theorem {lit}`wp_answers`: a probe is one exchange, and its verdict a function
  of the answer.
- Theorems {lit}`wp_walk` and {lit}`wp_switchHost`: the search, by an invariant of the
  walk.
- Theorem {lit}`wp_failover`: the search under the lock between two remarks.
-/

namespace AioProxmox

open Coroutine

/-- Beside the calls nothing touches the client; the clock may go on. -/
def ClientKept {τ α : Type} (c : Config τ Machine Exchange Outcome Exc Remark α) :
    Action τ Machine Outcome → Prop
  | .environment f => (f c.world.state).client = c.world.state.client
  | _ => True

/-! ## Verdict and address of a probe -/

/-- What {lit}`_answers` makes of the end of its exchange. -/
def verdictOf (reply : Outcome) : Except Exc Bool :=
  match reply >>= readResponse "version" with
  | .ok _ => .ok true
  | .error e =>
      if e.isProxmoxAPIError then .ok true
      else if e.isProxmoxError || e.isClientError || e.isTimeoutError then .ok false
      else .error e

/-- An answer of a host, or its silence. -/
def replyOf (there : Bool) : Outcome :=
  if there then .ok { status := 200 } else .error (.timeoutError "")

/-- A host that is there is there for the probe, one that is silent is not. -/
theorem verdictOf_replyOf (there : Bool) : verdictOf (replyOf there) = .ok there := by
  cases there <;> rfl

/-- A lost host is silent. -/
theorem verdictOf_lost {err : Exc} (h : err.isLostHost = true) :
    verdictOf (.error err) = .ok false := by
  cases err <;> simp_all [Exc.isLostHost, Exc.isClientConnectionError, Exc.isTimeoutError] <;> rfl

/-- Where an attempt on a path goes, from the client's base URL. -/
def addressOf (baseUrl path : String) : String :=
  Text.rstrip '/' baseUrl ++ "/" ++ Text.lstrip '/' path

/-- Where a request goes. -/
theorem buildRequest_url {client : ProxmoxVE} {method path : String}
    {jsonData params : Option Dict} {timeout : Option ℚ} {request : HttpRequest}
    (h : buildRequest client method path jsonData params timeout = .ok request) :
    request.url = addressOf client.baseUrl path := by
  unfold buildRequest at h
  rcases hheaders : client.auth.getHeaders with e | headers
  · rw [hheaders] at h
    contradiction
  · rw [hheaders] at h
    cases h
    rfl

/-- No slash ends the URL of a host, so nothing is stripped. -/
theorem rstrip_apiUrl (host : String) (port : Nat) :
    Text.rstrip '/' (apiUrl host port) = apiUrl host port := by
  have hlast : (apiUrl host port).toList =
      ("https://" ++ host ++ ":" ++ toString port ++ "/api2/jso").toList ++ ['n'] := by
    have hpath : "/api2/json".toList = "/api2/jso".toList ++ ['n'] := by decide
    simp only [apiUrl, String.toList_append, hpath, List.append_assoc]
  apply String.toList_injective
  rw [Text.rstrip, String.toList_ofList, hlast]
  exact List.rdropWhile_concat_neg _ _ _ (by decide)

/-- With the port fixed, an address names one host. -/
theorem addressOf_injective {port : Nat} {path a b : String}
    (h : addressOf (apiUrl a port) path = addressOf (apiUrl b port) path) : a = b := by
  unfold addressOf at h
  rw [rstrip_apiUrl, rstrip_apiUrl] at h
  simp only [String.append_left_inj] at h
  exact apiUrl_injective h

/-- A postcondition of a coroutine of the client. -/
abbrev Ends (τ α : Type) :=
  Post τ Machine Exchange Outcome Exc Remark α

section Rules

variable {τ : Type} {D : Discipline τ Machine Exchange Outcome Remark} {i : τ}
  {h : Bool} {w : World τ Machine Exchange Outcome Remark}

/-- Reading the client. -/
@[simp]
theorem wp_self (Q : Ends τ ProxmoxVE) :
    self.wp D i h Q w ↔ Q h (.ok w.state.client) w :=
  Iff.rfl

/-- Naming the host in use. -/
@[simp]
theorem wp_currentHost (Q : Ends τ String) :
    currentHost.wp D i h Q w ↔ Q h w.state.client.host w :=
  Iff.rfl

/-- Where there is a host in use, it is compared with the one the caller was on. -/
theorem wp_movedFrom {fromHost : Option String} {current : String} {Q : Ends τ Bool}
    (hhost : w.state.client.host = .ok current)
    (hQ : Q h (.ok (fromHost.any (· != current))) w) : (movedFrom fromHost).wp D i h Q w := by
  unfold movedFrom
  cases fromHost with
  | none => exact hQ
  | some host =>
      simp only [Co.wp_bind, wp_currentHost, hhost, Co.wp_pure]
      exact hQ

/-- The two assignments of {lit}`_use_host` are allowed. -/
structure AllowsMove (D : Discipline τ Machine Exchange Outcome Remark) (i : τ) (h : Bool)
    (w : World τ Machine Exchange Outcome Remark) (index : Nat) (host : String) : Prop where
  assigns : D.Allows i h w { w with
    state := { w.state with client := { w.state.client with hostIndex := index } } }
  points : D.Allows i h
    { w with state := { w.state with client := { w.state.client with hostIndex := index } } }
    { w with state := w.state.placedAt index host }

/-- {lit}`_use_host` with an index in range is two assignments. -/
theorem wp_useHost {index : Nat} {host : String} {Q : Ends τ Unit}
    (hhost : w.state.client.hosts[index]? = some host) (hallows : AllowsMove D i h w index host)
    (hQ : Q h (.ok ()) { w with state := w.state.placedAt index host }) :
    (useHost index).wp D i h Q w := by
  have hat : ({ w.state.client with hostIndex := index } : ProxmoxVE).hostAt index =
      .ok host :=
    ProxmoxVE.hostAt_eq_ok_iff.mpr hhost
  simp only [useHost, Co.wp_bind, Co.wp_modify, wp_self, Co.wp_ofExcept, hat]
  exact ⟨hallows.assigns, hallows.points, hQ⟩

/-- An attempt is one exchange, if its request can be built. -/
theorem wp_requestOnce {purpose : Purpose} {method path : String}
    {jsonData params : Option Dict} {timeout : Option ℚ} {Q : Ends τ Json}
    (hunsent : ∀ e, w.state.client.auth.headersError = some e → Q h (.error e) w)
    (hsent : ∀ request, w.state.client.auth.headersError = none →
      request.url = addressOf w.state.client.baseUrl path →
      D.Logs i h w (.sent i ⟨purpose, request⟩) fun w₁ => D.suspended w₁ ∧
        ∀ w₂ r, D.rely i h w₁ w₂ → D.suspended w₂ →
          D.Logs i h w₂ (.got i ⟨purpose, request⟩ r) (Q h (r >>= readResponse path))) :
    (requestOnce purpose method path jsonData params timeout).wp D i h Q w := by
  unfold requestOnce
  rw [Co.wp_bind]
  simp only [wp_self]
  rw [Co.wp_bind]
  simp only [Co.wp_ofExcept]
  rcases hrequest : buildRequest w.state.client method path jsonData params timeout with
    e | request
  · apply hunsent
    unfold Auth.headersError
    unfold buildRequest at hrequest
    rcases hheaders : w.state.client.auth.getHeaders with e' | headers
    · rw [hheaders] at hrequest
      cases hrequest
      rfl
    · rw [hheaders] at hrequest
      contradiction
  · have hbuilt : w.state.client.auth.headersError = none := by
      unfold Auth.headersError
      unfold buildRequest at hrequest
      rcases hheaders : w.state.client.auth.getHeaders with e | headers
      · rw [hheaders] at hrequest
        contradiction
      · rfl
    simp only [Co.wp_bind, Co.wp_await]
    intro hassume
    rcases hsent request hbuilt (buildRequest_url hrequest) hassume with ⟨hallowed, hsusp, hrest⟩
    refine ⟨hallowed, hsusp, fun w₂ r hr hs => (hrest w₂ r hr hs).mono fun w₃ hQ => ?_⟩
    cases r with
    | error e => exact hQ
    | ok response => exact hQ

/-- A probe is one exchange, and its verdict that of the answer. -/
theorem wp_answers {candidate : Bool} {Q : Ends τ Bool}
    (hunsent : ∀ e, w.state.client.auth.headersError = some e → Q h (.error e) w)
    (hsent : ∀ request, w.state.client.auth.headersError = none →
      request.url = addressOf w.state.client.baseUrl "version" →
      D.Logs i h w (.sent i ⟨.probe candidate, request⟩) fun w₁ => D.suspended w₁ ∧
        ∀ w₂ r, D.rely i h w₁ w₂ → D.suspended w₂ →
          D.Logs i h w₂ (.got i ⟨.probe candidate, request⟩ r) fun w₃ =>
            (∃ host, w₃.state.client.host = .ok host) ∧ Q h (verdictOf r) w₃) :
    (answers candidate).wp D i h Q w := by
  unfold answers
  rw [Co.wp_tryCatch, Co.wp_bind]
  refine wp_requestOnce (fun e he => ?_) fun request hheaders hurl => ?_
  · rcases (Auth.headersError_keyError he).2 with ⟨key, rfl⟩
    exact hunsent _ he
  · intro hassume
    rcases hsent request hheaders hurl hassume with ⟨hallowed, hsusp, hrest⟩
    refine ⟨hallowed, hsusp, fun w₂ r hr hs => (hrest w₂ r hr hs).mono fun w₃ hQ => ?_⟩
    rcases hQ with ⟨⟨host, hhost⟩, hQ⟩
    unfold verdictOf at hQ
    cases hread : r >>= readResponse "version" with
    | ok v =>
        rw [hread] at hQ
        exact hQ
    | error e =>
        rw [hread] at hQ
        simp only at hQ ⊢
        have hsilent : silent e =
            if e.isProxmoxAPIError then currentHost >>= fun _ => pure true
            else if e.isProxmoxError || e.isClientError || e.isTimeoutError then
              currentHost >>= fun _ => pure false
            else throw e := by
          cases e <;> rfl
        rw [hsilent]
        split_ifs with hrefusal hhandled
        · rw [Co.wp_bind]
          simp only [wp_currentHost, hhost, Co.wp_pure]
          rw [if_pos hrefusal] at hQ
          exact hQ
        · rw [Co.wp_bind]
          simp only [wp_currentHost, hhost, Co.wp_pure]
          rw [if_neg hrefusal, if_pos hhandled] at hQ
          exact hQ
        · rw [if_neg hrefusal, if_neg hhandled] at hQ
          exact hQ

/-- The walk, by an invariant that holds before each of its candidates, whichever are
left: what it makes of a candidate's verdict, and the return to the start. -/
theorem wp_walk_of_allowed {start : Nat} {Q : Ends τ Bool}
    {I : List Nat → World τ Machine Exchange Outcome Remark → Prop}
    (hstart : ∀ offsets w, I offsets w → start < w.state.client.hosts.length)
    (hback : ∀ w host, I [] w → w.state.client.hosts[start]? = some host →
      AllowsMove D i h w start host ∧
        Q h (.ok false) { w with state := w.state.placedAt start host })
    (hprobe : ∀ offset rest w index host, I (offset :: rest) w →
      index = (start + offset) % w.state.client.hosts.length →
      w.state.client.hosts[index]? = some host →
      AllowsMove D i h w index host ∧ (answers true).wp D i h (fun h' r w' =>
        match r with
        | .ok true => start < w'.state.client.hosts.length ∧
            (∃ host, w'.state.client.host = .ok host) ∧ Q h' (.ok true) w'
        | .ok false => h' = h ∧ I rest w'
        | .error e => Q h' (.error e) w') { w with state := w.state.placedAt index host })
    (offsets : List Nat) (hw : I offsets w) : (walk start offsets).wp D i h Q w := by
  induction offsets generalizing w with
  | nil =>
      have hhost := List.getElem?_eq_getElem (hstart [] w hw)
      rcases hback w _ hw hhost with ⟨hallows, hQ⟩
      rw [walk, Co.wp_bind]
      exact wp_useHost hhost hallows hQ
  | cons offset rest ih =>
      have hlt := Nat.mod_lt (start + offset) (Nat.zero_lt_of_lt (hstart _ w hw))
      have hhost := List.getElem?_eq_getElem hlt
      rcases hprobe offset rest w _ _ hw rfl hhost with ⟨hallows, hanswers⟩
      rw [walk, Co.wp_bind]
      simp only [wp_self]
      rw [Co.wp_bind]
      refine wp_useHost hhost hallows ?_
      rw [Co.wp_bind]
      apply Co.wp_mono hanswers
      intro h' r w' hverdict
      cases r with
      | error e => exact hverdict
      | ok there =>
          cases there with
          | true =>
              -- the warning reads the hosts at the start and now in use
              rcases hverdict with ⟨hlt', ⟨current, hcurrent⟩, hQ⟩
              have hwarned := ProxmoxVE.hostAt_eq_ok_iff.mpr (List.getElem?_eq_getElem hlt')
              simp only [if_true, Co.wp_bind, wp_self, Co.wp_ofExcept, wp_currentHost, hwarned,
                hcurrent, Co.wp_pure]
              exact hQ
          | false =>
              rcases hverdict with ⟨rfl, hI⟩
              exact ih hI

/-- The walk where others see nothing but the history. -/
theorem wp_walk {start : Nat} {Q : Ends τ Bool}
    {I : List Nat → World τ Machine Exchange Outcome Remark → Prop}
    (hallows : ∀ offsets w w₁ w₂, I offsets w → w₁.history = w.history →
      w₂.history = w.history → D.Allows i h w₁ w₂)
    (hstart : ∀ offsets w, I offsets w → start < w.state.client.hosts.length)
    (hback : ∀ w host, I [] w → w.state.client.hosts[start]? = some host →
      Q h (.ok false) { w with state := w.state.placedAt start host })
    (hprobe : ∀ offset rest w index host, I (offset :: rest) w →
      index = (start + offset) % w.state.client.hosts.length →
      w.state.client.hosts[index]? = some host →
      (answers true).wp D i h (fun h' r w' =>
        match r with
        | .ok true => start < w'.state.client.hosts.length ∧
            (∃ host, w'.state.client.host = .ok host) ∧ Q h' (.ok true) w'
        | .ok false => h' = h ∧ I rest w'
        | .error e => Q h' (.error e) w') { w with state := w.state.placedAt index host })
    (offsets : List Nat) (hw : I offsets w) : (walk start offsets).wp D i h Q w := by
  have hmoves : ∀ offsets w index host, I offsets w → AllowsMove D i h w index host :=
    fun offsets w _ _ hI =>
      ⟨hallows offsets w _ _ hI rfl rfl, hallows offsets w _ _ hI rfl rfl⟩
  refine wp_walk_of_allowed hstart (fun w host hI hhost => ?_)
    (fun offset rest w index host hI hindex hhost => ?_) offsets hw
  · exact ⟨hmoves [] w start host hI, hback w host hI hhost⟩
  · exact ⟨hmoves _ w index host hI, hprobe offset rest w index host hI hindex hhost⟩

/-- Without the check the host in use counts as silent. -/
@[simp]
theorem stillAnswers_false : stillAnswers false = pure false :=
  rfl

/-- With the check it is asked. -/
@[simp]
theorem stillAnswers_true : stillAnswers true = answers false :=
  rfl

/-- The search under the lock: nothing is done where the caller was on another host;
else the host in use is asked, if need be, and the others if it does not answer. -/
theorem wp_switchHost {fromHost : Option String} {verifyCurrent : Bool} {current : String}
    {Q : Ends τ Bool} (hhost : w.state.client.host = .ok current)
    (hmoved : fromHost.any (· != current) = true → Q h (.ok true) w)
    (hstill : fromHost.any (· != current) = false →
      (stillAnswers verifyCurrent).wp D i h (fun h' r w' =>
        match r with
        | .ok true => (∃ host, w'.state.client.host = .ok host) ∧ Q h' (.ok false) w'
        | .ok false => (walk w.state.client.hostIndex
            (List.range' 1 (w'.state.client.hosts.length - 1))).wp D i h' Q w'
        | .error e => Q h' (.error e) w') w) :
    (switchHost fromHost verifyCurrent).wp D i h Q w := by
  unfold switchHost
  rw [Co.wp_bind]
  simp only [wp_self]
  rw [Co.wp_bind]
  apply wp_movedFrom hhost
  cases hany : fromHost.any (· != current) with
  | true =>
      simp only [if_true, Co.wp_bind, wp_currentHost, hhost, Co.wp_pure]
      exact hmoved hany
  | false =>
      simp only [Bool.false_eq_true, if_false]
      rw [Co.wp_bind]
      apply Co.wp_mono (hstill hany)
      intro h' r w' hverdict
      cases r with
      | error e => exact hverdict
      | ok stillThere =>
          cases stillThere with
          | true =>
              rcases hverdict with ⟨⟨host, hhost'⟩, hQ⟩
              simp only [if_true, Co.wp_bind, wp_currentHost, hhost', Co.wp_pure]
              exact hQ
          | false =>
              simp only [Bool.false_eq_true, if_false]
              rw [Co.wp_bind]
              exact hverdict

/-- {lit}`failover` is the search under the lock, between two remarks. -/
theorem wp_failover {fromHost : Option String} {verifyCurrent : Bool} {Q : Ends τ Bool}
    (hsearch : D.Logs i false w (.noted i (.failoverEntered fromHost verifyCurrent)) fun w₀ =>
      D.suspended w₀ ∧ ∀ w₁, D.rely i false w₀ w₁ → D.suspended w₁ → D.free w₁ →
        D.Logs i true w₁ (.locked i)
          ((switchHost fromHost verifyCurrent).wp D i true fun h r w =>
            h = true ∧ D.Logs i true w (.released i) fun w₂ => D.free w₂ ∧
              (∀ verdict, r = .ok verdict →
                D.Logs i false w₂ (.noted i (.failoverReturned verdict))
                  (Q false (.ok verdict))) ∧
              ∀ e, r = .error e → Q false (.error e) w₂)) :
    (failover fromHost verifyCurrent).wp D i false Q w := by
  unfold failover
  rw [Co.wp_bind]
  simp only [Co.wp_remark]
  refine hsearch.mono fun w₀ h₀ => ?_
  rw [Co.wp_bind, Co.wp_withLock]
  refine ⟨h₀.1, fun w₁ hr hs hfree => (h₀.2 w₁ hr hs hfree).mono fun w₂ hrun => ?_⟩
  apply Co.wp_mono hrun
  rintro _ r w₃ ⟨rfl, hreleased⟩
  refine ⟨rfl, hreleased.mono fun w₄ h₄ => ⟨h₄.1, ?_⟩⟩
  cases r with
  | ok verdict =>
      simp only [Co.wp_bind, Co.wp_remark, Co.wp_pure]
      exact h₄.2.1 verdict rfl
  | error e => exact h₄.2.2 e rfl

end Rules

end AioProxmox
