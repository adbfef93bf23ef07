import AioProxmox.System.Provenance

/-!
# System - one session at a time

A ticket and the token against forged requests come in pairs, and the server takes neither with
the other of another login.  Any number of tasks may be logging in at the same time; the two
halves of an answer are adopted with nothing in between, so what a request shows is one login's,
as long as no answer has a ticket without a token.

Main results:

- Definition {lit}`Matching`: ticket and token of one login, or of none as yet.
- Theorem {lit}`exchanges_showOneLogin`: over every run, what an exchange shows matches.
-/

namespace AioProxmox

open Coroutine

section Sessions

variable {τ σ : Type} {text : Json → String} {calls : τ → SystemCall σ}
  {history history' : List (Event τ Exchange Outcome Remark)}
  {w : World τ Machine Exchange Outcome Remark}

/-! ## Pairs -/

/-- An answer that offers a ticket offers the token that goes with it. -/
def WholeLogins (history : List (Event τ Exchange Outcome Remark)) : Prop :=
  ∀ data ticket, Offered history data → data.field? "ticket" = some ticket →
    ∃ csrf, data.field? "CSRFPreventionToken" = some csrf

/-- Whole logins were whole before. -/
theorem WholeLogins.mono (h : WholeLogins history') (hsub : history ⊆ history') :
    WholeLogins history :=
  fun data ticket hdata hticket => h data ticket (hdata.mono hsub) hticket

/-- Ticket and token of one login, or of none as yet. -/
inductive Matching (history : List (Event τ Exchange Outcome Remark)) : Json → Json → Prop
  | nothing : Matching history (.str "") (.str "")
  | login {data ticket csrf : Json} (hdata : Offered history data)
      (hticket : data.field? "ticket" = some ticket)
      (hcsrf : data.field? "CSRFPreventionToken" = some csrf) : Matching history ticket csrf

/-- What matches goes on matching. -/
theorem Matching.mono {ticket csrf : Json} (h : Matching history ticket csrf)
    (hsub : history ⊆ history') : Matching history' ticket csrf := by
  cases h with
  | nothing => exact .nothing
  | login hdata hticket hcsrf => exact .login (hdata.mono hsub) hticket hcsrf

/-- What an exchange shows of a session is of one login. -/
def ShowsOneLogin (e : Event τ Exchange Outcome Remark)
    (before : List (Event τ Exchange Outcome Remark)) : Prop :=
  ∀ i q name ticket csrf, e = .sent i q →
    ("Cookie", HeaderValue.cookies [(name, ticket)]) ∈ q.request.headers →
    ("CSRFPreventionToken", HeaderValue.value csrf) ∈ q.request.headers →
    Matching before ticket csrf

/-- The session in use is of one login. -/
def Paired (history : List (Event τ Exchange Outcome Remark)) (auth : Auth) : Prop :=
  ∀ session, auth = .ticket session →
    Matching history session.pveAuthTicket session.csrfPreventionToken

/-- Neither the address nor the age of a session is part of the pair. -/
theorem Paired.of_same {auth auth' : Auth} (h : Paired history auth)
    (hsame : ∀ session', auth' = .ticket session' → ∃ session, auth = .ticket session ∧
      session'.pveAuthTicket = session.pveAuthTicket ∧
      session'.csrfPreventionToken = session.csrfPreventionToken) : Paired history auth' := by
  intro session' hauth'
  rcases hsame session' hauth' with ⟨session, hauth, hticket, hcsrf⟩
  rw [hticket, hcsrf]
  exact h session hauth

/-- An assignment that leaves the pair alone. -/
theorem Paired.mapTicket {m : Machine} {f : ProxmoxHTTPAuth → ProxmoxHTTPAuth}
    (h : Paired history m.client.auth)
    (hf : ∀ auth, (f auth).pveAuthTicket = auth.pveAuthTicket ∧
      (f auth).csrfPreventionToken = auth.csrfPreventionToken) :
    Paired history (m.mapTicket f).client.auth := by
  rcases m.mapTicket_cases f with ⟨auth, hauth, heq⟩ | heq
  · rw [heq]
    refine h.of_same fun session' hsession => ?_
    cases hsession
    exact ⟨auth, hauth, hf auth⟩
  · rw [heq]
    exact h

/-- The address of the login endpoint is no part of it either. -/
theorem Paired.setBaseUrl {auth : Auth} (h : Paired history auth) (url : String) :
    Paired history (auth.setBaseUrl url) := by
  cases auth with
  | token auth => exact fun session hsession => by contradiction
  | ticket auth =>
      refine h.of_same fun session' hsession => ?_
      cases hsession
      exact ⟨auth, rfl, rfl, rfl⟩

/-- Adopting an answer replaces both halves, if it has both. -/
theorem Paired.adoptTokens {m : Machine} {data : Json} (h : Paired history m.client.auth)
    (hwhole : WholeLogins history) (hdata : Offered history data) :
    Paired history (m.adoptTokens data).client.auth := by
  unfold Machine.adoptTokens
  cases hticket : data.field? "ticket" with
  | none => exact h.mapTicket fun _ => ⟨rfl, rfl⟩
  | some ticket =>
      rcases hwhole data ticket hdata hticket with ⟨csrf, hcsrf⟩
      rw [hcsrf]
      dsimp only
      intro session hsession
      cases hauth : m.client.auth with
      | token auth =>
          simp only [Machine.mapTicket, hauth] at hsession
          contradiction
      | ticket auth =>
          simp only [Machine.mapTicket, hauth] at hsession
          cases hsession
          exact .login hdata hticket hcsrf

/-- A request shows the session in use. -/
theorem Paired.shows {client : ProxmoxVE} {method path : String} {jsonData params : Option Dict}
    {timeout : Option ℚ} {request : HttpRequest} {name : String} {ticket csrf : Json}
    (h : Paired history client.auth)
    (hrequest : buildRequest client method path jsonData params timeout = .ok request)
    (hcookie : ("Cookie", HeaderValue.cookies [(name, ticket)]) ∈ request.headers)
    (htoken : ("CSRFPreventionToken", HeaderValue.value csrf) ∈ request.headers) :
    Matching history ticket csrf := by
  rcases buildRequest_shows hrequest with ⟨headers, hheaders, -, -, hall⟩
  rw [hall] at hcookie htoken
  cases hauth : client.auth with
  | token auth =>
      rw [hauth] at hcookie hheaders
      simp only [Auth.getHeaders] at hheaders
      rcases hservice : lookupService auth.service with e | entry
      · rw [hservice] at hheaders
        contradiction
      · rw [hservice] at hheaders
        cases hheaders
        simp [Auth.getCookies] at hcookie
  | ticket auth =>
      rw [hauth] at hcookie htoken hheaders
      cases hheaders
      simp only [Auth.getCookies, List.isEmpty_cons, Bool.false_eq_true, if_false, List.mem_append,
        List.mem_cons, List.not_mem_nil, or_false, Prod.mk.injEq, HeaderValue.cookies.injEq,
        HeaderValue.value.injEq, reduceCtorEq, and_false, false_or, List.cons.injEq,
        and_true, true_and] at hcookie htoken
      rw [hcookie.2, htoken]
      exact h auth hauth

/-! ## Every run -/

/-- The session in use is of one login, and so was all that was shown, unless an answer came
with half of a pair. -/
def SessionKept (w : World τ Machine Exchange Outcome Remark) : Prop :=
  WholeLogins w.history → Paired w.history w.state.client.auth ∧ Along ShowsOneLogin w.history

/-- An event that shows one login keeps the session. -/
theorem SessionKept.log (h : SessionKept w) {e : Event τ Exchange Outcome Remark}
    (he : Paired w.history w.state.client.auth → ShowsOneLogin e w.history) :
    SessionKept (w.log e) := by
  intro hwhole
  have hsub : w.history ⊆ (w.log e).history := List.subset_cons_self _ _
  rcases h (hwhole.mono hsub) with ⟨hpaired, hshown⟩
  exact ⟨fun session hsession => (hpaired session hsession).mono hsub, he hpaired, hshown⟩

/-- An assignment keeps the session that leaves the pair matching. -/
theorem SessionKept.assign (h : SessionKept w) {m : Machine}
    (hm : WholeLogins w.history → Paired w.history w.state.client.auth →
      Paired w.history m.client.auth) : SessionKept { w with state := m } := by
  intro hwhole
  rcases h hwhole with ⟨hpaired, hshown⟩
  exact ⟨hm hwhole hpaired, hshown⟩

/-- What is no exchange but of a login shows no session. -/
theorem showsOneLogin_of_login {i : τ} {auth : ProxmoxHTTPAuth} {purpose : Purpose} {timeout : ℚ}
    {data : Dict} : ShowsOneLogin (.sent i (ticketExchange purpose auth timeout data)) history := by
  intro i' q name ticket csrf heq hcookie
  cases heq
  contradiction

/-- A pool of calls keeps its sessions whole. -/
theorem conduct_sessions : Conduct text calls (worldDiscipline SessionKept) := by
  refine .ofSegments (fun w e hw hinternal => hw.log fun _ => ?_)
    (fun i w q r hw _ => hw.log fun _ => ?_)
    (fun w data hw hdata => hw.assign fun hwhole hpaired => hpaired.adoptTokens hwhole hdata)
    (fun w c hw => hw.assign fun _ hpaired => hpaired.mapTicket fun _ => ⟨rfl, rfl⟩)
    (fun i w auth purpose timeout data hw _ _ _ => hw.log fun _ => showsOneLogin_of_login)
    (fun i w q hw hattempt => hw.log fun hpaired => ?_)
    (fun i w names replace client hw _ hlearn => hw.assign fun _ hpaired => ?_)
    (fun w m hw hm => hw.assign fun _ hpaired => ?_)
  · rintro i q name ticket csrf rfl
    exact hinternal.elim
  · intro i' q' name ticket csrf heq
    contradiction
  · intro i' q' name ticket csrf heq hcookie htoken
    cases heq
    cases hattempt with
    | request hrequest => exact hpaired.shows hrequest hcookie htoken
    | probe hrequest => exact hpaired.shows hrequest hcookie htoken
  · rw [show client.auth = w.state.client.auth from ProxmoxVE.learnHosts_auth hlearn]
    exact hpaired
  · cases hm with
    | points hhost => exact hpaired.setBaseUrl _
    | misses hnone => exact hpaired

/-- In every run of any calls in which no answer to a login has a ticket without a token, each
exchange shows the ticket and the token of one and the same login, or none as yet; and those in
use are of one login. -/
theorem exchanges_showOneLogin [DecidableEq τ] {args : ProxmoxVE.Arguments} {client : ProxmoxVE}
    (hinit : ProxmoxVE.init args = .ok client) (text : Json → String)
    (calls : τ → SystemCall σ) (s : σ) (monotonic : ℚ)
    {c : Config τ (σ × Machine) Exchange Outcome Exc Remark Unit}
    (hrun : Config.Reaches SparesClient
      (.initial (s, ⟨client, monotonic⟩) fun i => (calls i).run text) c)
    (hwhole : WholeLogins c.world.history) :
    Paired c.world.history c.world.state.2.client.auth ∧
      Along ShowsOneLogin c.world.history := by
  have hC : Conduct text calls (worldDiscipline SessionKept) := conduct_sessions
  have hstart : SessionKept
      (⟨⟨client, monotonic⟩, []⟩ : World τ Machine Exchange Outcome Remark) := by
    intro _
    refine ⟨fun session hsession => ?_, trivial⟩
    rcases init_authOf hinit with ⟨-, url, hauth⟩
    rcases authOf_cases hauth with ⟨password, -, -, heq⟩ | ⟨tokenName, -, heq⟩
    · rw [show client.auth = _ from heq] at hsession
      cases hsession
      exact .nothing
    · rw [show client.auth = _ from heq] at hsession
      contradiction
  have hkept := hC.kept (fun _ => trivial) (s := s) hstart trivial
  refine hkept.reaches (fun c f henv history hw => ?_) hrun hwhole
  refine SessionKept.assign hw fun _ hpaired => ?_
  rw [henv c.world.state]
  exact hpaired

/-- The constructor builds this client. -/
theorem init_passwordFor : ProxmoxVE.init (passwordFor "pve") = .ok (unloggedAt "pve") := rfl

/-- One answer to a login with both halves. -/
theorem wholeLogins_loginReply {i j : τ} {q q' q'' : Exchange} :
    WholeLogins ([.sent i q, .got j q' loginReply, .sent j q''] :
      List (Event τ Exchange Outcome Remark)) := by
  rintro data ticket ⟨i', q, response, body, hgot, -, hbody, hdata⟩ -
  simp only [List.mem_cons, reduceCtorEq, Event.got.injEq, List.not_mem_nil, or_false,
    false_or, loginReply, Except.ok.injEq] at hgot
  rw [hgot.2.2] at hbody
  cases hbody
  cases hdata
  exact ⟨_, rfl⟩

/-- A request that shows both halves of the answer before it. -/
theorem exchanges_showOneLogin_witness :
    ∃ (q : Exchange) (before : List (Event (Fin 2) Exchange Outcome Remark)),
      ("Cookie", HeaderValue.cookies [("PVEAuthCookie", .str "PVE:root@pam:2")]) ∈
        q.request.headers ∧
      ("CSRFPreventionToken", HeaderValue.value (.str "2:token")) ∈ q.request.headers ∧
      Matching before (.str "PVE:root@pam:2") (.str "2:token") := by
  obtain ⟨c, q, q', q'', hrun, hhistory, hheaders⟩ : ∃ c q q' q'', Config.run
      (.initial ((), ⟨unloggedAt "pve", 0⟩) fun i => (loginAndAsk i).run strOnly)
        (loginAndAskSchedule 0 1) = some c ∧
      c.world.history = [.sent 1 q, .got 0 q' loginReply, .sent 0 q''] ∧
      q.request.headers = [("Accept", .text "application/json"),
        ("Connection", .text "keep-alive"), ("CSRFPreventionToken", .value (.str "2:token")),
        ("Cookie", .cookies [("PVEAuthCookie", .str "PVE:root@pam:2")])] :=
    ⟨_, _, _, _, by and_intros <;> with_unfolding_all rfl⟩
  have hwhole : WholeLogins c.world.history := by
    rw [hhistory]
    exact wholeLogins_loginReply
  have hshown := (exchanges_showOneLogin init_passwordFor strOnly loginAndAsk () 0
    (Config.reaches_of_run loginAndAskSchedule_sparesClient hrun) hwhole).2
  rw [hhistory] at hshown
  have hcookie : ("Cookie", HeaderValue.cookies [("PVEAuthCookie", .str "PVE:root@pam:2")]) ∈
      q.request.headers := by simp [hheaders]
  have htoken : ("CSRFPreventionToken", HeaderValue.value (.str "2:token")) ∈
      q.request.headers := by simp [hheaders]
  exact ⟨q, _, hcookie, htoken, hshown.1 1 q _ _ _ rfl hcookie htoken⟩

end Sessions

end AioProxmox
