import AioProxmox.Client.Verdicts

/-!
# System - one host that answers is enough

What a failover is for.  Some hosts of the list are up and stay so, the others are down.  No
search leaves a host that is up, so the first that ends well ends all of them, and the first
one begins where the client began: from there it meets every other host of the list.  Whoever
has lost a host therefore finds one that is up once it has the lock, and repeats its request
there.

Main results:

- Definition {lit}`Reachable`: the hosts that are up answer, the others lose every exchange.
- Theorem {lit}`requests_answered`: over every run, no request ends because a host was lost,
  and the host in use while nobody holds the lock is the first one or one that is up.
-/

namespace AioProxmox

open Coroutine Collections

section Availability

variable {τ : Type}

/-! ## Hosts that are up and hosts that are down -/

/-- An exchange with a host that is up: it is answered, the answer can be read, and that to a
probe counts. -/
structure Present (q : Exchange) (r : Outcome) : Prop where
  probe : q.purpose.isProbe = true → verdictOf r = .ok true
  answered : ∃ response, r = .ok response ∧
    ∀ e, response.text = .error e ∨ response.json = .error e → e.isLostHost = false

/-- An exchange with a host that is down. -/
def Absent (r : Outcome) : Prop :=
  ∃ e, r = .error e ∧ e.isLostHost = true

/-- The hosts that are up answer, and the others do not. -/
def Reachable (first : ProxmoxVE) (paths : τ → String) (up : String → Prop)
    (history : List (Event τ Exchange Outcome Remark)) : Prop :=
  ∀ i q r host, .got i q r ∈ history → q.GoesTo first.port (paths i) host →
    (up host → Present q r) ∧ (¬ up host → Absent r)

/-- No ticket was renewed for its age. -/
def Unrenewed (history : List (Event τ Exchange Outcome Remark)) : Prop :=
  ∀ i q, .sent i q ∈ history → q.purpose ≠ .login none

/-- A lost host has refused nothing. -/
theorem Exc.isLostHost_isProxmoxAPIError {err : Exc} (h : err.isLostHost = true) :
    err.isProxmoxAPIError = false := by
  cases err <;> simp_all [isLostHost, isClientConnectionError, isTimeoutError, isProxmoxAPIError]

/-- Reading an answer that came loses no host. -/
theorem Present.read {q : Exchange} {r : Outcome} (h : Present q r) (path : String) {e : Exc}
    (he : (r >>= readResponse path) = .error e) : e.isLostHost = false := by
  rcases h.answered with ⟨response, rfl, hwhole⟩
  have hread : readResponse path response = .error e := he
  unfold readResponse at hread
  split_ifs at hread
  · cases hjson : response.json with
    | error e' =>
        rw [hjson] at hread
        cases hread
        exact hwhole e (.inr hjson)
    | ok payload =>
        rw [hjson] at hread
        cases payload <;> contradiction
  · cases htext : response.text with
    | error e' =>
        rw [htext] at hread
        cases hread
        exact hwhole e (.inl htext)
    | ok text =>
        rw [htext] at hread
        cases hread
        rfl

/-- Nor does that of a login. -/
theorem Present.login {q : Exchange} {r : Outcome} (h : Present q r) :
    ExchangeErrors (fun e => e.isLostHost = false) r where
  error e he := by
    rcases h.answered with ⟨response, rfl, -⟩
    contradiction
  json response e hr he := by
    rcases h.answered with ⟨response', rfl, hwhole⟩
    cases hr
    exact hwhole e (.inr he)

/-- What is lost is silent. -/
theorem Absent.verdict {r : Outcome} (h : Absent r) : verdictOf r = .ok false := by
  rcases h with ⟨e, rfl, hlost⟩
  exact verdictOf_lost hlost

/-! ## The discipline -/

/-- The client is on a host that is up. -/
def OnUp (first : ProxmoxVE) (up : String → Prop) (c : ProxmoxVE) : Prop :=
  ∃ host, up host ∧ c.baseUrl = apiUrl host first.port

/-- The tokens do not say which host is in use. -/
theorem host_of_withoutTokens {c c' : ProxmoxVE} (hsame : c'.withoutTokens = c.withoutTokens) :
    c'.host = c.host := by
  have hhosts : c'.hosts = c.hosts := (congrArg ProxmoxVE.hosts hsame :)
  have hindex : c'.hostIndex = c.hostIndex := (congrArg ProxmoxVE.hostIndex hsame :)
  simp only [ProxmoxVE.host, ProxmoxVE.hostAt, hhosts, hindex]

/-- A login does not change whether that is so. -/
theorem OnUp.tokens {first : ProxmoxVE} {up : String → Prop} {c c' : ProxmoxVE}
    (h : OnUp first up c) (hsame : c'.withoutTokens = c.withoutTokens) : OnUp first up c' := by
  rcases h with ⟨host, hup, hurl⟩
  exact ⟨host, hup, (congrArg ProxmoxVE.baseUrl hsame :).trans hurl⟩

/-- What becomes of the client: nothing but logins once it is on a host that is up, and it
never comes back to the first host. -/
structure Advances (first : ProxmoxVE) (up : String → Prop) (c c' : ProxmoxVE) : Prop where
  stays : OnUp first up c → c'.withoutTokens = c.withoutTokens
  away : c.host ≠ first.host → c'.host ≠ first.host

/-- Another session does not move a client. -/
theorem Advances.of_tokens {first : ProxmoxVE} {up : String → Prop} {c c' : ProxmoxVE}
    (hsame : c'.withoutTokens = c.withoutTokens) : Advances first up c c' where
  stays _ := hsame
  away h := by
    rw [host_of_withoutTokens hsame]
    exact h

/-- Advances may follow each other. -/
theorem Advances.trans {first : ProxmoxVE} {up : String → Prop} {c₁ c₂ c₃ : ProxmoxVE}
    (h₁ : Advances first up c₁ c₂) (h₂ : Advances first up c₂ c₃) : Advances first up c₁ c₃ where
  stays h := (h₂.stays (h.tokens (h₁.stays h))).trans (h₁.stays h)
  away h := h₂.away (h₁.away h)

/-- Only a call that holds the lock moves the client, and none leaves a host that is up. -/
def reachDiscipline (first : ProxmoxVE) (paths : τ → String) (up : String → Prop) :
    Discipline τ Machine Exchange Outcome Remark where
  assume history := Reachable first paths up history ∧ Unrenewed history
  environment _ s s' := s'.client = s.client
  suspended w := Serves first w.state.client
  free w := w.state.client.host = first.host ∨ OnUp first up w.state.client
  rely _ held w w' := Advances first up w.state.client w'.state.client ∧
    (held = true → w'.state.client.withoutTokens = w.state.client.withoutTokens)
  assume_tail e history h :=
    ⟨fun i q r host hgot => h.1 i q r host (List.mem_cons_of_mem e hgot),
      fun i q hsent => h.2 i q (List.mem_cons_of_mem e hsent)⟩
  rely_refl _ _ w := ⟨.of_tokens rfl, fun _ => rfl⟩
  rely_trans _ _ _ _ _ h₁ h₂ :=
    ⟨h₁.1.trans h₂.1, fun hheld => (h₂.2 hheld).trans (h₁.2 hheld)⟩
  rely_weaken _ _ _ h := ⟨h.1, fun hheld => absurd hheld (by decide)⟩
  environment_suspended _ w s h hs := by
    simpa only [h] using hs
  environment_rely _ _ w s h _ :=
    ⟨.of_tokens (by rw [h]), fun _ => by rw [h]⟩
  environment_free w s h _ hfree := by
    simpa only [h] using hfree

variable {first : ProxmoxVE} {paths : τ → String} {up : String → Prop} {i : τ} {held : Bool}
  {w w' : World τ Machine Exchange Outcome Remark} {host : String}

/-- Nobody minds a login, or an event. -/
theorem allows_tokens (hsame : w'.state.client.withoutTokens = w.state.client.withoutTokens) :
    (reachDiscipline first paths up).Allows i held w w' where
  others _ _ := ⟨.of_tokens hsame, fun _ => hsame⟩
  free _ hfree := by
    rcases hfree with hfirst | hup
    · exact .inl ((host_of_withoutTokens hsame).trans hfirst)
    · exact .inr (hup.tokens hsame)

/-- The lock's owner may move on from a host that is down. -/
theorem allows_moving (h : Advances first up w.state.client w'.state.client) :
    (reachDiscipline first paths up).Allows i true w w' where
  others _ _ := ⟨h, fun hheld => absurd hheld (by decide)⟩
  free hheld := absurd hheld (by decide)

/-- The host in use is up exactly where the client is on a host that is. -/
theorem Serves.onUp_iff {c : ProxmoxVE} (h : Serves first c) (hhost : c.host = .ok host) :
    OnUp first up c ↔ up host := by
  constructor
  · rintro ⟨other, hup, hurl⟩
    rw [h.baseUrl hhost] at hurl
    rw [apiUrl_injective hurl]
    exact hup
  · exact fun hup => ⟨host, hup, h.baseUrl hhost⟩

/-- An exchange with the host in use. -/
theorem logs_reach {q : Exchange}
    {K : Outcome → World τ Machine Exchange Outcome Remark → Prop}
    (hs : Serves first w.state.client) (hgoes : q.GoesTo first.port (paths i) host)
    (hK : ∀ r w₂, (reachDiscipline first paths up).rely i held w w₂ →
      Serves first w₂.state.client → (up host → Present q r) → (¬ up host → Absent r) →
      K r (w₂.log (.got i q r))) :
    (reachDiscipline first paths up).Logs i held w (.sent i q) fun w₁ =>
      (reachDiscipline first paths up).suspended w₁ ∧
        ∀ w₂ r, (reachDiscipline first paths up).rely i held w₁ w₂ →
          (reachDiscipline first paths up).suspended w₂ →
          (reachDiscipline first paths up).Logs i held w₂ (.got i q r) (K r) := by
  intro _
  refine ⟨allows_tokens rfl, hs, fun w₂ r hr hs₂ hassume => ⟨allows_tokens rfl, ?_⟩⟩
  rcases hassume.1 i q r host List.mem_cons_self hgoes with ⟨hpresent, habsent⟩
  exact hK r w₂ hr hs₂ hpresent habsent

/-! ## Logins -/

/-- A client on a host that is up. -/
def AtUp (first : ProxmoxVE) (up : String → Prop)
    (w : World τ Machine Exchange Outcome Remark) : Prop :=
  Serves first w.state.client ∧ OnUp first up w.state.client

/-- The others leave it there. -/
theorem AtUp.stable (h : AtUp first up w)
    (hadvances : Advances first up w.state.client w'.state.client) : AtUp first up w' := by
  have hsame := hadvances.stays h.2
  exact ⟨(h.1.tokens hsame).1, h.2.tokens hsame⟩

/-- Logging in at a host that is up loses no host. -/
theorem atUp_logins : Logins (reachDiscipline first paths up) i held (AtUp first up)
    (fun e => e.isLostHost = false) where
  errors := ⟨fun _ => Exc.isLookup_isLostHost, fun _ => rfl⟩
  tokens w s h hframe :=
    have hsame : s.client.withoutTokens = w.state.client.withoutTokens := hframe
    ⟨allows_tokens hsame, (h.1.tokens hsame).1, h.2.tokens hsame⟩
  remarks w e h _ _ := ⟨allows_tokens rfl, h⟩
  posts w q auth h hauth hlogin hurl := by
    rcases h.1.exists_host with ⟨host, hhost, -⟩
    have hup : up host := (h.1.onUp_iff hhost).mp h.2
    have hgoes : q.GoesTo first.port (paths i) host := h.1.login_goesTo hhost hauth hlogin hurl
    refine logs_reach h.1 hgoes fun r w₂ hr _ hpresent _ => ?_
    exact ⟨h.stable hr.1, (hpresent hup).login⟩

/-- Where no ticket is renewed, there is nothing to do before a request. -/
theorem wp_checkAndRefresh_unrenewed {Q : Ends τ Unit} (hQ : Q held (.ok ()) w) :
    checkAndRefresh.wp (reachDiscipline first paths up) i held Q w := by
  unfold checkAndRefresh
  rw [Co.wp_bind, Co.wp_state]
  dsimp only
  cases hauth : w.state.client.auth with
  | token auth => exact hQ
  | ticket auth =>
      dsimp only
      split_ifs
      · unfold getNewTokens
        rw [Co.wp_tryCatch, Co.wp_bind, wp_ticketAuth hauth]
        dsimp only
        rw [Co.wp_bind]
        intro hassume
        exact absurd rfl (hassume.2 i _ List.mem_cons_self)
      · exact hQ

/-! ## One attempt -/

/-- An attempt at the host in use: it loses no host that is up, and where it loses one that is
down the client does not come back to the first host. -/
theorem wp_requestOnce_reach {method : String} {jsonData params : Option Dict} {Q : Ends τ Json}
    (hs : Serves first w.state.client) (hhost : w.state.client.host = .ok host)
    (herror : ∀ e, e.isLostHost = false → e.isProxmoxAPIError = false → Q held (.error e) w)
    (hup : ∀ r w', up host → AtUp first up w' → (∀ e, r = .error e → e.isLostHost = false) →
      Q held r w')
    (hdown : ∀ e w', ¬ up host → Serves first w'.state.client →
      (.ok host ≠ first.host → w'.state.client.host ≠ first.host) → e.isLostHost = true →
      Q held (.error e) w') :
    (requestOnce .request method (paths i) jsonData params none).wp
      (reachDiscipline first paths up) i held Q w := by
  refine wp_requestOnce (fun e he => ?_) fun request _ hurl => ?_
  · rcases (Auth.headersError_keyError he).2 with ⟨key, rfl⟩
    exact herror _ rfl rfl
  · refine logs_reach hs (hs.goesTo hhost rfl hurl rfl) fun r w₂ hr hs₂ hpresent habsent => ?_
    by_cases hthere : up host
    · have hkept : AtUp first up w₂ :=
        AtUp.stable ⟨hs, (hs.onUp_iff hhost).mpr hthere⟩ hr.1
      exact hup _ _ hthere hkept fun e he => (hpresent hthere).read _ he
    · rcases habsent hthere with ⟨e, rfl, hlost⟩
      refine hdown e _ hthere hs₂ (fun hne => hr.1.away ?_) hlost
      rw [hhost]
      exact hne

/-- At a host that is up. -/
theorem requestOnce_upholds_atUp (method : String) (jsonData params : Option Dict) :
    Co.Upholds (reachDiscipline first paths up) i held (AtUp first up)
      (fun e => e.isLostHost = false)
      (requestOnce .request method (paths i) jsonData params none) := by
  intro w h
  rcases h.1.exists_host with ⟨host, hhost, -⟩
  have hthere : up host := (h.1.onUp_iff hhost).mp h.2
  refine wp_requestOnce_reach h.1 hhost (fun e he _ => ?_) (fun r w' _ hkept hr => ?_)
    fun e w' hdown => absurd hthere hdown
  · refine ⟨rfl, h, fun e' heq => ?_⟩
    cases heq
    exact he
  · exact ⟨rfl, hkept, hr⟩

/-! ## The search -/

/-- A probe of the host in use tells whether it is up. -/
theorem wp_answers_reach {candidate : Bool} {Q : Ends τ Bool}
    (hs : Serves first w.state.client) (hhost : w.state.client.host = .ok host)
    (herror : ∀ e, first.auth.headersError = some e → e.isLostHost = false →
      Q true (.error e) w)
    (hQ : ∀ there w', first.auth.headersError = none → Serves first w'.state.client →
      w'.state.client.withoutTokens = w.state.client.withoutTokens →
      (there = true ↔ up host) → Q true (.ok there) w') :
    (answers candidate).wp (reachDiscipline first paths up) i true Q w := by
  refine wp_answers (fun e he => ?_) fun request hheaders hurl => ?_
  · rw [hs.headers] at he
    rcases (Auth.headersError_keyError he).2 with ⟨key, rfl⟩
    exact herror _ he rfl
  · rw [hs.headers] at hheaders
    refine logs_reach hs (hs.goesTo hhost rfl hurl rfl) fun r w₂ hr hs₂ hpresent habsent => ?_
    have hsame := hr.2 rfl
    refine ⟨⟨host, (host_of_withoutTokens hsame).trans hhost⟩, ?_⟩
    by_cases hthere : up host
    · rw [(hpresent hthere).probe rfl]
      exact hQ true _ hheaders hs₂ hsame (by simp [hthere])
    · rw [(habsent hthere).verdict]
      exact hQ false _ hheaders hs₂ hsame (by simp [hthere])

/-- From a host that is down the lock's owner may move to any but the first. -/
theorem allowsMove_reach {index : Nat} (hdown : ¬ OnUp first up w.state.client)
    (hhost : w.state.client.hosts[index]? = some host) (hne : first.host ≠ .ok host) :
    AllowsMove (reachDiscipline first paths up) i true w index host where
  assigns := by
    refine allows_moving ⟨fun hup => absurd hup hdown, fun _ => ?_⟩
    have hat : ({ w.state.client with hostIndex := index } : ProxmoxVE).host = .ok host :=
      ProxmoxVE.host_eq_ok_iff.mpr hhost
    rw [hat]
    exact hne.symm
  points := by
    refine allows_moving ⟨fun hup => absurd hup hdown, fun _ => ?_⟩
    have hat : (w.state.placedAt index host).client.host = .ok host :=
      ProxmoxVE.host_eq_ok_iff.mpr hhost
    rw [hat]
    exact hne.symm

/-- The candidates that a walk from the first host has still before it: the first host is not
among them, and one of them is up. -/
structure Ahead (first : ProxmoxVE) (up : String → Prop) (origin : String) (offsets : List Nat)
    (rest : List String) : Prop where
  hosts : offsets.map (fun offset =>
    first.hosts[cyclicIndex first.hosts first.hostIndex offset]?) = rest.map some
  others : origin ∉ rest
  up : ∃ host ∈ rest, up host

/-- A walk from the first host, that host being down, ends on one that is up. -/
theorem wp_walk_reach {origin : String} {offsets : List Nat} {rest : List String} {Q : Ends τ Bool}
    (hheaders : first.auth.headersError = none) (horigin : first.host = .ok origin)
    (hahead : Ahead first up origin offsets rest) (hs : Serves first w.state.client)
    (hdown : ¬ OnUp first up w.state.client)
    (hQ : ∀ w', AtUp first up w' → Q true (.ok true) w') :
    (walk first.hostIndex offsets).wp (reachDiscipline first paths up) i true Q w := by
  have hstart : ∀ {c : ProxmoxVE}, Serves first c → first.hostIndex < c.hosts.length := by
    intro c h
    rw [h.hosts]
    exact (List.getElem?_eq_some_iff.mp (ProxmoxVE.host_eq_ok_iff.mp horigin)).1
  refine wp_walk_of_allowed (I := fun offsets w => Serves first w.state.client ∧
    ¬ OnUp first up w.state.client ∧ ∃ rest, Ahead first up origin offsets rest)
    (fun _ w hw => hstart hw.1) ?_ ?_ offsets ⟨hs, hdown, rest, hahead⟩
  · -- there is always somebody left who is up
    rintro w host ⟨-, -, rest, hahead⟩ -
    have hnone : rest = [] := by simpa using hahead.hosts.symm
    subst hnone
    rcases hahead.up with ⟨other, hin, -⟩
    contradiction
  · rintro offset offsets w index host ⟨hs, hdown, rest, hahead⟩ rfl hhost
    cases rest with
    | nil =>
        have hhosts := hahead.hosts
        simp at hhosts
    | cons candidate others =>
        have hhosts := hahead.hosts
        rw [List.map_cons, List.map_cons, List.cons.injEq] at hhosts
        have hsame : host = candidate := by
          have hcandidate : some host = some candidate := by
            rw [← hhost, hs.hosts]
            exact hhosts.1
          exact Option.some.inj hcandidate
        subst hsame
        have hne : first.host ≠ .ok host := by
          intro heq
          rw [horigin, Except.ok.injEq] at heq
          exact hahead.others (heq ▸ List.mem_cons_self)
        refine ⟨allowsMove_reach hdown hhost hne, ?_⟩
        have hplaced : Serves first (w.state.placedAt _ host).client := hs.placedAt hhost
        refine wp_answers_reach hplaced (ProxmoxVE.host_eq_ok_iff.mpr hhost) (fun e he => ?_)
          fun there w' _ hs' hkept hthere => ?_
        · rw [hheaders] at he
          contradiction
        · have hhost' : w'.state.client.host = .ok host :=
            (host_of_withoutTokens hkept).trans (ProxmoxVE.host_eq_ok_iff.mpr hhost)
          have hiff : OnUp first up w'.state.client ↔ up host := hs'.onUp_iff hhost'
          cases there with
          | true =>
              have hup : up host := hthere.mp rfl
              exact ⟨hstart hs', ⟨host, hhost'⟩, hQ w' ⟨hs', hiff.mpr hup⟩⟩
          | false =>
              have hup : ¬ up host := by
                intro hup
                exact absurd (hthere.mpr hup) (by decide)
              refine ⟨rfl, hs', fun h => hup (hiff.mp h), others, hhosts.2, ?_, ?_⟩
              · exact fun hin => hahead.others (List.mem_cons_of_mem host hin)
              · rcases hahead.up with ⟨other, hin, hother⟩
                rcases List.mem_cons.mp hin with rfl | hin
                · exact absurd hother hup
                · exact ⟨other, hin, hother⟩

/-- What the caller of a failover may know: the host it failed on is down, and is the first
one or one that the client has left the first one for. -/
def LostAt (first : ProxmoxVE) (up : String → Prop) (fromHost : Option String)
    (c : ProxmoxVE) : Prop :=
  ∃ host, fromHost = some host ∧ ¬ up host ∧ (.ok host ≠ first.host → c.host ≠ first.host)

/-- How a failover ends. -/
structure FailoverEnded (first : ProxmoxVE) (up : String → Prop) (lost : Prop)
    (r : Except Exc Bool) (w : World τ Machine Exchange Outcome Remark) : Prop where
  serves : Serves first w.state.client
  error : ∀ e, r = .error e → e.isLostHost = false
  found : lost → (∃ e, r = .error e) ∨ r = .ok true ∧ OnUp first up w.state.client

/-- The search of a call that holds the lock. -/
theorem wp_switchHost_reach {fromHost : Option String} {lost : Prop}
    (hdistinct : first.hosts.Nodup) (hup : ∃ host ∈ first.hosts, up host)
    (hs : Serves first w.state.client)
    (hfree : w.state.client.host = first.host ∨ OnUp first up w.state.client)
    (hlost : lost → LostAt first up fromHost w.state.client) :
    (switchHost fromHost true).wp (reachDiscipline first paths up) i true
      (fun held r w' => held = true ∧ FailoverEnded first up lost r w' ∧
        (w'.state.client.host = first.host ∨ OnUp first up w'.state.client)) w := by
  rcases hs.exists_host with ⟨current, hcurrent, -⟩
  refine wp_switchHost hcurrent (fun hmoved => ?_) fun hmet => ?_
  · -- it met another host than its own: the first one is its own, or has been left
    refine ⟨rfl, ⟨hs, by simp, fun h => .inr ⟨rfl, ?_⟩⟩, hfree⟩
    rcases hlost h with ⟨host, rfl, -, haway⟩
    simp only [Option.any_some, bne_iff_ne] at hmoved
    rcases hfree with hfirst | hthere
    · refine absurd hfirst (haway fun heq => hmoved ?_)
      rw [← hfirst, hcurrent, Except.ok.injEq] at heq
      exact heq
    · exact hthere
  · rw [stillAnswers_true]
    refine wp_answers_reach hs hcurrent (fun e _ he => ?_) fun there w' hheaders hs' hkept hthere =>
      ?_
    · refine ⟨rfl, ⟨hs, fun e' heq => ?_, fun _ => .inl ⟨e, rfl⟩⟩, hfree⟩
      cases heq
      exact he
    · have hhost' := (host_of_withoutTokens hkept).trans hcurrent
      cases there with
      | true =>
          -- it still answers, so nobody can have failed there
          have hthere : up current := hthere.mp rfl
          refine ⟨⟨current, hhost'⟩, rfl, ⟨hs', by simp, fun h => ?_⟩,
            .inr ((hs'.onUp_iff hhost').mpr hthere)⟩
          rcases hlost h with ⟨host, rfl, hdown, -⟩
          simp only [Option.any_some, bne_eq_false_iff_eq] at hmet
          exact absurd (hmet ▸ hthere) hdown
      | false =>
          have hdown : ¬ up current := fun h => absurd (hthere.mpr h) (by decide)
          have hnot : ¬ OnUp first up w'.state.client :=
            fun h => hdown ((hs'.onUp_iff hhost').mp h)
          have hfirst : first.host = .ok current := by
            rcases hfree with hfirst | honUp
            · rw [← hfirst, hcurrent]
            · exact absurd ((hs.onUp_iff hcurrent).mp honUp) hdown
          have hat := ProxmoxVE.host_eq_ok_iff.mp hfirst
          rcases List.getElem?_eq_some_iff.mp hat with ⟨hlt, hget⟩
          have hindex : w.state.client.hostIndex = first.hostIndex := by
            have hhere := ProxmoxVE.host_eq_ok_iff.mp hcurrent
            rw [hs.hosts] at hhere
            exact (List.getElem?_inj (List.getElem?_eq_some_iff.mp hhere).1 hdistinct).mp
              (hhere.trans hat.symm)
          have hothers : ∀ {host}, host ∈ cyclicAfter first.hosts first.hostIndex ↔
              host ∈ first.hosts ∧ host ≠ current := by
            intro host
            rw [mem_cyclicAfter hdistinct hlt, hget]
          have hahead : Ahead first up current (List.range' 1 (w'.state.client.hosts.length - 1))
              (cyclicAfter first.hosts first.hostIndex) := by
            constructor
            · rw [hs'.hosts]
              exact map_offsets_eq_cyclicAfter first.hosts first.hostIndex
            · exact fun hin => (hothers.mp hin).2 rfl
            · rcases hup with ⟨host, hin, hthere⟩
              exact ⟨host, hothers.mpr ⟨hin, fun heq => hdown (heq ▸ hthere)⟩, hthere⟩
          rw [hindex]
          refine wp_walk_reach hheaders hfirst hahead hs' hnot fun w'' hended => ?_
          exact ⟨rfl, ⟨hended.1, by simp, fun _ => .inr ⟨rfl, hended.2⟩⟩, .inr hended.2⟩

/-- A failover: a caller that has lost a host is told that the client has moved, and it is on
a host that is up. -/
theorem wp_failover_reach {fromHost : Option String} {lost : Prop}
    (hdistinct : first.hosts.Nodup) (hup : ∃ host ∈ first.hosts, up host)
    (hs : Serves first w.state.client) (hlost : lost → LostAt first up fromHost w.state.client) :
    (failover fromHost true).wp (reachDiscipline first paths up) i false
      (fun held r w' => held = false ∧ FailoverEnded first up lost r w') w := by
  apply wp_failover
  intro _
  refine ⟨allows_tokens rfl, hs, fun w₁ hr hs₁ hfree _ => ⟨allows_tokens rfl, ?_⟩⟩
  have hlost₁ : lost → LostAt first up fromHost w₁.state.client := by
    intro h
    rcases hlost h with ⟨host, hfrom, hdown, haway⟩
    exact ⟨host, hfrom, hdown, fun hne => hr.1.away (haway hne)⟩
  apply Co.wp_mono (wp_switchHost_reach (w := w₁.log (.locked i)) hdistinct hup hs₁ hfree hlost₁)
  rintro _ r w₂ ⟨rfl, hended, hfree₂⟩
  refine ⟨rfl, fun _ => ⟨allows_tokens rfl, hfree₂, ?_, ?_⟩⟩
  · rintro verdict rfl _
    exact ⟨allows_tokens rfl, rfl, hended.serves, hended.error, hended.found⟩
  · rintro e rfl
    exact ⟨rfl, hended.serves, hended.error, hended.found⟩

/-! ## Whole calls -/

/-- How any call ends: no host was lost. -/
abbrev Retained (first : ProxmoxVE) : Ends τ Json :=
  fun held r w => held = false ∧ Serves first w.state.client ∧
    ∀ e, r = .error e → e.isLostHost = false

/-- An error that loses no host retains what is known. -/
theorem retained_error {e : Exc} (hs : Serves first w.state.client) (he : e.isLostHost = false) :
    Retained first false (.error e) w := by
  refine ⟨rfl, hs, fun e' heq => ?_⟩
  cases heq
  exact he

/-- What {lit}`request` does about an attempt that failed. -/
theorem wp_recover_reach {method : String} {jsonData params : Option Dict} {err : Exc}
    (hdistinct : first.hosts.Nodup) (hup : ∃ host ∈ first.hosts, up host)
    (hin : host ∈ first.hosts) (hs : Serves first w.state.client)
    (hrefused : err.isProxmoxAPIError = true → OnUp first up w.state.client)
    (hlost : err.isLostHost = true → LostAt first up (some host) w.state.client) :
    (recover method (paths i) jsonData params host err).wp (reachDiscipline first paths up) i
      false (Retained first) w := by
  have hagain : ∀ w', AtUp first up w' →
      (requestOnce .request method (paths i) jsonData params none).wp
        (reachDiscipline first paths up) i false (Retained first) w' := by
    intro w' hw'
    apply Co.wp_mono (requestOnce_upholds_atUp method jsonData params w' hw')
    rintro _ r w'' ⟨rfl, hkept, hr⟩
    exact ⟨rfl, hkept.1, hr⟩
  unfold recover
  split
  · rename_i status message endpoint
    rw [Co.wp_bind]
    simp only [wp_self]
    split_ifs
    · exact retained_error hs rfl
    · rw [Co.wp_bind]
      apply Co.wp_mono (relogin_upholds atUp_logins w ⟨hs, hrefused rfl⟩)
      rintro _ r w' ⟨rfl, hkept, hr⟩
      cases r with
      | error e => exact retained_error hkept.1 (hr e rfl)
      | ok _ => exact hagain w' hkept
  · split_ifs with herr
    · unfold failoverIfPeers
      rw [Co.wp_bind, Co.wp_bind]
      simp only [wp_self]
      split_ifs with hpeers
      · -- with one host only, that host is up
        rcases hlost herr with ⟨_, heq, hdown, -⟩
        cases heq
        rcases hup with ⟨other, hother, hthere⟩
        rw [hs.hosts] at hpeers
        have hlength : first.hosts.length = 1 := by
          have hpos := List.length_pos_of_mem hin
          omega
        rcases List.length_eq_one_iff.mp hlength with ⟨only, honly⟩
        rw [honly, List.mem_singleton] at hin hother
        rw [hother, ← hin] at hthere
        exact absurd hthere hdown
      · apply Co.wp_mono (wp_failover_reach hdistinct hup hs fun _ : True => hlost herr)
        rintro _ r w' ⟨rfl, hended⟩
        rcases hended.found trivial with ⟨e, rfl⟩ | ⟨rfl, hthere⟩
        · exact retained_error hended.serves (hended.error e rfl)
        · exact hagain w' ⟨hended.serves, hthere⟩
    · exact retained_error hs (by simpa using herr)

/-- A request ends without a lost host. -/
theorem wp_request_reach (method : String) (jsonData params : Option Dict)
    (hdistinct : first.hosts.Nodup) (hup : ∃ host ∈ first.hosts, up host)
    (hs : Serves first w.state.client) :
    (request method (paths i) jsonData params).wp (reachDiscipline first paths up) i false
      (Retained first) w := by
  rcases hs.exists_host with ⟨host, hhost, -⟩
  have hin : host ∈ first.hosts := by
    rw [← hs.hosts]
    exact List.mem_of_getElem? (ProxmoxVE.host_eq_ok_iff.mp hhost)
  unfold request
  rw [Co.wp_bind, Co.wp_tryCatch]
  apply wp_checkAndRefresh_unrenewed
  dsimp only
  rw [Co.wp_bind]
  simp only [wp_currentHost, hhost]
  rw [Co.wp_tryCatch]
  refine wp_requestOnce_reach hs hhost (fun e he hnot => ?_) (fun r w' hthere hkept hr => ?_)
    fun e w' hdown hs' haway he => ?_
  · refine wp_recover_reach hdistinct hup hin hs (fun h => ?_) fun h => ?_
    · rw [hnot] at h
      contradiction
    · rw [he] at h
      contradiction
  · cases r with
    | ok value => exact ⟨rfl, hkept.1, by simp⟩
    | error e =>
        refine wp_recover_reach hdistinct hup hin hkept.1 (fun _ => hkept.2) fun h => ?_
        rw [hr e rfl] at h
        contradiction
  · refine wp_recover_reach hdistinct hup hin hs' (fun h => ?_) fun _ => ?_
    · rw [Exc.isLostHost_isProxmoxAPIError he] at h
      contradiction
    · exact ⟨host, rfl, hdown, haway⟩

/-- Any call, a failover that does not ask the host in use left out. -/
theorem wp_clientCall_reach {calls : τ → ClientCall}
    (hcalls : ∀ i fromHost, calls i ≠ .failover fromHost false)
    (hdistinct : first.hosts.Nodup) (hup : ∃ host ∈ first.hosts, up host)
    (hs : Serves first w.state.client) :
    (calls i).run.wp (reachDiscipline first (fun i => (calls i).path) up) i false
      (Retained first) w := by
  cases hcall : calls i with
  | request call =>
      have h : (request call.method (calls i).path call.jsonData call.params).wp
          (reachDiscipline first (fun i => (calls i).path) up) i false (Retained first) w :=
        wp_request_reach call.method call.jsonData call.params hdistinct hup hs
      simp only [hcall] at h
      exact h
  | failover fromHost verifyCurrent =>
      cases verifyCurrent with
      | false => exact absurd hcall (hcalls i fromHost)
      | true =>
          rw [ClientCall.run, Co.wp_bind]
          apply Co.wp_mono (wp_failover_reach hdistinct hup hs False.elim)
          rintro _ r w' ⟨rfl, hended⟩
          cases r with
          | ok verdict => exact ⟨rfl, hended.serves, by simp⟩
          | error e => exact retained_error hended.serves (hended.error e rfl)

end Availability

/-! ## Every run -/

/-- Where the hosts that are up answer, the others lose every exchange and one of the list is
up: in every run of any requests and failovers in which no ticket gets due, no call ends because
a host was lost, and while nobody holds the lock the host in use is the first one or one that is
up. -/
theorem requests_answered {τ : Type} [DecidableEq τ] {m : Machine} {up : String → Prop}
    (calls : τ → ClientCall) (hm : m.client.Coherent) (hdistinct : m.client.hosts.Nodup)
    (hup : ∃ host ∈ m.client.hosts, up host)
    (hcalls : ∀ i fromHost, calls i ≠ .failover fromHost false)
    {c : Config τ Machine Exchange Outcome Exc Remark Json}
    (hrun : Config.Reaches ClientKept (.initial m fun i => (calls i).run) c)
    (hreachable : Reachable m.client (fun i => (calls i).path) up c.world.history)
    (hunrenewed : Unrenewed c.world.history) :
    (∀ i e, c.result i = some (.error e) → e.isLostHost = false) ∧
    (c.holder = none → c.world.state.client.host = m.client.host ∨
      ∃ host, c.world.state.client.host = .ok host ∧ up host) := by
  let D := reachDiscipline m.client (fun i => (calls i).path) up
  have hlasting : ∀ i, Co.Lasting D i (Retained m.client) := by
    intro i
    constructor
    · intro _ _ w h
      exact h.2.1
    · intro _ _ w₁ w₂ h _ hs
      exact ⟨h.1, hs, h.2.2⟩
  have hinit : Config.Respects D (fun _ => Retained m.client)
      (.initial m fun i => (calls i).run) := by
    apply Config.initial_respects (Serves.refl hm) (show _ ∨ _ from .inl rfl)
    intro i w _ hs
    exact wp_clientCall_reach hcalls hdistinct hup hs
  have hc := hinit.reaches hlasting (fun c f hf => hf) hrun ⟨hreachable, hunrenewed⟩
  constructor
  · intro i e hended
    exact (hc.result hended).2.2 e rfl
  · intro hnone
    rcases hc.free hnone with hfirst | hthere
    · exact .inl hfirst
    · rcases Serves.exists_host hc.suspended with ⟨host, hhost, -⟩
      exact .inr ⟨host, hhost, (Serves.onUp_iff hc.suspended hhost).mp hthere⟩

/-- A task that asks for the nodes. -/
def askingForNodes (_ : Unit) : ClientCall :=
  .request { method := "GET", path := "nodes" }

/-- A request that loses the first of two hosts is answered by the second one. -/
theorem requests_answered_witness :
    ∃ c : Config Unit Machine Exchange Outcome Exc Remark Json,
      c.result () = some (.ok .null) ∧ c.world.state.client.host = .ok "192.0.2.2" ∧
      ∀ e, c.result () = some (.error e) → e.isLostHost = false := by
  let schedule : List (Action Unit Machine Outcome) :=
    [.start (), .resume () (replyOf false), .lock (), .resume () (replyOf false),
      .resume () (replyOf true), .resume () (replyOf true)]
  have hschedule : ∀ c : Config Unit Machine Exchange Outcome Exc Remark Json,
      ∀ a ∈ schedule, ClientKept c a := by
    simp [schedule, ClientKept]
  obtain ⟨c, q₁, q₂, p₁, p₂, hrun, hended, hhost, hhistory, hq₁, hq₂, hp₁, hp₂, hlogin⟩ :
      ∃ c q₁ q₂ p₁ p₂,
      Config.run (.initial ⟨.withToken ["192.0.2.1", "192.0.2.2"], 0⟩ fun i =>
        (askingForNodes i).run) schedule = some c ∧
      c.result () = some (.ok .null) ∧ c.world.state.client.host = .ok "192.0.2.2" ∧
      c.world.history = [.got () q₂ (replyOf true), .sent () q₂,
        .noted () (.failoverReturned true), .released (), .got () p₂ (replyOf true),
        .sent () p₂, .got () p₁ (replyOf false), .sent () p₁, .locked (),
        .noted () (.failoverEntered (some "192.0.2.1") true), .got () q₁ (replyOf false),
        .sent () q₁] ∧
      q₁.GoesTo 8006 "nodes" "192.0.2.1" ∧ q₂.GoesTo 8006 "nodes" "192.0.2.2" ∧
      p₁.GoesTo 8006 "nodes" "192.0.2.1" ∧ p₂.GoesTo 8006 "nodes" "192.0.2.2" ∧
      [q₁, q₂, p₁, p₂].any (fun q => q.purpose.isLogin) = false :=
    ⟨_, _, _, _, _, by
      and_intros
      · with_unfolding_all rfl
      · with_unfolding_all rfl
      · with_unfolding_all rfl
      · with_unfolding_all rfl
      · rfl
      · rfl
      · rfl
      · rfl
      · rfl⟩
  simp only [List.any_cons, List.any_nil, Bool.or_eq_false_iff] at hlogin
  rcases hlogin with ⟨hl₁, hl₂, hl₃, hl₄, -⟩
  have hreachable : Reachable (ProxmoxVE.withToken ["192.0.2.1", "192.0.2.2"])
      (fun i => (askingForNodes i).path) (fun host => host = "192.0.2.2") c.world.history := by
    have hdown : ∀ {q : Exchange} {host : String}, q.GoesTo 8006 "nodes" "192.0.2.1" →
        q.GoesTo 8006 "nodes" host →
        (host = "192.0.2.2" → Present q (replyOf false)) ∧
          (host ≠ "192.0.2.2" → Absent (replyOf false)) := by
      intro q host hq hgoes
      refine ⟨fun hup => ?_, fun _ => ⟨_, rfl, rfl⟩⟩
      rw [hup] at hgoes
      exact absurd (hq.unique hgoes) (by decide)
    have hthere : ∀ {q : Exchange} {host : String}, q.GoesTo 8006 "nodes" "192.0.2.2" →
        q.GoesTo 8006 "nodes" host →
        (host = "192.0.2.2" → Present q (replyOf true)) ∧
          (host ≠ "192.0.2.2" → Absent (replyOf true)) := by
      intro q host hq hgoes
      refine ⟨fun _ => ⟨fun _ => rfl, _, rfl, ?_⟩, fun hup => absurd (hgoes.unique hq) hup⟩
      rintro e (he | he) <;> contradiction
    intro i q r host hgot hgoes
    rw [hhistory] at hgot
    simp only [List.mem_cons, List.not_mem_nil, or_false, reduceCtorEq, false_or,
      Event.got.injEq] at hgot
    rcases hgot with ⟨-, rfl, rfl⟩ | ⟨-, rfl, rfl⟩ | ⟨-, rfl, rfl⟩ | ⟨-, rfl, rfl⟩
    · exact hthere hq₂ hgoes
    · exact hthere hp₂ hgoes
    · exact hdown hp₁ hgoes
    · exact hdown hq₁ hgoes
  have hunrenewed : Unrenewed c.world.history := by
    intro i q hsent hrenews
    rw [hhistory] at hsent
    have hpost : q.purpose.isLogin = true := by
      rw [hrenews]
      rfl
    simp only [List.mem_cons, List.not_mem_nil, or_false, reduceCtorEq, false_or,
      Event.sent.injEq] at hsent
    rcases hsent with ⟨-, rfl⟩ | ⟨-, rfl⟩ | ⟨-, rfl⟩ | ⟨-, rfl⟩ <;> simp_all
  have hup : ∃ host ∈ (ProxmoxVE.withToken ["192.0.2.1", "192.0.2.2"]).hosts,
      host = "192.0.2.2" := by simp [ProxmoxVE.withToken]
  exact ⟨c, hended, hhost, (requests_answered askingForNodes (withToken_coherent _ _)
    (by simp [ProxmoxVE.withToken]) hup (fun i fromHost => by simp [askingForNodes])
    (Config.reaches_of_run hschedule hrun) hreachable hunrenewed).1 ()⟩

end AioProxmox
