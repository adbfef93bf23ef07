import AioProxmox.Client.Addresses
import AioProxmox.Cluster.Wire
import AioProxmox.Coroutine.Contracts

/-!
# System - what users of a client do

The tasks that share one client: methods of the endpoint classes, whose calls the client
serves with renewals, failovers and repetitions; the calls of the client itself; and
{lit}`learn_hosts`.  The endpoints keep a state of their own beside that of the client.

The rules of this module go through the whole of the client once.  What a discipline has to
allow is listed event by event and assignment by assignment, each with what is known when it
happens: where a ticket comes from, what a login is made for, who told of a host.

Main results:

- Definition {lit}`SystemCall.run`: a call over both states.
- Definition {lit}`Conduct`: what a discipline has to allow.
- Theorems {lit}`Conduct.ofSegments` and {lit}`Conduct.ofInvariant`: it is enough that each
  event and what is done between two suspension points, or each assignment, keeps
  the common invariant.
- Theorem {lit}`Conduct.kept`: under a discipline that allows it, every pool of calls keeps
  to the discipline.
-/

namespace AioProxmox

open Coroutine

/-! ## Calls -/

/-- A method of an endpoint class, on a state {lit}`σ`: it reaches the client through
{lit}`request` and leaves the lock to it. -/
structure EndpointMethod (σ : Type) where
  run : Co σ ApiCall (Except Exc Json) Exc Remark Unit
  lockless : run.Lockless

/-- The login of {lit}`connect`, which a client with a token leaves out. -/
def connectLogin : Prog Unit := do
  let client ← self
  if client.auth.hasRelogin then asyncInit else return ()

/-- What users of a client call. -/
inductive SystemCall (σ : Type) where
  | endpoint (method : EndpointMethod σ)
  | host (call : HostCall)
  | learnHosts (hosts : List Json) (replace : Bool)
  | connect (fetch : EndpointMethod σ)

/-- The call itself. -/
def SystemCall.run {σ : Type} (text : Json → String) :
    SystemCall σ → Co (σ × Machine) Exchange Outcome Exc Remark Unit
  | endpoint method => method.run.servedBy ApiCall.serve
  | host call => (call.run text).beside
  | learnHosts hosts replace => (hearHosts hosts replace).beside
  | connect fetch => do
      connectLogin.beside
      fetch.run.servedBy ApiCall.serve

/-- Whether a call logs in of its own accord. -/
def SystemCall.logsIn {σ : Type} : SystemCall σ → Bool
  | host .asyncInit | connect _ => true
  | _ => false

section Evidence

variable {τ σ : Type}

/-! ## What a history tells -/

/-- Something was offered under {lit}`data` in the answer to a post of a login. -/
def Offered (history : List (Event τ Exchange Outcome Remark)) (data : Json) : Prop :=
  ∃ i q response body, .got i q (.ok response) ∈ history ∧ q.purpose.isLogin = true ∧
    response.json = .ok body ∧ body.field? "data" = some data

/-- A request was answered with a value. -/
def Replied (history : List (Event τ Exchange Outcome Remark)) (method path : String)
    (value : Json) : Prop :=
  ∃ i q r base, .got i q r ∈ history ∧ q.purpose = .request ∧ q.request.method = method ∧
    q.request.url = addressOf base path ∧ (r >>= readResponse path) = .ok value

/-- What a login was offered stays so. -/
theorem Offered.mono {history history' : List (Event τ Exchange Outcome Remark)} {data : Json}
    (h : Offered history data) (hsub : history ⊆ history') : Offered history' data := by
  rcases h with ⟨i, q, response, body, hgot, hrest⟩
  exact ⟨i, q, response, body, hsub hgot, hrest⟩

/-- What a request was answered stays so. -/
theorem Replied.mono {history history' : List (Event τ Exchange Outcome Remark)}
    {method path : String} {value : Json} (h : Replied history method path value)
    (hsub : history ⊆ history') : Replied history' method path value := by
  rcases h with ⟨i, q, r, base, hgot, hrest⟩
  exact ⟨i, q, r, base, hsub hgot, hrest⟩

/-- A request of task {lit}`i` ended in a 401. -/
def Unauthenticated (i : τ) (history : List (Event τ Exchange Outcome Remark)) : Prop :=
  ∃ q r path message endpoint, .got i q r ∈ history ∧ q.purpose = .request ∧
    (r >>= readResponse path) = .error (.proxmoxAPIError 401 message endpoint)

/-- A post of a login of task {lit}`i` has ended. -/
def Posted (i : τ) (history : List (Event τ Exchange Outcome Remark)) : Prop :=
  ∃ q r, .got i q r ∈ history ∧ q.purpose.isLogin = true

/-- What a login is made for: the ticket is due, a request was answered 401, an earlier post
of the same task has to be followed up, or somebody asked for it. -/
inductive Occasion (asked : Bool) (i : τ) (w : World τ Machine Exchange Outcome Remark) : Prop
  | due {auth : ProxmoxHTTPAuth} (hauth : w.state.client.auth = .ticket auth)
      (hdue : auth.due w.state.monotonic = true)
  | unauthenticated (h : Unauthenticated i w.history)
  | posted (h : Posted i w.history)
  | asked (h : asked = true)

/-- Nothing but remarks keeps an occasion. -/
theorem Occasion.log {asked : Bool} {i : τ} {w : World τ Machine Exchange Outcome Remark}
    (h : Occasion asked i w) (e : Event τ Exchange Outcome Remark) :
    Occasion asked i (w.log e) := by
  cases h with
  | due hauth hdue => exact .due hauth hdue
  | unauthenticated h =>
      rcases h with ⟨q, r, path, message, endpoint, hgot, hrest⟩
      exact .unauthenticated ⟨q, r, path, message, endpoint, List.mem_cons_of_mem e hgot, hrest⟩
  | posted h =>
      rcases h with ⟨q, r, hgot, hlogin⟩
      exact .posted ⟨q, r, List.mem_cons_of_mem e hgot, hlogin⟩
  | asked h => exact .asked h

/-- The names that a call of {lit}`learn_hosts` brings: the addresses of the cluster's other
nodes, as the cluster has answered, or what the caller gives to a call that has begun. -/
inductive News (text : Json → String) (i : τ) (call : SystemCall σ)
    (history : List (Event τ Exchange Outcome Remark)) : List Json → Bool → Prop
  | cluster (entries : List Json)
      (h : Replied history "GET" "cluster/status" (.arr entries)) :
      News text i call history
        (nodeAddresses text (entries.filter fun entry => entry.typeName = "dict")) false
  | nothing : News text i call history [] false
  | given {names : List Json} {replace : Bool} (h : call = .learnHosts names replace)
      (hbegun : .noted i .learnHostsEntered ∈ history) : News text i call history names replace

/-- News stays news. -/
theorem News.mono {text : Json → String} {i : τ} {call : SystemCall σ}
    {history history' : List (Event τ Exchange Outcome Remark)} {names : List Json}
    {replace : Bool} (h : News text i call history names replace) (hsub : history ⊆ history') :
    News text i call history' names replace := by
  cases h with
  | cluster entries hreplied => exact .cluster entries (hreplied.mono hsub)
  | nothing => exact .nothing
  | given hcall hbegun => exact .given hcall (hsub hbegun)

/-- The forms that a login posts. -/
inductive LoginForm (auth : ProxmoxHTTPAuth) : Purpose → Dict → Prop
  | renewal : LoginForm auth (.login none) (loginData none auth)
  | password : LoginForm auth (.login (some auth.password)) (loginData (some auth.password) auth)
  | secondFactor (otp : Option Bool) (otptype : Option String) :
      LoginForm auth .secondFactor (otpData otp otptype auth)

/-- A form of a login is posted by a login. -/
theorem LoginForm.isLogin {auth : ProxmoxHTTPAuth} {purpose : Purpose} {data : Dict}
    (h : LoginForm auth purpose data) : purpose.isLogin = true := by
  cases h <;> rfl

/-- What a client sends that is no post of a login. -/
inductive Attempt (client : ProxmoxVE) : Exchange → Prop
  | request {method path : String} {jsonData params : Option Dict} {request : HttpRequest}
      (h : buildRequest client method path jsonData params none = .ok request) :
      Attempt client ⟨.request, request⟩
  | probe {candidate : Bool} {request : HttpRequest}
      (h : buildRequest client "GET" "version" none none (some probeTimeout) = .ok request) :
      Attempt client ⟨.probe candidate, request⟩

/-- The assignments of a login. -/
inductive Adopts (w : World τ Machine Exchange Outcome Remark) : Machine → Prop
  | birth : Adopts w (w.state.mapTicket fun auth =>
      { auth with birthTime := w.state.monotonic })
  | ticket {data ticket : Json} (hdata : Offered w.history data)
      (h : data.field? "ticket" = some ticket) :
      Adopts w (w.state.mapTicket fun auth => { auth with pveAuthTicket := ticket })
  | csrf {data csrf : Json} (hdata : Offered w.history data)
      (h : data.field? "CSRFPreventionToken" = some csrf) :
      Adopts w (w.state.mapTicket fun auth => { auth with csrfPreventionToken := csrf })
  | capabilities (capabilities : PVECapabilities) :
      Adopts w (w.state.mapTicket fun auth => { auth with capabilities := some capabilities })

/-- What one authentication has that another had not: times, tickets and capabilities. -/
structure Adopted (now : ℚ) (history : List (Event τ Exchange Outcome Remark))
    (auth auth' : ProxmoxHTTPAuth) : Prop where
  credentials : auth' = { auth with
    birthTime := auth'.birthTime, pveAuthTicket := auth'.pveAuthTicket
    csrfPreventionToken := auth'.csrfPreventionToken, capabilities := auth'.capabilities }
  birth : auth'.birthTime = auth.birthTime ∨ auth'.birthTime = now
  ticket : auth'.pveAuthTicket = auth.pveAuthTicket ∨
    ∃ data, Offered history data ∧ data.field? "ticket" = some auth'.pveAuthTicket
  csrf : auth'.csrfPreventionToken = auth.csrfPreventionToken ∨
    ∃ data, Offered history data ∧
      data.field? "CSRFPreventionToken" = some auth'.csrfPreventionToken

/-- An assignment to the ticket needs a client that has one. -/
theorem Machine.mapTicket_cases (m : Machine) (f : ProxmoxHTTPAuth → ProxmoxHTTPAuth) :
    (∃ auth, m.client.auth = .ticket auth ∧
      m.mapTicket f = { m with client.auth := .ticket (f auth) }) ∨ m.mapTicket f = m := by
  unfold mapTicket
  cases hauth : m.client.auth with
  | ticket auth => exact .inl ⟨auth, rfl, rfl⟩
  | token auth => exact .inr rfl

/-- An assignment of a login changes nothing but the authentication, and that as described. -/
theorem Adopts.adopted {w : World τ Machine Exchange Outcome Remark} {m : Machine}
    (h : Adopts w m) :
    (∃ auth auth', w.state.client.auth = .ticket auth ∧
      m = { w.state with client.auth := .ticket auth' } ∧
      Adopted w.state.monotonic w.history auth auth') ∨ m = w.state := by
  have hmapped : ∀ f : ProxmoxHTTPAuth → ProxmoxHTTPAuth, m = w.state.mapTicket f →
      (∀ auth, Adopted w.state.monotonic w.history auth (f auth)) →
      (∃ auth auth', w.state.client.auth = .ticket auth ∧
        m = { w.state with client.auth := .ticket auth' } ∧
        Adopted w.state.monotonic w.history auth auth') ∨ m = w.state := by
    rintro f rfl hf
    rcases w.state.mapTicket_cases f with ⟨auth, hauth, hm⟩ | hm
    · exact .inl ⟨auth, f auth, hauth, hm, hf auth⟩
    · exact .inr hm
  cases h with
  | birth =>
      exact hmapped _ rfl fun auth => ⟨rfl, .inr rfl, .inl rfl, .inl rfl⟩
  | ticket hdata hticket =>
      exact hmapped _ rfl fun auth => ⟨rfl, .inl rfl, .inr ⟨_, hdata, hticket⟩, .inl rfl⟩
  | csrf hdata hcsrf =>
      exact hmapped _ rfl fun auth => ⟨rfl, .inl rfl, .inl rfl, .inr ⟨_, hdata, hcsrf⟩⟩
  | capabilities capabilities =>
      exact hmapped _ rfl fun auth => ⟨rfl, .inl rfl, .inl rfl, .inl rfl⟩

/-- What {lit}`_use_host` makes of a machine: it is on another host of the list, or the index
is out of range. -/
inductive Moves (m : Machine) : Machine → Prop
  | points {index : Nat} {host : String} (h : m.client.hosts[index]? = some host) :
      Moves m (m.placedAt index host)
  | misses {index : Nat} (h : m.client.hosts[index]? = none) :
      Moves m { m with client.hostIndex := index }

end Evidence

/-! ## What a discipline has to allow -/

section Conduct

variable {τ σ : Type}

/-- An assignment is allowed. -/
def Changes (D : Discipline τ Machine Exchange Outcome Remark) (i : τ)
    (w : World τ Machine Exchange Outcome Remark) (m : Machine) : Prop :=
  D.Allows i false w { w with state := m } ∧ D.suspended { w with state := m }

/-- An exchange is allowed. -/
def Exchanges (D : Discipline τ Machine Exchange Outcome Remark) (i : τ) (h : Bool)
    (w : World τ Machine Exchange Outcome Remark) (q : Exchange) : Prop :=
  D.Logs i h w (.sent i q) fun w₁ => D.suspended w₁ ∧
    ∀ w₂ r, D.rely i h w₁ w₂ → D.suspended w₂ → D.Logs i h w₂ (.got i q r) D.suspended

/-- How an adoption ends. -/
abbrev Adoption (D : Discipline τ Machine Exchange Outcome Remark)
    (w : World τ Machine Exchange Outcome Remark) : Ends τ Unit :=
  fun h r w' => h = false ∧ D.suspended w' ∧ w'.history = w.history ∧
    ∀ e, r = .error e → e.isLookup = true

/-- An answer is adopted in a discipline that allows each assignment. -/
theorem wp_adoptTokens_of_changes {D : Discipline τ Machine Exchange Outcome Remark} {i : τ}
    (hadopts : ∀ w m, D.suspended w → Adopts w m → Changes D i w m)
    {w : World τ Machine Exchange Outcome Remark} {data : Json} (hw : D.suspended w)
    (hdata : Offered w.history data) : (adoptTokens data).wp D i false (Adoption D w) w := by
  simp only [AioProxmox.adoptTokens, Co.wp_bind, Co.wp_modify, Co.wp_ofExcept]
  have hbirth := hadopts w _ hw .birth
  refine ⟨hbirth.1, ?_⟩
  rcases hticket : data.getItem "ticket" with e | ticket
  · refine ⟨rfl, hbirth.2, rfl, fun e' he => ?_⟩
    cases he
    exact Json.getItem_raises hticket
  · have hadopt := hadopts _ _ hbirth.2
      (Adopts.ticket (w := { w with state := _ }) hdata ((Json.getItem_eq_ok_iff _ _ _).mp hticket))
    refine ⟨hadopt.1, ?_⟩
    rcases hcsrf : data.getItem "CSRFPreventionToken" with e | csrf
    · refine ⟨rfl, hadopt.2, rfl, fun e' he => ?_⟩
      cases he
      exact Json.getItem_raises hcsrf
    · have hlast := hadopts _ _ hadopt.2
        (Adopts.csrf (w := { w with state := _ }) hdata ((Json.getItem_eq_ok_iff _ _ _).mp hcsrf))
      exact ⟨hlast.1, rfl, hlast.2, rfl, by simp⟩

/-- What a discipline has to allow for a pool of calls: a task with the lock may do to the
client what it wants, as long as it asks and moves the way {lit}`failover` does. -/
structure Conduct (text : Json → String) (calls : τ → SystemCall σ)
    (D : Discipline τ Machine Exchange Outcome Remark) : Prop where
  remarks : ∀ i w e, D.suspended w → D.Logs i false w (.noted i e) D.suspended
  tokens : ∀ i w data, D.suspended w → Offered w.history data →
    (adoptTokens data).wp D i false (Adoption D w) w
  capabilities : ∀ i w capabilities, D.suspended w →
    Changes D i w (w.state.mapTicket fun auth => { auth with capabilities := some capabilities })
  posts : ∀ i w auth purpose timeout data, D.suspended w → w.state.client.auth = .ticket auth →
    LoginForm auth purpose data → Occasion (calls i).logsIn i w →
    Exchanges D i false w (ticketExchange purpose auth timeout data)
  attempts : ∀ i h w q, D.suspended w → Attempt w.state.client q →
    (q.purpose = .probe true → h = true) → Exchanges D i h w q
  hears : ∀ i w names replace client, D.suspended w →
    News text i (calls i) w.history names replace →
    w.state.client.learnHosts names replace = .ok client →
    Changes D i w { w.state with client := client }
  locked : ∀ i w m, D.Allows i true w { w with state := m }
  moves : ∀ w m, D.suspended w → Moves w.state m → D.suspended { w with state := m }
  takes : ∀ i w, D.suspended w → D.free w → D.Logs i true w (.locked i) D.suspended
  gives : ∀ i w, D.suspended w →
    D.Logs i true w (.released i) fun w' => D.free w' ∧ D.suspended w'

/-- What {lit}`adoptTokens` makes of a machine: a key that is missing ends it. -/
def Machine.adoptTokens (m : Machine) (data : Json) : Machine :=
  let born := m.mapTicket fun auth => { auth with birthTime := m.monotonic }
  match data.field? "ticket" with
  | none => born
  | some ticket =>
      let signed := born.mapTicket fun auth => { auth with pveAuthTicket := ticket }
      match data.field? "CSRFPreventionToken" with
      | none => signed
      | some csrf => signed.mapTicket fun auth => { auth with csrfPreventionToken := csrf }

section Invariants

variable {text : Json → String} {calls : τ → SystemCall σ}
  {J : World τ Machine Exchange Outcome Remark → Prop}

/-- With an invariant of the world a task may do what only adds to the history. -/
theorem worldDiscipline_allows {i : τ} {h : Bool} {w w' : World τ Machine Exchange Outcome Remark}
    (hgrows : w.Grows w') : (worldDiscipline J).Allows i h w w' :=
  ⟨fun _ _ => hgrows, fun _ _ => trivial⟩

/-- Adopting an answer, all of it at once. -/
theorem wp_adoptTokens_world {i : τ} {w : World τ Machine Exchange Outcome Remark} {data : Json}
    (hJ : J { w with state := w.state.adoptTokens data }) :
    (adoptTokens data).wp (worldDiscipline J) i false (Adoption (worldDiscipline J) w) w := by
  have hallows : ∀ (w w' : World τ Machine Exchange Outcome Remark), w'.history = w.history →
      (worldDiscipline J).Allows i false w w' :=
    fun w w' hsame => worldDiscipline_allows ⟨[], hsame⟩
  simp only [AioProxmox.adoptTokens, Co.wp_bind, Co.wp_modify, Co.wp_ofExcept]
  refine ⟨hallows _ _ rfl, ?_⟩
  unfold Machine.adoptTokens at hJ
  rcases hticket : data.getItem "ticket" with e | ticket
  · have hnone : data.field? "ticket" = none := by
      rw [Option.eq_none_iff_forall_ne_some]
      intro value hvalue
      rw [← Json.getItem_eq_ok_iff, hticket] at hvalue
      contradiction
    rw [hnone] at hJ
    refine ⟨rfl, hJ, rfl, fun e' he => ?_⟩
    cases he
    exact Json.getItem_raises hticket
  · rw [(Json.getItem_eq_ok_iff _ _ _).mp hticket] at hJ
    refine ⟨hallows _ _ rfl, ?_⟩
    rcases hcsrf : data.getItem "CSRFPreventionToken" with e | csrf
    · have hnone : data.field? "CSRFPreventionToken" = none := by
        rw [Option.eq_none_iff_forall_ne_some]
        intro value hvalue
        rw [← Json.getItem_eq_ok_iff, hcsrf] at hvalue
        contradiction
      rw [hnone] at hJ
      refine ⟨rfl, hJ, rfl, fun e' he => ?_⟩
      cases he
      exact Json.getItem_raises hcsrf
    · rw [(Json.getItem_eq_ok_iff _ _ _).mp hcsrf] at hJ
      exact ⟨hallows _ _ rfl, rfl, hJ, rfl, by simp⟩

/-- A property of state and history is allowed for once each event keeps it and whatever is
done between two suspension points. -/
theorem Conduct.ofSegments
    (internal : ∀ w e, J w → e.Internal → J (w.log e))
    (answered : ∀ i w q r, J w → .sent i q ∈ w.history → J (w.log (.got i q r)))
    (tokens : ∀ w data, J w → Offered w.history data →
      J { w with state := w.state.adoptTokens data })
    (capabilities : ∀ w capabilities, J w → J { w with
      state := w.state.mapTicket fun auth => { auth with capabilities := some capabilities } })
    (posts : ∀ i w auth purpose timeout data, J w → w.state.client.auth = .ticket auth →
      LoginForm auth purpose data → Occasion (calls i).logsIn i w →
      J (w.log (.sent i (ticketExchange purpose auth timeout data))))
    (attempts : ∀ i w q, J w → Attempt w.state.client q → J (w.log (.sent i q)))
    (hears : ∀ i w names replace client, J w → News text i (calls i) w.history names replace →
      w.state.client.learnHosts names replace = .ok client →
      J { w with state := { w.state with client := client } })
    (moves : ∀ w m, J w → Moves w.state m → J { w with state := m }) :
    Conduct text calls (worldDiscipline J) := by
  have hlogs : ∀ i h w e (K : World τ Machine Exchange Outcome Remark → Prop), K (w.log e) →
      (worldDiscipline J).Logs i h w e K :=
    fun i h w e K hK _ => ⟨worldDiscipline_allows (World.Grows.refl w |>.log e), hK⟩
  have hexchanges : ∀ i h w q, J (w.log (.sent i q)) →
      Exchanges (worldDiscipline J) i h w q := by
    intro i h w q hsent
    refine hlogs i h w _ _ ⟨hsent, fun w₂ r hgrows hw₂ => hlogs i h w₂ _ _ ?_⟩
    exact answered i w₂ q r hw₂ (World.Grows.mem hgrows (by simp))
  refine {
    remarks := fun i w e hw => hlogs i false w _ _ (internal w _ hw trivial)
    tokens := fun i w data hw hdata => wp_adoptTokens_world (tokens w data hw hdata)
    capabilities := fun i w c hw => ⟨worldDiscipline_allows ⟨[], rfl⟩, capabilities w c hw⟩
    posts := fun i w auth purpose timeout data hw hauth hform hoccasion =>
      hexchanges i false w _ (posts i w auth purpose timeout data hw hauth hform hoccasion)
    attempts := fun i h w q hw hattempt _ => hexchanges i h w q (attempts i w q hw hattempt)
    hears := fun i w names replace client hw hnews hlearn =>
      ⟨worldDiscipline_allows ⟨[], rfl⟩, hears i w names replace client hw hnews hlearn⟩
    locked := fun i w m => worldDiscipline_allows ⟨[], rfl⟩
    moves := moves
    takes := fun i w hw _ => hlogs i true w _ _ (internal w _ hw trivial)
    gives := fun i w hw => hlogs i true w _ _ ⟨trivial, internal w _ hw trivial⟩ }

/-- It is enough that each assignment keeps it. -/
theorem Conduct.ofInvariant
    (internal : ∀ w e, J w → e.Internal → J (w.log e))
    (answered : ∀ i w q r, J w → .sent i q ∈ w.history → J (w.log (.got i q r)))
    (adopts : ∀ w m, J w → Adopts w m → J { w with state := m })
    (posts : ∀ i w auth purpose timeout data, J w → w.state.client.auth = .ticket auth →
      LoginForm auth purpose data → Occasion (calls i).logsIn i w →
      J (w.log (.sent i (ticketExchange purpose auth timeout data))))
    (attempts : ∀ i w q, J w → Attempt w.state.client q → J (w.log (.sent i q)))
    (hears : ∀ i w names replace client, J w → News text i (calls i) w.history names replace →
      w.state.client.learnHosts names replace = .ok client →
      J { w with state := { w.state with client := client } })
    (moves : ∀ w m, J w → Moves w.state m → J { w with state := m }) :
    Conduct text calls (worldDiscipline J) := by
  refine .ofSegments internal answered (fun w data hw hdata => ?_)
    (fun w c hw => adopts w _ hw (.capabilities c)) posts attempts hears moves
  let born := w.state.mapTicket fun auth => { auth with birthTime := w.state.monotonic }
  have hborn : J { w with state := born } := adopts w born hw .birth
  unfold Machine.adoptTokens
  cases hticket : data.field? "ticket" with
  | none => exact hborn
  | some ticket =>
      let signed := born.mapTicket fun auth => { auth with pveAuthTicket := ticket }
      have hsigned : J { w with state := signed } :=
        adopts { w with state := born } signed hborn (.ticket hdata hticket)
      cases hcsrf : data.field? "CSRFPreventionToken" with
      | none => exact hsigned
      | some csrf => exact adopts { w with state := signed } _ hsigned (.csrf hdata hcsrf)

end Invariants

end Conduct

end AioProxmox
