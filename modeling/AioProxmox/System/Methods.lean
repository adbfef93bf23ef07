import AioProxmox.Cluster.GuestStatus
import AioProxmox.Cluster.Readers
import AioProxmox.Cluster.Wire
import AioProxmox.Coroutine.Layers
import AioProxmox.System.Costs

/-!
# System - the endpoint methods in company

Every method of the endpoint classes on two levels: the calls it writes, and what the client
says to the API for each of them.  Above, a command builds its parameters and makes one call,
a reading method makes one, and the status of a guest takes a fetch of the resource list at
most before its own.  Below, each call is one request with its renewals, repetitions and
searches, and nothing is said for a call that is refused.

Main results:

- Definition {lit}`EndpointCall.run`: a method with its arguments.
- Definitions {lit}`MayCall` and {lit}`MethodEnds`: what a method calls and how it ends.
- Theorem {lit}`methods_converse`: what it says in any company, and what it returns.
- Theorem {lit}`readers_onlyRead`: tasks that read send nothing that writes.
- Theorem {lit}`methods_inTime`: how long a method can take.
-/

namespace AioProxmox

open Coroutine

/-! ## The methods -/

/-- A method of the endpoint classes with its arguments. -/
inductive EndpointCall where
  | command (c : Command)
  | reading (r : Reading)
  | qemuCurrent (vmid : Int)
  | lxcCurrent (vmid : Int)
  | resources

/-- Whether a method is one of the commands. -/
def EndpointCall.isCommand : EndpointCall → Bool
  | command _ => true
  | _ => false

/-- A conversation of an endpoint with the client, the newest call first. -/
abbrev Calls := List (ApiCall × Except Exc Json)

/-- What the status of a guest calls: at most a fetch, and then its own call. -/
inductive MayAskStatus (kind : GuestKind) (vmid : Int) : Calls → ApiCall → Prop
  | fetches : MayAskStatus kind vmid [] resourcesCall
  | asks (node : String) : MayAskStatus kind vmid [] (statusCall kind node vmid)
  | asksFetched (node : String) (raw : Json) :
      MayAskStatus kind vmid [(resourcesCall, .ok raw)] (statusCall kind node vmid)

section Methods

variable {Record : Type} (from_ : FromDict) (fromDict : RecordClass → Json → Except Exc Record)
  (text repr : Json → String)

/-- What {lit}`current` makes of the answer to its own call. -/
def readStatus (kind : GuestKind) (cls : RecordClass) : Json → Except Exc (Report Record)
  | .obj fields => oneFromDict fromDict cls (.obj fields)
  | v => .error (.proxmoxError (kind.unexpected ++ ", got <class '" ++ v.typeName ++ "'>"))

/-- The method itself. -/
def EndpointCall.run : EndpointCall → Api (Report Record)
  | command c => do
      let value ← c.run text repr
      return .raw value
  | reading r => r.run fromDict text
  | qemuCurrent vmid =>
      AioProxmox.qemuCurrent from_
        (fun fields => oneFromDict fromDict .qemuStatus (.obj fields)) vmid
  | lxcCurrent vmid =>
      AioProxmox.lxcCurrent from_
        (fun fields => oneFromDict fromDict .lxcStatus (.obj fields)) vmid
  | resources => do
      let held ← AioProxmox.resources from_
      return .resources held

/-- What a method calls: a command and a reading method one thing. -/
def MayCall : EndpointCall → Calls → ApiCall → Prop
  | .command c, above, q => above = [] ∧ ∃ payload, c.parameters repr = .ok payload ∧
      q = c.call payload
  | .reading r, above, q => above = [] ∧ q = r.call
  | .qemuCurrent vmid, above, q => MayAskStatus qemuKind vmid above q
  | .lxcCurrent vmid, above, q => MayAskStatus lxcKind vmid above q
  | .resources, above, q => above = [] ∧ q = resourcesCall

/-- How the status of a guest ends: in an error before its own call, or in what that call was
answered. -/
inductive StatusEnds (kind : GuestKind) (cls : RecordClass) (vmid : Int)
    (r : Except Exc (Report Record)) : Calls → Prop
  | unlocated {e : Exc} (hr : r = .error e) : StatusEnds kind cls vmid r []
  | unfetched {e : Exc} {out : Except Exc Json} (hr : r = .error e) :
      StatusEnds kind cls vmid r [(resourcesCall, out)]
  | answered {node : String} {out : Except Exc Json} {before : Calls}
      (hasked : MayAskStatus kind vmid before (statusCall kind node vmid))
      (hr : r = out >>= readStatus fromDict kind cls) :
      StatusEnds kind cls vmid r ((statusCall kind node vmid, out) :: before)

/-- How a method ends: a command hands the answer back, or refuses its arguments without a
call; a reading method reads its answer, and a fetch returns the list that the client adopts. -/
inductive MethodEnds (r : Except Exc (Report Record)) : EndpointCall → Calls → Prop
  | refused {c : Command} {e : Exc} (hparameters : c.parameters repr = .error e)
      (hr : r = .error e) : MethodEnds r (.command c) []
  | commanded {c : Command} {payload : Dict} {out : Except Exc Json}
      (hparameters : c.parameters repr = .ok payload)
      (hr : r = out.map fun raw => .raw (c.wrap text raw)) :
      MethodEnds r (.command c) [(c.call payload, out)]
  | read {reading : Reading} {out : Except Exc Json} (hr : r = reading.answer fromDict text out) :
      MethodEnds r (.reading reading) [(reading.call, out)]
  | qemu {vmid : Int} {above : Calls} (h : StatusEnds fromDict qemuKind .qemuStatus vmid r above) :
      MethodEnds r (.qemuCurrent vmid) above
  | lxc {vmid : Int} {above : Calls} (h : StatusEnds fromDict lxcKind .lxcStatus vmid r above) :
      MethodEnds r (.lxcCurrent vmid) above
  | fetched {out : Except Exc Json} (hr : r = (AioProxmox.fetched from_ out).map .resources) :
      MethodEnds r .resources [(resourcesCall, out)]

end Methods

/-! ## What they call -/

section Calls

variable {Record : Type} {from_ : FromDict}
  {fromDict : RecordClass → Json → Except Exc Record} {text repr : Json → String}

/-- Reading what is held says nothing. -/
theorem heldResources_mute :
    heldResources.Mute (ι := ApiCall) (ρ := Except Exc Json) (fun _ => True) fun _ => True := by
  refine Co.Mute.state_bind fun view _ => ?_
  cases view.clusterResources with
  | some held => exact .pure trivial
  | none => exact .throw trivial

/-- What is done with an answer is done at once, so the list that is returned is the one that
was assigned. -/
theorem adoptList_talks {may : Calls → ApiCall → Prop} {above : Calls}
    {Q : Except Exc (List ClusterResource) → Calls → Prop} (raw : Json)
    (hQ : Q (fetched from_ (.ok raw)) above) :
    (adoptList from_ raw).Talks (fun _ => True) may above Q := by
  refine fun view _ => ⟨trivial, ?_⟩
  rintro _ rfl _ rfl
  refine ⟨trivial, ?_⟩
  rintro _ rfl
  exact hQ

/-- A fetch is one call, and returns the list of its answer. -/
theorem resources_talks {may : Calls → ApiCall → Prop} (hmay : may [] resourcesCall) :
    (resources from_).Talks (fun _ => True) may [] fun r above =>
      ∃ out, above = [(resourcesCall, out)] ∧ r = fetched from_ out := by
  refine Co.Talks.bind (R := fun r above => above = [(resourcesCall, r)])
    (Co.Talks.await hmay fun r => rfl) (fun raw above h => ?_) fun e above h => ?_
  · rw [h]
    exact adoptList_talks raw ⟨.ok raw, rfl, rfl⟩
  · exact ⟨.error e, h, rfl⟩

/-- Where a guest is found takes a fetch at most, and one that is answered. -/
theorem locate_talks (kind : GuestKind) (vmid : Int) :
    (locate from_ kind vmid).Talks (fun _ => True) (MayAskStatus kind vmid) []
      fun r above => above = [] ∨
        ∃ out, above = [(resourcesCall, out)] ∧ ∀ node, r = .ok node → ∃ raw, out = .ok raw := by
  refine heldResources_mute.talks_bind (fun held _ => ?_) fun _ _ => .inl rfl
  cases present (pveFindNodeInCache held vmid) with
  | some node => exact Co.Talks.pure (.inl rfl)
  | none =>
      have hrefetch : (refetch from_ vmid).Talks (fun _ => True) (MayAskStatus kind vmid) []
          fun r above => ∃ out, above = [(resourcesCall, out)] ∧
            ∀ node, r = .ok node → ∃ raw, out = .ok raw := by
        unfold refetch
        refine Co.Talks.tryCatch (R := fun r above => ∃ out, above = [(resourcesCall, out)] ∧
            ∀ node, r = .ok node → ∃ raw, out = .ok raw) ?_ (fun _ _ h => h) fun err above h => ?_
        · refine (resources_talks .fetches).bind (fun fresh above h => ?_) fun e above h => ?_
          · rcases h with ⟨out, rfl, hout⟩
            have hraw : ∃ raw, out = .ok raw := by
              cases out with
              | ok raw => exact ⟨raw, rfl⟩
              | error e => contradiction
            refine heldResources_mute.talks_bind (fun held _ => ?_) fun e _ => ⟨out, rfl, by simp⟩
            exact Co.Talks.pure ⟨out, rfl, fun _ _ => hraw⟩
          · rcases h with ⟨out, rfl, -⟩
            exact ⟨out, rfl, by simp⟩
        · rcases h with ⟨out, rfl, -⟩
          unfold untracked
          split_ifs
          · exact Co.Talks.throw ⟨out, rfl, by simp⟩
          · exact Co.Talks.throw ⟨out, rfl, by simp⟩
      refine hrefetch.bind (fun found above h => ?_) fun e above h => ?_
      · rcases h with ⟨out, rfl, hout⟩
        cases present found with
        | some node => exact Co.Talks.pure (.inr ⟨out, rfl, fun _ _ => hout found rfl⟩)
        | none => exact Co.Talks.throw (.inr ⟨out, rfl, by simp⟩)
      · rcases h with ⟨out, rfl, -⟩
        exact .inr ⟨out, rfl, by simp⟩

/-- The status of a guest. -/
theorem current_talks (kind : GuestKind) (cls : RecordClass) (vmid : Int) :
    (current from_ kind (fun fields => oneFromDict fromDict cls (.obj fields)) vmid).Talks
      (fun _ => True) (MayAskStatus kind vmid) [] (StatusEnds fromDict kind cls vmid) := by
  have hask : ∀ {above : Calls} (node : String),
      MayAskStatus kind vmid above (statusCall kind node vmid) →
      (do
        let raw ← clientRequest "GET" (statusPath kind node vmid) []
        match raw with
        | .obj fields => Co.ofExcept (oneFromDict fromDict cls (.obj fields))
        | v => throw (.proxmoxError (kind.unexpected ++ ", got <class '" ++ v.typeName ++ "'>")) :
        Api (Report Record)).Talks (fun _ => True) (MayAskStatus kind vmid) above
          (StatusEnds fromDict kind cls vmid) := by
    intro above node hmay
    refine Co.Talks.bind (R := fun r l => l = (statusCall kind node vmid, r) :: above)
      (Co.Talks.await hmay fun r => rfl) (fun raw l hl => ?_) fun e l hl => ?_
    · rw [hl]
      have hread : (Co.ofExcept (readStatus fromDict kind cls raw) : Api (Report Record)).Talks
          (fun _ => True) (MayAskStatus kind vmid) ((statusCall kind node vmid, .ok raw) :: above)
          (StatusEnds fromDict kind cls vmid) := Co.Talks.ofExcept (.answered hmay rfl)
      cases raw with
      | obj fields => exact hread
      | _ => exact hread
    · rw [hl]
      exact .answered hmay rfl
  refine (locate_talks kind vmid).bind (fun node above h => ?_) fun e above h => ?_
  · rcases h with rfl | ⟨out, rfl, hout⟩
    · exact hask node (.asks node)
    · rcases hout node rfl with ⟨raw, rfl⟩
      exact hask node (.asksFetched node raw)
  · rcases h with rfl | ⟨out, rfl, -⟩
    · exact .unlocated rfl
    · exact .unfetched rfl

/-- The method, as it talks to the client. -/
theorem EndpointCall.run_talks (e : EndpointCall) :
    (e.run from_ fromDict text repr).Talks (fun _ => True) (MayCall repr e) []
      fun r => MethodEnds from_ fromDict text repr r e := by
  cases e with
  | command c =>
      rw [EndpointCall.run, Command.run_eq]
      cases hparameters : c.parameters repr with
      | error e => exact .refused hparameters rfl
      | ok payload =>
          refine ⟨⟨rfl, payload, hparameters, rfl⟩, fun out => ?_⟩
          cases out with
          | ok raw => exact .commanded hparameters rfl
          | error e => exact .commanded hparameters rfl
  | reading r =>
      rw [EndpointCall.run, Reading.run_eq]
      exact ⟨⟨rfl, rfl⟩, fun out => .read rfl⟩
  | qemuCurrent vmid =>
      exact (current_talks qemuKind .qemuStatus vmid).mono (fun _ _ h => h) fun _ _ h => .qemu h
  | lxcCurrent vmid =>
      exact (current_talks lxcKind .lxcStatus vmid).mono (fun _ _ h => h) fun _ _ h => .lxc h
  | resources =>
      refine Co.Talks.bind (resources_talks ⟨rfl, rfl⟩) (fun held above h => ?_) fun e above h => ?_
      · rcases h with ⟨out, rfl, hout⟩
        exact Co.Talks.pure (.fetched (by rw [← hout]; rfl))
      · rcases h with ⟨out, rfl, hout⟩
        exact .fetched (by rw [← hout]; rfl)

end Calls

/-! ## What is said for them -/

section Company

variable {Record : Type} {from_ : FromDict}
  {fromDict : RecordClass → Json → Except Exc Record} {text repr : Json → String}

/-- What the client may ask for a call: what a request may. -/
def MayServe (call : ApiCall) (l : Chat) (q : Exchange) : Prop :=
  ∃ arguments, call.arguments = .ok arguments ∧
    MayAsk call.method call.path arguments.1 arguments.2 l q

/-- How a call ends: it is refused and nothing is said, or it is a request. -/
inductive Served (call : ApiCall) (out : Except Exc Json) : Chat → Prop
  | refused {e : Exc} (h : call.arguments = .error e) (hout : out = .error e) :
      Served call out []
  | requested {arguments : Option Dict × Option Dict} {l : Chat}
      (h : call.arguments = .ok arguments) (hends : RequestEnds call.path out l) :
      Served call out l

/-- What serves a call is one request, or nothing for arguments it does not take. -/
theorem serve_talks (call : ApiCall) :
    call.serve.Talks (fun _ => True) (MayServe call) [] (Served call) := by
  refine Co.Talks.ofExcept_bind (fun arguments h => ?_) fun e h => .refused h rfl
  exact request_talks.mono (fun _ _ hmay => ⟨arguments, h, hmay⟩) fun _ _ hends =>
    .requested h hends

/-- Whatever the other tasks are and do, what a method says to the API are the requests of its
calls, one after the other, each with its renewals, repetitions and searches; and it ends as
those calls are answered. -/
theorem methods_converse {τ : Type} [DecidableEq τ] (e : EndpointCall) {i : τ}
    {tasks : τ → Co (ClusterView × Machine) Exchange Outcome Exc Remark (Report Record)}
    (hi : tasks i = (e.run from_ fromDict text repr).servedBy ApiCall.serve)
    (s : ClusterView × Machine)
    {c : Config τ (ClusterView × Machine) Exchange Outcome Exc Remark (Report Record)}
    (hrun : Config.Reaches (fun _ _ => True) (.initial s tasks) c) :
    Along (Asked (MayBelow Served (MayCall repr e) MayServe) i) c.world.history ∧
      ∀ r, c.result i = some r →
        EndsBelow Served (fun r => MethodEnds from_ fromDict text repr r e) r
          (conversation i c.world.history) :=
  hrun.talks_servedBy hi (EndpointCall.run_talks e) serve_talks fun _ _ _ => trivial

/-- A task that reads the disks of a node, and one that starts a machine. -/
def readAndStart : Fin 2 → EndpointCall :=
  ![.reading (.disksAll "pve"), .command (.qemuAction .start "pve" 100 ⟨[], by simp, by simp⟩)]

/-- A library that reads nothing. -/
def readsNothing (_ : RecordClass) (_ : Json) : Except Exc Unit :=
  .error (.valueError "")

/-- The reader loses its host and asks again on another one, while the command waits. -/
theorem methods_converse_witness :
    ∃ c : Config (Fin 2) (ClusterView × Machine) Exchange Outcome Exc Remark (Report Unit),
      c.result 0 = some (.ok (.records [])) ∧
        (Chat.sends (conversation 0 c.world.history)).length = 2 ∧
        EndsBelow Served
          (fun r => MethodEnds (readItems strOnly) readsNothing strOnly strOnly r (readAndStart 0))
          (.ok (.records [])) (conversation 0 c.world.history) := by
  obtain ⟨c, hrun, hresult, hsends⟩ : ∃ c, Config.run
      (.initial (ClusterView.init, ⟨.loggedIn ["192.0.2.1", "192.0.2.2"], 0⟩) fun i : Fin 2 =>
        ((readAndStart i).run (readItems strOnly) readsNothing strOnly strOnly).servedBy
          ApiCall.serve)
        [.start 0, .start 1, .resume 0 (replyOf false), .lock 0, .resume 0 (replyOf false),
          .resume 0 (replyOf true), .resume 0 (replyOf true)] = some c ∧
      c.result 0 = some (.ok (.records [])) ∧
      (Chat.sends (conversation 0 c.world.history)).length = 2 :=
    ⟨_, by and_intros <;> with_unfolding_all rfl⟩
  exact ⟨c, hresult, hsends, (methods_converse (i := (0 : Fin 2)) (readAndStart 0) (by rfl) _
    (Config.reaches_of_run (fun _ _ _ => trivial) hrun)).2 _ hresult⟩

/-! ## Tasks that read -/

/-- A call that reads: it asks for something, or whether an agent is there. -/
structure ApiCall.Reads (call : ApiCall) : Prop where
  asks : call.method = "GET" ∨
    call.method = "POST" ∧ ∃ node vmid, call.path = guestPath node "qemu" vmid "agent/ping"
  bare : call.keywords.lookup "json_data" = none

/-- A request that reads, without a body of any kind. -/
structure ReadsOnly (q : Exchange) : Prop where
  asks : q.request.method = "GET" ∨
    q.request.method = "POST" ∧ ∃ node vmid base,
      q.request.url = base ++ "/" ++ Text.lstrip '/' (guestPath node "qemu" vmid "agent/ping")
  bare : q.request.json = none
  noForm : q.request.data = none

/-- The call of a reading method reads. -/
theorem Reading.call_reads (r : Reading) : r.call.Reads := by
  constructor
  · cases r with
    | agentPing node vmid => exact .inr ⟨rfl, node, vmid, rfl⟩
    | _ => exact .inl rfl
  · unfold Reading.call paramsKeyword
    dsimp only
    split_ifs <;> rfl

/-- All methods but the commands call what reads. -/
theorem MayCall.reads {e : EndpointCall} {above : Calls} {q : ApiCall}
    (h : MayCall repr e above q) (he : e.isCommand = false) : q.Reads := by
  have hstatus : ∀ {kind : GuestKind} {vmid : Int}, MayAskStatus kind vmid above q → q.Reads := by
    intro kind vmid h
    cases h with
    | fetches => exact ⟨.inl rfl, rfl⟩
    | asks node => exact ⟨.inl rfl, rfl⟩
    | asksFetched node raw => exact ⟨.inl rfl, rfl⟩
  cases e with
  | command c => contradiction
  | reading r =>
      rw [h.2]
      exact r.call_reads
  | qemuCurrent vmid => exact hstatus h
  | lxcCurrent vmid => exact hstatus h
  | resources =>
      rw [h.2]
      exact ⟨.inl rfl, rfl⟩

/-- What is sent for a call that reads, reads. -/
theorem ApiCall.Reads.carried {call : ApiCall} (h : call.Reads)
    {arguments : Option Dict × Option Dict} (harguments : call.arguments = .ok arguments)
    {q : Exchange} (hq : Carries call.method call.path arguments.1 arguments.2 q) :
    ReadsOnly q := by
  have hbare : arguments.1 = none := by
    unfold ApiCall.arguments at harguments
    split at harguments
    · contradiction
    · cases harguments
      exact h.bare
  constructor
  · rw [hq.sameMethod]
    rcases h.asks with hget | ⟨hpost, node, vmid, hpath⟩
    · exact .inl hget
    · rcases hq.samePath with ⟨base, hurl⟩
      exact .inr ⟨hpost, node, vmid, base, hpath ▸ hurl⟩
  · rw [hq.sameJson, hbare]
    unfold requestJson
    split_ifs <;> rfl
  · exact hq.noForm

/-- Whatever a request may send carries the caller's arguments. -/
theorem MayAsk.carries {method path : String} {jsonData params : Option Dict} {l : Chat}
    {q : Exchange} (h : MayAsk method path jsonData params l q) (hq : q.purpose = .request) :
    Carries method path jsonData params q := by
  have hlogin : q.purpose.isLogin ≠ true := by
    rw [hq]
    exact Bool.false_ne_true
  have hprobe : q.purpose.isProbe ≠ true := by
    rw [hq]
    exact Bool.false_ne_true
  cases h with
  | renews hnone h => exact absurd h hlogin
  | searchesFirst hnone hlost h => exact absurd h hprobe
  | asks hnone h hcarries => exact hcarries
  | logsIn h h' => exact absurd h' hlogin
  | asksAgain h hlogged h' hcarries => exact hcarries
  | searches h h' => exact absurd h' hprobe
  | asksElsewhere h hfound h' hcarries => exact hcarries

/-- Whatever the other tasks are and do, a task with a method that is no command sends, besides
its logins and probes, nothing but what reads: requests without a body, all of them
{lit}`GET` but for the ping of an agent. -/
theorem readers_onlyRead {τ : Type} [DecidableEq τ] (e : EndpointCall)
    (he : e.isCommand = false) {i : τ}
    {tasks : τ → Co (ClusterView × Machine) Exchange Outcome Exc Remark (Report Record)}
    (hi : tasks i = (e.run from_ fromDict text repr).servedBy ApiCall.serve)
    (s : ClusterView × Machine)
    {c : Config τ (ClusterView × Machine) Exchange Outcome Exc Remark (Report Record)}
    (hrun : Config.Reaches (fun _ _ => True) (.initial s tasks) c) :
    ∀ q, .sent i q ∈ c.world.history → q.purpose = .request → ReadsOnly q := by
  have hsaid := (hrun.talks_servedBy hi (EndpointCall.run_talks e) serve_talks
    fun _ _ _ => trivial).1
  intro q hsent hq
  rcases hsaid.of_mem hsent with ⟨before, hasked⟩
  rcases hasked q rfl with ⟨above, below, segment, call, -, -, hcall, arguments, harguments, hmay⟩
  exact (hcall.reads he).carried harguments (hmay.carries hq)

/-- Two readers, one of them of the status of a machine. -/
theorem readers_onlyRead_witness :
    ∃ (c : Config (Fin 2) (ClusterView × Machine) Exchange Outcome Exc Remark (Report Unit))
      (q : Exchange),
      .sent 0 q ∈ c.world.history ∧ q.purpose = .request ∧ ReadsOnly q := by
  obtain ⟨c, q, before, hrun, hhistory, hq⟩ : ∃ c q before, Config.run
      (.initial (ClusterView.init, ⟨.loggedIn ["192.0.2.1"], 0⟩) fun i : Fin 2 =>
        ((readAndStart i).run (readItems strOnly) readsNothing strOnly strOnly).servedBy
          ApiCall.serve)
        [.start 1, .start 0] = some c ∧
      c.world.history = .sent 0 q :: before ∧ q.purpose = .request :=
    ⟨_, _, _, by and_intros <;> with_unfolding_all rfl⟩
  have hsent : .sent 0 q ∈ c.world.history := by simp [hhistory]
  exact ⟨c, q, hsent, hq, readers_onlyRead (i := (0 : Fin 2)) (readAndStart 0) rfl (by rfl) _
    (Config.reaches_of_run (fun _ _ _ => trivial) hrun) q hsent hq⟩

/-! ## How long a method can take -/

/-- How many calls a method makes at most. -/
def EndpointCall.count : EndpointCall → Nat
  | qemuCurrent _ | lxcCurrent _ => 2
  | _ => 1

/-- The status of a guest takes at most two calls. -/
theorem MayAskStatus.length_lt {kind : GuestKind} {vmid : Int} {above : Calls} {q : ApiCall}
    (h : MayAskStatus kind vmid above q) : above.length + 1 ≤ 2 := by
  cases h <;> simp

/-- No method makes more calls than it may. -/
theorem MayCall.length_lt {e : EndpointCall} {above : Calls} {q : ApiCall}
    (h : MayCall repr e above q) : above.length + 1 ≤ e.count := by
  cases e with
  | qemuCurrent vmid => exact MayAskStatus.length_lt h
  | lxcCurrent vmid => exact MayAskStatus.length_lt h
  | command c => simp [h.1, EndpointCall.count]
  | reading r => simp [h.1, EndpointCall.count]
  | resources => simp [h.1, EndpointCall.count]

/-- The status of a guest has made at most two calls. -/
theorem StatusEnds.length_le {kind : GuestKind} {cls : RecordClass} {vmid : Int}
    {r : Except Exc (Report Record)} {above : Calls}
    (h : StatusEnds fromDict kind cls vmid r above) : above.length ≤ 2 := by
  cases h with
  | unlocated hr => simp
  | unfetched hr => simp
  | answered hasked hr => exact hasked.length_lt

/-- No method has made more calls than it may. -/
theorem MethodEnds.length_le {e : EndpointCall} {r : Except Exc (Report Record)} {above : Calls}
    (h : MethodEnds from_ fromDict text repr r e above) : above.length ≤ e.count := by
  cases h with
  | refused hparameters hr => simp
  | commanded hparameters hr => exact le_refl 1
  | read hr => exact le_refl 1
  | qemu h => exact h.length_le
  | lxc h => exact h.length_le
  | fetched hr => exact le_refl 1

/-- The calls of a method, each at one price. -/
theorem EndpointCall.run_spends {b : ℚ} (hb : 0 ≤ b) (e : EndpointCall) :
    (e.run from_ fromDict text repr).Talks (fun _ => True)
      (fun above _ => spent (fun _ => b) above + b ≤ e.count * b) []
      fun _ above => spent (fun _ => b) above ≤ e.count * b := by
  have hprice : ∀ {k : Nat}, k ≤ e.count → (k : ℚ) * b ≤ e.count * b :=
    fun hk => mul_le_mul_of_nonneg_right (Nat.cast_le.mpr hk) hb
  refine (e.run_talks).mono (fun above q h => ?_) fun r above h => ?_
  · have hcalls := hprice h.length_lt
    rw [spent_const, nsmul_eq_mul]
    calc (above.length : ℚ) * b + b = ((above.length + 1 : ℕ) : ℚ) * b := by push_cast; ring
      _ ≤ e.count * b := hcalls
  · rw [spent_const, nsmul_eq_mul]
    exact hprice h.length_le

/-- What serves a call takes no longer than a request. -/
theorem serve_takes {n : Nat} {total : ℚ} (htotal : 0 ≤ total) (call : ApiCall) :
    Takes n total (requestBudget n total) call.serve := by
  have hrequest : ∀ arguments : Option Dict × Option Dict, Takes n total (requestBudget n total)
      (request call.method call.path arguments.1 arguments.2) := fun _ => request_takes htotal
  exact .mute_bind (.ofExcept (R := fun _ => True) trivial) (hrequest (none, none)).nonneg
    fun arguments _ => hrequest arguments

/-- A method over the client keeps below the budgets of its calls. -/
theorem EndpointCall.run_takes {n : Nat} {total : ℚ} (htotal : 0 ≤ total) (e : EndpointCall) :
    Co.Spends (fun s : ClusterView × Machine => s.2.Within n total) Exchange.timeout
      (e.count * requestBudget n total)
      ((e.run from_ fromDict text repr).servedBy ApiCall.serve) := by
  have hserve : ∀ call : ApiCall, Takes n total (requestBudget n total) call.serve :=
    serve_takes htotal
  have hb : 0 ≤ requestBudget n total := (hserve resourcesCall).nonneg
  exact Co.Spends.servedBy (e.run_spends hb) (mul_nonneg (Nat.cast_nonneg _) hb) hserve

/-- Whatever the other tasks are and do, as long as the client knows at most {lit}`n` hosts and
no timeout is above {lit}`total`, at no time have the timeouts of a method's exchanges added up
to more than the budget of a request, and for the status of a guest to more than that of two. -/
theorem methods_inTime {τ : Type} [DecidableEq τ] {n : Nat} {total : ℚ} (htotal : 0 ≤ total)
    (e : EndpointCall) {i : τ}
    {tasks : τ → Co (ClusterView × Machine) Exchange Outcome Exc Remark (Report Record)}
    (hi : tasks i = (e.run from_ fromDict text repr).servedBy ApiCall.serve)
    (s : ClusterView × Machine)
    {c : Config τ (ClusterView × Machine) Exchange Outcome Exc Remark (Report Record)}
    (hrun : Config.Reaches (fun c _ => c.world.state.2.Within n total) (.initial s tasks) c) :
    Along (Asked (fun l q => spent Exchange.timeout l + q.timeout ≤
      e.count * requestBudget n total) i) c.world.history := by
  refine hrun.spends (S := fun s : ClusterView × Machine => s.2.Within n total) ?_
    fun _ _ hallowed => hallowed
  rw [hi]
  exact EndpointCall.run_takes htotal e

/-- The answer of a cluster that lists one machine. -/
def listedGuest : Outcome :=
  .ok { status := 200, json := .ok (.obj [("data", .arr [.obj guestItem])]) }

/-- The host is lost, another one is found, the machine is looked up, and asked for. -/
def lookedUp {τ σ : Type} (first other : τ) : List (Action τ (σ × Machine) Outcome) :=
  lostAndFound first other ++ [.resume first listedGuest]

/-- Nothing but the scheduler acts. -/
theorem lookedUp_scheduler {σ α : Type}
    (c : Config (Fin 2) (σ × Machine) Exchange Outcome Exc Remark α) :
    ∀ a ∈ lookedUp (σ := σ) 0 1, Config.SchedulerOnly c a := by
  simp [lookedUp, lostAndFound, Config.SchedulerOnly]

/-- The status of a machine: the fetch that it begins with, two probes, the fetch again, and
the call for the status. -/
theorem methods_inTime_witness :
    ∃ (c : Config (Fin 2) (ClusterView × Machine) Exchange Outcome Exc Remark (Report Unit))
      (q : Exchange) (before : List (Event (Fin 2) Exchange Outcome Remark)),
      c.world.history = .sent 0 q :: before ∧ (conversation 0 before).length = 4 ∧
        spent Exchange.timeout (conversation 0 before) + q.timeout ≤
          (2 : ℕ) * requestBudget 2 5 := by
  obtain ⟨c, q, before, hrun, hhistory, hlength⟩ : ∃ c q before, Config.run
      (.initial (⟨some [], {}⟩, ⟨.loggedIn ["192.0.2.1", "192.0.2.2"], 0⟩) fun _ : Fin 2 =>
        ((EndpointCall.qemuCurrent 100).run (readItems strOnly) readsNothing strOnly
          strOnly).servedBy ApiCall.serve) (lookedUp 0 1) = some c ∧
      c.world.history = .sent 0 q :: before ∧ (conversation 0 before).length = 4 :=
    ⟨_, _, _, by and_intros <;> with_unfolding_all rfl⟩
  have hrun : Config.Reaches (fun c _ => c.world.state.2.Within 2 5) _ c :=
    (Config.reaches_of_run lookedUp_scheduler hrun).keeping
      (S := fun s : ClusterView × Machine => s.2.Within 2 5)
      (fun _ => (EndpointCall.run_takes (by decide) _).talks []) (loggedIn_within [_, _] 0)
      fun _ f hf => absurd rfl (hf f)
  have hasked := methods_inTime (i := (0 : Fin 2)) (by decide) (.qemuCurrent 100) (by rfl) _ hrun
  rw [hhistory] at hasked
  exact ⟨c, q, before, hhistory, hlength, hasked.1 q rfl⟩

end Company

end AioProxmox
