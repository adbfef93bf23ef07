import AioProxmox.Cluster.Endpoints

/-!
# Cluster - the commands

The endpoint methods that change something: the actions of nodes and guests, which send
whatever keywords they are given, the commands of a node, and the methods that build
their parameters.  Each makes one call of the client or refuses its arguments.

Main results:

- Definition {lit}`Command.run`: the methods, under one name.
- Definitions {lit}`Command.call` and {lit}`Command.parameters`: the call a command makes
  and the parameters it builds.
- Theorem {lit}`Command.run_eq`: each method makes its call, and hands back the answer.
- Theorem {lit}`Command.parameters_isOk_iff`: the arguments a method does not refuse.
-/

namespace AioProxmox

open Coroutine

/-- The keywords that a function with {lit}`**extra` takes up there: each once, and none of
those it names itself. -/
structure Extra (named : List String) where
  items : Dict
  distinct : (items.map Prod.fst).Nodup
  free : ∀ entry ∈ items, entry.1 ∉ named

/-- A text that counts as true, where there is one. -/
def truthyText : Option String → Option String
  | some s => if s = "" then none else some s
  | none => none

section Methods

variable (text : Json → String)

/-! ## Actions -/

/-- {lit}`PostAction.__call__`. -/
def postAction (path : String) (kwargs : Extra ["self"]) : Api Json :=
  clientRequest "POST" path [("json_data", kwargs.items)]

/-- The attributes declared with {lit}`node_action`. -/
inductive NodeAction where
  | wakeonlan
  | suspendall
  | stopall
  | startall

/-- The argument of {lit}`node_action`. -/
def NodeAction.endpoint : NodeAction → String
  | wakeonlan => "wakeonlan"
  | suspendall => "suspendall"
  | stopall => "stopall"
  | startall => "startall"

/-- {lit}`NodeActionProperty`. -/
def nodeAction (action : NodeAction) (node : String) (kwargs : Extra ["self"]) : Api Json :=
  postAction ("nodes/" ++ node ++ "/" ++ action.endpoint) kwargs

/-- The attributes declared with {lit}`qemu_action`. -/
inductive QemuAction where
  | start
  | stop
  | reboot
  | restart
  | suspend
  | resume
  | reset
  | shutdown

/-- The argument of {lit}`qemu_action`. -/
def QemuAction.endpoint : QemuAction → String
  | start => "start"
  | stop => "stop"
  | reboot => "reboot"
  | restart => "reboot"
  | suspend => "suspend"
  | resume => "resume"
  | reset => "reset"
  | shutdown => "shutdown"

/-- {lit}`QemuActionProperty`. -/
def qemuAction (action : QemuAction) (node : String) (vmid : Int) (kwargs : Extra ["self"]) :
    Api Json :=
  postAction ("nodes/" ++ node ++ "/qemu/" ++ toString vmid ++ "/status/" ++ action.endpoint) kwargs

/-- The attributes declared with {lit}`lxc_action`. -/
inductive LxcAction where
  | start
  | reboot
  | restart
  | stop
  | shutdown
  | suspend
  | resume

/-- The argument of {lit}`lxc_action`. -/
def LxcAction.endpoint : LxcAction → String
  | start => "start"
  | reboot => "reboot"
  | restart => "reboot"
  | stop => "stop"
  | shutdown => "shutdown"
  | suspend => "suspend"
  | resume => "resume"

/-- {lit}`LXCActionProperty`. -/
def lxcAction (action : LxcAction) (node : String) (vmid : Int) (kwargs : Extra ["self"]) :
    Api Json :=
  postAction ("nodes/" ++ node ++ "/lxc/" ++ toString vmid ++ "/status/" ++ action.endpoint) kwargs

/-- The attributes declared with {lit}`NodeStatusCommand`. -/
inductive NodeStatusCommand where
  | reboot
  | shutdown

/-- The argument of {lit}`NodeStatusCommand`. -/
def NodeStatusCommand.command : NodeStatusCommand → String
  | reboot => "reboot"
  | shutdown => "shutdown"

/-- {lit}`NodeStatusCommand.__get__`. -/
def nodeStatusCommand (command : NodeStatusCommand) (node : String) : Api Json :=
  clientRequest "POST" ("nodes/" ++ node ++ "/status")
    [("json_data", [("command", .str command.command)])]

/-! ## Guests -/

/-- {lit}`str(await self.client.request(...))`. -/
def textRequest (method path : String) (keywords : List (String × Dict)) : Api Json := do
  let raw ← clientRequest method path keywords
  return .str (text raw)

/-- The payload of a snapshot. -/
def snapshotPayload (snapName : Json) (snapDescription : Option String) (snapState : Bool) :
    Dict :=
  let payload := [("snapname", snapName), ("vmstate", .int (if snapState then 1 else 0))]
  match truthyText snapDescription with
  | some description => Dict.insert payload "description" (.str description)
  | none => payload

/-- {lit}`QemuStatusEndpoint.snapshot`. -/
def qemuSnapshot (node : String) (vmid : Int) (snapName : String)
    (snapDescription : Option String) (snapState : Bool) : Api Json :=
  textRequest text "POST" ("nodes/" ++ node ++ "/qemu/" ++ toString vmid ++ "/snapshot")
    [("data", snapshotPayload (.str snapName) snapDescription snapState)]

/-- {lit}`LXCStatusEndpoint.snapshot`, where the name may be {lit}`None`. -/
def lxcSnapshot (node : String) (vmid : Int) (snapName : Option String)
    (snapDescription : Option String) (snapState : Bool) : Api Json :=
  textRequest text "POST" ("nodes/" ++ node ++ "/lxc/" ++ toString vmid ++ "/snapshot")
    [("data", snapshotPayload (snapName.elim .null .str) snapDescription snapState)]

/-- {lit}`hibernate`. -/
def hibernate (node : String) (vmid : Int) : Api Json :=
  textRequest text "POST" ("nodes/" ++ node ++ "/qemu/" ++ toString vmid ++ "/status/suspend")
    [("json_data", [("todisk", .int 1)])]

/-- {lit}`QemuStatusEndpoint.unlock`. -/
def qemuUnlock (node : String) (vmid : Int) : Api Json :=
  textRequest text "PUT" ("nodes/" ++ node ++ "/qemu/" ++ toString vmid ++ "/config")
    [("json_data", [("delete", .str "lock"), ("skiplock", .int 1)])]

/-- {lit}`LXCStatusEndpoint.unlock`. -/
def lxcUnlock (node : String) (vmid : Int) : Api Json :=
  textRequest text "PUT" ("nodes/" ++ node ++ "/lxc/" ++ toString vmid ++ "/config")
    [("json_data", [("delete", .str "lock")])]

/-! ## Backups -/

/-- The argument {lit}`vmid` of {lit}`vzdump`. -/
inductive Guests where
  | one (vmid : Int)
  | listed (vmids : List Int)

/-- {lit}`vmid if isinstance(vmid, list) else [vmid]`. -/
def Guests.ids : Guests → List Int
  | one vmid => [vmid]
  | listed vmids => vmids

/-- The arguments of {lit}`vzdump`. -/
structure VzdumpArguments where
  vmid : Option Guests := none
  allGuests : Bool := false
  storage : Option String := none
  mode : Option String := none
  compress : Option String := none
  notesTemplate : Option String := none
  extra : Extra ["self", "vmid", "all_guests", "storage", "mode", "compress", "notes_template"]

/-- The guests named, or everything. -/
def guestsPayload (args : VzdumpArguments) (payload : Dict) : Except Exc Dict :=
  if args.allGuests then .ok (payload.insert "all" (.int 1))
  else
    match args.vmid with
    | some guests =>
        if guests.ids = [] then
          .error (.proxmoxError "vzdump: name at least one guest or take all")
        else .ok (payload.insert "vmid" (.str (",".intercalate (guests.ids.map toString))))
    | none => .error (.proxmoxError "vzdump: name at least one guest or take all")

/-- {lit}`if value: payload[key] = value`. -/
def insertTruthy (payload : Dict) (key : String) (value : Option String) : Dict :=
  match truthyText value with
  | some s => payload.insert key (.str s)
  | none => payload

/-- {lit}`if compress is not None: payload["compress"] = compress`. -/
def insertCompress (payload : Dict) (compress : Option String) : Dict :=
  match compress with
  | some s => payload.insert "compress" (.str s)
  | none => payload

/-- The template of the notes, which needs a storage. -/
def notesPayload (args : VzdumpArguments) (payload : Dict) : Except Exc Dict :=
  match truthyText args.notesTemplate with
  | some template =>
      match truthyText args.storage with
      | some _ => .ok (payload.insert "notes-template" (.str template))
      | none => .error (.proxmoxError "vzdump: a notes template needs a storage")
  | none => .ok payload

/-- The payload of {lit}`vzdump`. -/
def vzdumpPayload (args : VzdumpArguments) : Except Exc Dict := do
  let payload ← guestsPayload args args.extra.items
  let payload := insertTruthy payload "storage" args.storage
  let payload := insertTruthy payload "mode" args.mode
  let payload := insertCompress payload args.compress
  notesPayload args payload

/-- {lit}`NodeEndpoint.vzdump`. -/
def vzdump (node : String) (args : VzdumpArguments) : Api Json := do
  let payload ← Co.ofExcept (vzdumpPayload args)
  textRequest text "POST" ("nodes/" ++ node ++ "/vzdump") [("json_data", payload)]

/-! ## High availability -/

/-- {lit}`ClusterEndpoint.arm_ha`. -/
def armHa : Api Json :=
  textRequest text "POST" "cluster/ha/status/arm-ha" []

/-- The payload of {lit}`disarm_ha`, where {lit}`repr` is Python's. -/
def disarmPayload (repr : Json → String) (resourceMode : String) : Except Exc Dict :=
  if resourceMode = "freeze" ∨ resourceMode = "ignore" then
    .ok [("resource-mode", .str resourceMode)]
  else
    .error (.proxmoxError
      ("resource_mode must be 'freeze' or 'ignore', not " ++ repr (.str resourceMode)))

/-- {lit}`ClusterEndpoint.disarm_ha`. -/
def disarmHa (repr : Json → String) (resourceMode : String) : Api Json := do
  let payload ← Co.ofExcept (disarmPayload repr resourceMode)
  textRequest text "POST" "cluster/ha/status/disarm-ha" [("json_data", payload)]

end Methods

/-! ## All of them -/

/-- A command with its arguments. -/
inductive Command where
  | nodeAction (action : NodeAction) (node : String) (kwargs : Extra ["self"])
  | qemuAction (action : QemuAction) (node : String) (vmid : Int) (kwargs : Extra ["self"])
  | lxcAction (action : LxcAction) (node : String) (vmid : Int) (kwargs : Extra ["self"])
  | nodeStatus (command : NodeStatusCommand) (node : String)
  | qemuSnapshot (node : String) (vmid : Int) (snapName : String)
      (snapDescription : Option String) (snapState : Bool)
  | lxcSnapshot (node : String) (vmid : Int) (snapName : Option String)
      (snapDescription : Option String) (snapState : Bool)
  | hibernate (node : String) (vmid : Int)
  | qemuUnlock (node : String) (vmid : Int)
  | lxcUnlock (node : String) (vmid : Int)
  | vzdump (node : String) (args : VzdumpArguments)
  | armHa
  | disarmHa (resourceMode : String)

namespace Command

/-- The method of a command. -/
def run (text repr : Json → String) : Command → Api Json
  | nodeAction action node kwargs => AioProxmox.nodeAction action node kwargs
  | qemuAction action node vmid kwargs => AioProxmox.qemuAction action node vmid kwargs
  | lxcAction action node vmid kwargs => AioProxmox.lxcAction action node vmid kwargs
  | nodeStatus command node => nodeStatusCommand command node
  | qemuSnapshot node vmid snapName snapDescription snapState =>
      AioProxmox.qemuSnapshot text node vmid snapName snapDescription snapState
  | lxcSnapshot node vmid snapName snapDescription snapState =>
      AioProxmox.lxcSnapshot text node vmid snapName snapDescription snapState
  | hibernate node vmid => AioProxmox.hibernate text node vmid
  | qemuUnlock node vmid => AioProxmox.qemuUnlock text node vmid
  | lxcUnlock node vmid => AioProxmox.lxcUnlock text node vmid
  | vzdump node args => AioProxmox.vzdump text node args
  | armHa => AioProxmox.armHa text
  | disarmHa resourceMode => AioProxmox.disarmHa text repr resourceMode

/-- The HTTP method of a command. -/
def method : Command → String
  | qemuUnlock .. | lxcUnlock .. => "PUT"
  | _ => "POST"

/-- The path of a command. -/
def path : Command → String
  | nodeAction action node _ => "nodes/" ++ node ++ "/" ++ action.endpoint
  | qemuAction action node vmid _ =>
      "nodes/" ++ node ++ "/qemu/" ++ toString vmid ++ "/status/" ++ action.endpoint
  | lxcAction action node vmid _ =>
      "nodes/" ++ node ++ "/lxc/" ++ toString vmid ++ "/status/" ++ action.endpoint
  | nodeStatus _ node => "nodes/" ++ node ++ "/status"
  | qemuSnapshot node vmid .. => "nodes/" ++ node ++ "/qemu/" ++ toString vmid ++ "/snapshot"
  | lxcSnapshot node vmid .. => "nodes/" ++ node ++ "/lxc/" ++ toString vmid ++ "/snapshot"
  | hibernate node vmid => "nodes/" ++ node ++ "/qemu/" ++ toString vmid ++ "/status/suspend"
  | qemuUnlock node vmid => "nodes/" ++ node ++ "/qemu/" ++ toString vmid ++ "/config"
  | lxcUnlock node vmid => "nodes/" ++ node ++ "/lxc/" ++ toString vmid ++ "/config"
  | vzdump node _ => "nodes/" ++ node ++ "/vzdump"
  | armHa => "cluster/ha/status/arm-ha"
  | disarmHa _ => "cluster/ha/status/disarm-ha"

/-- The parameters a command builds, or the exception it refuses its arguments with. -/
def parameters (repr : Json → String) : Command → Except Exc Dict
  | nodeAction _ _ kwargs | qemuAction _ _ _ kwargs | lxcAction _ _ _ kwargs => .ok kwargs.items
  | nodeStatus command _ => .ok [("command", .str command.command)]
  | qemuSnapshot _ _ snapName snapDescription snapState =>
      .ok (snapshotPayload (.str snapName) snapDescription snapState)
  | lxcSnapshot _ _ snapName snapDescription snapState =>
      .ok (snapshotPayload (snapName.elim .null .str) snapDescription snapState)
  | hibernate .. => .ok [("todisk", .int 1)]
  | qemuUnlock .. => .ok [("delete", .str "lock"), ("skiplock", .int 1)]
  | lxcUnlock .. => .ok [("delete", .str "lock")]
  | vzdump _ args => vzdumpPayload args
  | armHa => .ok []
  | disarmHa resourceMode => disarmPayload repr resourceMode

/-- A snapshot of either kind of guest. -/
def isSnapshot : Command → Bool
  | qemuSnapshot .. | lxcSnapshot .. => true
  | _ => false

/-- The keywords of the call: a snapshot hands its parameters over as {lit}`data`, and a
command without parameters none at all. -/
def keywords (c : Command) (payload : Dict) : List (String × Dict) :=
  match c with
  | armHa => []
  | c => [(if c.isSnapshot then "data" else "json_data", payload)]

/-- The call of a command with the parameters it has built. -/
def call (c : Command) (payload : Dict) : ApiCall where
  method := c.method
  path := c.path
  keywords := c.keywords payload

/-- What a command makes of the answer: the actions hand it back as it is. -/
def wrap (text : Json → String) (c : Command) (raw : Json) : Json :=
  match c with
  | nodeAction .. | qemuAction .. | lxcAction .. | nodeStatus .. => raw
  | _ => .str (text raw)

/-- A call and what its answer is returned as. -/
theorem await_pure (q : ApiCall) :
    (Co.await q : Api Json) = (Co.await q).bind fun raw => .done (.ok raw) := by
  refine congrArg (Co.call q) (funext fun r => ?_)
  cases r <;> rfl

/-- Each method builds its parameters, makes its call and hands back the answer. -/
theorem run_eq (text repr : Json → String) (c : Command) :
    c.run text repr = (do
      let payload ← Co.ofExcept (c.parameters repr)
      let raw ← Co.await (c.call payload)
      return c.wrap text raw) := by
  cases c with
  | nodeAction action node kwargs => exact await_pure _
  | qemuAction action node vmid kwargs => exact await_pure _
  | lxcAction action node vmid kwargs => exact await_pure _
  | nodeStatus command node => exact await_pure _
  | qemuSnapshot node vmid snapName snapDescription snapState => rfl
  | lxcSnapshot node vmid snapName snapDescription snapState => rfl
  | hibernate node vmid => rfl
  | qemuUnlock node vmid => rfl
  | lxcUnlock node vmid => rfl
  | vzdump node args => rfl
  | armHa => rfl
  | disarmHa resourceMode => rfl

/-- The arguments that a command does not refuse: a backup names a guest or takes all, and
has a storage where it has notes; the mode of a pause is one of two. -/
def Accepted : Command → Prop
  | vzdump _ args =>
      (args.allGuests = true ∨ ∃ guests, args.vmid = some guests ∧ guests.ids ≠ []) ∧
        (truthyText args.notesTemplate ≠ none → truthyText args.storage ≠ none)
  | disarmHa resourceMode => resourceMode = "freeze" ∨ resourceMode = "ignore"
  | _ => True

/-- The guests named are refused if there are none. -/
theorem guestsPayload_isOk_iff (args : VzdumpArguments) (payload : Dict) :
    (∃ next, guestsPayload args payload = .ok next) ↔
      (args.allGuests = true ∨ ∃ guests, args.vmid = some guests ∧ guests.ids ≠ []) := by
  unfold guestsPayload
  by_cases hall : args.allGuests = true
  · simp [hall]
  · rcases args.vmid with _ | guests
    · simp [hall]
    · by_cases hids : guests.ids = []
      · simp [hall, hids]
      · simp [hall, hids]

/-- Notes are refused if there is no storage. -/
theorem notesPayload_isOk_iff (args : VzdumpArguments) (payload : Dict) :
    (∃ next, notesPayload args payload = .ok next) ↔
      (truthyText args.notesTemplate ≠ none → truthyText args.storage ≠ none) := by
  unfold notesPayload
  rcases truthyText args.notesTemplate with _ | template
  · simp
  · rcases truthyText args.storage with _ | storage <;> simp

/-- A command builds its parameters exactly if it does not refuse its arguments. -/
theorem parameters_isOk_iff (repr : Json → String) (c : Command) :
    (∃ payload, c.parameters repr = .ok payload) ↔ c.Accepted := by
  cases c with
  | vzdump node args =>
      change (∃ payload, vzdumpPayload args = .ok payload) ↔ _
      rw [Accepted, ← guestsPayload_isOk_iff args args.extra.items]
      unfold vzdumpPayload
      rcases guestsPayload args args.extra.items with e | payload
      · simp [bind, Except.bind]
      · simp only [bind, Except.bind, Except.ok.injEq, exists_eq', true_and]
        exact notesPayload_isOk_iff args _
  | disarmHa resourceMode =>
      change (∃ payload, disarmPayload repr resourceMode = .ok payload) ↔ _
      unfold disarmPayload Accepted
      split_ifs with hmode
      · simpa using hmode
      · simpa using hmode
  | _ => simp [parameters, Accepted]

end Command

end AioProxmox
