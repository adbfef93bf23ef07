import AioProxmox.Access.Permissions
import AioProxmox.Cluster.Commands
import AioProxmox.Cluster.HighAvailability

/-!
# Cluster - the reading methods

The methods of the endpoint classes that ask for something and tell what they were answered:
each writes one call, and makes a report of its answer or raises.  Reading a dictionary into
one of the classes is the business of a library and a parameter here.

Main results:

- Definitions {lit}`Reading` and {lit}`Reading.run`: a method with its arguments.
- Definitions {lit}`Reading.call` and {lit}`Reading.answer`: what it asks and what it makes of
  the answer.
- Theorem {lit}`Reading.run_eq`: it is no more than that.
-/

namespace AioProxmox

open Coroutine

/-! ## Lists of records -/

/-- The classes whose {lit}`from_dict` the methods call. -/
inductive RecordClass where
  | guestFilesystem
  | guestInterface
  | snapshot
  | nodeAptUpdateProperty
  | nodeDisk
  | diskSmart
  | zfsPool
  | qemuResource
  | containerResource
  | nodeStatus
  | nodeTask
  | nodeStorageResource
  | nodeVersion
  | certificate
  | subscription
  | replicationJob
  | nodeInterface
  | guestWithoutBackup
  | qemuStatus
  | lxcStatus
deriving DecidableEq

/-- {lit}`iter(value)`, all of it: a dictionary has its keys, a text its characters. -/
def Json.iterated : Json → Except Exc (List Json)
  | arr items => .ok items
  | obj fields => .ok (fields.map fun field => str field.1)
  | str s => .ok (s.toList.map fun c => str (String.singleton c))
  | value => .error (.typeError ("'" ++ value.typeName ++ "' object is not iterable"))

/-- {lit}`value or []`. -/
def Json.orEmpty (value : Json) : Json :=
  if value.truthy then value else arr []

/-- {lit}`value if isinstance(value, dict) else \x7b\x7d`. -/
def Json.dictOrEmpty : Json → Dict
  | obj fields => fields
  | _ => []

/-- {lit}`value if isinstance(value, list) else []`. -/
def Json.listOrEmpty : Json → List Json
  | arr items => items
  | _ => []

/-- {lit}`_agent_result`. -/
def agentResult : Json → List Json
  | .obj fields => (Dict.get fields "result").listOrEmpty
  | raw => raw.listOrEmpty

/-! ## Ceph -/

/-- {lit}`CephHealth`. -/
inductive CephHealth where
  | ok
  | warn
  | err
  | unknown
deriving DecidableEq

/-- {lit}`CephHealth(status) if status is not None else CephHealth.UNKNOWN`. -/
def CephHealth.ofStatus : Json → CephHealth
  | .str "HEALTH_OK" => ok
  | .str "HEALTH_WARN" => warn
  | .str "HEALTH_ERR" => err
  | _ => unknown

/-- {lit}`CephCheck`. -/
structure CephCheck where
  check : String
  severity : Option String := none
  message : Option String := none
deriving DecidableEq

/-- {lit}`CephStatus`. -/
structure CephStatus where
  health : CephHealth
  checks : List CephCheck
  bytesUsed : Option Int
  bytesTotal : Option Int
deriving DecidableEq

/-- A text, or none. -/
def Json.text? : Json → Option String
  | str s => some s
  | _ => none

/-- {lit}`_positive`. -/
def Json.positive : Json → Option Int
  | int n => if n ≤ 0 then none else some n
  | float q => if q ≤ 0 then none else some ⌊q⌋
  | _ => none

/-- One turn of the loop over the checks: what is no dictionary is skipped. -/
def CephCheck.ofItem : String × Json → Option CephCheck
  | (name, .obj check) => some {
      check := name
      severity := (Dict.get check "severity").text?
      message := (Dict.get (Dict.get check "summary").dictOrEmpty "message").text? }
  | _ => none

/-- {lit}`CephStatus.from_api`. -/
def CephStatus.fromApi (raw : Dict) : CephStatus :=
  let health := (Dict.get raw "health").dictOrEmpty
  let pgmap := (Dict.get raw "pgmap").dictOrEmpty
  { health := .ofStatus (Dict.get health "status")
    checks := (Dict.get health "checks").dictOrEmpty.filterMap CephCheck.ofItem
    bytesUsed := (Dict.get pgmap "bytes_used").positive
    bytesTotal := (Dict.get pgmap "bytes_total").positive }

/-! ## Permissions -/

/-- {lit}`value.items()` of anything but a dictionary. -/
def noItems (value : Json) : Exc :=
  .attributeError ("'" ++ value.typeName ++ "' object has no attribute 'items'")

/-- The items of a response, each a path with its privileges. -/
def permissionItems : Json → Except Exc (List (String × Dict))
  | .obj fields => fields.mapM fun field =>
      match field.2 with
      | .obj privileges => .ok (field.1, privileges)
      | value => .error (noItems value)
  | value => .error (noItems value)

/-- {lit}`PVEPermissions.from_api_response`, of any answer. -/
def PVEPermissions.ofAnswer (raw : Json) : Except Exc PVEPermissions := do
  let items ← permissionItems raw
  return { permMap := items.foldl PVEPermissions.compile [] }

/-! ## The methods -/

/-- What a method returns. -/
inductive Report (Record : Type) where
  | flag (there : Bool)
  | record (r : Record)
  | records (rs : List Record)
  | entries (items : List Json)
  | permissions (perms : PVEPermissions)
  | ceph (status : CephStatus)
  | ha (status : HAStatus)
  | resources (held : List ClusterResource)
  | raw (value : Json)

section Methods

variable {Record : Type} (fromDict : RecordClass → Json → Except Exc Record)

/-- {lit}`[cls.from_dict(item) for item in raw]`. -/
def eachFromDict (cls : RecordClass) (raw : Json) : Except Exc (Report Record) := do
  let items ← raw.iterated
  let records ← items.mapM (fromDict cls)
  return .records records

/-- {lit}`cls.list_from_api(raw)`. -/
def listFromApi (cls : RecordClass) (raw : Json) : Except Exc (Report Record) :=
  eachFromDict fromDict cls raw.orEmpty

/-- {lit}`cls.from_dict(raw)`. -/
def oneFromDict (cls : RecordClass) (raw : Json) : Except Exc (Report Record) :=
  (fromDict cls raw).map .record

/-- A call that asks, and what is made of the answer. -/
def fetch (path : String) (keywords : List (String × Dict))
    (read : Json → Except Exc (Report Record)) : Api (Report Record) := do
  let raw ← clientRequest "GET" path keywords
  Co.ofExcept (read raw)

/-- What {lit}`NodeDisksEndpoint.smart` makes of an answer. -/
def readDiskSmart : Json → Except Exc (Report Record)
  | .obj fields => oneFromDict fromDict .diskSmart (.obj fields)
  | value => .error (.proxmoxError
      ("Expected dict response from disks/smart, got <class '" ++ value.typeName ++ "'>"))

/-- {lit}`[entry for entry in raw if isinstance(entry, dict)] if isinstance(raw, list) else []`. -/
def dictEntries (raw : Json) : List Json :=
  raw.listOrEmpty.filter fun entry => entry.typeName = "dict"

/-- {lit}`f"nodes/\x7bself.node\x7d/\x7bending\x7d"`. -/
def nodePath (node ending : String) : String :=
  "nodes/" ++ node ++ "/" ++ ending

/-- {lit}`f"nodes/\x7bself.node\x7d/\x7bkind\x7d/\x7bself.vmid\x7d/\x7bending\x7d"`. -/
def guestPath (node kind : String) (vmid : Int) (ending : String) : String :=
  "nodes/" ++ node ++ "/" ++ kind ++ "/" ++ toString vmid ++ "/" ++ ending

/-- {lit}`QemuAgentEndpoint.ping`. -/
def agentPing (node : String) (vmid : Int) : Api (Report Record) :=
  tryCatch
    (do
      let _ ← clientRequest "POST" (guestPath node "qemu" vmid "agent/ping") []
      return .flag true)
    fun err => if err.isProxmoxAPIError then return .flag false else throw err

/-- {lit}`QemuAgentEndpoint.fsinfo`. -/
def agentFsinfo (node : String) (vmid : Int) : Api (Report Record) :=
  fetch (guestPath node "qemu" vmid "agent/get-fsinfo") [] fun raw =>
    listFromApi fromDict .guestFilesystem (.arr (agentResult raw))

/-- {lit}`QemuAgentEndpoint.network_interfaces`. -/
def agentNetworkInterfaces (node : String) (vmid : Int) : Api (Report Record) :=
  fetch (guestPath node "qemu" vmid "agent/network-get-interfaces") [] fun raw =>
    listFromApi fromDict .guestInterface (.arr (agentResult raw))

/-- {lit}`QemuEndpoint.snapshots`. -/
def qemuSnapshots (node : String) (vmid : Int) : Api (Report Record) :=
  fetch (guestPath node "qemu" vmid "snapshot") [] (listFromApi fromDict .snapshot)

/-- {lit}`LXCEndpoint.snapshots`. -/
def lxcSnapshots (node : String) (vmid : Int) : Api (Report Record) :=
  fetch (guestPath node "lxc" vmid "snapshot") [] (listFromApi fromDict .snapshot)

/-- {lit}`LXCEndpoint.interfaces`. -/
def lxcInterfaces (node : String) (vmid : Int) : Api (Report Record) :=
  fetch (guestPath node "lxc" vmid "interfaces") [] fun raw =>
    listFromApi fromDict .guestInterface (.arr raw.listOrEmpty)

/-- {lit}`AccessEndpoint.permissions`, without its assignment to the client. -/
def accessPermissions : Api (Report Record) :=
  fetch "access/permissions" [] fun raw => (PVEPermissions.ofAnswer raw).map .permissions

/-- {lit}`NodeAptEndpoint.update`. -/
def aptUpdate (node : String) : Api (Report Record) :=
  fetch (nodePath node "apt/update") [] fun raw =>
    eachFromDict fromDict .nodeAptUpdateProperty raw.orEmpty

/-- {lit}`NodeDisksEndpoint.all`. -/
def disksAll (node : String) : Api (Report Record) :=
  fetch (nodePath node "disks/list") [] (listFromApi fromDict .nodeDisk)

/-- {lit}`NodeDisksEndpoint.smart`. -/
def disksSmart (node devpath : String) : Api (Report Record) :=
  fetch (nodePath node "disks/smart") [("params", [("disk", .str devpath)])]
    (readDiskSmart fromDict)

/-- {lit}`NodeDisksEndpoint.zfs`. -/
def disksZfs (node : String) : Api (Report Record) :=
  fetch (nodePath node "disks/zfs") [] (listFromApi fromDict .zfsPool)

/-- {lit}`NodeEndpoint.qemu_all`. -/
def qemuAll (node : String) : Api (Report Record) :=
  fetch (nodePath node "qemu") [] (eachFromDict fromDict .qemuResource)

/-- {lit}`NodeEndpoint.lxc_all`. -/
def lxcAll (node : String) : Api (Report Record) :=
  fetch (nodePath node "lxc") [] (eachFromDict fromDict .containerResource)

/-- {lit}`NodeEndpoint.status`. -/
def nodeStatus (node : String) : Api (Report Record) :=
  fetch (nodePath node "status") [] (oneFromDict fromDict .nodeStatus)

/-- The filters of {lit}`tasks`: {lit}`None` and what is empty are left out. -/
def tasksParams (typefilter : Option String) (limit : Option Int) (source : Option String) : Dict :=
  (match truthyText typefilter with
    | some typefilter => [("typefilter", .str typefilter)]
    | none => []) ++
  (match limit with
    | some limit => [("limit", .int limit)]
    | none => []) ++
  (match truthyText source with
    | some source => [("source", .str source)]
    | none => [])

/-- {lit}`params=params or None`. -/
def paramsKeyword (params : Dict) : List (String × Dict) :=
  if params = [] then [] else [("params", params)]

/-- {lit}`NodeEndpoint.tasks`. -/
def tasks (node : String) (typefilter : Option String) (limit : Option Int)
    (source : Option String) : Api (Report Record) :=
  fetch (nodePath node "tasks") (paramsKeyword (tasksParams typefilter limit source))
    (listFromApi fromDict .nodeTask)

/-- {lit}`NodeEndpoint.storage`. -/
def nodeStorage (node : String) : Api (Report Record) :=
  fetch (nodePath node "storage") [] (listFromApi fromDict .nodeStorageResource)

/-- {lit}`NodeEndpoint.version`. -/
def nodeVersion (node : String) : Api (Report Record) :=
  fetch (nodePath node "version") [] (oneFromDict fromDict .nodeVersion)

/-- {lit}`NodeEndpoint.certificates`. -/
def certificates (node : String) : Api (Report Record) :=
  fetch (nodePath node "certificates/info") [] (listFromApi fromDict .certificate)

/-- {lit}`NodeEndpoint.subscription`. -/
def subscription (node : String) : Api (Report Record) :=
  fetch (nodePath node "subscription") [] fun raw =>
    oneFromDict fromDict .subscription (.obj raw.dictOrEmpty)

/-- {lit}`NodeEndpoint.replication`. -/
def replication (node : String) : Api (Report Record) :=
  fetch (nodePath node "replication") [] (listFromApi fromDict .replicationJob)

/-- {lit}`NodeEndpoint.network`. -/
def network (node : String) : Api (Report Record) :=
  fetch (nodePath node "network") [] (listFromApi fromDict .nodeInterface)

/-- {lit}`ClusterEndpoint.status`, as the endpoint writes it. -/
def statusEntries : Api (Report Record) :=
  fetch "cluster/status" [] fun raw => .ok (.entries (dictEntries raw))

/-- {lit}`ClusterEndpoint.ceph_status`. -/
def cephStatus : Api (Report Record) :=
  fetch "cluster/ceph/status" [] fun raw => .ok (.ceph (.fromApi raw.dictOrEmpty))

/-- {lit}`ClusterEndpoint.ha_status`; {lit}`text` is {lit}`str`. -/
def haStatus (text : Json → String) : Api (Report Record) :=
  fetch "cluster/ha/status/current" [] fun raw => (HAStatus.fromApi text raw.listOrEmpty).map .ha

/-- {lit}`ClusterEndpoint.not_backed_up`. -/
def notBackedUp : Api (Report Record) :=
  fetch "cluster/backup-info/not-backed-up" [] (listFromApi fromDict .guestWithoutBackup)

end Methods

/-! ## All of them -/

/-- A reading method with its arguments. -/
inductive Reading where
  | agentPing (node : String) (vmid : Int)
  | agentFsinfo (node : String) (vmid : Int)
  | agentNetworkInterfaces (node : String) (vmid : Int)
  | qemuSnapshots (node : String) (vmid : Int)
  | lxcSnapshots (node : String) (vmid : Int)
  | lxcInterfaces (node : String) (vmid : Int)
  | accessPermissions
  | aptUpdate (node : String)
  | disksAll (node : String)
  | disksSmart (node devpath : String)
  | disksZfs (node : String)
  | qemuAll (node : String)
  | lxcAll (node : String)
  | nodeStatus (node : String)
  | tasks (node : String) (typefilter : Option String) (limit : Option Int)
      (source : Option String)
  | nodeStorage (node : String)
  | nodeVersion (node : String)
  | certificates (node : String)
  | subscription (node : String)
  | replication (node : String)
  | network (node : String)
  | statusEntries
  | cephStatus
  | haStatus
  | notBackedUp

namespace Reading

/-- The HTTP method of a reading method. -/
def method : Reading → String
  | agentPing .. => "POST"
  | _ => "GET"

/-- The path of a reading method. -/
def path : Reading → String
  | agentPing node vmid => guestPath node "qemu" vmid "agent/ping"
  | agentFsinfo node vmid => guestPath node "qemu" vmid "agent/get-fsinfo"
  | agentNetworkInterfaces node vmid =>
      guestPath node "qemu" vmid "agent/network-get-interfaces"
  | qemuSnapshots node vmid => guestPath node "qemu" vmid "snapshot"
  | lxcSnapshots node vmid => guestPath node "lxc" vmid "snapshot"
  | lxcInterfaces node vmid => guestPath node "lxc" vmid "interfaces"
  | accessPermissions => "access/permissions"
  | aptUpdate node => nodePath node "apt/update"
  | disksAll node => nodePath node "disks/list"
  | disksSmart node _ => nodePath node "disks/smart"
  | disksZfs node => nodePath node "disks/zfs"
  | qemuAll node => nodePath node "qemu"
  | lxcAll node => nodePath node "lxc"
  | nodeStatus node => nodePath node "status"
  | tasks node .. => nodePath node "tasks"
  | nodeStorage node => nodePath node "storage"
  | nodeVersion node => nodePath node "version"
  | certificates node => nodePath node "certificates/info"
  | subscription node => nodePath node "subscription"
  | replication node => nodePath node "replication"
  | network node => nodePath node "network"
  | statusEntries => "cluster/status"
  | cephStatus => "cluster/ceph/status"
  | haStatus => "cluster/ha/status/current"
  | notBackedUp => "cluster/backup-info/not-backed-up"

/-- The query of a reading method. -/
def query : Reading → Dict
  | disksSmart _ devpath => [("disk", .str devpath)]
  | tasks _ typefilter limit source => tasksParams typefilter limit source
  | _ => []

/-- The one call of a reading method. -/
def call (r : Reading) : ApiCall where
  method := r.method
  path := r.path
  keywords := paramsKeyword r.query

section Run

variable {Record : Type} (fromDict : RecordClass → Json → Except Exc Record)
  (text : Json → String)

/-- The method of a reading. -/
def run : Reading → Api (Report Record)
  | agentPing node vmid => AioProxmox.agentPing node vmid
  | agentFsinfo node vmid => AioProxmox.agentFsinfo fromDict node vmid
  | agentNetworkInterfaces node vmid => AioProxmox.agentNetworkInterfaces fromDict node vmid
  | qemuSnapshots node vmid => AioProxmox.qemuSnapshots fromDict node vmid
  | lxcSnapshots node vmid => AioProxmox.lxcSnapshots fromDict node vmid
  | lxcInterfaces node vmid => AioProxmox.lxcInterfaces fromDict node vmid
  | accessPermissions => AioProxmox.accessPermissions
  | aptUpdate node => AioProxmox.aptUpdate fromDict node
  | disksAll node => AioProxmox.disksAll fromDict node
  | disksSmart node devpath => AioProxmox.disksSmart fromDict node devpath
  | disksZfs node => AioProxmox.disksZfs fromDict node
  | qemuAll node => AioProxmox.qemuAll fromDict node
  | lxcAll node => AioProxmox.lxcAll fromDict node
  | nodeStatus node => AioProxmox.nodeStatus fromDict node
  | tasks node typefilter limit source =>
      AioProxmox.tasks fromDict node typefilter limit source
  | nodeStorage node => AioProxmox.nodeStorage fromDict node
  | nodeVersion node => AioProxmox.nodeVersion fromDict node
  | certificates node => AioProxmox.certificates fromDict node
  | subscription node => AioProxmox.subscription fromDict node
  | replication node => AioProxmox.replication fromDict node
  | network node => AioProxmox.network fromDict node
  | statusEntries => AioProxmox.statusEntries
  | cephStatus => AioProxmox.cephStatus
  | haStatus => AioProxmox.haStatus text
  | notBackedUp => AioProxmox.notBackedUp fromDict

/-- What a reading method makes of a value. -/
def read : Reading → Json → Except Exc (Report Record)
  | agentPing .., _ => .ok (.flag true)
  | agentFsinfo .., raw => listFromApi fromDict .guestFilesystem (.arr (agentResult raw))
  | agentNetworkInterfaces .., raw => listFromApi fromDict .guestInterface (.arr (agentResult raw))
  | qemuSnapshots .., raw | lxcSnapshots .., raw => listFromApi fromDict .snapshot raw
  | lxcInterfaces .., raw => listFromApi fromDict .guestInterface (.arr raw.listOrEmpty)
  | accessPermissions, raw => (PVEPermissions.ofAnswer raw).map .permissions
  | aptUpdate _, raw => eachFromDict fromDict .nodeAptUpdateProperty raw.orEmpty
  | disksAll _, raw => listFromApi fromDict .nodeDisk raw
  | disksSmart .., raw => readDiskSmart fromDict raw
  | disksZfs _, raw => listFromApi fromDict .zfsPool raw
  | qemuAll _, raw => eachFromDict fromDict .qemuResource raw
  | lxcAll _, raw => eachFromDict fromDict .containerResource raw
  | nodeStatus _, raw => oneFromDict fromDict .nodeStatus raw
  | tasks .., raw => listFromApi fromDict .nodeTask raw
  | nodeStorage _, raw => listFromApi fromDict .nodeStorageResource raw
  | nodeVersion _, raw => oneFromDict fromDict .nodeVersion raw
  | certificates _, raw => listFromApi fromDict .certificate raw
  | subscription _, raw => oneFromDict fromDict .subscription (.obj raw.dictOrEmpty)
  | replication _, raw => listFromApi fromDict .replicationJob raw
  | network _, raw => listFromApi fromDict .nodeInterface raw
  | statusEntries, raw => .ok (.entries (dictEntries raw))
  | cephStatus, raw => .ok (.ceph (.fromApi raw.dictOrEmpty))
  | haStatus, raw => (HAStatus.fromApi text raw.listOrEmpty).map .ha
  | notBackedUp, raw => listFromApi fromDict .guestWithoutBackup raw

/-- What becomes of an exception: the ping takes an error of the API for silence. -/
def raised : Reading → Exc → Except Exc (Report Record)
  | agentPing .., err => if err.isProxmoxAPIError then .ok (.flag false) else .error err
  | _, err => .error err

/-- What a reading method makes of the answer to its call. -/
def answer (r : Reading) : Except Exc Json → Except Exc (Report Record)
  | .ok raw => r.read fromDict text raw
  | .error err => r.raised err

/-- A fetch is one call, and its answer is read. -/
theorem fetch_eq (path : String) (keywords : List (String × Dict))
    (read : Json → Except Exc (Report Record)) :
    fetch path keywords read =
      .call ⟨"GET", path, keywords⟩ fun out => .done (out >>= read) := by
  refine congrArg (Co.call _) (funext fun out => ?_)
  cases out with
  | ok raw => rfl
  | error err => rfl

/-- All methods but the ping fetch and read. -/
theorem run_of_get {r : Reading} (h : r.method = "GET") :
    r.run fromDict text = fetch r.path (paramsKeyword r.query) (r.read fromDict text) := by
  cases r with
  | agentPing node vmid => exact absurd h (by simp [method])
  | _ => rfl

/-- A method that reads passes on what its call raises. -/
theorem raised_of_get {r : Reading} (h : r.method = "GET") (err : Exc) :
    (r.raised err : Except Exc (Report Record)) = .error err := by
  cases r with
  | agentPing node vmid => exact absurd h (by simp [method])
  | _ => rfl

/-- A reading method makes its call and reads the answer. -/
theorem run_eq (r : Reading) :
    r.run fromDict text = .call r.call fun out => .done (r.answer fromDict text out) := by
  by_cases hget : r.method = "GET"
  · rw [run_of_get fromDict text hget, fetch_eq, call, hget]
    refine congrArg (Co.call _) (funext fun out => congrArg Co.done ?_)
    cases out with
    | ok raw => rfl
    | error err => exact (raised_of_get hget err).symm
  · cases r with
    | agentPing node vmid =>
        refine congrArg (Co.call _) (funext fun out => ?_)
        cases out with
        | ok raw => rfl
        | error err =>
            change (if err.isProxmoxAPIError = true then _ else _) = _
            unfold answer raised
            dsimp only
            split_ifs <;> rfl
    | _ => exact absurd rfl hget

end Run

end Reading

end AioProxmox
