import ClusterClient.Client.Task
import ClusterClient.ClusterIdFile
import ClusterClient.Notice
import ClusterClient.Options
/-!
The client of a cluster: its caches, its beliefs, its tasks and the order in
which they take turns.
-/
namespace ClusterClient

inductive Phase
  | created
  | probing
  | running
  | stopped
deriving DecidableEq, Repr

def Phase.name : Phase → String
  | created => "Created"
  | probing => "ProbingReady"
  | running => "Running"
  | stopped => "Stopped"

structure Client where
  options : Options
  idFile : ClusterIdFile
  disk : FileTree
  directory : Directory
  estimates : Estimates
  phase : Phase
  stopped : Bool
  clusterId : ClusterId
  /-- The time of the last change that the caches take account of. -/
  watermark : Int64
  tasks : Table TaskId Task
  nextTask : TaskId
  background : Option TaskId
  /-- The task whose cycle is going on, and those that wait for theirs. -/
  holder : Option TaskId
  waiting : List TaskId
  listening : Bool
  /-- The partitions that the listener says this host leads. -/
  led : LeaderParts
  /-- All that the listener was told, and all fatal faults. -/
  notices : List Notice
  fatal : List Fault

namespace Client

def version : String := "0.1.0"

/-- Only a storage host looks for the id of its cluster on disk. An id that cannot
be read is as good as none. -/
def create (options : Options) (shownPath : String) (listening : Bool) (choice : Nat)
    (disk : FileTree) : Except Fault Client := do
  let metaLeader ← MetaLeader.start options.metaAddresses choice
  let idFile : ClusterIdFile := ⟨shownPath, Path.ofText options.clusterIdPath⟩
  let clusterId := match options.role, idFile.load disk with
    | .storage, .ok (some id) => id
    | _, _ => 0
  return {
    options, idFile, disk, clusterId, listening
    directory := .empty
    estimates := ⟨∅, metaLeader, .zero⟩
    phase := .created
    stopped := false
    watermark := 0
    tasks := ∅
    nextTask := 0
    background := none
    holder := none
    waiting := []
    led := ∅
    notices := []
    fatal := [] }

variable (c : Client)

/-- The short form for logs. -/
def described : String :=
  "MetaCacheRefresher \x7b state: " ++ c.phase.name ++ ", cluster_id: " ++
    Text.showInt c.clusterId.toInt ++ ", watermark: " ++ Text.showInt c.watermark.toInt ++ " \x7d"

def isReady : Bool := c.phase == .running

def task? (t : TaskId) : Option Task := c.tasks.get? t

def setTask (t : TaskId) (task : Task) : Client := { c with tasks := c.tasks.insert t task }

def stand (t : TaskId) (job : Job) (standing : Standing) : Client := c.setTask t ⟨job, standing⟩

def finish (t : TaskId) (job : Job) (result : Except Fault Payload) : Client :=
  c.stand t job (.done result)

/-- A task whose result was taken is forgotten. -/
def dismiss (t : TaskId) : Client := { c with tasks := c.tasks.erase t }

def notify (notices : List Notice) : Client :=
  if c.listening then { c with notices := c.notices ++ notices } else c

def report (fault : Fault) : Client :=
  if fault.isFatal then { c with fatal := c.fatal ++ [fault] } else c

def heartbeatRequest : HeartbeatRequest :=
  { host := c.options.localHost
    role := c.options.role
    clusterId := c.clusterId
    leaderParts := if c.listening ∧ c.options.role = .storage then some c.led else none
    version }

/-- Tells the listener what the change from one catalog to another means for the
local host. -/
def compare (old new : Catalog) : Client :=
  let here := c.options.localHost
  c.notify (Notice.changes (old.partsOnHost here) (new.partsOnHost here))

/-- Replaces the catalog and tells the listener what that means for the local
host. Leaders of spaces that are gone are forgotten, and those that the storage
hosts claim to be are taken over. -/
def install (catalog : Catalog) (hosts : List HostItem) : Client :=
  let old := c.directory.catalog
  let gone := old.spaceIds.filter fun id => !catalog.contains id
  let kept := gone.foldl Leaders.forgetSpace c.estimates.leaders
  let leaders := kept.insertAll (Leaders.seeds catalog hosts)
  let c := { c with
    directory := { c.directory with catalog }
    estimates := { c.estimates with leaders } }
  c.compare old catalog

/-- Replaces the configuration items and passes new storage options on. -/
def configure (items : List ConfigItem) : Client :=
  let old := c.directory.configs
  let new := Configs.ofList items
  let spaces := (c.directory.catalog.partsOnHost c.options.localHost).keys
  let c := { c with directory := { c.directory with configs := new } }
  c.notify (Notice.optionChanges old new spaces)

/-- A storage host that has no cluster id yet keeps the first one it is told, if
it can be saved. -/
def adopt (id : ClusterId) : Client × Except Fault Unit :=
  if c.options.role = .storage ∧ c.clusterId = 0 ∧ id ≠ 0 then
    match c.idFile.persist id c.disk with
    | (disk, .ok ()) => ({ c with disk, clusterId := id }, .ok ())
    | (disk, .error e) =>
      ({ c with disk }, .error (.fatal (.clusterIdUnsaved e.message)))
  else (c, .ok ())

end Client

end ClusterClient
