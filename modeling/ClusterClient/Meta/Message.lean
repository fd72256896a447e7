import ClusterClient.Json
import ClusterClient.Partition
import ClusterClient.Role
import ClusterClient.Schema
/-!
What is said between the client and the meta service.
-/
namespace ClusterClient

inductive ConfigMode
  | immutable
  | mutable
deriving DecidableEq, Repr

structure ConfigItem where
  scope : ConfigModule
  name : String
  mode : ConfigMode
  value : Json

structure LeaderInfo where
  part : PartId
  term : Term
deriving DecidableEq, Repr

/-- The partitions that a storage host leads. -/
abbrev LeaderParts := Table SpaceId (List LeaderInfo)

structure HeartbeatRequest where
  host : Host
  role : Role
  clusterId : ClusterId
  leaderParts : Option LeaderParts
  version : String
deriving DecidableEq

structure Heartbeat where
  clusterId : ClusterId
  lastUpdate : Int64
deriving DecidableEq, Repr, Inhabited

structure SpaceName where
  id : SpaceId
  name : String
deriving DecidableEq, Repr

inductive HostStatus
  | online
  | offline
deriving DecidableEq, Repr

/-- A storage host with the partitions it says it leads. -/
structure HostItem where
  host : Host
  status : HostStatus
  leaderParts : Table SpaceId (List PartId)
deriving DecidableEq

/-- An answer of the meta service. The leader means something only together with
the status that says that it has changed. -/
structure MetaReply (α : Type) where
  status : Status
  leader : Option Host
  value : α

namespace MetaReply

variable {α : Type}

def ok (value : α) : MetaReply α := ⟨.succeeded, none, value⟩
def error [Inhabited α] (status : Status) : MetaReply α := ⟨status, none, default⟩
def leaderChanged [Inhabited α] (leader : Option Host) : MetaReply α :=
  ⟨.leaderChanged, leader, default⟩

def toExcept (r : MetaReply α) : Except Fault α :=
  match r.status with
  | .succeeded => .ok r.value
  | .leaderChanged => .error (.leaderChanged r.leader)
  | status => .error (.remote status)

end MetaReply

/-- The calls that the meta service takes. -/
inductive Query
  | heartbeat
  | spaces
  | hosts
  | desc
  | parts
  | tags
  | edges
  | tagIndexes
  | edgeIndexes
  | configs
deriving DecidableEq, Repr

namespace Query

def method : Query → String
  | heartbeat => "heartBeat"
  | spaces => "listSpaces"
  | hosts => "listHosts"
  | desc => "getSpace"
  | parts => "getPartsAlloc"
  | tags => "listTags"
  | edges => "listEdges"
  | tagIndexes => "listTagIndexes"
  | edgeIndexes => "listEdgeIndexes"
  | configs => "listConfigs"

def Value : Query → Type
  | heartbeat => Heartbeat
  | spaces => List SpaceName
  | hosts => List HostItem
  | desc => SpaceDesc
  | parts => Allocation
  | tags => List TagSchema
  | edges => List EdgeSchema
  | tagIndexes => List Index
  | edgeIndexes => List Index
  | configs => List ConfigItem

instance (q : Query) : Inhabited q.Value := by
  cases q <;> unfold Value <;> infer_instance

end Query

/-- A query with what it asks for. -/
inductive Request
  | heartbeat (request : HeartbeatRequest)
  | spaces
  | hosts
  | ofSpace (query : Query) (id : SpaceId)
  | configs (scope : ConfigModule)

end ClusterClient
