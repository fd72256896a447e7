import ClusterClient.Simulation.Storage
import ClusterClient.Client.Task
/-!
A meta service that answers by script, and from its data where the script has
nothing to say. It keeps the heartbeats that it answers from its data.
-/
namespace ClusterClient.Simulation

inductive MetaAnswer
  /-- What the data say. -/
  | truth
  | fault (f : Fault)
  | leaderChanged (hint : Option Host)
  | code (status : Status)

structure MetaService where
  spaces : List (SpaceId × SpaceData)
  /-- Spaces that are listed, but unknown otherwise. -/
  ghosts : List SpaceId
  configs : List ConfigItem
  hosts : List HostItem
  clusterId : ClusterId
  lastUpdate : Int64
  leader : Option Host
  hintless : Bool
  down : List Host
  script : Table String (List MetaAnswer)
  delays : Table String Nat
  calls : List (String × Host)
  heartbeats : List HeartbeatRequest

namespace MetaService

def empty : MetaService :=
  ⟨[], [], [], [], 0, 0, none, false, [], ∅, ∅, [], []⟩

variable (m : MetaService)

def putSpace (id : SpaceId) (data : SpaceData) : List (SpaceId × SpaceData) →
    List (SpaceId × SpaceData)
  | [] => [(id, data)]
  | e :: rest => if e.1 = id then (id, data) :: rest else e :: putSpace id data rest

def ofSpace {α : Type} [Inhabited α] (id : SpaceId) (f : SpaceData → α) : MetaReply α :=
  match m.spaces.lookup id with
  | some data => .ok (f data)
  | none => .error .spaceNotFound

def truth (q : Query) (request : Request) : MetaReply q.Value :=
  let id := match request with
    | .ofSpace _ id => id
    | _ => 0
  match q with
  | .heartbeat => .ok (⟨m.clusterId, m.lastUpdate⟩ : Heartbeat)
  | .spaces => .ok (m.spaces.map (fun (id, data) => (⟨id, data.desc.name⟩ : SpaceName)) ++
      m.ghosts.map fun id => ⟨id, "ghost"⟩)
  | .hosts => .ok m.hosts
  | .desc => m.ofSpace id SpaceData.desc
  | .parts => @ofSpace m Allocation _ id SpaceData.parts
  | .tags => m.ofSpace id SpaceData.tags
  | .edges => m.ofSpace id SpaceData.edges
  | .tagIndexes => m.ofSpace id SpaceData.tagIndexes
  | .edgeIndexes => m.ofSpace id SpaceData.edgeIndexes
  | .configs => .ok (m.configs.filter fun item =>
      match request with
      | .configs scope => item.scope == scope
      | _ => false)

def remember (request : Request) : MetaService :=
  match request with
  | .heartbeat r => { m with heartbeats := m.heartbeats ++ [r] }
  | _ => m

/-- A call arrives, and is answered after this time. -/
def accept (q : Query) (host : Host) : MetaService × Nat :=
  ({ m with calls := m.calls ++ [(q.method, host)] }, m.delays.getD q.method 0)

def answer (q : Query) (request : Request) (host : Host) :
    MetaService × Except Fault (MetaReply q.Value) :=
  if host ∈ m.down then (m, .error (Storage.downFault host))
  else if m.leader.any fun leader => leader != host then
    (m, .ok (.leaderChanged (if m.hintless then none else m.leader)))
  else
    let (next, script) := takeNext m.script q.method
    let m := { m with script }
    match next with
    | some (.fault f) => (m, .error f)
    | some (.leaderChanged hint) => (m, .ok (.leaderChanged hint))
    | some (.code status) => (m, .ok (.error status))
    | some .truth | none => (m.remember request, .ok (m.truth q request))

end MetaService

end ClusterClient.Simulation
