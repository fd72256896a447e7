import ClusterClient.Meta.Message
import ClusterClient.Sending
/-!
What the client is at: its tasks, and where each of them stands between two of
its steps.
-/
namespace ClusterClient

abbrev TaskId := Nat

/-- One of the calls that a task makes side by side. -/
inductive Slot (α : Type)
  | idle
  | calling (s : Sending)
  | pausing (interval : Nat) (s : Sending)
  | done (value : α)

abbrev Slots := (q : Query) → Slot q.Value

namespace Slots

def idle : Slots := fun _ => .idle

def set (slots : Slots) (q : Query) (slot : Slot q.Value) : Slots :=
  fun q' => if h : q' = q then h ▸ slot else slots q'

end Slots

/-- A group of calls, with what is known from earlier groups. -/
inductive Stage
  | beat (request : HeartbeatRequest)
  | listing
  | space (id : SpaceId) (rest : List SpaceId) (built : List Space) (hosts : List HostItem)
  | configs (scope : ConfigModule)
  /-- A single call for its answer. -/
  | ask (query : Query) (request : Request)

namespace Stage

/-- The calls of a group, in the order in which they are begun. -/
def queries : Stage → List Query
  | beat _ => [.heartbeat]
  | listing => [.spaces, .hosts]
  | space .. => [.desc, .parts, .tags, .edges, .tagIndexes, .edgeIndexes]
  | configs _ => [.configs]
  | ask query _ => [query]

def request : Stage → Query → Request
  | beat r, _ => .heartbeat r
  | listing, .hosts => .hosts
  | listing, _ => .spaces
  | space id .., q => .ofSpace q id
  | configs scope, _ => .configs scope
  | ask _ r, _ => r

end Stage

structure Work where
  /-- The time of the last change, as the heartbeat of this work told it. -/
  remote : Option Int64
  stage : Stage
  slots : Slots

namespace Work

def begin (remote : Option Int64) (stage : Stage) : Work := ⟨remote, stage, Slots.idle⟩

end Work

inductive Payload
  | nothing
  | value (query : Query) (v : query.Value)

inductive Job
  /-- Probes until the meta service is ready; that many tries have failed so far. -/
  | start (failed : Nat)
  | refresh
  | loadData
  | loadConfig
  | heartbeat
  | ask
  /-- Refreshes now and then, until it is told to end. -/
  | background (told : Bool)
  /-- May empty the client's caches when all is at rest. -/
  | stop (clear : Bool)
deriving DecidableEq, Repr

inductive Standing
  /-- Waits for its turn: one cycle at a time. -/
  | queued
  | working (w : Work)
  /-- Between two probes, or between two cycles. -/
  | resting
  /-- Waits for a background task to end. -/
  | joining (background : TaskId)
  | done (result : Except Fault Payload)

structure Task where
  job : Job
  standing : Standing

end ClusterClient
