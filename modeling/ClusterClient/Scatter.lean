import ClusterClient.Router
import ClusterClient.Sending
/-!
A request to many hosts at once. Partitions whose leader has changed are grouped
anew and sent again, as the next wave of the request they came with. The request
is over when no call is under way.
-/
namespace ClusterClient

/-- A call under way. The origin is the host of the request it descends from. -/
structure Flight (α : Type) where
  ticket : Nat
  origin : Host
  host : Host
  wave : Nat
  request : Batch α

structure Scatter (α δ : Type) where
  method : String
  /-- The number of partitions asked for. -/
  total : Nat
  dispatched : Nat
  flights : List (Flight α)
  failed : Table PartId Status
  responses : List (StorageReply δ)
  latencies : List (Host × Int64)
  maxLatency : Int64

namespace Scatter

variable {α δ : Type}

def mark (s : Scatter α δ) (status : Status) (parts : List PartId) : Scatter α δ :=
  { s with failed := parts.foldl (fun t p => t.insert p status) s.failed }

def dispatch (s : Scatter α δ) (origin host : Host) (wave : Nat) (request : Batch α) :
    Scatter α δ :=
  { s with
    dispatched := s.dispatched + 1
    flights := s.flights ++ [⟨s.dispatched, origin, host, wave, request⟩] }

def start (method : String) (requests : Table Host (Batch α)) (stats : Stats) :
    Scatter α δ × Stats :=
  let total := (distinct (requests.values.flatMap Batch.partIds)).length
  requests.entries.foldl
    (fun (s, stats) (host, request) =>
      (s.dispatch host host 0 request, stats.countSent method))
    (⟨method, total, 0, [], ∅, [], [], 0⟩, stats)

/-- Takes in one entry of the list of failed partitions of an answer; partitions
that are to be sent again are added to `moved`. -/
def note (last : Bool) (space : SpaceId) (s : Scatter α δ) (e : Estimates)
    (moved : List PartId) (f : PartFailure) : Scatter α δ × Estimates × List PartId :=
  if f.status = .leaderChanged then
    let e := { e with
      stats := e.stats.countLeaderChanged
      leaders := Leaders.follow e.leaders space f.part f.leader }
    if last then (s.mark .leaderChanged [f.part], e, moved) else (s, e, moved ++ [f.part])
  else (s.mark f.status [f.part], e, moved)

def resend (f : Flight α) (s : Scatter α δ) (stats : Stats) (targets : Router.HostParts) :
    Scatter α δ × Stats :=
  targets.entries.foldl
    (fun (s, stats) (host, parts) =>
      (s.dispatch f.origin host (f.wave + 1) (f.request.extract parts),
        stats.countRetry.countSent s.method))
    (s, stats)

/-- Takes the outcome of a call. -/
def settle (limit : Nat) (catalog : Catalog) (f : Flight α) (s : Scatter α δ) (e : Estimates) :
    Except Fault (StorageReply δ) → Scatter α δ × Estimates
  | .error _ =>
    (s.mark .rpcFailure f.request.partIds, { e with stats := e.stats.countFailed })
  | .ok reply =>
    let s := { s with
      latencies := s.latencies ++ [(f.host, reply.latency)]
      maxLatency := max s.maxLatency reply.latency }
    let space := f.request.space
    let (s, e, moved) := reply.failed.foldl
      (fun (s, e, moved) failure => note (decide (limit ≤ f.wave + 1)) space s e moved failure)
      (s, e, [])
    let s := { s with responses := s.responses ++ [reply] }
    if moved.isEmpty then (s, e)
    else
      match Router.clusterParts catalog e.leaders space moved with
      | .ok targets =>
        let (s, stats) := resend f s e.stats targets
        (s, { e with stats })
      | .error fault => (s.mark fault.status moved, e)

/-- Takes the outcome of the call with a ticket, if it is under way. -/
def receive (limit : Nat) (catalog : Catalog) (ticket : Nat)
    (outcome : Except Fault (StorageReply δ)) (s : Scatter α δ) (e : Estimates) :
    Scatter α δ × Estimates :=
  match s.flights.find? fun f => f.ticket == ticket with
  | none => (s, e)
  | some f =>
    settle limit catalog f { s with flights := s.flights.filter fun f => f.ticket != ticket } e
      outcome

variable (s : Scatter α δ)

def finished : Bool := s.flights.isEmpty

def succeeded : Bool := s.failed.isEmpty

/-- The share of the partitions that succeeded, in whole per cent. -/
def completeness : Nat :=
  if s.total = 0 then 100 else (s.total - min s.failed.size s.total) * 100 / s.total

end Scatter

end ClusterClient
