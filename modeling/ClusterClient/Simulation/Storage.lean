import ClusterClient.Scatter
/-!
A storage service that answers by script. A host that is down, or whose next
transport entry is a fault, gives no answer; any other call is answered after
the delay of its host, each partition by its next scripted reply.
-/
namespace ClusterClient.Simulation

inductive PartReply
  | done
  | leaderChanged (hint : Option Host)
  | failed (status : Status)

abbrev Items := List (PartId × Int64)

structure Storage where
  replies : Table (Host × PartId) (List PartReply)
  transport : Table Host (List (Option Fault))
  extra : Table Host (List (List PartFailure))
  down : List Host
  delays : Table Host Nat
  latencies : Table Host Int64
  calls : List (Host × List PartId)

/-- Takes the first entry out of a queue. -/
def takeNext {κ α : Type} [DecidableEq κ] [Ordered κ] (t : Table κ (List α)) (k : κ) :
    Option α × Table κ (List α) :=
  match t.get? k with
  | some (x :: rest) => (some x, t.insert k rest)
  | _ => (none, t)

def append {κ α : Type} [DecidableEq κ] [Ordered κ] (t : Table κ (List α)) (k : κ)
    (l : List α) : Table κ (List α) :=
  t.modify k [] (· ++ l)

namespace Storage

def empty : Storage := ⟨∅, ∅, ∅, [], ∅, ∅, []⟩

def downFault (host : Host) : Fault := .rpcFailed (.reported ("down " ++ host.text))

/-- A call arrives: a fault, or the time until it is answered. -/
def accept (s : Storage) (host : Host) (b : Batch Int64) : Storage × Except Fault Nat :=
  let s := { s with calls := s.calls ++ [(host, b.partIds)] }
  if host ∈ s.down then (s, .error (downFault host))
  else
    let (next, transport) := takeNext s.transport host
    let s := { s with transport }
    match next with
    | some (some fault) => (s, .error fault)
    | _ => (s, .ok (s.delays.getD host 0))

def answerPart (host : Host) (s : Storage) (r : StorageReply Items) (part : PartId)
    (vids : List Int64) : Storage × StorageReply Items :=
  let (next, replies) := takeNext s.replies (host, part)
  let s := { s with replies }
  match next with
  | some (.leaderChanged hint) =>
    (s, { r with failed := r.failed ++ [⟨part, .leaderChanged, hint⟩] })
  | some (.failed status) => (s, { r with failed := r.failed ++ [⟨part, status, none⟩] })
  | _ => (s, { r with data := r.data ++ vids.map fun v => (part, v) })

def answer (s : Storage) (host : Host) (b : Batch Int64) : Storage × StorageReply Items :=
  let (s, r) := b.parts.entries.foldl
    (fun (s, r) (part, vids) => answerPart host s r part vids)
    (s, ⟨[], s.latencies.getD host 100, []⟩)
  let (more, extra) := takeNext s.extra host
  ({ s with extra }, { r with failed := r.failed ++ more.getD [] })

end Storage

end ClusterClient.Simulation
