import ClusterClient.Directory
import ClusterClient.Leaders
import ClusterClient.MetaLeader
import ClusterClient.Reply
import ClusterClient.Stats
/-!
A request to one host at a time. Attempts follow one another: after a call that
got no answer there is a pause, after an answer that reports a new leader there
is none, and any other answer is the result.
-/
namespace ClusterClient

/-- What the client believes about leaders, and what it counts. -/
structure Estimates where
  leaders : Leaders
  metaLeader : MetaLeader
  stats : Stats

inductive Route
  /-- To the meta service: to its leader, or to any host of it that is alive. -/
  | metaService (toLeader : Bool)
  | part (space : SpaceId) (id : PartId)
deriving DecidableEq, Repr

structure Sending where
  method : String
  route : Route
  host : Host
  retries : Nat
deriving DecidableEq, Repr

/-- What comes after an attempt. -/
inductive Turn (ρ : Type)
  | resend (s : Sending)
  /-- Goes on after so many milliseconds. -/
  | pause (interval : Nat) (s : Sending)
  | finish (result : Except Fault ρ)

namespace Sending

def attempt (s : Sending) (e : Estimates) : Estimates :=
  { e with stats := e.stats.countSent s.method }

/-- The host to try after one that gave no answer. -/
def afterFailure (s : Sending) (e : Estimates) (choice : Nat) : Estimates × Host :=
  match s.route with
  | .part .. => (e, s.host)
  | .metaService toLeader =>
    let m := e.metaLeader.rotate toLeader s.host choice
    ({ e with metaLeader := m }, m.target toLeader)

/-- The host to try after an answer that reports a changed leader. A partition is
then routed as any request for it would be. -/
def afterLeaderChange (s : Sending) (catalog : Catalog) (e : Estimates) (hint : Option Host)
    (choice : Nat) : Estimates × Host :=
  match s.route with
  | .metaService toLeader =>
    let m := match hint with
      | some leader => e.metaLeader.setLeader leader
      | none => e.metaLeader.rotateLeader s.host choice
    ({ e with metaLeader := m }, m.target toLeader)
  | .part space id =>
    let leaders := Leaders.follow e.leaders space id hint
    let host := match catalog.partHosts space id with
      | .ok p => (Leaders.target? leaders p).getD s.host
      | .error _ => s.host
    ({ e with leaders }, host)

def callFailure : Fault → Fault
  | .rpcFailed cause => .rpcFailed cause
  | fault => .rpcFailed (.reported fault.message)

variable {ρ : Type} [Reply ρ]

/-- Takes the outcome of an attempt, out of at most `limit + 1`. -/
def receive (limit interval : Nat) (catalog : Catalog) (choice : Nat) (s : Sending)
    (e : Estimates) : Except Fault ρ → Estimates × Turn ρ
  | .error fault =>
    let e := { e with stats := e.stats.countFailed }
    let (e, host) := s.afterFailure e choice
    if limit ≤ s.retries then (e, .finish (.error (callFailure fault)))
    else
      ({ e with stats := e.stats.countRetry },
        .pause interval { s with host, retries := s.retries + 1 })
  | .ok reply =>
    if Reply.status reply = .leaderChanged then
      let e := { e with stats := e.stats.countLeaderChanged }
      let (e, host) := s.afterLeaderChange catalog e (Reply.leaderHint reply) choice
      if limit ≤ s.retries then (e, .finish (.ok reply))
      else
        let s := { s with host, retries := s.retries + 1 }
        (s.attempt { e with stats := e.stats.countRetry }, .resend s)
    else (e, .finish (.ok reply))

/-- A request for one partition begins at the host it is routed to. -/
def toPart (method : String) (catalog : Catalog) (leaders : Leaders) (space : SpaceId)
    (id : PartId) : Except Fault Sending := do
  let host ← Leaders.resolve leaders (← catalog.partHosts space id)
  return ⟨method, .part space id, host, 0⟩

def toMetaService (method : String) (toLeader : Bool) (m : MetaLeader) : Sending :=
  ⟨method, .metaService toLeader, m.target toLeader, 0⟩

end Sending

end ClusterClient
