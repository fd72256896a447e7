import ClusterClient.Table
import ClusterClient.Decimal.Binary64
/-!
How many calls were made, and what became of them. The numbers have no bound here; they are
shown in 64 bits, and begin again at zero there.
-/
namespace ClusterClient

structure Stats where
  sent : Nat
  failed : Nat
  leaderChanged : Nat
  retries : Nat
  methods : Table String Nat
deriving DecidableEq, Inhabited

namespace Stats

def zero : Stats := ⟨0, 0, 0, 0, ∅⟩

variable (s : Stats)

def countSent (method : String) : Stats :=
  { s with sent := s.sent + 1, methods := s.methods.modify method 0 (· + 1) }

def countFailed : Stats := { s with failed := s.failed + 1 }
def countLeaderChanged : Stats := { s with leaderChanged := s.leaderChanged + 1 }
def countRetry : Stats := { s with retries := s.retries + 1 }

/-- The numbers in 64 bits. -/
def shown : Stats where
  sent := s.sent % UInt64.size
  failed := s.failed % UInt64.size
  leaderChanged := s.leaderChanged % UInt64.size
  retries := s.retries % UInt64.size
  methods := s.methods.mapValues fun _ n => n % UInt64.size

def numbers : List Nat := s.sent :: s.failed :: s.leaderChanged :: s.retries :: s.methods.values

/-- The part of the calls that got no answer; zero if there were no calls. -/
def failureRate : Binary64 :=
  if s.sent = 0 then default else (Binary64.ofRatio? false s.failed s.sent).getD default

end Stats

end ClusterClient
