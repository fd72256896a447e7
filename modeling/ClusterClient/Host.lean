import ClusterClient.Table
import ClusterClient.Text.Numeral
import ClusterClient.Text.Quoted
/-!
Addresses of hosts, in the order of their names and then of their ports.
-/
namespace ClusterClient

structure Host where
  name : String
  port : UInt16
deriving DecidableEq, Repr, Inhabited

namespace Host

instance : Ordered Host :=
  .via (fun h => (h.name, h.port)) fun {a b} e => by
    cases a; cases b; simpa using e

/-- An address that was never set. -/
def isUnset (h : Host) : Bool := h.name.isEmpty && h.port == 0

def text (h : Host) : String := h.name ++ ":" ++ Text.showNat h.port.toNat

/-- The long form that messages use. -/
def described (h : Host) : String :=
  "HostAddr \x7b host: " ++ Text.quoted h.name ++ ", port: " ++ Text.showNat h.port.toNat ++
    " \x7d"

end Host

end ClusterClient
