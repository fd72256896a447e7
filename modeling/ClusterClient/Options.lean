import ClusterClient.Fault
import ClusterClient.Role
/-!
The parameters a client runs with. Times are in milliseconds.
-/
namespace ClusterClient

structure Options where
  metaAddresses : List Host
  localHost : Host
  role : Role
  retryCount : Nat := 3
  retryInterval : Nat := 1000
  heartbeatInterval : Nat := 3000
  heartbeatJitter : Nat := 900
  rpcTimeout : Nat := 60000
  clusterIdPath : String := "cluster.id"
  skipConfig : Bool := false
  readyRetry : Int32 := 3

namespace Options

/-- How often a partition may be asked for in one scattered request. -/
def waveLimit (o : Options) : Nat := max o.retryCount 1

end Options

end ClusterClient
