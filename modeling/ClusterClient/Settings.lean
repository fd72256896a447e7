import ClusterClient.Host.Parser
import ClusterClient.Options
/-!
The settings a client is configured with, and the parameters they stand for.
-/
namespace ClusterClient

structure MetaSettings where
  addresses : String := "127.0.0.1:9559"
  localHost : String := "127.0.0.1:9779"
  role : Role := .graph
  retryCount : UInt64 := 3
  retryIntervalSecs : UInt64 := 1
  heartbeatIntervalSecs : UInt64 := 3
  heartbeatJitterMs : UInt64 := 900
  rpcTimeoutMs : UInt64 := 60000
  clusterIdPath : String := "cluster.id"
  skipConfig : Bool := false
  readyRetry : Int32 := 3
deriving DecidableEq, Repr

structure LogSettings where
  level : String := "info"
  dir : String := "logs"
  file : String := "graphdb-client"
  maxFileSize : UInt64 := 104857600
  maxFiles : UInt64 := 5
deriving DecidableEq, Repr

structure Settings where
  metadata : MetaSettings := {}
  log : LogSettings := {}
deriving DecidableEq, Repr

namespace Settings

/-- The addresses are looked at first, then the heartbeat, then the local host. -/
def options (s : Settings) : Except Fault Options := do
  let m := s.metadata
  let metaAddresses ← Host.parseList m.addresses
  if metaAddresses.isEmpty then throw (.config .noMetaAddress)
  if m.heartbeatIntervalSecs = 0 then throw (.config .zeroHeartbeat)
  let localHost ← Host.parse m.localHost
  return {
    metaAddresses, localHost
    role := m.role
    retryCount := m.retryCount.toNat
    retryInterval := m.retryIntervalSecs.toNat * 1000
    heartbeatInterval := m.heartbeatIntervalSecs.toNat * 1000
    heartbeatJitter := m.heartbeatJitterMs.toNat
    rpcTimeout := m.rpcTimeoutMs.toNat
    clusterIdPath := m.clusterIdPath
    skipConfig := m.skipConfig
    readyRetry := m.readyRetry }

end Settings

end ClusterClient
