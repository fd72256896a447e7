/-!
What kind of process the client runs in, and whose configuration it reads. A
tool, which serves for maintenance, sends no heartbeats.
-/
namespace ClusterClient

inductive Role
  | graph
  | storage
  | metadata
  | tool
deriving DecidableEq, Repr

inductive ConfigModule
  | graph
  | storage
  | metadata
  | all
deriving DecidableEq, Repr

def Role.configModule : Role → ConfigModule
  | .graph => .graph
  | .storage => .storage
  | .metadata => .metadata
  | .tool => .all

end ClusterClient
