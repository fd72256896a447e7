import ClusterClient.Meta.Message
/-!
Answers of remote sides: what is common to all of them, and those of the storage
service, which may fail for some partitions and do for others.
-/
namespace ClusterClient

class Reply (ρ : Type) where
  status : ρ → Status
  leaderHint : ρ → Option Host

instance {α : Type} : Reply (MetaReply α) := ⟨MetaReply.status, MetaReply.leader⟩

structure PartFailure where
  part : PartId
  status : Status
  leader : Option Host
deriving DecidableEq, Repr

structure StorageReply (δ : Type) where
  failed : List PartFailure
  latency : Int64
  data : δ
deriving DecidableEq

namespace StorageReply

variable {δ : Type} (r : StorageReply δ)

/-- A changed leader outweighs every other failure; else the first one counts. -/
def status : Status :=
  if r.failed.any fun f => f.status == .leaderChanged then .leaderChanged
  else match r.failed with
    | [] => .succeeded
    | f :: _ => f.status

def leaderHint : Option Host :=
  (r.failed.find? fun f => f.status == .leaderChanged).bind PartFailure.leader

end StorageReply

instance {δ : Type} : Reply (StorageReply δ) := ⟨StorageReply.status, StorageReply.leaderHint⟩

end ClusterClient
