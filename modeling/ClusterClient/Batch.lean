import ClusterClient.Fault
/-!
A request for several partitions of one space, its items grouped by partition.
-/
namespace ClusterClient

structure Batch (α : Type) where
  space : SpaceId
  parts : Table PartId (List α)

namespace Batch

variable {α : Type} (b : Batch α)

def partIds : List PartId := b.parts.keys

def itemCount : Nat := b.parts.values.flatten.length

/-- The part of the request that concerns the given partitions, as far as it has
them. -/
def extract (parts : List PartId) : Batch α :=
  ⟨b.space, .ofList (parts.filterMap fun p => (b.parts.get? p).map fun items => (p, items))⟩

end Batch

end ClusterClient
