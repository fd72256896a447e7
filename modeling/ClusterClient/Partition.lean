import ClusterClient.Fault
import ClusterClient.Hash
/-!
Partitions: which one a key belongs to, and which hosts hold it.
-/
namespace ClusterClient

abbrev Bytes := List UInt8

/-- The hosts of every partition, the preferred one first. -/
abbrev Allocation := Table PartId (List Host)

structure PartHosts where
  space : SpaceId
  part : PartId
  hosts : List Host
deriving DecidableEq, Repr

namespace Partition

/-- An integer key: eight bytes, the least significant one first. -/
def intKey (vid : Int64) : Bytes :=
  (List.range 8).map fun i => (vid.toUInt64 >>> (8 * i.toUInt64)).toUInt8

/-- A key of eight bytes counts as an integer; any other key is hashed. -/
def keyNumber (key : Bytes) : UInt64 :=
  if key.length = 8 then Hash.littleEndian key else Hash.hashBytes key

/-- Partitions are numbered from 1. -/
def ofKey (key : Bytes) (count : Int32) : Except Fault PartId :=
  if count ≤ 0 then .error (.invalidInput (.partCount count))
  else .ok ((keyNumber key % count.toUInt32.toUInt64).toUInt32.toInt32 + 1)

end Partition

namespace Allocation

/-- For every host the partitions it holds, in ascending order. -/
def byHost (parts : Allocation) : Table Host (List PartId) :=
  let pairs := parts.entries.flatMap fun (part, hosts) => hosts.map fun h => (h, part)
  let index : Table Host (List PartId) :=
    pairs.foldl (fun index (h, part) => index.modify h [] (· ++ [part])) ∅
  index.mapValues fun _ parts => distinct parts

end Allocation

end ClusterClient
