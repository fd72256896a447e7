import ClusterClient.Batch
import ClusterClient.Leaders
/-!
Routing: which host each partition of a request goes to, under one catalog.
-/
namespace ClusterClient.Router

abbrev HostBatches (α : Type) := Table Host (Table PartId (List α))
abbrev HostParts := Table Host (List PartId)

def target (leaders : Leaders) (space : Space) (part : PartId) : Except Fault Host := do
  Leaders.resolve leaders (← space.partHosts part)

variable {α : Type}

def put (batches : HostBatches α) (host : Host) (part : PartId) (item : α) :
    HostBatches α :=
  batches.modify host ∅ fun parts => parts.modify part [] (· ++ [item])

def clusterInto (leaders : Leaders) (space : Space) (key : α → Bytes) :
    HostBatches α → List α → Except Fault (HostBatches α)
  | batches, [] => .ok batches
  | batches, item :: rest => do
    let part ← space.partId (key item)
    let host ← target leaders space part
    clusterInto leaders space key (put batches host part item) rest

/-- Groups items by host and partition. The first item that cannot be placed
decides what the fault is. -/
def cluster (catalog : Catalog) (leaders : Leaders) (id : SpaceId) (key : α → Bytes)
    (items : List α) : Except Fault (HostBatches α) := do
  clusterInto leaders (← catalog.space id) key ∅ items

def groupInto (leaders : Leaders) (space : Space) :
    HostParts → List PartId → Except Fault HostParts
  | groups, [] => .ok groups
  | groups, part :: rest => do
    let host ← target leaders space part
    groupInto leaders space (groups.modify host [] (· ++ [part])) rest

/-- Groups partitions by host, each of them once. -/
def clusterParts (catalog : Catalog) (leaders : Leaders) (id : SpaceId)
    (parts : List PartId) : Except Fault HostParts := do
  let groups ← groupInto leaders (← catalog.space id) ∅ parts
  return groups.mapValues fun _ parts => distinct parts

/-- All partitions of a space by host, for a scan over the whole of it. -/
def hostParts (catalog : Catalog) (leaders : Leaders) (id : SpaceId) :
    Except Fault HostParts := do
  let space ← catalog.space id
  groupInto leaders space ∅ space.parts.keys

def requests (id : SpaceId) (batches : HostBatches α) : Table Host (Batch α) :=
  batches.mapValues fun _ parts => ⟨id, parts⟩

end ClusterClient.Router
