import ClusterClient.Partition
import ClusterClient.Schema
/-!
A space as the client knows it: built once from what the meta service tells
about it, and never changed after that.
-/
namespace ClusterClient

/-- What the meta service tells about one space. -/
structure SpaceData where
  desc : SpaceDesc
  parts : Allocation
  tags : List TagSchema
  edges : List EdgeSchema
  tagIndexes : List Index
  edgeIndexes : List Index

/-- One version of the schema of each tag, with the id of the tag. -/
def SpaceData.tagSchemas (data : SpaceData) : List (TagId × Schema) :=
  data.tags.map fun t => (t.id, t.schema)

def SpaceData.edgeSchemas (data : SpaceData) : List (EdgeType × Schema) :=
  data.edges.map fun e => (e.type, e.schema)

/-- The versions of one schema: a slot for each version up to the newest one, empty
where there is a gap. -/
abbrev Versions := Array (Option Schema)

structure Space where
  id : SpaceId
  desc : SpaceDesc
  partsNum : Int32
  parts : Allocation
  partsByHost : Table Host (List PartId)
  tagVersions : Table TagId Versions
  edgeVersions : Table EdgeType Versions
  newestTags : Table TagId SchemaVersion
  newestEdges : Table EdgeType SchemaVersion
  tagIds : Table String TagId
  tagNames : Table TagId String
  edgeTypes : Table String EdgeType
  edgeNames : Table EdgeType String
  tagIndexes : Table IndexId Index
  edgeIndexes : Table IndexId Index

namespace Versions

/-- The most slots that an array can have: they take eight bytes each, and all of them
together less than `2 ^ 63` bytes. -/
def maxSlots : Nat := ((1 <<< 63) - 1) / 8

/-- The number of the slot of a version that is not below zero. -/
def slot (version : SchemaVersion) : Nat := version.toInt.toNat

/-- An array that grows, and the number of slots for which it has memory. -/
structure Growing where
  slots : Versions
  capacity : Nat
  within : slots.size ≤ capacity

namespace Growing

def empty : Growing := ⟨#[], 0, Nat.le_refl 0⟩

variable (g : Growing)

/-- Memory that is too small for that many slots is at least doubled. -/
def reserve (count : Nat) : Nat :=
  if count ≤ g.capacity then g.capacity else max 4 (max (2 * g.capacity) count)

theorem le_reserve (count : Nat) : count ≤ g.reserve count := by
  unfold reserve
  split <;> omega

theorem capacity_le_reserve (count : Nat) : g.capacity ≤ g.reserve count := by
  unfold reserve
  split <;> omega

/-- Puts a schema into the slot of its version. If the array ends before that slot, empty
slots are added up to there. -/
def put (s : Schema) : Growing where
  slots :=
    (g.slots ++ Array.replicate (slot s.version + 1 - g.slots.size) none).setIfInBounds
      (slot s.version) (some s)
  capacity := g.reserve (slot s.version + 1)
  within := by
    have enough := g.le_reserve (slot s.version + 1)
    have kept := g.capacity_le_reserve (slot s.version + 1)
    have room := g.within
    simp only [Array.size_setIfInBounds, Array.size_append, Array.size_replicate]
    omega

/-- The array with that schema has not too many slots. -/
def fits (s : Schema) : Bool := g.reserve (slot s.version + 1) ≤ maxSlots

end Growing

/-- One more schema for the arrays. Negative versions are left out; of equal ones the last
counts. -/
def add (grouped : Table Int32 Growing) (item : Int32 × Schema) : Table Int32 Growing :=
  if item.2.version < 0 then grouped
  else grouped.modify item.1 .empty fun g => g.put item.2

def accepts (grouped : Table Int32 Growing) (item : Int32 × Schema) : Bool :=
  item.2.version < 0 || (grouped.getD item.1 .empty).fits item.2

/-- The arrays as they were if memory had no end. -/
def collect (items : List (Int32 × Schema)) : Table Int32 Growing := items.foldl add ∅

/-- None if an array gets too many slots. -/
def collect? (items : List (Int32 × Schema)) : Option (Table Int32 Growing) :=
  items.foldlM (fun grouped item => if accepts grouped item then some (add grouped item) else none)
    ∅

/-- The version of the last slot. -/
def newest (g : Growing) : SchemaVersion := Int64.ofNat g.slots.size - 1

/-- A negative version asks for the newest one. -/
def pick? (vs : Versions) (version : SchemaVersion) : Option Schema :=
  (vs[if version < 0 then vs.size - 1 else slot version]?).join

end Versions

namespace Space

/-- A partition without hosts is counted but not allocated. The number of
partitions is that of the description, or of the listed ones if it gives none. -/
def assemble (id : SpaceId) (data : SpaceData) (tags edges : Table Int32 Versions.Growing) :
    Space :=
  let parts := data.parts.filter fun _ hosts => !hosts.isEmpty
  { id
    desc := data.desc
    partsNum := if 0 < data.desc.partitionNum then data.desc.partitionNum
      else Int32.ofNat data.parts.size
    parts
    partsByHost := Allocation.byHost parts
    tagVersions := tags.mapValues fun _ g => g.slots
    edgeVersions := edges.mapValues fun _ g => g.slots
    newestTags := tags.mapValues fun _ g => Versions.newest g
    newestEdges := edges.mapValues fun _ g => Versions.newest g
    tagIds := .ofList (data.tags.map fun t => (t.name, t.id))
    tagNames := .ofList (data.tags.map fun t => (t.id, t.name))
    edgeTypes := .ofList (data.edges.map fun e => (e.name, e.type))
    edgeNames := .ofList (data.edges.map fun e => (e.type, e.name))
    tagIndexes := .ofList (data.tagIndexes.map fun i => (i.id, i))
    edgeIndexes := .ofList (data.edgeIndexes.map fun i => (i.id, i)) }

/-- None if the versions of a schema need too many slots: then there is no space at all, and
whoever builds it fails. -/
def build? (id : SpaceId) (data : SpaceData) : Option Space := do
  return assemble id data (← Versions.collect? data.tagSchemas)
    (← Versions.collect? data.edgeSchemas)

/-- The space that `build?` gives if it gives one. -/
def build (id : SpaceId) (data : SpaceData) : Space :=
  assemble id data (Versions.collect data.tagSchemas) (Versions.collect data.edgeSchemas)

variable (s : Space)

def found {α : Type} (what : Missing) : Option α → Except Fault α
  | some a => .ok a
  | none => .error (.missing what)

def name : String := s.desc.name

def partsOn (host : Host) : List PartId := s.partsByHost.getD host []

def hosts : List Host := s.partsByHost.keys

def partHosts (part : PartId) : Except Fault PartHosts :=
  found (.part s.id part) ((s.parts.get? part).map fun hosts => ⟨s.id, part, hosts⟩)

def partId (key : Bytes) : Except Fault PartId :=
  if s.partsNum ≤ 0 then .error (.missing (.anyPart s.id)) else Partition.ofKey key s.partsNum

def tagId (name : String) : Except Fault TagId := found (.tagNamed s.id name) (s.tagIds.get? name)

def tagName (id : TagId) : Except Fault String := found (.tag s.id id) (s.tagNames.get? id)

def edgeType (name : String) : Except Fault EdgeType :=
  found (.edgeNamed s.id name) (s.edgeTypes.get? name)

def edgeName (type : EdgeType) : Except Fault String :=
  found (.edge s.id type) (s.edgeNames.get? type)

def allEdgeNames : List String := s.edgeTypes.keys

def tagSchema (id : TagId) (version : SchemaVersion) : Except Fault Schema :=
  found (.tagVersion s.id id version)
    ((s.tagVersions.get? id).bind fun vs => Versions.pick? vs version)

def edgeSchema (type : EdgeType) (version : SchemaVersion) : Except Fault Schema :=
  found (.edgeVersion s.id type version)
    ((s.edgeVersions.get? type).bind fun vs => Versions.pick? vs version)

def latestTagVersion (id : TagId) : Except Fault SchemaVersion :=
  found (.tag s.id id) (s.newestTags.get? id)

def latestEdgeVersion (type : EdgeType) : Except Fault SchemaVersion :=
  found (.edge s.id type) (s.newestEdges.get? type)

def tagIndex (id : IndexId) : Except Fault Index := found (.index s.id id) (s.tagIndexes.get? id)

def edgeIndex (id : IndexId) : Except Fault Index := found (.index s.id id) (s.edgeIndexes.get? id)

end Space

end ClusterClient
