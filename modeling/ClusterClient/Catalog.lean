import ClusterClient.Space
/-!
All spaces known at one time.
-/
namespace ClusterClient

/-- The partitions of one host with all their hosts, by space. -/
abbrev LocalView := Table SpaceId (Table PartId (List Host))

structure Catalog where
  spaces : Table SpaceId Space
  ids : Table String SpaceId

namespace Catalog

def empty : Catalog := ⟨∅, ∅⟩

instance : EmptyCollection Catalog := ⟨empty⟩

/-- Of spaces with one id, or with one name, the last one counts. A name stays
known even if its space was replaced by one of another name. -/
def ofList (spaces : List Space) : Catalog :=
  ⟨.ofList (spaces.map fun s => (s.id, s)), .ofList (spaces.map fun s => (s.name, s.id))⟩

variable (c : Catalog)

def size : Nat := c.spaces.size

def spaceIds : List SpaceId := c.spaces.keys

def contains (id : SpaceId) : Bool := c.spaces.contains id

def space (id : SpaceId) : Except Fault Space :=
  match c.spaces.get? id with
  | some s => .ok s
  | none => .error (.missing (.space id))

def spaceId (name : String) : Except Fault SpaceId :=
  match c.ids.get? name with
  | some id => .ok id
  | none => .error (.missing (.spaceNamed name))

def partHosts (id : SpaceId) (part : PartId) : Except Fault PartHosts := do
  (← c.space id).partHosts part

def partExists (id : SpaceId) (part : PartId) : Bool :=
  match c.spaces.get? id with
  | some s => s.parts.contains part
  | none => false

/-- Found through the index of every space, so the work is that of the partitions
the host really has. Spaces of which it has none are left out. -/
def partsOnHost (host : Host) : LocalView :=
  (c.spaces.mapValues fun _ s =>
    Table.ofList ((s.partsOn host).filterMap fun part =>
      (s.parts.get? part).map fun hosts => (part, hosts))).filter
    fun _ view => !view.isEmpty

end Catalog

end ClusterClient
