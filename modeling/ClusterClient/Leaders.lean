import ClusterClient.Catalog
import ClusterClient.Meta.Message
/-!
The leaders of partitions as far as they are known. An entry that is missing or
out of date is no fault: a request then goes to the first host of its partition.
-/
namespace ClusterClient

abbrev Leaders := Table (SpaceId × PartId) Host

namespace Leaders

variable (l : Leaders)

def learn (space : SpaceId) (part : PartId) (leader : Host) : Leaders :=
  l.insert (space, part) leader

def forget (space : SpaceId) (part : PartId) : Leaders := l.erase (space, part)

def forgetParts (space : SpaceId) (parts : List PartId) : Leaders :=
  parts.foldl (fun l part => forget l space part) l

def forgetSpace (space : SpaceId) : Leaders := l.filter fun k _ => k.1 != space

/-- What an answer that reports a changed leader has to say about it. -/
def follow (space : SpaceId) (part : PartId) : Option Host → Leaders
  | some leader => learn l space part leader
  | none => forget l space part

def target? (p : PartHosts) : Option Host :=
  match l.get? (p.space, p.part) with
  | some leader => if leader ∈ p.hosts then some leader else p.hosts.head?
  | none => p.hosts.head?

/-- The known leader if it holds the partition, and its first host otherwise. -/
def resolve (p : PartHosts) : Except Fault Host :=
  match target? l p with
  | some h => .ok h
  | none => .error (.missing (.part p.space p.part))

/-- What storage hosts say they lead, as far as they are online and hold it. -/
def seeds (catalog : Catalog) (hosts : List HostItem) : List ((SpaceId × PartId) × Host) :=
  (hosts.filter fun item => item.status == .online).flatMap fun item =>
    item.leaderParts.entries.flatMap fun (space, parts) =>
      match catalog.spaces.get? space with
      | none => []
      | some s => (parts.filter fun part => decide (item.host ∈ s.parts.getD part [])).map
          fun part => ((space, part), item.host)

end Leaders

end ClusterClient
