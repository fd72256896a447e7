import ClusterClient.Proofs.Collecting
/-!
Spaces as they are built from what the meta service tells. The index by hosts is the inverse of
the allocation, so a host's partitions found through it are those found by looking at every
partition.
-/
namespace ClusterClient

namespace Allocation

/-- Every host with every partition it holds, as often as it is listed for it. -/
def replicas (parts : Allocation) : List (Host × PartId) :=
  parts.entries.flatMap fun (p, hosts) => hosts.map fun host => (host, p)

variable {parts : Allocation} {host : Host} {p : PartId}

theorem mem_replicas : (host, p) ∈ replicas parts ↔ host ∈ parts.getD p [] := by
  simp only [replicas, List.mem_flatMap, List.mem_map, Prod.mk.injEq]
  constructor
  · rintro ⟨⟨q, hosts⟩, entry, h, listed, rfl, rfl⟩
    rw [Table.getD, Table.get?_eq_some_iff.mpr entry]
    exact listed
  · intro listed
    cases here : parts.get? p with
    | none => simp [Table.getD, here] at listed
    | some hosts =>
      rw [Table.getD, here] at listed
      exact ⟨(p, hosts), Table.get?_eq_some_iff.mp here, host, listed, rfl, rfl⟩

theorem byHost_eq (parts : Allocation) :
    byHost parts = (Table.collect ∅ (replicas parts)).mapValues fun _ parts => distinct parts :=
  rfl

theorem mem_byHost : p ∈ (byHost parts).getD host [] ↔ host ∈ parts.getD p [] := by
  rw [← mem_replicas, ← Table.mem_under, ← Table.getD_collect, byHost_eq]
  simp only [Table.getD, Table.get?_mapValues]
  cases (Table.collect ∅ (replicas parts)).get? host with
  | none => simp
  | some ps => simp [mem_distinct]

theorem byHost_contains :
    (byHost parts).contains host = true ↔ ∃ p, host ∈ parts.getD p [] := by
  simp only [← mem_replicas, ← Table.mem_under]
  rw [Table.contains, byHost_eq, Table.get?_mapValues, Table.get?_collect]
  cases Table.under host (replicas parts) with
  | nil => simp
  | cons p ps => simp

theorem byHost_ascending (parts : Allocation) (host : Host) :
    ((byHost parts).getD host []).Pairwise (· < ·) := by
  rw [byHost_eq, Table.getD, Table.get?_mapValues]
  cases (Table.collect ∅ (replicas parts)).get? host with
  | none => simp
  | some ps => exact (distinct_ascending ps).imp before_iff_lt.mp

end Allocation

namespace Space

variable {id : SpaceId} {data : SpaceData}

@[simp] theorem build_id (id : SpaceId) (data : SpaceData) : (build id data).id = id := rfl

@[simp] theorem build_partsByHost (id : SpaceId) (data : SpaceData) :
    (build id data).partsByHost = Allocation.byHost (build id data).parts := rfl

/-- The empty lists that are left out are not missed. -/
@[simp] theorem build_getD (id : SpaceId) (data : SpaceData) (p : PartId) :
    (build id data).parts.getD p [] = data.parts.getD p [] := by
  simp only [build, assemble, Table.getD, Table.get?_filter]
  rcases data.parts.get? p with _ | _ | _ <;> rfl

theorem build_contains (id : SpaceId) (data : SpaceData) (p : PartId) :
    (build id data).parts.contains p = true ↔ data.parts.getD p [] ≠ [] := by
  simp only [build, assemble, Table.contains, Table.getD, Table.get?_filter]
  rcases data.parts.get? p with _ | _ | _ <;> simp

/-- A partition that is there at all has hosts. -/
theorem build_partHosts (id : SpaceId) (data : SpaceData) (p : PartId) :
    ((build id data).parts.contains p = true ∧
      ∃ found, (build id data).partHosts p = .ok found ∧ found.hosts ≠ []) ∨
    (build id data).parts.contains p = false ∧
      (build id data).partHosts p = .error (.missing (.part id p)) := by
  have filled := build_contains id data p
  rw [← build_getD id, Table.getD] at filled
  rw [partHosts, build_id]
  cases there : (build id data).parts.get? p with
  | none => exact .inr ⟨by rw [Table.contains, there]; rfl, rfl⟩
  | some hosts =>
    rw [there] at filled
    have here : (build id data).parts.contains p = true := by
      rw [Table.contains, there]
      rfl
    exact .inl ⟨here, ⟨id, p, hosts⟩, rfl, filled.mp here⟩

theorem mem_partsOn_build {host : Host} {p : PartId} :
    p ∈ (build id data).partsOn host ↔ host ∈ (build id data).parts.getD p [] := by
  rw [partsOn, build_partsByHost, Allocation.mem_byHost]

end Space

namespace Catalog

/-- The catalog of what the meta service tells about each space. -/
def ofData (told : List (SpaceId × SpaceData)) : Catalog :=
  .ofList (told.map fun (id, data) => .build id data)

theorem built_of_get? {told : List (SpaceId × SpaceData)} {id : SpaceId} {space : Space}
    (found : (ofData told).spaces.get? id = some space) : ∃ data, space = .build id data := by
  have entry := Table.mem_of_get?_ofList found
  simp only [List.map_map, List.mem_map] at entry
  obtain ⟨⟨_, data⟩, _, eq⟩ := entry
  cases eq
  exact ⟨data, rfl⟩

/-- The partitions of a host, found by looking at the hosts of every partition. -/
def scan (catalog : Catalog) (host : Host) : LocalView :=
  (catalog.spaces.mapValues fun _ space =>
    space.parts.filter fun _ hosts => decide (host ∈ hosts)).filter fun _ view => !view.isEmpty

theorem view_of_built (id : SpaceId) (data : SpaceData) (host : Host) :
    let space := Space.build id data
    Table.ofList ((space.partsOn host).filterMap fun p =>
        (space.parts.get? p).map fun hosts => (p, hosts)) =
      space.parts.filter fun _ hosts => decide (host ∈ hosts) := by
  intro space
  apply Table.ext_get?
  intro p
  rw [Table.get?_select, Table.get?_filter]
  cases here : space.parts.get? p with
  | none => simp
  | some hosts =>
    have listed : p ∈ space.partsOn host ↔ host ∈ hosts := by
      rw [Space.mem_partsOn_build, Table.getD, here]
      rfl
    by_cases holds : host ∈ hosts <;> simp [listed, holds, Option.filter]

theorem partsOnHost_eq_scan (told : List (SpaceId × SpaceData)) (host : Host) :
    (ofData told).partsOnHost host = (ofData told).scan host := by
  unfold partsOnHost scan
  congr 1
  apply Table.mapValues_congr
  intro id space found
  obtain ⟨data, rfl⟩ := built_of_get? found
  exact view_of_built id data host

end Catalog

/-- The index of an allocation lists for each host the partitions it holds, each once and in
ascending order, and hosts that hold none are not in it. So what a host holds in each space can
be told without looking at the other partitions. -/
theorem index_inverts :
    (∀ (parts : Allocation) (host : Host),
      ((Allocation.byHost parts).contains host = true ↔
        ∃ p hosts, parts.get? p = some hosts ∧ host ∈ hosts) ∧
      (∀ p, p ∈ (Allocation.byHost parts).getD host [] ↔ host ∈ parts.getD p []) ∧
      ((Allocation.byHost parts).getD host []).Pairwise (· < ·)) ∧
    ∀ (told : List (SpaceId × SpaceData)) (host : Host),
      (Catalog.ofData told).partsOnHost host = (Catalog.ofData told).scan host := by
  refine ⟨fun parts host => ⟨?_, fun p => Allocation.mem_byHost, ?_⟩, ?_⟩
  · rw [Allocation.byHost_contains]
    constructor
    · rintro ⟨p, holds⟩
      cases here : parts.get? p with
      | none => simp [Table.getD, here] at holds
      | some hosts => exact ⟨p, hosts, here, by simpa [Table.getD, here] using holds⟩
    · rintro ⟨p, hosts, here, holds⟩
      exact ⟨p, by simpa [Table.getD, here] using holds⟩
  · exact Allocation.byHost_ascending parts host
  · exact Catalog.partsOnHost_eq_scan

end ClusterClient
