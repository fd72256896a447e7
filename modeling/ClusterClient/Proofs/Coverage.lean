import ClusterClient.Proofs.Snapshots
/-!
The partitions of a space by the hosts they go to. Whatever order they are listed in and however
often, each stands once under its host, and the groups of all partitions take in all that
grouping items by their keys can come to.
-/
namespace ClusterClient

namespace Router

variable {leaders : Leaders} {space : Space} {parts : List PartId} {groups targets : HostParts}

/-- The partitions with the hosts they go to, as far as there are any. -/
def routes (leaders : Leaders) (space : Space) (parts : List PartId) : List (Host × PartId) :=
  parts.filterMap fun p => (target leaders space p).toOption.map fun host => (host, p)

theorem groupInto_eq_collect {before : HostParts}
    (ok : groupInto leaders space before parts = .ok groups) :
    groups = before.collect (routes leaders space parts) := by
  induction parts generalizing before with
  | nil =>
    cases ok
    rfl
  | cons p rest ih =>
    rcases target_cases leaders space p with ⟨host, here, _⟩ | ⟨failed, _⟩
    · rw [groupInto, here] at ok
      rw [ih ok]
      simp only [routes, List.filterMap_cons, here]
      rfl
    · rw [groupInto, failed] at ok
      cases ok

/-- The listed partitions that go to a host. -/
def allotted (leaders : Leaders) (space : Space) (parts : List PartId) (host : Host) :
    List PartId :=
  parts.filter fun p => decide (target leaders space p = .ok host)

theorem mem_allotted {host : Host} {p : PartId} :
    p ∈ allotted leaders space parts host ↔ p ∈ parts ∧ target leaders space p = .ok host := by
  simp [allotted]

theorem under_routes (leaders : Leaders) (space : Space) (parts : List PartId) (host : Host) :
    Table.under host (routes leaders space parts) = allotted leaders space parts host := by
  induction parts with
  | nil => rfl
  | cons p rest ih =>
    rw [allotted, List.filter_cons, ← allotted, ← ih, routes, List.filterMap_cons, ← routes]
    rcases target_cases leaders space p with ⟨found, here, _⟩ | ⟨failed, _⟩
    · simp [here, Except.toOption, Table.under_cons, eq_comm]
    · simp [failed, Except.toOption]

theorem get?_groupInto (ok : groupInto leaders space ∅ parts = .ok groups) (host : Host) :
    groups.get? host = if allotted leaders space parts host = [] then none
      else some (allotted leaders space parts host) := by
  rw [groupInto_eq_collect ok, Table.get?_collect, under_routes]
  simp [Table.getD]

variable {catalog : Catalog} {id : SpaceId}

theorem get?_clusterParts (known : catalog.space id = .ok space)
    (ok : clusterParts catalog leaders id parts = .ok targets) (host : Host) :
    targets.get? host = if allotted leaders space parts host = [] then none
      else some (distinct (allotted leaders space parts host)) := by
  obtain ⟨space', groups, found, grouped, rfl⟩ := clusterParts_eq_ok ok
  cases known.symm.trans found
  rw [Table.get?_mapValues, get?_groupInto grouped]
  split <;> rfl

/-- Neither order nor repetition counts. -/
theorem clusterParts_of_same (known : catalog.space id = .ok space)
    (ok : clusterParts catalog leaders id parts = .ok targets) {parts' : List PartId}
    (same : ∀ p, p ∈ parts' ↔ p ∈ parts) :
    clusterParts catalog leaders id parts' = .ok targets := by
  obtain ⟨space', found, targeted, _⟩ := mem_clusterParts ok
  cases known.symm.trans found
  obtain ⟨targets', ok'⟩ := clusterParts_ok known fun p hp => targeted p ((same p).mp hp)
  rw [ok']
  congr 1
  apply Table.ext_get?
  intro host
  have here : ∀ p,
      p ∈ allotted leaders space parts' host ↔ p ∈ allotted leaders space parts host := by
    simp [mem_allotted, same]
  have none : allotted leaders space parts' host = [] ↔ allotted leaders space parts host = [] := by
    simp only [List.eq_nil_iff_forall_not_mem, here]
  rw [get?_clusterParts known ok', get?_clusterParts known ok, distinct_congr here]
  simp only [none]

/-- The listed partitions by the hosts they go to, each of them once. -/
structure Covers (leaders : Leaders) (space : Space) (parts : List PartId) (groups : HostParts) :
    Prop where
  once : groups.values.flatten.Nodup
  all : ∀ p, p ∈ groups.values.flatten ↔ p ∈ parts
  home : ∀ host, ∀ p ∈ groups.getD host [], Home leaders space.id space p host
  ascending : ∀ host ps, groups.get? host = some ps → ps.Pairwise (· < ·)
  filled : ∀ host ps, groups.get? host = some ps → ps ≠ []

theorem clusterParts_covers (known : catalog.space id = .ok space)
    (ok : clusterParts catalog leaders id parts = .ok targets) :
    Covers leaders space parts targets := by
  obtain ⟨space', found, _, grouped⟩ := mem_clusterParts ok
  cases known.symm.trans found
  have perm := clusterParts_perm ok
  constructor
  · exact perm.nodup_iff.mpr (distinct_nodup parts)
  · intro p
    rw [perm.mem_iff, mem_distinct]
  · intro host p hp
    exact target_eq_ok_iff.mp ((grouped host p).mp hp).2
  all_goals
    intro host ps here
    rw [get?_clusterParts known ok] at here
    split at here
    · cases here
    rename_i some
    cases here
  · exact (distinct_ascending _).imp before_iff_lt.mp
  · obtain ⟨p, listed⟩ := List.exists_mem_of_ne_nil _ some
    exact List.ne_nil_of_mem (mem_distinct.mpr listed)

variable {data : SpaceData}

/-- A space that was built has a host for every partition it has at all. -/
theorem contains_iff_target (leaders : Leaders) (id : SpaceId) (data : SpaceData) (p : PartId) :
    (Space.build id data).parts.contains p = true ↔
      ∃ host, target leaders (.build id data) p = .ok host := by
  rw [exists_target_iff, Space.build_contains, Space.build_getD]

theorem clusterParts_ok_iff_contains (known : catalog.space id = .ok (.build id data)) :
    (∃ targets, clusterParts catalog leaders id parts = .ok targets) ↔
      ∀ p ∈ parts, (Space.build id data).parts.contains p = true := by
  simp only [contains_iff_target leaders]
  constructor
  · rintro ⟨targets, ok⟩
    obtain ⟨space, found, targeted, _⟩ := mem_clusterParts ok
    cases known.symm.trans found
    exact targeted
  · exact clusterParts_ok known

theorem hostParts_eq (known : catalog.space id = .ok space) :
    hostParts catalog leaders id = groupInto leaders space ∅ space.parts.keys := by
  rw [hostParts, known]
  rfl

/-- In ascending order no partition is listed twice, and the groups are in order as they are. -/
theorem hostParts_eq_clusterParts (known : catalog.space id = .ok space)
    (ok : hostParts catalog leaders id = .ok groups) :
    clusterParts catalog leaders id space.parts.keys = .ok groups := by
  rw [hostParts_eq known] at ok
  rw [clusterParts_eq known ok]
  congr 1
  apply Table.mapValues_eq_self
  intro host ps here
  rw [get?_groupInto ok] at here
  split at here
  · cases here
  · cases here
    exact distinct_eq_self (space.parts.keys_ascending.filter _)

theorem hostParts_ok (known : catalog.space id = .ok (.build id data)) (leaders : Leaders) :
    ∃ groups, hostParts catalog leaders id = .ok groups := by
  rw [hostParts_eq known]
  apply groupInto_ok
  intro p listed
  exact (contains_iff_target leaders id data p).mp (Table.mem_keys.mp listed)

theorem mem_hostParts (known : catalog.space id = .ok space)
    (ok : hostParts catalog leaders id = .ok groups) {host : Host} {p : PartId} :
    p ∈ groups.getD host [] ↔ target leaders space p = .ok host := by
  obtain ⟨space', found, _, grouped⟩ := mem_clusterParts (hostParts_eq_clusterParts known ok)
  cases known.symm.trans found
  rw [grouped, and_iff_right_iff_imp]
  intro here
  have holds := (target_eq_ok_iff.mp here).holds
  rw [Table.mem_keys]
  cases allocated : space.parts.get? p with
  | none => simp [Table.getD, allocated] at holds
  | some hosts => rfl

/-- Partitions can be grouped just if all of them are allocated, and it does not count in which
order and how often they are listed. All partitions of a space can be grouped, and items are put
nowhere else. -/
theorem parts_grouped (known : catalog.space id = .ok (.build id data)) (leaders : Leaders) :
    let space := Space.build id data
    (∀ parts, (∃ targets, clusterParts catalog leaders id parts = .ok targets) ↔
      ∀ p ∈ parts, space.parts.contains p = true) ∧
    (∀ parts targets, clusterParts catalog leaders id parts = .ok targets →
      Covers leaders space parts targets ∧
      ∀ parts', (∀ p, p ∈ parts' ↔ p ∈ parts) →
        clusterParts catalog leaders id parts' = .ok targets) ∧
    ∃ groups, hostParts catalog leaders id = .ok groups ∧
      (∀ parts, (∀ p, p ∈ parts ↔ space.parts.contains p = true) →
        clusterParts catalog leaders id parts = .ok groups) ∧
      ∀ {α : Type} (key : α → Bytes) (items : List α) (batches : HostBatches α),
        cluster catalog leaders id key items = .ok batches →
        ∀ host, ∀ p ∈ (batches.getD host ∅).keys, p ∈ groups.getD host [] := by
  intro space
  obtain ⟨groups, ok⟩ := hostParts_ok known leaders
  refine ⟨fun parts => clusterParts_ok_iff_contains known, fun parts targets ok =>
    ⟨clusterParts_covers known ok, fun parts' => clusterParts_of_same known ok⟩,
    groups, ok, ?_, ?_⟩
  · intro parts all
    apply clusterParts_of_same known (hostParts_eq_clusterParts known ok)
    simpa [Table.mem_keys, Table.contains] using all
  · intro α key items batches clustered host p here
    rw [cluster_of_space known] at clustered
    rw [mem_hostParts known ok]
    rcases target_of_clusterInto clustered here with before | found
    · cases before
    · exact found

namespace Sample

/-- One host holds two of three partitions and leads one of them. -/
def spread : SpaceData where
  desc := ⟨"nba", 3, 1, .int64, 8⟩
  parts := .ofList [(3, [⟨"a", 1⟩]), (1, [⟨"a", 1⟩, ⟨"b", 1⟩]), (2, [⟨"b", 1⟩])]
  tags := []
  edges := []
  tagIndexes := []
  edgeIndexes := []

def told : Leaders := .ofList [((7, 1), ⟨"b", 1⟩)]

end Sample

theorem parts_grouped_in_sample : ∃ targets groups,
    clusterParts (.ofData [(7, Sample.spread)]) Sample.told 7 [3, 1, 3] = .ok targets ∧
    Covers Sample.told (.build 7 Sample.spread) [3, 1, 3] targets ∧
    hostParts (.ofData [(7, Sample.spread)]) Sample.told 7 = .ok groups ∧
    clusterParts (.ofData [(7, Sample.spread)]) Sample.told 7 [3, 2, 1, 2] = .ok groups := by
  have keys : (Space.build 7 Sample.spread).parts.keys = [1, 2, 3] := by decide +kernel
  have listed : ∀ p, p ∈ (Space.build 7 Sample.spread).parts.keys ↔ p = 1 ∨ p = 2 ∨ p = 3 := by
    simp [keys]
  have known : (Catalog.ofData [(7, Sample.spread)]).space 7 = .ok (.build 7 Sample.spread) := rfl
  obtain ⟨grouped, covers, groups, all, same, _⟩ := parts_grouped known Sample.told
  simp only [Table.contains, ← Table.mem_keys, listed] at grouped same
  obtain ⟨targets, ok⟩ := (grouped [3, 1, 3]).mpr (by simp)
  refine ⟨targets, groups, ok, (covers _ _ ok).1, all, same _ fun p => ?_⟩
  simp only [List.mem_cons, List.not_mem_nil, or_false]
  constructor
  · rintro (rfl | rfl | rfl | rfl) <;> simp
  · rintro (rfl | rfl | rfl) <;> simp

end Router

end ClusterClient
