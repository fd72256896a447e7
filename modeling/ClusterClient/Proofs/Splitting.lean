import ClusterClient.Proofs.Grouping
/-!
A request split by host, as for another try. The parts of it that go to the hosts share no
partition, and together they hold what it has of the listed ones, items and all. To take a
part of a part is to take what both ask for.
-/
namespace ClusterClient

namespace Batch

variable {α : Type}

theorem ext_get? {b c : Batch α} (space : b.space = c.space)
    (parts : ∀ p, b.parts.get? p = c.parts.get? p) : b = c := by
  obtain ⟨id, t⟩ := b
  obtain ⟨id', t'⟩ := c
  obtain rfl : id = id' := space
  obtain rfl : t = t' := Table.ext_get? parts
  rfl

variable (b : Batch α)

theorem mem_entries_extract {parts : List PartId} {e : PartId × List α} :
    e ∈ (b.extract parts).parts.entries ↔ e.1 ∈ parts ∧ e ∈ b.parts.entries := by
  obtain ⟨p, items⟩ := e
  rw [← Table.get?_eq_some_iff, get?_extract, ← Table.get?_eq_some_iff]
  by_cases listed : p ∈ parts <;> simp [listed]

theorem extract_partIds : b.extract b.partIds = b := by
  refine ext_get? rfl fun p => ?_
  rw [get?_extract]
  split
  · rfl
  · rename_i absent
    rw [partIds, Table.mem_keys, Bool.not_eq_true, Option.isSome_eq_false_iff,
      Option.isNone_iff_eq_none] at absent
    exact absent.symm

theorem extract_extract {xs ys zs : List PartId} (both : ∀ p, p ∈ zs ↔ p ∈ xs ∧ p ∈ ys) :
    (b.extract xs).extract ys = b.extract zs := by
  refine ext_get? rfl fun p => ?_
  simp only [get?_extract, both]
  by_cases first : p ∈ xs <;> by_cases second : p ∈ ys <;> simp [first, second]

theorem disjoint_extract {ps qs : List PartId} (apart : ps.Disjoint qs) :
    (b.extract ps).partIds.Disjoint (b.extract qs).partIds := by
  intro p first second
  rw [mem_partIds_extract] at first second
  exact apart first.1 second.1

/-- Parts taken by lists that share nothing make up what is taken by all of them. -/
theorem entries_extract_perm {lists : List (List PartId)} (apart : lists.Pairwise List.Disjoint)
    {parts : List PartId} (all : ∀ p, p ∈ lists.flatten ↔ p ∈ parts) :
    ((lists.map b.extract).flatMap fun piece => piece.parts.entries).Perm
      (b.parts.entries.filter fun e => decide (e.1 ∈ parts)) := by
  rw [List.flatMap_map]
  have nodup : (lists.flatMap fun ps => (b.extract ps).parts.entries).Nodup := by
    rw [List.nodup_flatMap]
    refine ⟨fun ps _ => Table.entries_nodup _, apart.imp fun {ps qs} apart e first second => ?_⟩
    exact apart (b.mem_entries_extract.mp first).1 (b.mem_entries_extract.mp second).1
  refine (List.perm_ext_iff_of_nodup nodup ((Table.entries_nodup _).filter _)).mpr fun e => ?_
  have listed : (∃ ps ∈ lists, e.1 ∈ ps) ↔ e.1 ∈ parts := by rw [← all, List.mem_flatten]
  simp only [List.mem_flatMap, mem_entries_extract, List.mem_filter, decide_eq_true_eq, ← listed]
  constructor
  · rintro ⟨ps, hps, asked, here⟩
    exact ⟨here, ps, hps, asked⟩
  · rintro ⟨here, ps, hps, asked⟩
    exact ⟨ps, hps, asked, here⟩

end Batch

namespace Router

variable {α : Type} {catalog : Catalog} {leaders : Leaders} {id : SpaceId} {parts : List PartId}
  {targets : HostParts}

theorem clusterParts_disjoint (routed : clusterParts catalog leaders id parts = .ok targets) :
    targets.values.Pairwise List.Disjoint := by
  have nodup : targets.values.flatten.Nodup :=
    (clusterParts_perm routed).nodup_iff.mpr (distinct_nodup parts)
  exact (List.nodup_flatten.mp nodup).2

theorem mem_flatten_clusterParts (routed : clusterParts catalog leaders id parts = .ok targets)
    (p : PartId) : p ∈ targets.values.flatten ↔ p ∈ parts :=
  (clusterParts_perm routed).mem_iff.trans mem_distinct

/-- A request split by where the listed partitions go loses nothing and has nothing twice. -/
theorem split_conserved (b : Batch α) :
    (∀ catalog leaders id parts targets, clusterParts catalog leaders id parts = .ok targets →
      let pieces := targets.values.map b.extract
      pieces.Pairwise (fun s t => s.partIds.Disjoint t.partIds) ∧
      (pieces.flatMap fun s => s.parts.entries).Perm
        (b.parts.entries.filter fun e => decide (e.1 ∈ parts)) ∧
      ∀ s ∈ pieces, s.space = b.space) ∧
    b.extract b.partIds = b ∧
    ∀ xs ys zs, (∀ p, p ∈ zs ↔ p ∈ xs ∧ p ∈ ys) →
      (b.extract xs).extract ys = b.extract zs := by
  refine ⟨fun catalog leaders id parts targets routed => ?_, b.extract_partIds,
    fun xs ys zs both => b.extract_extract both⟩
  have apart := clusterParts_disjoint routed
  refine ⟨List.pairwise_map.mpr (apart.imp b.disjoint_extract),
    b.entries_extract_perm apart (mem_flatten_clusterParts routed), fun s taken => ?_⟩
  obtain ⟨ps, _, rfl⟩ := List.mem_map.mp taken
  rfl

namespace Sample

def shared : Catalog :=
  .ofList [.build 7 ⟨⟨"nba", 3, 1, .int64, 8⟩,
    .ofList [(1, [⟨"a", 1⟩]), (2, [⟨"b", 1⟩]), (3, [⟨"a", 1⟩])], [], [], [], []⟩]

def pending : Batch Nat := ⟨7, .ofList [(1, [10]), (2, [20, 21])]⟩

end Sample

/-- Listed are a partition twice, and one that the request does not ask for. -/
theorem split_conserved_in_sample : ∃ targets,
    clusterParts Sample.shared ∅ 7 [2, 3, 2, 1] = .ok targets ∧
    ((targets.values.map Sample.pending.extract).flatMap fun s => s.parts.entries).Perm
      [(1, [10]), (2, [20, 21])] ∧
    (Sample.pending.extract [1, 2, 2]).extract [2, 5] = Sample.pending.extract [2] := by
  obtain ⟨targets, routed⟩ : ∃ targets, clusterParts Sample.shared ∅ 7 [2, 3, 2, 1] = .ok targets :=
    ⟨_, rfl⟩
  have split := split_conserved Sample.pending
  refine ⟨targets, routed, (split.1 _ _ _ _ _ routed).2.1, split.2.2 _ _ _ fun p => ?_⟩
  simp only [List.mem_cons, List.not_mem_nil, or_false]
  constructor
  · rintro rfl
    decide
  · rintro ⟨rfl | rfl | rfl, other⟩
    · exact absurd other (by decide)
    · rfl
    · rfl

end Router

end ClusterClient
