import ClusterClient.Proofs.Snapshots
/-!
A change of the hosts of one partition concerns the keys of that partition alone. All other keys
stay where they are, and where nobody holds the partition any more, its keys are not given to
another one.
-/
namespace ClusterClient

theorem Table.keys_congr {κ α : Type} [Ordered κ] {s t : Table κ α}
    (same : ∀ k, k ∈ s.keys ↔ k ∈ t.keys) : s.keys = t.keys :=
  ascending_unique s.keys_ascending t.keys_ascending same

theorem Table.size_congr {κ α : Type} [Ordered κ] {s t : Table κ α}
    (same : ∀ k, k ∈ s.keys ↔ k ∈ t.keys) : s.size = t.size := by
  have lengths := congrArg List.length (keys_congr same)
  simpa [keys, size] using lengths

/-- The same partitions on the same hosts, but for the hosts of one of them. -/
structure SpaceData.SameBut (q : PartId) (d d' : SpaceData) : Prop where
  desc : d.desc = d'.desc
  listed : ∀ p, p ∈ d.parts.keys ↔ p ∈ d'.parts.keys
  hosts : ∀ p ≠ q, d.parts.get? p = d'.parts.get? p

namespace Space

variable {id : SpaceId} {d d' : SpaceData} {p q : PartId}

/-- The partitions without hosts count as well, so it does not matter which ones these are. -/
theorem build_partsNum (same : d.SameBut q d') :
    (build id d).partsNum = (build id d').partsNum := by
  simp only [build, assemble, same.desc, Table.size_congr same.listed]

theorem build_partId (same : d.SameBut q d') (key : Bytes) :
    (build id d).partId key = (build id d').partId key := by
  rw [partId, partId, build_partsNum same, build_id, build_id]

theorem build_get? (same : d.SameBut q d') (other : p ≠ q) :
    (build id d).parts.get? p = (build id d').parts.get? p := by
  simp only [build, assemble, Table.get?_filter, same.hosts p other]

end Space

namespace Router

variable {α : Type} {leaders : Leaders} {id : SpaceId} {space space' : Space} {key : α → Bytes}
  {items before after : List α} {x : α} {q : PartId} {fault : Fault}

/-- What the grouping of items comes to depends on nothing but the partitions of their keys, and
where these go. -/
theorem clusterInto_congr (batches : HostBatches α)
    (parts : ∀ x ∈ items, space.partId (key x) = space'.partId (key x))
    (targets : ∀ x ∈ items, ∀ p, space.partId (key x) = .ok p →
      target leaders space p = target leaders space' p) :
    clusterInto leaders space key batches items = clusterInto leaders space' key batches items := by
  induction items generalizing batches with
  | nil => rfl
  | cons item rest ih =>
    obtain ⟨part, parts⟩ := List.forall_mem_cons.mp parts
    obtain ⟨goes, targets⟩ := List.forall_mem_cons.mp targets
    rw [clusterInto, clusterInto, ← part]
    cases here : space.partId (key item) with
    | error fault => rfl
    | ok p =>
      change (target leaders space p >>= _) = (target leaders space' p >>= _)
      rw [← goes p here]
      cases target leaders space p with
      | error fault => rfl
      | ok host => exact ih _ parts targets

theorem FirstHomeless.append (first : FirstHomeless leaders id space key before fault)
    (after : List α) : FirstHomeless leaders id space key (before ++ after) fault := by
  obtain ⟨ahead, x, later, rfl, placed, homeless⟩ := first
  exact ⟨ahead, x, later ++ after, by simp, placed, homeless⟩

theorem placed_or_firstHomeless (leaders : Leaders) (space : Space) (key : α → Bytes)
    (items : List α) : (∀ x ∈ items, Placed leaders space.id space key x) ∨
      ∃ fault, FirstHomeless leaders space.id space key items fault := by
  induction items with
  | nil => exact .inl (by simp)
  | cons item rest ih =>
    rcases placed_or_homeless leaders space key item with placed | ⟨fault, homeless⟩
    · rcases ih with all | ⟨fault, ahead, x, later, rfl, all, homeless⟩
      · exact .inl (List.forall_mem_cons.mpr ⟨placed, all⟩)
      · exact .inr ⟨fault, item :: ahead, x, later, rfl,
          List.forall_mem_cons.mpr ⟨placed, all⟩, homeless⟩
    · exact .inr ⟨fault, [], item, rest, rfl, by simp, homeless⟩

/-- An item whose partition nobody holds is at fault, unless one before it is. -/
theorem firstHomeless_of_unheld (part : space.partId (key x) = .ok q)
    (nobody : space.parts.getD q [] = []) (leaders : Leaders) (before after : List α) :
    ∃ fault, FirstHomeless leaders space.id space key (before ++ x :: after) fault ∧
      (FirstHomeless leaders space.id space key before fault ∨
        (∀ y ∈ before, Placed leaders space.id space key y) ∧
          fault = .missing (.part space.id q)) := by
  rcases placed_or_firstHomeless leaders space key before with placed | ⟨fault, first⟩
  · exact ⟨_, ⟨before, x, after, rfl, placed, .unheld part nobody⟩, .inr ⟨placed, rfl⟩⟩
  · exact ⟨fault, first.append _, .inl first⟩

/-- Other hosts for one partition leave the grouping of all items with keys of other partitions
as it is. If it has no hosts, no item with a key of it is placed anywhere: an item list with such
a one in it is refused, for want of that partition if not for an item before. -/
theorem other_keys_unmoved {catalog catalog' : Catalog} {id : SpaceId} {d d' : SpaceData}
    {q : PartId} (known : catalog.space id = .ok (.build id d))
    (known' : catalog'.space id = .ok (.build id d')) (same : d.SameBut q d')
    (leaders : Leaders) (key : α → Bytes) :
    (∀ bytes, (Space.build id d).partId bytes = (Space.build id d').partId bytes) ∧
    (∀ items, (∀ x ∈ items, (Space.build id d).partId (key x) ≠ .ok q) →
      cluster catalog leaders id key items = cluster catalog' leaders id key items) ∧
    (d.parts.getD q [] = [] →
      (∀ before x after, (Space.build id d).partId (key x) = .ok q →
        ∃ fault, cluster catalog leaders id key (before ++ x :: after) = .error fault ∧
          (FirstHomeless leaders id (.build id d) key before fault ∨
            (∀ y ∈ before, Placed leaders id (.build id d) key y) ∧
              fault = .missing (.part id q))) ∧
      ∀ items batches, cluster catalog leaders id key items = .ok batches →
        ∀ host p, ∀ x ∈ batch batches host p,
          (Space.build id d).partId (key x) = .ok p ∧ p ≠ q) := by
  refine ⟨Space.build_partId same, fun items others => ?_,
    fun nobody => ⟨fun before x after part => ?_, ?_⟩⟩
  · rw [cluster_of_space known, cluster_of_space known']
    -- Both spaces count the same partitions, so only the hosts could make a difference.
    apply clusterInto_congr
    · exact fun x _ => Space.build_partId same _
    · intro x listed p part
      have other : p ≠ q := fun eq => others x listed (eq ▸ part)
      rw [target_eq, target_eq, Space.build_get? same other]
      rfl
  · obtain ⟨fault, first, why⟩ := firstHomeless_of_unheld part
      ((Space.build_getD id d q).trans nobody) leaders before after
    refine ⟨fault, ?_, why⟩
    rw [cluster_of_space known]
    exact (clusterInto_eq_error_iff ∅ _ fault).mpr first
  · intro items batches ok host p x here
    rw [cluster_of_space known] at ok
    obtain ⟨_, part, home⟩ := ((clusterInto_grouped grouped_nothing ok).mem_batch x).mp here
    refine ⟨part, ?_⟩
    rintro rfl
    exact home.filled ((Space.build_getD ..).trans nobody)

namespace Sample

/-- The number of partitions is that of the listed ones. -/
def whole : SpaceData :=
  ⟨⟨"nba", 0, 1, .int64, 8⟩, .ofList [(1, [⟨"a", 1⟩]), (2, [⟨"b", 1⟩])], [], [], [], []⟩

def bereft : SpaceData := { whole with parts := .ofList [(1, [⟨"a", 1⟩]), (2, [])] }

theorem bereft_same : bereft.SameBut 2 whole where
  desc := rfl
  listed p := by
    have keys : bereft.parts.keys = whole.parts.keys := by decide +kernel
    rw [keys]
  hosts p other := by
    simp [bereft, whole, Table.get?_ofList, Table.lookup_cons_ite, other]

end Sample

theorem other_keys_unmoved_in_sample : ∃ batches,
    cluster (.ofList [.build 7 Sample.bereft]) ∅ 7 Partition.intKey [0, 2] = .ok batches ∧
    cluster (.ofList [.build 7 Sample.whole]) ∅ 7 Partition.intKey [0, 2] = .ok batches ∧
    batch batches ⟨"a", 1⟩ 1 = [0, 2] ∧
    cluster (.ofList [.build 7 Sample.bereft]) ∅ 7 Partition.intKey [0, 1, 2] =
      .error (.missing (.part 7 2)) := by
  have known : (Catalog.ofList [.build 7 Sample.bereft]).space 7 = .ok (.build 7 Sample.bereft) :=
    rfl
  have known' : (Catalog.ofList [.build 7 Sample.whole]).space 7 = .ok (.build 7 Sample.whole) :=
    rfl
  obtain ⟨-, stay, refused⟩ :=
    other_keys_unmoved known known' Sample.bereft_same ∅ Partition.intKey
  have stays := stay [0, 2] (List.forall_mem_cons.mpr
    ⟨by decide +kernel, List.forall_mem_singleton.mpr (by decide +kernel)⟩)
  obtain ⟨fault, failed, why⟩ := (refused rfl).1 [0] 1 [2] (by decide +kernel)
  obtain ⟨batches, ok, listed⟩ : ∃ batches, cluster (.ofList [.build 7 Sample.whole]) ∅ 7
      Partition.intKey [0, 2] = .ok batches ∧ batch batches ⟨"a", 1⟩ 1 = [0, 2] :=
    ⟨_, rfl, by decide +kernel⟩
  refine ⟨batches, stays.trans ok, ok, listed, ?_⟩
  rcases why with ⟨ahead, x, later, split, -, homeless⟩ | ⟨-, rfl⟩
  · have placed : Placed ∅ 7 (.build 7 Sample.bereft) Partition.intKey 0 :=
      ⟨1, ⟨"a", 1⟩, by decide +kernel, .inr ⟨by simp, by decide +kernel⟩⟩
    cases ahead with
    | nil =>
      cases split
      exact absurd placed homeless.not_placed
    | cons y ahead => simp at split
  · exact failed

end Router

end ClusterClient
