import ClusterClient.Router
import ClusterClient.Table.Lemmas
import Mathlib.Data.List.Perm.Basic
import Mathlib.Data.List.Nodup
/-!
What grouping partitions by host and taking a part of a request do, read through
membership: each listed partition goes to one host, and the parts of a request that
go to the different hosts are disjoint.
-/
namespace ClusterClient

namespace Table

variable {κ α : Type} [Ordered κ] [DecidableEq κ]

theorem mem_keys_insert (t : Table κ α) (k : κ) (v : α) (k' : κ) :
    k' ∈ (t.insert k v).keys ↔ k' = k ∨ k' ∈ t.keys := by
  rw [mem_keys, mem_keys, get?_insert]
  by_cases h : k' = k <;> simp [h]

theorem mem_keys_insertAll (l : List (κ × α)) (t : Table κ α) (k : κ) :
    k ∈ (t.insertAll l).keys ↔ k ∈ l.map (·.1) ∨ k ∈ t.keys := by
  induction l generalizing t with
  | nil => simp [insertAll]
  | cons e l ih =>
    have step : t.insertAll (e :: l) = (t.insert e.1 e.2).insertAll l := rfl
    rw [step, ih, mem_keys_insert, List.map_cons, List.mem_cons]
    tauto

theorem get?_of_mem_keys {t : Table κ α} {k : κ} (h : k ∈ t.keys) : ∃ v, t.get? k = some v :=
  Option.isSome_iff_exists.mp (mem_keys.mp h)

/-- Only one entry can be about a key. -/
theorem filter_entries {t : Table κ α} {q : κ × α → Bool} {k : κ} {v : α}
    (here : t.get? k = some v) (only : ∀ e ∈ t.entries, q e = true ↔ e.1 = k) :
    t.entries.filter q = [(k, v)] := by
  have entries : t.entries.Nodup := (List.Nodup.of_map _ t.keys_nodup)
  refine List.perm_singleton.mp ((List.perm_ext_iff_of_nodup (entries.filter _)
    (List.nodup_singleton _)).mpr fun e => ?_)
  rw [List.mem_filter, List.mem_singleton]
  constructor
  · rintro ⟨he, hq⟩
    have same := (only e he).mp hq
    have value : t.get? k = some e.2 := same ▸ get?_eq_some_iff.mpr he
    rw [here] at value
    exact Prod.ext same (Option.some.inj value).symm
  · rintro rfl
    have he := get?_eq_some_iff.mp here
    exact ⟨he, (only _ he).mpr rfl⟩

theorem lookup_select (t : Table κ α) (keys : List κ) (k : κ) :
    (keys.filterMap fun k => (t.get? k).map fun v => (k, v)).lookup k =
      if k ∈ keys then t.get? k else none := by
  induction keys with
  | nil => rfl
  | cons key rest ih =>
    cases here : t.get? key with
    | none =>
      simp only [List.filterMap_cons, here, Option.map_none, ih, List.mem_cons]
      by_cases h : k = key
      · subst h
        simp [here]
      · simp [h]
    | some v =>
      simp only [List.filterMap_cons, here, Option.map_some, lookup_cons_ite, ih, List.mem_cons]
      by_cases h : k = key
      · subst h
        simp [here]
      · simp [h]

/-- The entries of a table at the listed keys. -/
theorem get?_select (t : Table κ α) (keys : List κ) (k : κ) :
    (ofList (keys.filterMap fun k => (t.get? k).map fun v => (k, v))).get? k =
      if k ∈ keys then t.get? k else none := by
  rw [get?_ofList, ← List.filterMap_reverse, lookup_select]
  simp

end Table

theorem distinct_nodup {κ : Type} [Ordered κ] (l : List κ) : (distinct l).Nodup :=
  Table.keys_nodup _

theorem distinct_perm {κ : Type} [Ordered κ] [DecidableEq κ] {l : List κ} (h : l.Nodup) :
    (distinct l).Perm l :=
  (List.perm_ext_iff_of_nodup (distinct_nodup l) h).mpr fun _ => mem_distinct

namespace Batch

variable {α : Type} (b : Batch α)

theorem get?_extract (parts : List PartId) (p : PartId) :
    (b.extract parts).parts.get? p = if p ∈ parts then b.parts.get? p else none :=
  b.parts.get?_select parts p

theorem mem_partIds_extract (parts : List PartId) (p : PartId) :
    p ∈ (b.extract parts).partIds ↔ p ∈ parts ∧ p ∈ b.partIds := by
  rw [partIds, partIds, Table.mem_keys, Table.mem_keys, get?_extract]
  by_cases h : p ∈ parts <;> simp [h]

theorem partIds_nodup : b.partIds.Nodup := Table.keys_nodup _

/-- A part of a request asks for exactly what it was taken for. -/
theorem partIds_extract_perm {parts : List PartId} (nodup : parts.Nodup)
    (own : ∀ p ∈ parts, p ∈ b.partIds) : (b.extract parts).partIds.Perm parts := by
  refine (List.perm_ext_iff_of_nodup (partIds_nodup _) nodup).mpr fun p => ?_
  rw [mem_partIds_extract]
  exact ⟨fun h => h.1, fun h => ⟨h, own p h⟩⟩

end Batch

namespace Router

variable {leaders : Leaders} {space : Space}

/-- The partitions of a host are those it had, and the listed ones it is the target of. -/
theorem mem_groupInto {groups result : HostParts} {parts : List PartId}
    (h : groupInto leaders space groups parts = .ok result) (host : Host) (p : PartId) :
    p ∈ result.getD host [] ↔
      p ∈ groups.getD host [] ∨ p ∈ parts ∧ target leaders space p = .ok host := by
  induction parts generalizing groups with
  | nil =>
    cases h
    simp
  | cons q rest ih =>
    simp only [groupInto] at h
    cases ht : target leaders space q with
    | error e =>
      rw [ht] at h
      cases h
    | ok host' =>
      rw [ht] at h
      rw [ih h, Table.getD, Table.get?_modify]
      by_cases hh : host = host'
      · subst hh
        simp only [↓reduceIte, Option.getD_some, List.mem_append, List.mem_cons, List.not_mem_nil,
          or_false]
        constructor
        · rintro ((hp | rfl) | ⟨hp, e⟩)
          · exact .inl hp
          · exact .inr ⟨.inl rfl, ht⟩
          · exact .inr ⟨.inr hp, e⟩
        · rintro (hp | ⟨rfl | hp, e⟩)
          · exact .inl (.inl hp)
          · exact .inl (.inr rfl)
          · exact .inr ⟨hp, e⟩
      · simp only [hh, ↓reduceIte, Table.getD, List.mem_cons]
        constructor
        · rintro (hp | ⟨hp, e⟩)
          · exact .inl hp
          · exact .inr ⟨.inr hp, e⟩
        · rintro (hp | ⟨rfl | hp, e⟩)
          · exact .inl hp
          · exact absurd (Except.ok.inj (e.symm.trans ht)) hh
          · exact .inr ⟨hp, e⟩

/-- Grouping fails only if some listed partition has no target. -/
theorem target_of_groupInto {groups result : HostParts} {parts : List PartId}
    (h : groupInto leaders space groups parts = .ok result) {p : PartId} (hp : p ∈ parts) :
    ∃ host, target leaders space p = .ok host := by
  induction parts generalizing groups with
  | nil => cases hp
  | cons q rest ih =>
    simp only [groupInto] at h
    cases ht : target leaders space q with
    | error e =>
      rw [ht] at h
      cases h
    | ok host =>
      rw [ht] at h
      rcases List.mem_cons.mp hp with rfl | hp
      · exact ⟨host, ht⟩
      · exact ih h hp

theorem groupInto_ok {parts : List PartId}
    (targeted : ∀ p ∈ parts, ∃ host, target leaders space p = .ok host) (groups : HostParts) :
    ∃ result, groupInto leaders space groups parts = .ok result := by
  induction parts generalizing groups with
  | nil => exact ⟨groups, rfl⟩
  | cons p rest ih =>
    obtain ⟨host, here⟩ := targeted p List.mem_cons_self
    rw [groupInto, here]
    exact ih (fun q hq => targeted q (List.mem_cons_of_mem _ hq)) _

variable {catalog : Catalog} {id : SpaceId} {parts : List PartId} {targets : HostParts}

theorem clusterParts_eq {groups : HostParts} (found : catalog.space id = .ok space)
    (grouped : groupInto leaders space ∅ parts = .ok groups) :
    clusterParts catalog leaders id parts =
      .ok (groups.mapValues fun _ parts => distinct parts) := by
  rw [clusterParts, found]
  change (groupInto leaders space ∅ parts >>= _) = _
  rw [grouped]
  rfl

theorem clusterParts_ok (found : catalog.space id = .ok space)
    (targeted : ∀ p ∈ parts, ∃ host, target leaders space p = .ok host) :
    ∃ targets, clusterParts catalog leaders id parts = .ok targets := by
  obtain ⟨groups, grouped⟩ := groupInto_ok targeted ∅
  exact ⟨_, clusterParts_eq found grouped⟩

theorem clusterParts_eq_ok (h : clusterParts catalog leaders id parts = .ok targets) :
    ∃ space groups, catalog.space id = .ok space ∧ groupInto leaders space ∅ parts = .ok groups ∧
      targets = groups.mapValues fun _ parts => distinct parts := by
  unfold clusterParts at h
  cases hs : catalog.space id with
  | error e =>
    rw [hs] at h
    cases h
  | ok space =>
    rw [hs] at h
    change (groupInto leaders space ∅ parts >>= _) = _ at h
    cases hg : groupInto leaders space ∅ parts with
    | error e =>
      rw [hg] at h
      cases h
    | ok groups =>
      rw [hg] at h
      cases h
      exact ⟨space, groups, rfl, hg, rfl⟩

/-- Under each host stand the listed partitions that it is the target of, each of them once. -/
theorem mem_clusterParts (h : clusterParts catalog leaders id parts = .ok targets) :
    ∃ space, catalog.space id = .ok space ∧
      (∀ p ∈ parts, ∃ host, target leaders space p = .ok host) ∧
      ∀ host p, p ∈ targets.getD host [] ↔ p ∈ parts ∧ target leaders space p = .ok host := by
  obtain ⟨space, groups, hs, hg, rfl⟩ := clusterParts_eq_ok h
  refine ⟨space, hs, fun p hp => target_of_groupInto hg hp, fun host p => ?_⟩
  have grouped := mem_groupInto hg host p
  simp only [Table.getD, Table.get?_empty, Option.getD_none, List.not_mem_nil, false_or]
    at grouped
  rw [Table.getD, Table.get?_mapValues, ← grouped]
  cases groups.get? host with
  | none => simp
  | some ps => simp [mem_distinct]

theorem clusterParts_nodup (h : clusterParts catalog leaders id parts = .ok targets) {host : Host}
    {ps : List PartId} (hps : targets.get? host = some ps) : ps.Nodup := by
  obtain ⟨space, groups, _, _, rfl⟩ := clusterParts_eq_ok h
  rw [Table.get?_mapValues, Option.map_eq_some_iff] at hps
  obtain ⟨l, _, rfl⟩ := hps
  exact distinct_nodup l

/-- Grouped by host, each listed partition stands there exactly once. -/
theorem clusterParts_perm (h : clusterParts catalog leaders id parts = .ok targets) :
    targets.values.flatten.Perm (distinct parts) := by
  obtain ⟨space, _, targeted, grouped⟩ := mem_clusterParts h
  have value : ∀ e ∈ targets.entries, targets.getD e.1 [] = e.2 := fun e he => by
    rw [Table.getD, Table.get?_eq_some_iff.mpr he]
    rfl
  have disjoint : targets.values.flatten.Nodup := by
    rw [List.nodup_flatten]
    constructor
    · intro ps hps
      obtain ⟨e, he, rfl⟩ := List.mem_map.mp hps
      exact clusterParts_nodup h (Table.get?_eq_some_iff.mpr he)
    · refine List.pairwise_map.mpr (targets.ascending.imp_of_mem fun {a b} ha hb lt => ?_)
      intro p pa pb
      rw [← value a ha] at pa
      rw [← value b hb] at pb
      have same := ((grouped a.1 p).mp pa).2.symm.trans ((grouped b.1 p).mp pb).2
      exact Ordered.ne_of_before lt (Except.ok.inj same)
  refine (List.perm_ext_iff_of_nodup disjoint (distinct_nodup parts)).mpr fun p => ?_
  rw [mem_distinct, List.mem_flatten]
  constructor
  · rintro ⟨ps, hps, hp⟩
    obtain ⟨e, he, rfl⟩ := List.mem_map.mp hps
    rw [← value e he] at hp
    exact ((grouped e.1 p).mp hp).1
  · intro hp
    obtain ⟨host, ht⟩ := targeted p hp
    have at_host := (grouped host p).mpr ⟨hp, ht⟩
    cases hg : targets.get? host with
    | none => simp [Table.getD, hg] at at_host
    | some ps =>
      rw [Table.getD, hg] at at_host
      exact ⟨ps, List.mem_map.mpr ⟨_, Table.get?_eq_some_iff.mp hg, rfl⟩, at_host⟩

/-- A listed partition stands under its target, and under no other host. -/
theorem clusterParts_single (h : clusterParts catalog leaders id parts = .ok targets) {p : PartId}
    (hp : p ∈ parts) : ∃ space host ps, catalog.space id = .ok space ∧
      target leaders space p = .ok host ∧
      targets.entries.filter (fun t => decide (p ∈ t.2)) = [(host, ps)] := by
  obtain ⟨space, hs, targeted, grouped⟩ := mem_clusterParts h
  obtain ⟨host, ht⟩ := targeted p hp
  have at_host := (grouped host p).mpr ⟨hp, ht⟩
  cases hg : targets.get? host with
  | none => simp [Table.getD, hg] at at_host
  | some ps =>
    refine ⟨space, host, ps, hs, ht, Table.filter_entries hg fun t he => ?_⟩
    have value : targets.getD t.1 [] = t.2 := by
      rw [Table.getD, Table.get?_eq_some_iff.mpr he]
      rfl
    rw [decide_eq_true_iff, ← value, grouped, ht]
    constructor
    · rintro ⟨_, same⟩
      exact (Except.ok.inj same).symm
    · rintro rfl
      exact ⟨hp, rfl⟩

/-- A partition under a host was under it before, or the host is its target. -/
theorem target_of_clusterInto {α : Type} {key : α → Bytes} {batches result : HostBatches α}
    {items : List α} (h : clusterInto leaders space key batches items = .ok result)
    {host : Host} {p : PartId} (hp : p ∈ (result.getD host ∅).keys) :
    p ∈ (batches.getD host ∅).keys ∨ target leaders space p = .ok host := by
  induction items generalizing batches with
  | nil =>
    cases h
    exact .inl hp
  | cons item rest ih =>
    simp only [clusterInto] at h
    cases hq : space.partId (key item) with
    | error e =>
      rw [hq] at h
      cases h
    | ok q =>
      rw [hq] at h
      change (target leaders space q >>= _) = _ at h
      cases ht : target leaders space q with
      | error e =>
        rw [ht] at h
        cases h
      | ok host' =>
        rw [ht] at h
        rcases ih h with hp | hp
        · rw [Table.getD, put, Table.get?_modify] at hp
          by_cases hh : host = host'
          · rw [if_pos hh, Option.getD_some, Table.modify, Table.mem_keys_insert] at hp
            rcases hp with rfl | hp
            · exact .inr (hh ▸ ht)
            · exact .inl (hh ▸ hp)
          · rw [if_neg hh] at hp
            exact .inl hp
        · exact .inr hp

end Router

section Held

variable {catalog : Catalog} {id : SpaceId} {p : PartId} {found : PartHosts} {l : Leaders}
  {host : Host}

theorem Leaders.target?_isSome (hosts : found.hosts ≠ []) (l : Leaders) :
    ∃ host, Leaders.target? l found = some host := by
  obtain ⟨first, rest, eq⟩ := List.exists_cons_of_ne_nil hosts
  unfold target?
  split
  · split
    · exact ⟨_, rfl⟩
    · exact ⟨first, by rw [eq]; rfl⟩
  · exact ⟨first, by rw [eq]; rfl⟩

theorem Leaders.holds_of_target? (targeted : Leaders.target? l found = some host) :
    host ∈ found.hosts := by
  unfold target? at targeted
  split at targeted
  · split at targeted
    · cases targeted
      assumption
    · exact List.mem_of_head? targeted
  · exact List.mem_of_head? targeted

theorem Leaders.resolve_of_target? (targeted : Leaders.target? l found = some host) :
    Leaders.resolve l found = .ok host := by
  rw [resolve, targeted]

theorem Router.target_of_held (held : catalog.partHosts id p = .ok found)
    (targeted : Leaders.target? l found = some host) :
    ∃ space, catalog.space id = .ok space ∧ target l space p = .ok host := by
  unfold Catalog.partHosts at held
  cases there : catalog.space id with
  | error fault =>
    rw [there] at held
    cases held
  | ok space =>
    rw [there] at held
    have held : space.partHosts p = .ok found := held
    refine ⟨space, rfl, ?_⟩
    rw [target, held]
    exact Leaders.resolve_of_target? targeted

theorem Router.clusterParts_alone (held : catalog.partHosts id p = .ok found)
    (targeted : Leaders.target? l found = some host) :
    clusterParts catalog l id [p] = .ok (.ofList [(host, [p])]) := by
  obtain ⟨space, known, target⟩ := target_of_held held targeted
  rw [clusterParts, known]
  change (groupInto l space ∅ [p] >>= _) = _
  rw [groupInto, target]
  rfl

end Held

end ClusterClient
