import ClusterClient.Proofs.Guidance
import ClusterClient.Proofs.Routing
/-!
Items are grouped by host and partition without loss: a batch holds just the items that
belong in it, in the order they came in, and the first item that belongs nowhere is the
one that a fault is about.
-/
namespace ClusterClient

namespace Table

variable {κ α β : Type} [Ordered κ] [DecidableEq κ]

omit [DecidableEq κ] in
theorem entries_nodup (t : Table κ α) : t.entries.Nodup := .of_map _ t.keys_nodup

theorem getD_modify (t : Table κ α) (k : κ) (default : α) (change : α → α) (k' : κ) :
    (t.modify k default change).getD k' default =
      if k' = k then change (t.getD k default) else t.getD k' default := by
  rw [getD, get?_modify]
  by_cases here : k' = k
  · rw [if_pos here, if_pos here, Option.getD_some]
  · rw [if_neg here, if_neg here, getD]

theorem entries_insert_perm (t : Table κ α) (k : κ) (v : α) :
    (t.insert k v).entries.Perm ((k, v) :: (t.erase k).entries) := by
  have apart : ((k, v) :: (t.erase k).entries).Nodup := by
    refine List.nodup_cons.mpr ⟨fun h => ?_, entries_nodup _⟩
    have gone := get?_eq_some_iff.mpr h
    simp at gone
  refine (List.perm_ext_iff_of_nodup (entries_nodup _) apart).mpr fun e => ?_
  rw [List.mem_cons, ← get?_eq_some_iff, ← get?_eq_some_iff, get?_insert, get?_erase]
  by_cases here : e.1 = k
  · simp [here, Prod.ext_iff, eq_comm]
  · simp [here, Prod.ext_iff]

theorem insert_of_get? {t : Table κ α} {k : κ} {v : α} (h : t.get? k = some v) :
    t.insert k v = t :=
  ext_get? fun k' => by
    rw [get?_insert]
    by_cases here : k' = k
    · rw [if_pos here, here, h]
    · rw [if_neg here]

/-- What the values of a table hold, when one of them is changed. -/
theorem flatMap_values_modify {t : Table κ α} {k : κ} {default : α} {change : α → α}
    {inside : α → List β} (added : List β) (none : inside default = [])
    (more : (inside (change (t.getD k default))).Perm (added ++ inside (t.getD k default))) :
    ((t.modify k default change).values.flatMap inside).Perm
      (added ++ t.values.flatMap inside) := by
  have split : ∀ (t : Table κ α) (v : α), ((t.insert k v).values.flatMap inside).Perm
      (inside v ++ (t.erase k).values.flatMap inside) := by
    intro t v
    rw [values, List.flatMap_map, values, List.flatMap_map]
    exact (t.entries_insert_perm k v).flatMap_right _
  refine (split t _).trans ((more.append_right _).trans ?_)
  rw [List.append_assoc]
  refine List.Perm.append_left added ?_
  cases here : t.get? k with
  | some v =>
    have same := split t v
    rw [insert_of_get? here] at same
    rw [getD, here]
    exact same.symm
  | none =>
    have same : t.erase k = t := ext_get? fun k' => by
      rw [get?_erase]
      by_cases eq : k' = k
      · rw [if_pos eq, eq, here]
      · rw [if_neg eq]
    rw [getD, here, same, Option.getD_none, none, List.nil_append]

end Table

namespace Router

variable {α : Type}

/-- The host of a partition: its leader as far as that is known and holds it, and else the
first host that does. -/
def Home (leaders : Leaders) (id : SpaceId) (space : Space) (p : PartId) (host : Host) : Prop :=
  host ∈ space.parts.getD p [] ∧ leaders.get? (id, p) = some host ∨
    (∀ leader ∈ space.parts.getD p [], leaders.get? (id, p) ≠ some leader) ∧
      (space.parts.getD p []).head? = some host

/-- The item has no place, and that is the fault. -/
inductive Homeless (id : SpaceId) (space : Space) (key : α → Bytes) (item : α) : Fault → Prop
  | unnumbered {fault : Fault} (h : space.partId (key item) = .error fault) :
    Homeless id space key item fault
  | unheld {p : PartId} (h : space.partId (key item) = .ok p)
      (nobody : space.parts.getD p [] = []) : Homeless id space key item (.missing (.part id p))

/-- The items that stand under a host and a partition. -/
def batch (batches : HostBatches α) (host : Host) (p : PartId) : List α :=
  (batches.getD host ∅).getD p []

/-- All items, host by host and partition by partition. -/
def contents (batches : HostBatches α) : List α :=
  batches.values.flatMap fun parts => parts.values.flatten

/-- The batches are the items put where they belong. -/
structure Exact (leaders : Leaders) (id : SpaceId) (space : Space) (key : α → Bytes)
    (items : List α) (batches : HostBatches α) : Prop where
  member : ∀ host p x, x ∈ batch batches host p ↔
    x ∈ items ∧ space.partId (key x) = .ok p ∧ Home leaders id space p host
  once : (contents batches).Perm items
  order : ∀ host, ∀ p ∈ (batches.getD host ∅).keys,
    batch batches host p = items.filter fun x => decide (space.partId (key x) = .ok p)
  single : ∀ host host' p, p ∈ (batches.getD host ∅).keys → p ∈ (batches.getD host' ∅).keys →
    host = host'
  hosts_filled : ∀ host parts, batches.get? host = some parts → parts.keys ≠ []
  parts_filled : ∀ host, ∀ p ∈ (batches.getD host ∅).keys, batch batches host p ≠ []
  replica : ∀ host, ∀ p ∈ (batches.getD host ∅).keys, host ∈ space.parts.getD p []

variable {leaders : Leaders} {id : SpaceId} {space : Space} {key : α → Bytes} {p : PartId}
  {host : Host}

theorem Home.unique {host' : Host} (h : Home leaders id space p host)
    (h' : Home leaders id space p host') : host = host' := by
  rcases h with ⟨holds, known⟩ | ⟨unknown, first⟩ <;> rcases h' with ⟨holds', known'⟩ |
    ⟨unknown', first'⟩
  · exact Option.some.inj (known.symm.trans known')
  · exact absurd known (unknown' host holds)
  · exact absurd known' (unknown host' holds')
  · exact Option.some.inj (first.symm.trans first')

theorem Home.holds (h : Home leaders id space p host) : host ∈ space.parts.getD p [] := by
  rcases h with ⟨holds, _⟩ | ⟨_, first⟩
  · exact holds
  · exact List.mem_of_head? first

theorem Home.filled (h : Home leaders id space p host) : space.parts.getD p [] ≠ [] :=
  List.ne_nil_of_mem h.holds

theorem target_cases (leaders : Leaders) (space : Space) (p : PartId) :
    (∃ host, target leaders space p = .ok host ∧ Home leaders space.id space p host) ∨
      target leaders space p = .error (.missing (.part space.id p)) ∧
        space.parts.getD p [] = [] := by
  rw [target_eq, Table.getD]
  unfold Home
  rw [Table.getD]
  cases space.parts.get? p with
  | none => exact .inr ⟨rfl, rfl⟩
  | some hosts =>
    simp only [Option.getD_some, Leaders.resolve, Leaders.target?]
    cases known : leaders.get? (space.id, p) with
    | none =>
      cases hosts with
      | nil => exact .inr ⟨rfl, rfl⟩
      | cons first rest => exact .inl ⟨first, rfl, .inr ⟨by simp, rfl⟩⟩
    | some leader =>
      simp only
      by_cases holds : leader ∈ hosts
      · rw [if_pos holds]
        exact .inl ⟨leader, rfl, .inl ⟨holds, rfl⟩⟩
      · rw [if_neg holds]
        cases hosts with
        | nil => exact .inr ⟨rfl, rfl⟩
        | cons first rest =>
          refine .inl ⟨first, rfl, .inr ⟨?_, rfl⟩⟩
          rintro other here ⟨⟩
          exact holds here

theorem target_eq_ok_iff :
    target leaders space p = .ok host ↔ Home leaders space.id space p host := by
  rcases target_cases leaders space p with ⟨found, here, home⟩ | ⟨fault, nobody⟩
  · rw [here]
    constructor
    · rintro ⟨⟩
      exact home
    · intro home'
      rw [home.unique home']
  · rw [fault]
    constructor
    · nofun
    · exact fun home => absurd nobody home.filled

theorem exists_target_iff :
    (∃ host, target leaders space p = .ok host) ↔ space.parts.getD p [] ≠ [] := by
  rcases target_cases leaders space p with ⟨host, here, home⟩ | ⟨fault, nobody⟩
  · exact ⟨fun _ => home.filled, fun _ => ⟨host, here⟩⟩
  · rw [fault, nobody]
    constructor
    · rintro ⟨_, eq⟩
      cases eq
    · exact fun held => absurd rfl held

theorem target_of_unheld (nobody : space.parts.getD p [] = []) :
    target leaders space p = .error (.missing (.part space.id p)) := by
  rcases target_cases leaders space p with ⟨host, _, home⟩ | ⟨fault, _⟩
  · exact absurd nobody home.filled
  · exact fault

theorem batch_put (batches : HostBatches α) (host : Host) (p : PartId) (item : α) (host' : Host)
    (p' : PartId) : batch (put batches host p item) host' p' =
      if host' = host ∧ p' = p then batch batches host p ++ [item]
      else batch batches host' p' := by
  unfold batch put
  rw [Table.getD_modify]
  by_cases here : host' = host
  · rw [if_pos here, Table.getD_modify]
    by_cases there : p' = p
    · rw [if_pos there, if_pos ⟨here, there⟩]
    · rw [if_neg there, if_neg fun both => there both.2, here]
  · rw [if_neg here, if_neg fun both => here both.1]

theorem mem_keys_put {batches : HostBatches α} {item : α} {host' : Host} {p' : PartId} :
    p' ∈ ((put batches host p item).getD host' ∅).keys ↔
      host' = host ∧ p' = p ∨ p' ∈ (batches.getD host' ∅).keys := by
  unfold put
  rw [Table.getD_modify]
  by_cases here : host' = host
  · rw [if_pos here, Table.modify, Table.mem_keys_insert]
    simp [here]
  · rw [if_neg here]
    simp [here]

theorem contents_put (batches : HostBatches α) (host : Host) (p : PartId) (item : α) :
    (contents (put batches host p item)).Perm (item :: contents batches) := by
  have inner : ∀ parts : Table PartId (List α),
      ((parts.modify p [] (· ++ [item])).values.flatten).Perm ([item] ++ parts.values.flatten) := by
    intro parts
    rw [← List.flatMap_id, ← List.flatMap_id]
    exact Table.flatMap_values_modify [item] rfl List.perm_append_comm
  exact Table.flatMap_values_modify [item] rfl (inner _)

/-- What holds of the batches while items are put into them one after the other. -/
structure Grouped (leaders : Leaders) (space : Space) (key : α → Bytes) (items : List α)
    (batches : HostBatches α) : Prop where
  batch : ∀ host p, Home leaders space.id space p host →
    batch batches host p = items.filter fun x => decide (space.partId (key x) = .ok p)
  home : ∀ host, ∀ p ∈ (batches.getD host ∅).keys, Home leaders space.id space p host
  once : (contents batches).Perm items
  hosts_filled : ∀ host parts, batches.get? host = some parts → parts.keys ≠ []
  parts_filled : ∀ host, ∀ p ∈ (batches.getD host ∅).keys, Router.batch batches host p ≠ []

theorem grouped_nothing : Grouped leaders space key [] (∅ : HostBatches α) where
  batch _ _ _ := rfl
  home _ _ h := by cases h
  once := .refl _
  hosts_filled _ _ h := by cases h
  parts_filled _ _ h := by cases h

variable {items : List α} {batches result : HostBatches α}

theorem Grouped.put (h : Grouped leaders space key items batches) {item : α}
    (part : space.partId (key item) = .ok p) (home : Home leaders space.id space p host) :
    Grouped leaders space key (items ++ [item]) (put batches host p item) where
  batch host' p' home' := by
    rw [batch_put, List.filter_append, ← h.batch host' p' home']
    by_cases there : p' = p
    · subst there
      obtain rfl := home'.unique home
      simp [part]
    · have other : space.partId (key item) ≠ .ok p' := by
        rw [part]
        exact fun eq => there (Except.ok.inj eq).symm
      simp [there, other]
  home host' p' here := by
    rcases mem_keys_put.mp here with ⟨rfl, rfl⟩ | old
    · exact home
    · exact h.home host' p' old
  once := (contents_put batches host p item).trans
    ((h.once.cons item).trans (List.perm_append_singleton item items).symm)
  hosts_filled host' parts here := by
    have known : p ∈ ((Router.put batches host p item).getD host ∅).keys :=
      mem_keys_put.mpr (.inl ⟨rfl, rfl⟩)
    by_cases eq : host' = host
    · subst eq
      rw [Table.getD, here] at known
      exact List.ne_nil_of_mem known
    · rw [Router.put, Table.get?_modify, if_neg eq] at here
      exact h.hosts_filled host' parts here
  parts_filled host' p' here := by
    rw [batch_put]
    split
    · simp
    · rename_i other
      exact h.parts_filled host' p' ((mem_keys_put.mp here).resolve_left other)

theorem Grouped.mem_batch (h : Grouped leaders space key items batches) (x : α) :
    x ∈ Router.batch batches host p ↔
      x ∈ items ∧ space.partId (key x) = .ok p ∧ Home leaders space.id space p host := by
  constructor
  · intro here
    have known : p ∈ (batches.getD host ∅).keys := by
      rw [Table.mem_keys]
      unfold Router.batch at here
      rw [Table.getD] at here
      cases found : (batches.getD host ∅).get? p with
      | some xs => rfl
      | none =>
        rw [found] at here
        cases here
    have home := h.home host p known
    rw [h.batch host p home, List.mem_filter, decide_eq_true_iff] at here
    exact ⟨here.1, here.2, home⟩
  · rintro ⟨listed, part, home⟩
    rw [h.batch host p home, List.mem_filter, decide_eq_true_iff]
    exact ⟨listed, part⟩

theorem Grouped.exact (h : Grouped leaders space key items batches) :
    Exact leaders space.id space key items batches where
  member _ _ x := h.mem_batch x
  once := h.once
  order host p here := h.batch host p (h.home host p here)
  single host host' p here there := (h.home host p here).unique (h.home host' p there)
  hosts_filled := h.hosts_filled
  parts_filled := h.parts_filled
  replica host p here := (h.home host p here).holds

/-- The item has a partition, and the partition a host to go to. -/
def Placed (leaders : Leaders) (id : SpaceId) (space : Space) (key : α → Bytes) (item : α) : Prop :=
  ∃ p host, space.partId (key item) = .ok p ∧ Home leaders id space p host

theorem placed_or_homeless (leaders : Leaders) (space : Space) (key : α → Bytes) (item : α) :
    Placed leaders space.id space key item ∨ ∃ fault, Homeless space.id space key item fault := by
  cases part : space.partId (key item) with
  | error fault => exact .inr ⟨fault, .unnumbered part⟩
  | ok p =>
    rcases target_cases leaders space p with ⟨host, _, home⟩ | ⟨_, nobody⟩
    · exact .inl ⟨p, host, part, home⟩
    · exact .inr ⟨_, .unheld part nobody⟩

/-- One item more: it has a partition and a host to go to, or the fault is its own. -/
theorem clusterInto_cons (leaders : Leaders) (space : Space) (key : α → Bytes)
    (batches : HostBatches α) (item : α) (rest : List α) :
    (∃ p host, space.partId (key item) = .ok p ∧ Home leaders space.id space p host ∧
      clusterInto leaders space key batches (item :: rest) =
        clusterInto leaders space key (put batches host p item) rest) ∨
      ∃ fault, Homeless space.id space key item fault ∧
        clusterInto leaders space key batches (item :: rest) = .error fault := by
  rcases placed_or_homeless leaders space key item with ⟨p, host, part, home⟩ | ⟨fault, homeless⟩
  · refine .inl ⟨p, host, part, home, ?_⟩
    rw [clusterInto, part]
    change (target leaders space p >>= _) = _
    rw [target_eq_ok_iff.mpr home]
    rfl
  · refine .inr ⟨fault, homeless, ?_⟩
    rw [clusterInto]
    cases homeless with
    | unnumbered failed =>
      rw [failed]
      rfl
    | unheld part nobody =>
      rw [part]
      change (target leaders space _ >>= _) = _
      rw [target_of_unheld nobody]
      rfl

theorem clusterInto_grouped {seen : List α} (h : Grouped leaders space key seen batches)
    (ok : clusterInto leaders space key batches items = .ok result) :
    Grouped leaders space key (seen ++ items) result := by
  induction items generalizing seen batches with
  | nil =>
    cases ok
    rwa [List.append_nil]
  | cons item rest ih =>
    rcases clusterInto_cons leaders space key batches item rest with
      ⟨p, host, part, home, next⟩ | ⟨fault, _, failed⟩
    · rw [next] at ok
      have later := ih (h.put part home) ok
      rwa [List.append_assoc] at later
    · rw [failed] at ok
      cases ok

theorem Homeless.not_placed {item : α} {fault : Fault} (h : Homeless id space key item fault) :
    ¬ Placed leaders id space key item := by
  rintro ⟨p, host, part, home⟩
  cases h with
  | unnumbered failed => cases failed.symm.trans part
  | unheld part' nobody =>
    cases part'.symm.trans part
    exact home.filled nobody

theorem Homeless.unique {item : α} {fault fault' : Fault} (h : Homeless id space key item fault)
    (h' : Homeless id space key item fault') : fault = fault' := by
  cases h with
  | unnumbered failed =>
    cases h' with
    | unnumbered failed' => exact Except.error.inj (failed.symm.trans failed')
    | unheld part' _ => cases failed.symm.trans part'
  | unheld part _ =>
    cases h' with
    | unnumbered failed' => cases part.symm.trans failed'
    | unheld part' _ =>
      cases part.symm.trans part'
      rfl

/-- The items up to the first one without a place, and the fault of that one. -/
def FirstHomeless (leaders : Leaders) (id : SpaceId) (space : Space) (key : α → Bytes)
    (items : List α) (fault : Fault) : Prop :=
  ∃ before item after, items = before ++ item :: after ∧
    (∀ x ∈ before, Placed leaders id space key x) ∧ Homeless id space key item fault

theorem clusterInto_eq_error_iff (batches : HostBatches α) (items : List α) (fault : Fault) :
    clusterInto leaders space key batches items = .error fault ↔
      FirstHomeless leaders space.id space key items fault := by
  induction items generalizing batches with
  | nil =>
    constructor
    · nofun
    · rintro ⟨before, item, after, split, _⟩
      simp at split
  | cons item rest ih =>
    rcases clusterInto_cons leaders space key batches item rest with
      ⟨p, host, part, home, next⟩ | ⟨own, homeless, failed⟩
    · rw [next, ih]
      have placed : Placed leaders space.id space key item := ⟨p, host, part, home⟩
      constructor
      · rintro ⟨before, x, after, rfl, all, homeless⟩
        exact ⟨item :: before, x, after, rfl, List.forall_mem_cons.mpr ⟨placed, all⟩, homeless⟩
      · rintro ⟨before, x, after, split, all, homeless⟩
        cases before with
        | nil =>
          cases split
          exact absurd placed homeless.not_placed
        | cons y before =>
          cases split
          exact ⟨before, x, after, rfl, (List.forall_mem_cons.mp all).2, homeless⟩
    · rw [failed]
      constructor
      · rintro ⟨⟩
        exact ⟨[], item, rest, rfl, by simp, homeless⟩
      · rintro ⟨before, x, after, split, all, homeless'⟩
        cases before with
        | nil =>
          cases split
          rw [homeless.unique homeless']
        | cons y before =>
          cases split
          exact absurd (all _ List.mem_cons_self) homeless.not_placed

theorem cluster_of_space {catalog : Catalog} {id : SpaceId} (known : catalog.space id = .ok space)
    (leaders : Leaders) (key : α → Bytes) (items : List α) :
    cluster catalog leaders id key items = clusterInto leaders space key ∅ items := by
  rw [cluster, known]
  rfl

/-- Where all items have a place, the batches are the items put there, each of them once and
in order. There is no result if the space is unknown or some item has no place, and then the
first such item says why. -/
theorem cluster_exact (spaces : List Space) (leaders : Leaders) (id : SpaceId) (key : α → Bytes)
    (items : List α) :
    (∀ batches, cluster (.ofList spaces) leaders id key items = .ok batches →
      ∃ space, (Catalog.ofList spaces).spaces.get? id = some space ∧
        Exact leaders id space key items batches) ∧
    ∀ fault, cluster (.ofList spaces) leaders id key items = .error fault ↔
      (Catalog.ofList spaces).spaces.get? id = none ∧ fault = .missing (.space id) ∨
      ∃ space, (Catalog.ofList spaces).spaces.get? id = some space ∧
        FirstHomeless leaders id space key items fault := by
  unfold cluster
  cases found : (Catalog.ofList spaces).spaces.get? id with
  | none =>
    have unknown : (Catalog.ofList spaces).space id = .error (.missing (.space id)) := by
      rw [Catalog.space, found]
    rw [unknown]
    constructor
    · nofun
    · intro fault
      constructor
      · rintro ⟨⟩
        exact .inl ⟨rfl, rfl⟩
      · rintro (⟨_, rfl⟩ | ⟨_, eq, _⟩)
        · rfl
        · cases eq
  | some space =>
    have known : (Catalog.ofList spaces).space id = .ok space := by
      rw [Catalog.space, found]
    obtain rfl := Catalog.id_of_space known
    rw [known]
    constructor
    · intro batches ok
      have grouped := clusterInto_grouped grouped_nothing ok
      exact ⟨space, rfl, grouped.exact⟩
    · intro fault
      refine (clusterInto_eq_error_iff ∅ items fault).trans ?_
      constructor
      · exact fun first => .inr ⟨space, rfl, first⟩
      · rintro (⟨eq, _⟩ | ⟨_, eq, first⟩)
        · cases eq
        · cases eq
          exact first

namespace Sample

/-- The second of two partitions is held by nobody. -/
def halved : Space :=
  .build 7 ⟨⟨"nba", 2, 1, .int64, 8⟩, .ofList [(1, [⟨"a", 1⟩, ⟨"b", 1⟩]), (2, [])], [], [], [], []⟩

def led : Leaders := .ofList [((7, 1), ⟨"b", 1⟩), ((7, 2), ⟨"b", 1⟩)]

end Sample

theorem cluster_exact_in_sample : ∃ space batches,
    (Catalog.ofList [Sample.halved]).spaces.get? 7 = some space ∧
    batch batches ⟨"b", 1⟩ 1 = [4, 0] ∧
    Exact Sample.led 7 space Partition.intKey [4, 0] batches ∧
    FirstHomeless Sample.led 7 space Partition.intKey [4, 3, 0] (.missing (.part 7 2)) := by
  have exact := cluster_exact [Sample.halved] Sample.led 7 Partition.intKey [4, 0]
  obtain ⟨batches, ok, b⟩ : ∃ batches, cluster (.ofList [Sample.halved]) Sample.led 7
      Partition.intKey [4, 0] = .ok batches ∧ batch batches ⟨"b", 1⟩ 1 = [4, 0] :=
    ⟨_, rfl, by decide +kernel⟩
  obtain ⟨space, found, grouped⟩ := exact.1 batches ok
  have failed : cluster (.ofList [Sample.halved]) Sample.led 7 Partition.intKey [4, 3, 0] =
      .error (.missing (.part 7 2)) := rfl
  rcases ((cluster_exact [Sample.halved] Sample.led 7 Partition.intKey [4, 3, 0]).2 _).mp failed
    with ⟨unknown, _⟩ | ⟨space', found', first⟩
  · cases unknown.symm.trans found
  · cases found'.symm.trans found
    exact ⟨space, batches, found, b, grouped, first⟩

end Router

end ClusterClient
