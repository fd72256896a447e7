import ClusterClient.Notice
import ClusterClient.Table.Lemmas
/-!
What a listener can rebuild from what it is told. A notice applies only where it makes
sense, and the notices about the change of a view lead from the old view to the new one.
-/
namespace ClusterClient

namespace Table

variable {κ α : Type} [Ordered κ] [DecidableEq κ]

theorem insert_self {t : Table κ α} {k : κ} {v : α} (h : t.get? k = some v) : t.insert k v = t := by
  apply ext_get?
  intro k'
  rw [get?_insert]
  by_cases eq : k' = k
  · rw [if_pos eq, eq, h]
  · rw [if_neg eq]

theorem insert_insert (t : Table κ α) (k : κ) (v w : α) :
    (t.insert k v).insert k w = t.insert k w := by
  apply ext_get?
  intro k'
  rw [get?_insert, get?_insert, get?_insert]
  by_cases eq : k' = k
  · rw [if_pos eq, if_pos eq]
  · rw [if_neg eq, if_neg eq, if_neg eq]

theorem contains_iff {t : Table κ α} {k : κ} : t.contains k = true ↔ ∃ v, t.get? k = some v :=
  Option.isSome_iff_exists

theorem contains_of_get? {t : Table κ α} {k : κ} {v : α} (h : t.get? k = some v) :
    t.contains k = true :=
  contains_iff.mpr ⟨v, h⟩

end Table

namespace Notice

/-- The view as a listener has it after one more notice, if that is one it could expect:
only what is absent is added, only what is present and other is updated, only what is
present is removed, and a space goes when all its partitions have gone. -/
def applied? (view : LocalView) : Notice → Option LocalView
  | spaceAdded space => if view.contains space then none else some (view.insert space ∅)
  | spaceRemoved space => do
    let parts ← view.get? space
    if parts.isEmpty then some (view.erase space) else none
  | partAdded p => do
    let parts ← view.get? p.space
    if parts.contains p.part then none
    else some (view.insert p.space (parts.insert p.part p.hosts))
  | partUpdated p => do
    let parts ← view.get? p.space
    let before ← parts.get? p.part
    if before = p.hosts then none else some (view.insert p.space (parts.insert p.part p.hosts))
  | partRemoved space part => do
    let parts ← view.get? space
    if parts.contains part then some (view.insert space (parts.erase part)) else none
  | optionsUpdated _ _ => some view

/-- Applies notices in order, as far as each of them makes sense where it comes. -/
def replay (view : LocalView) : List Notice → Option LocalView
  | [] => some view
  | n :: rest => (applied? view n).bind fun next => replay next rest

variable {view : LocalView} {space : SpaceId} {parts : Table PartId (List Host)}

theorem replay_append (view : LocalView) (ns later : List Notice) :
    replay view (ns ++ later) = (replay view ns).bind fun next => replay next later := by
  induction ns generalizing view with
  | nil => rfl
  | cons n ns ih =>
    simp only [List.cons_append, replay]
    cases applied? view n with
    | none => rfl
    | some next => exact ih next

theorem replay_cons {n : Notice} {next : LocalView} (h : applied? view n = some next)
    (rest : List Notice) : replay view (n :: rest) = replay next rest := by
  rw [replay, h]
  rfl

theorem applied?_partAdded {part : PartId} (hosts : List Host)
    (present : view.get? space = some parts) (absent : parts.get? part = none) :
    applied? view (partAdded ⟨space, part, hosts⟩) =
      some (view.insert space (parts.insert part hosts)) := by
  have absent : parts.contains part = false := by rw [Table.contains, absent]; rfl
  simp [applied?, present, absent]

theorem applied?_partUpdated {part : PartId} {hosts before : List Host}
    (present : view.get? space = some parts) (had : parts.get? part = some before)
    (ne : before ≠ hosts) :
    applied? view (partUpdated ⟨space, part, hosts⟩) =
      some (view.insert space (parts.insert part hosts)) := by
  simp [applied?, present, had, ne]

theorem applied?_partRemoved {part : PartId} (present : view.get? space = some parts)
    (had : parts.contains part = true) :
    applied? view (partRemoved space part) = some (view.insert space (parts.erase part)) := by
  simp [applied?, present, had]

/-- The notice about one partition of a space that stays. -/
def arrived? (space : SpaceId) (old : Table PartId (List Host)) (e : PartId × List Host) :
    Option Notice :=
  match old.get? e.1 with
  | none => some (partAdded ⟨space, e.1, e.2⟩)
  | some before => if before = e.2 then none else some (partUpdated ⟨space, e.1, e.2⟩)

theorem replay_arrived (old : Table PartId (List Host)) {entries : List (PartId × List Host)}
    (distinct : (entries.map (·.1)).Nodup) (present : view.get? space = some parts)
    (same : ∀ e ∈ entries, parts.get? e.1 = old.get? e.1) :
    replay view (entries.filterMap (arrived? space old)) =
      some (view.insert space (parts.insertAll entries)) := by
  induction entries generalizing view parts with
  | nil =>
    rw [show parts.insertAll [] = parts from rfl, Table.insert_self present]
    rfl
  | cons e entries ih =>
    obtain ⟨new, later⟩ := List.nodup_cons.mp distinct
    have here : parts.get? e.1 = old.get? e.1 := same e List.mem_cons_self
    have next : (view.insert space (parts.insert e.1 e.2)).get? space =
        some (parts.insert e.1 e.2) := by rw [Table.get?_insert, if_pos rfl]
    have rest : replay (view.insert space (parts.insert e.1 e.2))
        (entries.filterMap (arrived? space old)) =
          some (view.insert space (parts.insertAll (e :: entries))) := by
      rw [ih later next, Table.insert_insert]
      · rfl
      · intro e' he'
        have ne : e'.1 ≠ e.1 := fun eq => new (List.mem_map.mpr ⟨e', he', eq⟩)
        rw [Table.get?_insert, if_neg ne]
        exact same e' (List.mem_cons_of_mem _ he')
    cases had : old.get? e.1 with
    | none =>
      have notice : arrived? space old e = some (partAdded ⟨space, e.1, e.2⟩) := by
        simp [arrived?, had]
      rw [List.filterMap_cons_some notice,
        replay_cons (applied?_partAdded e.2 present (here.trans had))]
      exact rest
    | some before =>
      by_cases eq : before = e.2
      · have notice : arrived? space old e = none := by
          simp [arrived?, had, eq]
        subst eq
        have stays : view.insert space (parts.insert e.1 e.2) = view := by
          rw [Table.insert_self (here.trans had), Table.insert_self present]
        rw [List.filterMap_cons_none notice]
        rwa [stays] at rest
      · have notice : arrived? space old e = some (partUpdated ⟨space, e.1, e.2⟩) := by
          simp [arrived?, had, eq]
        rw [List.filterMap_cons_some notice,
          replay_cons (applied?_partUpdated present (here.trans had) eq)]
        exact rest

theorem get?_without (parts : Table PartId (List Host)) (gone : List PartId) (part : PartId) :
    (parts.filter fun part _ => part ∉ gone).get? part =
      if part ∈ gone then none else parts.get? part := by
  rw [Table.get?_filter]
  by_cases h : part ∈ gone <;> cases parts.get? part <;> simp [h]

theorem replay_removed {gone : List PartId} (distinct : gone.Nodup)
    (present : view.get? space = some parts) (had : ∀ part ∈ gone, parts.contains part = true) :
    replay view (gone.map (partRemoved space)) =
      some (view.insert space (parts.filter fun part _ => part ∉ gone)) := by
  induction gone generalizing view parts with
  | nil =>
    have all : (parts.filter fun part _ => part ∉ ([] : List PartId)) = parts := by
      apply Table.ext_get?
      intro part
      rw [get?_without, if_neg List.not_mem_nil]
    rw [all, Table.insert_self present]
    rfl
  | cons part gone ih =>
    obtain ⟨new, later⟩ := List.nodup_cons.mp distinct
    have next : (view.insert space (parts.erase part)).get? space = some (parts.erase part) := by
      rw [Table.get?_insert, if_pos rfl]
    have without : ((parts.erase part).filter fun p _ => p ∉ gone) =
        parts.filter fun p _ => p ∉ part :: gone := by
      apply Table.ext_get?
      intro p
      rw [get?_without, get?_without, Table.get?_erase]
      by_cases eq : p = part <;> simp [eq]
    rw [List.map_cons, replay_cons (applied?_partRemoved present (had part List.mem_cons_self)),
      ih later next, Table.insert_insert, without]
    intro p hp
    have ne : p ≠ part := fun eq => new (eq ▸ hp)
    rw [Table.contains, Table.get?_erase, if_neg ne]
    exact had p (List.mem_cons_of_mem _ hp)

theorem replay_removal (present : view.get? space = some parts) :
    replay view (removal space parts) = some (view.erase space) := by
  have had : ∀ part ∈ parts.keys, parts.contains part = true := fun part h =>
    Table.mem_keys.mp h
  have gone : (parts.filter fun part _ => part ∉ parts.keys) = ∅ := by
    apply Table.ext_get?
    intro part
    rw [get?_without, Table.get?_empty]
    by_cases h : part ∈ parts.keys
    · rw [if_pos h]
    · rw [if_neg h]
      exact Option.not_isSome_iff_eq_none.mp fun some => h (Table.mem_keys.mpr some)
  have emptied : applied? (view.insert space ∅) (spaceRemoved space) =
      some ((view.insert space ∅).erase space) := by
    simp [applied?, show (∅ : Table PartId (List Host)).isEmpty = true from rfl]
  have erased : (view.insert space ∅).erase space = view.erase space := by
    apply Table.ext_get?
    intro k
    rw [Table.get?_erase, Table.get?_erase, Table.get?_insert]
    by_cases eq : k = space
    · rw [if_pos eq, if_pos eq]
    · rw [if_neg eq, if_neg eq, if_neg eq]
  rw [removal, replay_append, replay_removed parts.keys_nodup present had, gone, Option.bind_some,
    replay_cons emptied, erased]
  rfl

theorem insertAll_entries (old new : Table PartId (List Host)) (part : PartId) :
    (old.insertAll new.entries).get? part = (new.get? part).or (old.get? part) :=
  Table.get?_insertAll_of_nodup new.keys_nodup old part

theorem replay_arrival (parts : Table PartId (List Host)) (absent : view.get? space = none) :
    replay view (arrival space parts) = some (view.insert space parts) := by
  have added : applied? view (spaceAdded space) = some (view.insert space ∅) := by
    simp [applied?, Table.contains, absent]
  have all : arrival space parts =
      spaceAdded space :: parts.entries.filterMap (arrived? space ∅) := by
    rw [arrival, ← List.filterMap_eq_map]
    rfl
  have filled : (∅ : Table PartId (List Host)).insertAll parts.entries = parts := by
    apply Table.ext_get?
    intro part
    rw [insertAll_entries, Table.get?_empty, Option.or_none]
  have next : (view.insert space ∅).get? space = some ∅ := by
    rw [Table.get?_insert, if_pos rfl]
  rw [all, replay_cons added,
    replay_arrived ∅ parts.keys_nodup next fun _ _ => rfl, filled, Table.insert_insert]

/-- What was there and what is, less what is not there any more, is what is. -/
theorem merged_without_gone (old new : Table PartId (List Host)) :
    ((old.insertAll new.entries).filter fun part _ =>
      part ∉ old.keys.filter fun part => !new.contains part) = new := by
  apply Table.ext_get?
  intro part
  rw [get?_without, insertAll_entries]
  split
  · rename_i gone
    have absent := (List.mem_filter.mp gone).2
    rw [Bool.not_eq_true', Table.contains, Option.isSome_eq_false_iff,
      Option.isNone_iff_eq_none] at absent
    exact absent.symm
  · rename_i stays
    cases here : new.get? part with
    | some hosts => rfl
    | none =>
      rw [Option.none_or]
      refine Option.not_isSome_iff_eq_none.mp fun had => stays (List.mem_filter.mpr ⟨?_, ?_⟩)
      · exact Table.mem_keys.mpr had
      · rw [Table.contains, here]
        rfl

theorem replay_change {old : Table PartId (List Host)} (new : Table PartId (List Host))
    (present : view.get? space = some old) :
    replay view (change space old new) = some (view.insert space new) := by
  let merged := old.insertAll new.entries
  have next : (view.insert space merged).get? space = some merged := by
    rw [Table.get?_insert, if_pos rfl]
  have distinct : (old.keys.filter fun part => !new.contains part).Nodup :=
    old.keys_nodup.filter _
  have had : ∀ part ∈ old.keys.filter fun part => !new.contains part,
      merged.contains part = true := by
    intro part h
    obtain ⟨hosts, here⟩ := Table.contains_iff.mp (Table.mem_keys.mp (List.mem_filter.mp h).1)
    rw [Table.contains, insertAll_entries, here]
    cases new.get? part <;> rfl
  have left : (merged.filter fun part _ => part ∉ old.keys.filter fun part => !new.contains part) =
      new := merged_without_gone old new
  have arrived : replay view (new.entries.filterMap (arrived? space old)) =
      some (view.insert space merged) :=
    replay_arrived old new.keys_nodup present fun _ _ => rfl
  have removed := replay_removed distinct next had
  rw [left, Table.insert_insert] at removed
  have order : change space old new = new.entries.filterMap (arrived? space old) ++
      (old.keys.filter fun part => !new.contains part).map (partRemoved space) := rfl
  rw [order, replay_append, arrived]
  exact removed

/-- Notices in groups, each of which takes one space of a view to what it is in another. -/
theorem replay_groups {α : Type} {notices : SpaceId × α → List Notice} {start target : LocalView}
    {entries : List (SpaceId × α)} (distinct : (entries.map (·.1)).Nodup)
    (group : ∀ e ∈ entries, ∀ view : LocalView, view.get? e.1 = start.get? e.1 →
      ∃ next, replay view (notices e) = some next ∧
        ∀ space, next.get? space = if space = e.1 then target.get? space else view.get? space)
    (view : LocalView) (same : ∀ e ∈ entries, view.get? e.1 = start.get? e.1) :
    ∃ last, replay view (entries.flatMap notices) = some last ∧
      ∀ space, last.get? space =
        if space ∈ entries.map (·.1) then target.get? space else view.get? space := by
  induction entries generalizing view with
  | nil => exact ⟨view, rfl, fun _ => rfl⟩
  | cons e entries ih =>
    obtain ⟨new, later⟩ := List.nodup_cons.mp distinct
    obtain ⟨next, first, here⟩ := group e List.mem_cons_self view (same e List.mem_cons_self)
    have still : ∀ e' ∈ entries, next.get? e'.1 = start.get? e'.1 := by
      intro e' he'
      have ne : e'.1 ≠ e.1 := fun eq => new (List.mem_map.mpr ⟨e', he', eq⟩)
      rw [here, if_neg ne]
      exact same e' (List.mem_cons_of_mem _ he')
    obtain ⟨last, rest, there⟩ :=
      ih later (fun e' he' => group e' (List.mem_cons_of_mem _ he')) next still
    refine ⟨last, ?_, fun space => ?_⟩
    · rw [List.flatMap_cons, replay_append, first]
      exact rest
    · rw [there, here, List.map_cons]
      by_cases eq : space = e.1
      · subst eq
        rw [if_neg new, if_pos rfl, if_pos List.mem_cons_self]
      · simp only [List.mem_cons, eq, false_or, if_false]

theorem get?_eq_none_of_keys {view : LocalView} {space : SpaceId} (h : space ∉ view.keys) :
    view.get? space = none :=
  Option.not_isSome_iff_eq_none.mp fun some => h (Table.mem_keys.mpr some)

/-- What stays of a view when another one takes its place. -/
def kept (old new : LocalView) : LocalView := old.filter fun space _ => new.contains space

theorem get?_kept (old new : LocalView) (space : SpaceId) :
    (kept old new).get? space = if new.contains space then old.get? space else none := by
  rw [kept, Table.get?_filter]
  by_cases h : new.contains space = true <;> cases old.get? space <;> simp [h]

theorem replay_departures (old new : LocalView) :
    replay old (old.entries.flatMap fun (space, parts) =>
      if new.contains space then [] else removal space parts) = some (kept old new) := by
  have group : ∀ e ∈ old.entries, ∀ view : LocalView, view.get? e.1 = old.get? e.1 →
      ∃ next, replay view (if new.contains e.1 then [] else removal e.1 e.2) = some next ∧
        ∀ space, next.get? space =
          if space = e.1 then (kept old new).get? space else view.get? space := by
    intro e he view same
    have present : view.get? e.1 = some e.2 := same.trans (Table.get?_eq_some_iff.mpr he)
    by_cases stays : new.contains e.1 = true
    · refine ⟨view, by simp [stays, replay], fun space => ?_⟩
      by_cases eq : space = e.1
      · rw [if_pos eq, eq, get?_kept, if_pos stays, same]
      · rw [if_neg eq]
    · refine ⟨view.erase e.1, by simp [stays, replay_removal present], fun space => ?_⟩
      rw [Table.get?_erase]
      by_cases eq : space = e.1
      · rw [if_pos eq, if_pos eq, eq, get?_kept, if_neg stays]
      · rw [if_neg eq, if_neg eq]
  obtain ⟨last, replayed, there⟩ := replay_groups old.keys_nodup group old fun _ _ => rfl
  have last_kept : last = kept old new := by
    apply Table.ext_get?
    intro space
    rw [there]
    split
    · rfl
    · rename_i absent
      rw [get?_kept, get?_eq_none_of_keys absent, ite_self]
  rw [← last_kept]
  exact replayed

theorem replay_arrivals (old new : LocalView) :
    replay (kept old new) (new.entries.flatMap fun (space, parts) =>
      match old.get? space with
      | none => arrival space parts
      | some before => change space before parts) = some new := by
  have group : ∀ e ∈ new.entries, ∀ view : LocalView, view.get? e.1 = old.get? e.1 →
      ∃ next, replay view (match old.get? e.1 with
          | none => arrival e.1 e.2
          | some before => change e.1 before e.2) = some next ∧
        ∀ space, next.get? space = if space = e.1 then new.get? space else view.get? space := by
    intro e he view same
    have there : ∀ space, (view.insert e.1 e.2).get? space =
        if space = e.1 then new.get? space else view.get? space := by
      intro space
      rw [Table.get?_insert]
      by_cases eq : space = e.1
      · rw [if_pos eq, if_pos eq, eq, Table.get?_eq_some_iff.mpr he]
      · rw [if_neg eq, if_neg eq]
    cases had : old.get? e.1 with
    | none => exact ⟨_, replay_arrival e.2 (same.trans had), there⟩
    | some before => exact ⟨_, replay_change e.2 (same.trans had), there⟩
  have same : ∀ e ∈ new.entries, (kept old new).get? e.1 = old.get? e.1 := by
    intro e he
    rw [get?_kept, if_pos (Table.contains_of_get? (Table.get?_eq_some_iff.mpr he))]
  obtain ⟨last, replayed, there⟩ := replay_groups new.keys_nodup group (kept old new) same
  have last_new : last = new := by
    apply Table.ext_get?
    intro space
    rw [there]
    split
    · rfl
    · rename_i absent
      have absent := get?_eq_none_of_keys absent
      rw [get?_kept, Table.contains, absent]
      rfl
  rw [last_new] at replayed
  exact replayed

/-- All that a listener is told about a change leads from the old view to the new one. -/
theorem replay_changes (old new : LocalView) : replay old (changes old new) = some new := by
  rw [changes, replay_append, replay_departures]
  exact replay_arrivals old new

theorem replay_options {ns : List Notice}
    (h : ∀ n ∈ ns, ∃ space options, n = optionsUpdated space options) (view : LocalView) :
    replay view ns = some view := by
  induction ns with
  | nil => rfl
  | cons n ns ih =>
    obtain ⟨space, options, rfl⟩ := h n List.mem_cons_self
    have same : applied? view (optionsUpdated space options) = some view := rfl
    rw [replay_cons same]
    exact ih fun n hn => h n (List.mem_cons_of_mem _ hn)

/-- A view that stays what it is gives nothing to tell. -/
theorem changes_self (view : LocalView) : changes view view = [] := by
  have removed : (view.entries.flatMap fun (space, parts) =>
      if view.contains space then [] else removal space parts) = [] := by
    refine List.flatMap_eq_nil_iff.mpr fun e he => ?_
    exact if_pos (Table.contains_of_get? (Table.get?_eq_some_iff.mpr he))
  have unchanged : (view.entries.flatMap fun (space, parts) =>
      match view.get? space with
      | none => arrival space parts
      | some before => change space before parts) = [] := by
    refine List.flatMap_eq_nil_iff.mpr fun e he => ?_
    simp only [Table.get?_eq_some_iff.mpr he, change, List.append_eq_nil_iff, List.map_eq_nil_iff,
      List.filterMap_eq_nil_iff, List.filter_eq_nil_iff]
    constructor
    · intro part hp
      rw [Table.get?_eq_some_iff.mpr hp]
      exact if_pos rfl
    · intro part hp
      rw [show e.2.contains part = true from Table.mem_keys.mp hp]
      simp
  rw [changes, removed]
  exact unchanged

end Notice

end ClusterClient
