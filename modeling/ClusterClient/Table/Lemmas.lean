import ClusterClient.Table
/-!
A table is what `get?` tells about it: each operation is described by what it
does to that, and tables that agree on every key are equal.
-/
namespace ClusterClient

namespace Table

variable {κ α β : Type} [Ordered κ]

theorem keys_ascending (t : Table κ α) :
    t.keys.Pairwise fun a b => Ordered.before a b = true :=
  t.ascending.map _ fun _ _ h => h

theorem keys_nodup (t : Table κ α) : t.keys.Nodup :=
  t.keys_ascending.imp Ordered.ne_of_before

theorem entries_unique {l m : List (κ × α)}
    (hl : l.Pairwise fun a b => Ordered.before a.1 b.1 = true)
    (hm : m.Pairwise fun a b => Ordered.before a.1 b.1 = true)
    (same : ∀ e, e ∈ l ↔ e ∈ m) : l = m := by
  induction l generalizing m with
  | nil =>
    cases m with
    | nil => rfl
    | cons b m => exact absurd ((same b).mpr (by simp)) (by simp)
  | cons a l ih =>
    cases m with
    | nil => exact absurd ((same a).mp (by simp)) (by simp)
    | cons b m =>
      have ⟨al, laterL⟩ := List.pairwise_cons.mp hl
      have ⟨bm, laterM⟩ := List.pairwise_cons.mp hm
      have ab : a = b := by
        rcases List.mem_cons.mp ((same a).mp (by simp)) with h | h
        · exact h
        · rcases List.mem_cons.mp ((same b).mpr (by simp)) with h' | h'
          · exact h'.symm
          · have := Ordered.not_before (bm a h)
            simp [al b h'] at this
      subst ab
      congr
      refine ih laterL laterM fun e => ⟨fun h => ?_, fun h => ?_⟩
      · rcases List.mem_cons.mp ((same e).mp (by simp [h])) with rfl | h'
        · exact absurd (al e h) (by simp [Ordered.irrefl])
        · exact h'
      · rcases List.mem_cons.mp ((same e).mpr (by simp [h])) with rfl | h'
        · exact absurd (bm e h) (by simp [Ordered.irrefl])
        · exact h'

variable [DecidableEq κ]

omit [Ordered κ] in
theorem lookup_cons_ite (e : κ × α) (l : List (κ × α)) (k : κ) :
    (e :: l).lookup k = if k = e.1 then some e.2 else l.lookup k := by
  cases e with
  | mk a v =>
    by_cases h : k = a
    · simp [h]
    · simp [List.lookup_cons, beq_false_of_ne h, h]

theorem lookup_eq_some_iff {l : List (κ × α)}
    (h : l.Pairwise fun a b => Ordered.before a.1 b.1 = true) {k : κ} {v : α} :
    l.lookup k = some v ↔ (k, v) ∈ l := by
  induction l with
  | nil => simp
  | cons e l ih =>
    have ⟨first, later⟩ := List.pairwise_cons.mp h
    rw [lookup_cons_ite]
    by_cases he : k = e.1
    · subst he
      have : (e.1, v) ∉ l := fun m => absurd (first _ m) (by simp [Ordered.irrefl])
      simp [this, Prod.ext_iff, eq_comm]
    · have hk : (k, v) ≠ e := fun c => he (congrArg Prod.fst c)
      simp [he, hk, ih later]

theorem get?_eq_some_iff {t : Table κ α} {k : κ} {v : α} :
    t.get? k = some v ↔ (k, v) ∈ t.entries :=
  lookup_eq_some_iff t.ascending

theorem ext_get? {s t : Table κ α} (h : ∀ k, s.get? k = t.get? k) : s = t :=
  eq_of_entries (entries_unique s.ascending t.ascending fun (k, v) => by
    rw [← get?_eq_some_iff, ← get?_eq_some_iff, h])

theorem mem_keys {t : Table κ α} {k : κ} : k ∈ t.keys ↔ (t.get? k).isSome = true := by
  simp only [keys, List.mem_map, Option.isSome_iff_exists, get?_eq_some_iff]
  constructor
  · rintro ⟨e, h, rfl⟩
    exact ⟨e.2, h⟩
  · rintro ⟨v, h⟩
    exact ⟨(k, v), h, rfl⟩

@[simp] theorem get?_empty (k : κ) : (∅ : Table κ α).get? k = none := rfl

theorem lookup_place (k : κ) (v : α) (l : List (κ × α)) (k' : κ) :
    (place k v l).lookup k' = if k' = k then some v else l.lookup k' := by
  induction l with
  | nil => by_cases h : k' = k <;> simp [place, lookup_cons_ite, h]
  | cons e l ih =>
    rw [place]
    split
    · by_cases h : k' = k <;> simp [lookup_cons_ite, h]
    · split
      · rename_i gt
        by_cases h : k' = e.1
        · have : k' ≠ k := h ▸ Ordered.ne_of_before gt
          simp [lookup_cons_ite, h ▸ this, h]
        · simp [lookup_cons_ite, h, ih]
      · rename_i notLt notGt
        have same : k = e.1 := Ordered.total (by simpa using notLt) (by simpa using notGt)
        by_cases h : k' = k
        · simp [lookup_cons_ite, h]
        · simp [lookup_cons_ite, h, same ▸ h]

@[simp] theorem get?_insert (t : Table κ α) (k : κ) (v : α) (k' : κ) :
    (t.insert k v).get? k' = if k' = k then some v else t.get? k' :=
  lookup_place k v t.entries k'

@[simp] theorem get?_filter (t : Table κ α) (p : κ → α → Bool) (k : κ) :
    (t.filter p).get? k = (t.get? k).filter (p k) := by
  ext v
  rw [Option.filter_eq_some_iff, get?_eq_some_iff, get?_eq_some_iff]
  simp [filter]

@[simp] theorem get?_mapValues (t : Table κ α) (f : κ → α → β) (k : κ) :
    (t.mapValues f).get? k = (t.get? k).map (f k) := by
  ext v
  simp only [Option.map_eq_some_iff, get?_eq_some_iff, mapValues, List.mem_map, Prod.mk.injEq]
  constructor
  · rintro ⟨e, h, rfl, rfl⟩
    exact ⟨e.2, h, rfl⟩
  · rintro ⟨a, h, rfl⟩
    exact ⟨(k, a), h, rfl, rfl⟩

@[simp] theorem get?_erase (t : Table κ α) (k k' : κ) :
    (t.erase k).get? k' = if k' = k then none else t.get? k' := by
  rw [erase, get?_filter]
  by_cases h : k' = k
  · simp [h]
  · cases t.get? k' <;> simp [Option.filter, h]

@[simp] theorem get?_modify (t : Table κ α) (k : κ) (default : α) (f : α → α) (k' : κ) :
    (t.modify k default f).get? k' =
      if k' = k then some (f (t.getD k default)) else t.get? k' :=
  get?_insert t k _ k'

theorem get?_insertAll (t : Table κ α) (l : List (κ × α)) (k : κ) :
    (t.insertAll l).get? k = (l.reverse.lookup k).or (t.get? k) := by
  induction l generalizing t with
  | nil => simp [insertAll]
  | cons e l ih =>
    have step : t.insertAll (e :: l) = (t.insert e.1 e.2).insertAll l := rfl
    rw [step, ih, List.reverse_cons, List.lookup_append, get?_insert]
    by_cases h : k = e.1 <;> cases l.reverse.lookup k <;> simp [lookup_cons_ite, h]

theorem get?_ofList (l : List (κ × α)) (k : κ) : (ofList l).get? k = l.reverse.lookup k := by
  simp [ofList, get?_insertAll]

theorem mem_of_get?_ofList {l : List (κ × α)} {k : κ} {v : α} (h : (ofList l).get? k = some v) :
    (k, v) ∈ l := by
  rw [get?_ofList, List.lookup_eq_some_iff] at h
  obtain ⟨_, _, split, _⟩ := h
  have entry : (k, v) ∈ l.reverse := split ▸ List.mem_append_right _ List.mem_cons_self
  exact List.mem_reverse.mp entry

omit [Ordered κ] in
theorem lookup_eq_none {l : List (κ × α)} {k : κ} (h : k ∉ l.map (·.1)) : l.lookup k = none := by
  induction l with
  | nil => rfl
  | cons e l ih =>
    rw [List.map_cons, List.mem_cons, not_or] at h
    rw [lookup_cons_ite, if_neg h.1, ih h.2]

omit [Ordered κ] in
theorem lookup_of_mem {l : List (κ × α)} (nodup : (l.map (·.1)).Nodup) {k : κ} {v : α}
    (h : (k, v) ∈ l) : l.lookup k = some v := by
  induction l with
  | nil => cases h
  | cons e l ih =>
    obtain ⟨new, later⟩ := List.nodup_cons.mp nodup
    rw [lookup_cons_ite]
    rcases List.mem_cons.mp h with rfl | h
    · rw [if_pos rfl]
    · have other : k ≠ e.1 := by
        rintro rfl
        exact new (List.mem_map.mpr ⟨_, h, rfl⟩)
      rw [if_neg other, ih later h]

omit [Ordered κ] in
theorem map_lookup_keys {l : List (κ × α)} (nodup : (l.map (·.1)).Nodup) :
    (l.map (·.1)).map (fun k => l.lookup k) = l.map fun e => some e.2 := by
  rw [List.map_map]
  exact List.map_congr_left fun e here => lookup_of_mem nodup here

theorem get?_insertAll_of_nodup {l : List (κ × α)} (h : (l.map (·.1)).Nodup) (t : Table κ α)
    (k : κ) : (t.insertAll l).get? k = (l.lookup k).or (t.get? k) := by
  induction l generalizing t with
  | nil => rfl
  | cons e l ih =>
    obtain ⟨new, later⟩ := List.nodup_cons.mp h
    have step : t.insertAll (e :: l) = (t.insert e.1 e.2).insertAll l := rfl
    rw [step, ih later, get?_insert, lookup_cons_ite]
    by_cases eq : k = e.1
    · subst eq
      rw [lookup_eq_none new]
      simp
    · rw [if_neg eq, if_neg eq]

/-- A table does not tell the order in which it was filled. -/
theorem ofList_of_perm {l : List (κ × α)} {t : Table κ α} (perm : l.Perm t.entries) :
    ofList l = t := by
  have keys : (l.map (·.1)).Perm t.keys := perm.map _
  have nodup := keys.nodup_iff.mpr t.keys_nodup
  refine ext_get? fun k => ?_
  rw [ofList, get?_insertAll_of_nodup nodup, get?_empty, Option.or_none]
  cases there : t.get? k with
  | some v => exact lookup_of_mem nodup (perm.mem_iff.mpr (get?_eq_some_iff.mp there))
  | none =>
    have new : k ∉ t.keys := by simp [mem_keys, there]
    exact lookup_eq_none fun here => new (keys.mem_iff.mp here)

theorem ofList_entries (t : Table κ α) : ofList t.entries = t := ofList_of_perm (.refl _)

omit [DecidableEq κ] in
theorem insertAll_append (t : Table κ α) (l l' : List (κ × α)) :
    t.insertAll (l ++ l') = (t.insertAll l).insertAll l' :=
  List.foldl_append

/-- What is inserted with one value only. -/
theorem get?_insertAll_same {l : List (κ × α)} {v : α} (same : ∀ e ∈ l, e.2 = v) (t : Table κ α)
    (k : κ) : (t.insertAll l).get? k = if k ∈ l.map (·.1) then some v else t.get? k := by
  induction l generalizing t with
  | nil => rfl
  | cons e l ih =>
    have step : t.insertAll (e :: l) = (t.insert e.1 e.2).insertAll l := rfl
    rw [step, ih (fun e' h => same e' (List.mem_cons_of_mem _ h)), get?_insert,
      same e List.mem_cons_self, List.map_cons]
    by_cases here : k = e.1 <;>
      simp only [here, List.mem_cons, true_or, false_or, if_true, ite_self, if_false]

theorem get?_insertAll_const (t : Table κ α) (l : List κ) (v : α) (k : κ) :
    (t.insertAll (l.map fun k => (k, v))).get? k = if k ∈ l then some v else t.get? k := by
  have same : ∀ e ∈ l.map fun k => (k, v), e.2 = v := by simp
  rw [get?_insertAll_same same]
  simp

theorem get?_insertAll_of_not_mem {l : List (κ × α)} {k : κ} (h : k ∉ l.map (·.1))
    (t : Table κ α) : (t.insertAll l).get? k = t.get? k := by
  have absent : k ∉ l.reverse.map (·.1) := by simpa using h
  rw [get?_insertAll, lookup_eq_none absent, Option.none_or]

end Table

variable {κ : Type} [Ordered κ]

theorem distinct_ascending (l : List κ) :
    (distinct l).Pairwise fun a b => Ordered.before a b = true :=
  Table.keys_ascending _

theorem mem_distinct [DecidableEq κ] {l : List κ} {k : κ} : k ∈ distinct l ↔ k ∈ l := by
  rw [distinct, Table.mem_keys, Table.get?_ofList, ← List.map_reverse]
  simp

end ClusterClient
