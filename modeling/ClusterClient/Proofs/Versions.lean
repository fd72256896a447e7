import ClusterClient.Proofs.Snapshots
import Mathlib.Algebra.Group.Int.Defs
import Mathlib.Algebra.Group.Nat.Defs
/-!
The versions of a schema, collected from a list in any order: the last item of a version is the
one that counts, the greatest version is the newest, and all of them make an array without holes
other than those of versions that were not listed. Such an array has an end: with versions below
`2 ^ 59` it never gets there, and a version of `2 ^ 60 - 1` or more lies beyond it.
-/
namespace ClusterClient

/-- All versions of all schemas that are told about a space. -/
def SpaceData.schemas (data : SpaceData) : List Schema :=
  (data.tagSchemas ++ data.edgeSchemas).map Prod.snd

namespace Versions

variable {listed : List Schema} {items : List (Int32 × Schema)} {id : Int32} {v w : SchemaVersion}
  {s : Schema} {g : Growing} {n : Nat}

/-- The schema is the last one listed with that version. -/
def LastWith (listed : List Schema) (v : SchemaVersion) (s : Schema) : Prop :=
  s.version = v ∧ ∃ before after, listed = before ++ s :: after ∧ ∀ later ∈ after, later.version ≠ v

/-- The version is the greatest one listed, those below zero left out. -/
def Newest (listed : List Schema) (v : SchemaVersion) : Prop :=
  0 ≤ v ∧ (∃ s ∈ listed, s.version = v) ∧ ∀ s ∈ listed, s.version ≤ v

/-! ## Slots -/

theorem slot_lt (v : SchemaVersion) : slot v < 2 ^ 63 := by
  have := v.toInt_lt
  unfold slot
  omega

theorem slot_inj (counts : 0 ≤ v) (counts' : 0 ≤ w) : slot v = slot w ↔ v = w := by
  have low := Int64.le_iff_toInt_le.mp counts
  have low' := Int64.le_iff_toInt_le.mp counts'
  have zero : (0 : Int64).toInt = 0 := rfl
  rw [← Int64.toInt_inj, slot, slot]
  omega

theorem le_of_slot_le (counts : 0 ≤ w) (le : slot v ≤ slot w) : v ≤ w := by
  have low := Int64.le_iff_toInt_le.mp counts
  have zero : (0 : Int64).toInt = 0 := rfl
  unfold slot at le
  exact Int64.le_iff_toInt_le.mpr (by omega)

theorem slot_le_of_le (le : v ≤ w) : slot v ≤ slot w := by
  have := Int64.le_iff_toInt_le.mp le
  unfold slot
  omega

theorem ofNat_slot (counts : 0 ≤ v) : Int64.ofNat (slot v) = v := by
  have low := Int64.le_iff_toInt_le.mp counts
  have zero : (0 : Int64).toInt = 0 := rfl
  rw [← Int64.toInt_inj, Int64.toInt_ofNat_of_lt (slot_lt v), slot]
  omega

/-! ## One array -/

namespace Growing

@[simp] theorem size_put (g : Growing) (s : Schema) :
    (g.put s).slots.size = max g.slots.size (slot s.version + 1) := by
  simp only [put, Array.size_setIfInBounds, Array.size_append, Array.size_replicate]
  omega

/-- The slots that were added are empty, and so is what lies beyond them. -/
theorem join_put (g : Growing) (s : Schema) (n : Nat) :
    (g.put s).slots[n]?.join = if n = slot s.version then some s else g.slots[n]?.join := by
  have inside : n = slot s.version →
      n < (g.slots ++ Array.replicate (slot s.version + 1 - g.slots.size) none).size := by
    simp only [Array.size_append, Array.size_replicate]
    omega
  simp only [put, Array.getElem?_setIfInBounds]
  by_cases here : n = slot s.version
  · rw [if_pos here.symm, if_pos here, if_pos (here ▸ inside here)]
    rfl
  · rw [if_neg fun eq => here eq.symm, if_neg here, Array.getElem?_append]
    split
    · rfl
    · rename_i outside
      rw [Array.getElem?_replicate, Array.getElem?_eq_none (Nat.le_of_not_lt outside)]
      split <;> rfl

/-- Versions below zero are left out. -/
def keep (g : Growing) (s : Schema) : Growing := if s.version < 0 then g else g.put s

end Growing

/-- The array held when the schemas are listed like that. -/
def held (listed : List Schema) : Growing := listed.foldl Growing.keep .empty

theorem held_concat (listed : List Schema) (s : Schema) :
    held (listed ++ [s]) = if s.version < 0 then held listed else (held listed).put s := by
  simp [held, Growing.keep]

/-- Each slot holds the last schema listed with its version. -/
theorem join_held (listed : List Schema) (counts : 0 ≤ v) :
    (held listed).slots[slot v]?.join = listed.reverse.find? fun s => s.version = v := by
  induction listed using List.reverseRecOn with
  | nil => simp [held, Growing.empty]
  | append_singleton listed s ih =>
    rw [held_concat, List.reverse_concat, List.find?_cons]
    by_cases negative : s.version < 0
    · have other : s.version ≠ v := fun eq => absurd counts (Int64.not_le.mpr (eq ▸ negative))
      simp [negative, other, ih]
    · have own := slot_inj counts (Int64.not_lt.mp negative)
      rw [if_neg negative, Growing.join_put, ih]
      by_cases here : s.version = v
      · simp [here]
      · have other : slot v ≠ slot s.version := fun eq => here (own.mp eq).symm
        simp [here, other]

theorem join_held_eq_some_iff (counts : 0 ≤ v) :
    (held listed).slots[slot v]?.join = some s ↔ LastWith listed v s := by
  rw [join_held listed counts]
  simp only [List.find?_eq_some_iff_append, LastWith, decide_eq_true_eq]
  refine and_congr_right fun _ => ⟨?_, ?_⟩
  · rintro ⟨after, before, split, later⟩
    refine ⟨before.reverse, after.reverse, ?_, by simpa using later⟩
    simpa using congrArg List.reverse split
  · rintro ⟨before, after, rfl, later⟩
    exact ⟨after.reverse, before.reverse, by simp, by simpa using later⟩

/-- The array goes as far as the versions do. -/
theorem lt_size_held :
    n < (held listed).slots.size ↔ ∃ s ∈ listed, 0 ≤ s.version ∧ n ≤ slot s.version := by
  induction listed using List.reverseRecOn with
  | nil => simp [held, Growing.empty]
  | append_singleton listed s ih =>
    rw [held_concat]
    by_cases negative : s.version < 0
    · have left_out : ¬ 0 ≤ s.version := Int64.not_le.mpr negative
      simp [negative, left_out, ih, or_and_right, exists_or]
    · have counts : 0 ≤ s.version := Int64.not_lt.mp negative
      have split : n < max (held listed).slots.size (slot s.version + 1) ↔
          n < (held listed).slots.size ∨ n ≤ slot s.version := by omega
      simp [negative, counts, split, ih, or_and_right, exists_or]

theorem size_held_le : (held listed).slots.size ≤ 2 ^ 63 := by
  refine Nat.le_of_not_lt fun beyond => ?_
  obtain ⟨s, -, -, le⟩ := lt_size_held.mp beyond
  exact Nat.not_lt_of_le le (slot_lt s.version)

/-- The newest version is the one of the last slot. -/
theorem size_held_iff (counts : 0 ≤ v) :
    (held listed).slots.size = slot v + 1 ↔ Newest listed v := by
  constructor
  · intro size
    have inside : ∀ s ∈ listed, 0 ≤ s.version → slot s.version ≤ slot v := by
      intro s here counts
      have := lt_size_held.mpr ⟨s, here, counts, Nat.le_refl _⟩
      omega
    have reached : slot v < (held listed).slots.size := by omega
    obtain ⟨s, here, kept, le⟩ := lt_size_held.mp reached
    have same := (slot_inj kept counts).mp (Nat.le_antisymm (inside s here kept) le)
    refine ⟨counts, ⟨s, here, same⟩, fun t there => ?_⟩
    rcases Int64.le_total 0 t.version with kept | negative
    · exact le_of_slot_le counts (inside t there kept)
    · exact Int64.le_trans negative counts
  · rintro ⟨-, ⟨s, here, rfl⟩, top⟩
    have reached : slot s.version < (held listed).slots.size :=
      lt_size_held.mpr ⟨s, here, counts, Nat.le_refl _⟩
    have ended : ¬ slot s.version + 1 < (held listed).slots.size := by
      intro beyond
      obtain ⟨t, there, -, le⟩ := lt_size_held.mp beyond
      have := slot_le_of_le (top t there)
      omega
    omega

theorem newest_eq_iff (filled : 0 < g.slots.size) (small : g.slots.size ≤ 2 ^ 63) :
    newest g = v ↔ 0 ≤ v ∧ g.slots.size = slot v + 1 := by
  obtain ⟨n, size⟩ := Nat.exists_eq_succ_of_ne_zero filled.ne'
  have last : newest g = Int64.ofNat n := by
    rw [newest, size, Nat.succ_eq_add_one, Int64.ofNat_add]
    exact Int64.add_sub_cancel _ _
  have number : (Int64.ofNat n).toInt = n := Int64.toInt_ofNat_of_lt (by omega)
  have counts : 0 ≤ Int64.ofNat n := Int64.le_iff_toInt_le.mpr (number ▸ Int.natCast_nonneg n)
  have back : slot (Int64.ofNat n) = n := by rw [slot, number, Int.toNat_natCast]
  rw [last, size]
  constructor
  · rintro rfl
    exact ⟨counts, by rw [back]⟩
  · rintro ⟨kept, eq⟩
    rw [Nat.succ.inj eq, ofNat_slot kept]

theorem newest_of_filled (filled : 0 < (held listed).slots.size) : ∃ v, Newest listed v := by
  obtain ⟨kept, size⟩ := (newest_eq_iff filled size_held_le).mp rfl
  exact ⟨_, (size_held_iff kept).mp size⟩

theorem newest_of_listed (here : s ∈ listed) (counts : 0 ≤ s.version) : ∃ v, Newest listed v :=
  newest_of_filled (Nat.zero_lt_of_lt (lt_size_held.mpr ⟨s, here, counts, Nat.le_refl _⟩))

theorem Newest.lastWith (h : Newest listed v) : ∃ s, LastWith listed v s := by
  obtain ⟨counts, ⟨s, here, same⟩, -⟩ := h
  have found : (listed.reverse.find? fun s => s.version = v).isSome = true := by
    simpa [List.find?_isSome] using ⟨s, here, same⟩
  obtain ⟨last, eq⟩ := Option.isSome_iff_exists.mp found
  exact ⟨last, (join_held_eq_some_iff counts).mp ((join_held listed counts).trans eq)⟩

/-! ## The arrays of all ids -/

theorem collect_concat (items : List (Int32 × Schema)) (item : Int32 × Schema) :
    collect (items ++ [item]) = add (collect items) item := by
  simp [collect]

/-- What is collected under an id depends on the items of that id only. -/
theorem getD_collect (items : List (Int32 × Schema)) (id : Int32) :
    (collect items).getD id .empty = held (Table.under id items) := by
  induction items using List.reverseRecOn with
  | nil => rfl
  | append_singleton items item ih =>
    have under : Table.under id (items ++ [item]) =
        Table.under id items ++ if item.1 = id then [item.2] else [] := by
      by_cases here : item.1 = id <;> simp [Table.under, here]
    rw [collect_concat, add, under]
    by_cases negative : item.2.version < 0
    · rw [if_pos negative, ih]
      by_cases here : item.1 = id
      · rw [if_pos here, held_concat, if_pos negative]
      · rw [if_neg here, List.append_nil]
    · rw [if_neg negative, Table.getD_modify]
      by_cases here : item.1 = id
      · subst here
        rw [if_pos rfl, if_pos rfl, held_concat, if_neg negative, ih]
      · have other : id ≠ item.1 := fun eq => here eq.symm
        rw [if_neg other, if_neg here, List.append_nil, ih]

/-- An array is made for its first slot. -/
theorem filled_of_get?_collect (there : (collect items).get? id = some g) : 0 < g.slots.size := by
  induction items using List.reverseRecOn generalizing g with
  | nil => cases there
  | append_singleton items item ih =>
    rw [collect_concat, add] at there
    by_cases negative : item.2.version < 0
    · rw [if_pos negative] at there
      exact ih there
    · rw [if_neg negative, Table.get?_modify] at there
      split at there
      · cases there
        rw [Growing.size_put]
        omega
      · exact ih there

theorem get?_collect_eq_some (there : (collect items).get? id = some g) :
    g = held (Table.under id items) := by
  rw [← getD_collect, Table.getD, there]
  rfl

theorem get?_collect_eq_none (missing : (collect items).get? id = none) :
    held (Table.under id items) = .empty := by
  rw [← getD_collect, Table.getD, missing]
  rfl

/-- The newest version of an id, if it has one at all. -/
theorem newest_collect :
    ((collect items).get? id).map newest = some v ↔ Newest (Table.under id items) v := by
  cases there : (collect items).get? id with
  | none =>
    refine iff_of_false nofun fun h => ?_
    have size := (size_held_iff h.1).mpr h
    rw [get?_collect_eq_none there] at size
    cases size
  | some g =>
    have filled := filled_of_get?_collect there
    rw [get?_collect_eq_some there] at filled ⊢
    rw [Option.map_some, Option.some_inj, newest_eq_iff filled size_held_le]
    exact ⟨fun ⟨counts, size⟩ => (size_held_iff counts).mp size,
      fun h => ⟨h.1, (size_held_iff h.1).mpr h⟩⟩

theorem getD_slots_collect (items : List (Int32 × Schema)) (id : Int32) :
    (((collect items).get? id).map Growing.slots).getD #[] =
      (held (Table.under id items)).slots := by
  cases there : (collect items).get? id with
  | none =>
    rw [get?_collect_eq_none there]
    rfl
  | some g =>
    rw [get?_collect_eq_some there]
    rfl

/-- A schema without an array is as good as one whose array is empty. -/
theorem bind_pick? (vs : Option Versions) (v : SchemaVersion) :
    (vs.bind fun vs => pick? vs v) = pick? (vs.getD #[]) v := by
  cases vs with
  | none => simp [pick?]
  | some vs => rfl

/-! ## The end of an array -/

theorem maxSlots_eq : maxSlots = 2 ^ 60 - 1 := by decide

/-- Twice the version is room enough, since memory is doubled only for a version that is beyond
the memory there is. -/
theorem fits_of_slot_lt (room : g.capacity ≤ maxSlots) (small : slot s.version < 2 ^ 59) :
    g.fits s = true := by
  rw [Growing.fits, decide_eq_true_eq, Growing.reserve]
  split
  · exact room
  · have := maxSlots_eq
    omega

theorem not_fits_of_le_slot (great : maxSlots ≤ slot s.version) : g.fits s = false := by
  have := g.le_reserve (slot s.version + 1)
  rw [Growing.fits, decide_eq_false_iff_not]
  omega

theorem collect?_concat (items : List (Int32 × Schema)) (item : Int32 × Schema) :
    collect? (items ++ [item]) = (collect? items).bind fun grouped =>
      if accepts grouped item then some (add grouped item) else none := by
  simp [collect?, List.foldlM_append]

theorem slot_lt_of_accepts {grouped : Table Int32 Growing} {item : Int32 × Schema}
    (accepted : accepts grouped item = true) : slot item.2.version < maxSlots := by
  rw [accepts, Bool.or_eq_true, decide_eq_true_eq] at accepted
  rcases accepted with negative | fits
  · have := Int64.lt_iff_toInt_lt.mp negative
    have zero : (0 : Int64).toInt = 0 := rfl
    have := maxSlots_eq
    unfold slot
    omega
  · refine Nat.lt_of_not_le fun great => ?_
    rw [not_fits_of_le_slot great] at fits
    cases fits

theorem capacity_add_le {grouped : Table Int32 Growing} {item : Int32 × Schema}
    (accepted : accepts grouped item = true)
    (room : ∀ id, (grouped.getD id .empty).capacity ≤ maxSlots) (id : Int32) :
    ((add grouped item).getD id .empty).capacity ≤ maxSlots := by
  rw [accepts, Bool.or_eq_true, decide_eq_true_eq] at accepted
  rw [add]
  split
  · exact room id
  · rename_i counts
    rw [Table.getD_modify]
    split
    · exact of_decide_eq_true (accepted.resolve_left counts)
    · exact room id

/-- Where no array comes to its end the limit makes no difference. -/
theorem collect?_eq_some {grouped : Table Int32 Growing} (h : collect? items = some grouped) :
    grouped = collect items ∧
      (∀ id, (grouped.getD id .empty).capacity ≤ maxSlots) ∧
      ∀ item ∈ items, slot item.2.version < maxSlots := by
  induction items using List.reverseRecOn generalizing grouped with
  | nil =>
    cases h
    exact ⟨rfl, fun _ => Nat.zero_le _, nofun⟩
  | append_singleton items item ih =>
    rw [collect?_concat] at h
    obtain ⟨before, collected, h⟩ := Option.bind_eq_some_iff.mp h
    obtain ⟨rfl, room, inside⟩ := ih collected
    split at h
    · rename_i accepted
      cases h
      refine ⟨(collect_concat ..).symm, capacity_add_le accepted room, ?_⟩
      exact List.forall_mem_append.mpr
        ⟨inside, List.forall_mem_singleton.mpr (slot_lt_of_accepts accepted)⟩
    · cases h

theorem collect?_isSome (small : ∀ item ∈ items, slot item.2.version < 2 ^ 59) :
    ∃ grouped, collect? items = some grouped := by
  induction items using List.reverseRecOn with
  | nil => exact ⟨∅, rfl⟩
  | append_singleton items item ih =>
    obtain ⟨before, last⟩ := List.forall_mem_append.mp small
    obtain ⟨grouped, collected⟩ := ih before
    obtain ⟨-, room, -⟩ := collect?_eq_some collected
    have accepted : accepts grouped item = true := by
      rw [accepts, fits_of_slot_lt (room item.1) (last item (List.mem_singleton_self item)),
        Bool.or_true]
    refine ⟨add grouped item, ?_⟩
    rw [collect?_concat, collected, Option.bind_some, if_pos accepted]

end Versions

namespace Space

open Versions

/-- What a space can say about a schema with these items: which version is the newest, which
schema has a version, and the array of them all. -/
structure Answers (listed : List Schema) (unknown : Missing) (gap : SchemaVersion → Missing)
    (latest : Except Fault SchemaVersion) (schema : SchemaVersion → Except Fault Schema)
    (array : Versions) : Prop where
  newest : ∀ v, latest = .ok v ↔ Newest listed v
  none : latest = .error (.missing unknown) ↔ ∀ s ∈ listed, s.version < 0
  last : ∀ v s, 0 ≤ v → (schema v = .ok s ↔ LastWith listed v s)
  absent : ∀ v, 0 ≤ v → (schema v = .error (.missing (gap v)) ↔ ∀ s ∈ listed, s.version ≠ v)
  /-- A version below zero stands for the newest one. -/
  negative : ∀ v u, v < 0 → latest = .ok u → schema v = schema u ∧ ∃ s, schema u = .ok s
  negative_absent : ∀ v, v < 0 → latest = .error (.missing unknown) →
    schema v = .error (.missing (gap v))
  version : ∀ v s, schema v = .ok s → (0 ≤ v → s.version = v) ∧ (v < 0 → latest = .ok s.version)
  /-- The array ends with the newest version. -/
  size : ∀ v, latest = .ok v ↔ 0 ≤ v ∧ array.size = slot v + 1
  slots : ∀ v s, 0 ≤ v → (array[slot v]? = some (some s) ↔ LastWith listed v s)

theorem found_eq_ok_iff {α : Type} {what : Missing} {a? : Option α} {a : α} :
    found what a? = .ok a ↔ a? = some a := by
  cases a? <;> simp [found]

theorem found_eq_error_iff {α : Type} {what : Missing} {a? : Option α} :
    found what a? = .error (.missing what) ↔ a? = none := by
  cases a? <;> simp [found]

variable {listed : List Schema} {v : SchemaVersion} {s : Schema}

theorem pick?_of_empty {vs : Versions} (empty : vs.size = 0) (v : SchemaVersion) :
    pick? vs v = none := by
  rw [pick?, Array.getElem?_eq_none (by omega)]
  rfl

theorem pick?_held (counts : 0 ≤ v) :
    pick? (held listed).slots v = some s ↔ LastWith listed v s := by
  rw [pick?, if_neg (Int64.not_lt.mpr counts), join_held_eq_some_iff counts]

theorem pick?_held_of_negative {u : SchemaVersion} (negative : v < 0) (newest : Newest listed u) :
    pick? (held listed).slots v = pick? (held listed).slots u := by
  have size := (size_held_iff newest.1).mpr newest
  rw [pick?, pick?, if_pos negative, if_neg (Int64.not_lt.mpr newest.1), size,
    Nat.add_sub_cancel]

theorem answers_held (listed : List Schema) (unknown : Missing) (gap : SchemaVersion → Missing)
    {latest : Option SchemaVersion} (latest_iff : ∀ v, latest = some v ↔ Newest listed v) :
    Answers listed unknown gap (found unknown latest)
      (fun v => found (gap v) (pick? (held listed).slots v)) (held listed).slots where
  newest v := by rw [found_eq_ok_iff, latest_iff]
  none := by
    rw [found_eq_error_iff]
    constructor
    · intro unlisted s here
      refine Int64.not_le.mp fun counts => ?_
      obtain ⟨v, newest⟩ := newest_of_listed here counts
      rw [(latest_iff v).mpr newest] at unlisted
      cases unlisted
    · intro negative
      cases last : latest with
      | none => rfl
      | some v =>
        obtain ⟨counts, ⟨s, here, rfl⟩, -⟩ := (latest_iff v).mp last
        exact absurd counts (Int64.not_le.mpr (negative s here))
  last v s counts := by rw [found_eq_ok_iff, pick?_held counts]
  absent v counts := by
    rw [found_eq_error_iff, pick?, if_neg (Int64.not_lt.mpr counts), join_held listed counts]
    simp
  negative v u negative last := by
    have newest := (latest_iff u).mp (found_eq_ok_iff.mp last)
    obtain ⟨s, lastWith⟩ := newest.lastWith
    have own := (pick?_held newest.1).mpr lastWith
    have same := (pick?_held_of_negative negative newest).trans own
    exact ⟨by simp only [same, own, found], s, found_eq_ok_iff.mpr own⟩
  negative_absent v negative none := by
    rw [found_eq_error_iff] at none ⊢
    have empty : (held listed).slots.size = 0 := by
      refine Nat.eq_zero_of_not_pos fun filled => ?_
      obtain ⟨u, newest⟩ := newest_of_filled filled
      cases none.symm.trans ((latest_iff u).mpr newest)
    exact pick?_of_empty empty v
  version v s here := by
    rw [found_eq_ok_iff] at here
    constructor
    · exact fun counts => ((pick?_held counts).mp here).1
    · intro negative
      have filled : 0 < (held listed).slots.size := by
        refine Nat.pos_of_ne_zero fun empty => ?_
        rw [pick?_of_empty empty] at here
        cases here
      obtain ⟨u, newest⟩ := newest_of_filled filled
      rw [pick?_held_of_negative negative newest, pick?_held newest.1] at here
      rw [here.1, found_eq_ok_iff, latest_iff]
      exact newest
  size v := by
    rw [found_eq_ok_iff, latest_iff]
    exact ⟨fun newest => ⟨newest.1, (size_held_iff newest.1).mpr newest⟩,
      fun ⟨counts, size⟩ => (size_held_iff counts).mp size⟩
  slots v s counts := by
    rw [← join_held_eq_some_iff counts, Option.join_eq_some_iff]

theorem answers_collect (items : List (Int32 × Schema)) (id : Int32) (unknown : Missing)
    (gap : SchemaVersion → Missing) :
    Answers (Table.under id items) unknown gap
      (found unknown (((collect items).mapValues fun _ g => newest g).get? id))
      (fun v => found (gap v)
        ((((collect items).mapValues fun _ g => g.slots).get? id).bind fun vs => pick? vs v))
      ((((collect items).mapValues fun _ g => g.slots).get? id).getD #[]) := by
  simp only [Table.get?_mapValues, bind_pick?, getD_slots_collect]
  exact answers_held _ unknown gap fun v => newest_collect

variable {id : SpaceId} {data : SpaceData} {space : Space}

theorem build?_eq_some (built : build? id data = some space) :
    space = build id data ∧ ∀ s ∈ data.schemas, slot s.version < maxSlots := by
  obtain ⟨tags, collected, built⟩ := Option.bind_eq_some_iff.mp built
  obtain ⟨edges, collected', built⟩ := Option.bind_eq_some_iff.mp built
  obtain ⟨rfl, -, inside⟩ := collect?_eq_some collected
  obtain ⟨rfl, -, inside'⟩ := collect?_eq_some collected'
  cases built
  refine ⟨rfl, fun s here => ?_⟩
  obtain ⟨item, listed, rfl⟩ := List.mem_map.mp here
  exact (List.mem_append.mp listed).elim (inside item) (inside' item)

theorem exists_build? (id : SpaceId) (small : ∀ s ∈ data.schemas, slot s.version < 2 ^ 59) :
    ∃ space, build? id data = some space := by
  have each : ∀ item ∈ data.tagSchemas ++ data.edgeSchemas, slot item.2.version < 2 ^ 59 :=
    fun item here => small item.2 (List.mem_map_of_mem here)
  obtain ⟨ofTags, ofEdges⟩ := List.forall_mem_append.mp each
  obtain ⟨tags, collected⟩ := collect?_isSome ofTags
  obtain ⟨edges, collected'⟩ := collect?_isSome ofEdges
  exact ⟨assemble id data tags edges, by rw [build?, collected, collected']; rfl⟩

/-- Of the items of a schema, in whatever order they are listed, the last one of a version counts
and the greatest version is the newest; those below zero are left out, and a version below zero
asks for the newest. The space can be built if no version is too great for an array. -/
theorem versions_answered (id : SpaceId) (data : SpaceData) :
    (∀ space, build? id data = some space →
      (∀ tag, Answers ((data.tags.filter fun t => t.id = tag).map TagSchema.schema)
        (.tag id tag) (.tagVersion id tag) (space.latestTagVersion tag) (space.tagSchema tag)
        ((space.tagVersions.get? tag).getD #[])) ∧
      ∀ type, Answers ((data.edges.filter fun e => e.type = type).map EdgeSchema.schema)
        (.edge id type) (.edgeVersion id type) (space.latestEdgeVersion type)
        (space.edgeSchema type) ((space.edgeVersions.get? type).getD #[])) ∧
    ((∀ s ∈ data.schemas, s.version.toInt < 2 ^ 59) → ∃ space, build? id data = some space) ∧
    ∀ s ∈ data.schemas, 2 ^ 60 - 1 ≤ s.version.toInt → build? id data = none := by
  refine ⟨fun space built => ?_, fun small => exists_build? id fun s here => ?_, ?_⟩
  · obtain ⟨rfl, -⟩ := build?_eq_some built
    constructor
    · intro tag
      have answers := answers_collect data.tagSchemas tag (.tag id tag) (.tagVersion id tag)
      have listed : Table.under tag data.tagSchemas =
          (data.tags.filter fun t => t.id = tag).map TagSchema.schema := by
        simp [Table.under, SpaceData.tagSchemas, List.filter_map, Function.comp_def]
      exact listed ▸ answers
    · intro type
      have answers := answers_collect data.edgeSchemas type (.edge id type) (.edgeVersion id type)
      have listed : Table.under type data.edgeSchemas =
          (data.edges.filter fun e => e.type = type).map EdgeSchema.schema := by
        simp [Table.under, SpaceData.edgeSchemas, List.filter_map, Function.comp_def]
      exact listed ▸ answers
  · have := small s here
    unfold slot
    omega
  · intro s here great
    cases built : build? id data with
    | none => rfl
    | some space =>
      have inside := (build?_eq_some built).2 s here
      have := maxSlots_eq
      unfold slot at inside
      omega

namespace Sample

/-- A tag whose only version is the greatest number that there is. -/
def far : SpaceData where
  desc := ⟨"nba", 1, 1, .fixedString, 8⟩
  parts := .ofList [(1, [⟨"a", 1⟩])]
  tags := [⟨10, "player", ⟨9223372036854775807, []⟩⟩]
  edges := []
  tagIndexes := []
  edgeIndexes := []

end Sample

/-- A version that is too great for an array is the newest one, and yet the space does not say
so, since there is none. -/
theorem newest_version_unanswered :
    Newest ((Sample.far.tags.filter fun t => t.id = 10).map TagSchema.schema)
      9223372036854775807 ∧
    ¬ ∃ space, build? 7 Sample.far = some space ∧
      space.latestTagVersion 10 = .ok 9223372036854775807 := by
  refine ⟨⟨by decide, by decide, by decide⟩, fun ⟨space, built, _⟩ => ?_⟩
  have inside := (build?_eq_some built).2 ⟨9223372036854775807, []⟩ (by decide)
  exact absurd inside (by decide)

end Space

end ClusterClient
