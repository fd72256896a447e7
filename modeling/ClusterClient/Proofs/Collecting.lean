import ClusterClient.Proofs.Grouping
/-!
Lists that are collected under keys, one element after the other: under each key there is what
was put there, in that order, and a key without an element has no entry.
-/
namespace ClusterClient

section Ascending

variable {κ : Type} [Ordered κ] {l m : List κ}

/-- A list in ascending order is known by its elements. -/
theorem ascending_unique (hl : l.Pairwise fun a b => Ordered.before a b = true)
    (hm : m.Pairwise fun a b => Ordered.before a b = true) (same : ∀ k, k ∈ l ↔ k ∈ m) :
    l = m := by
  have perm : l.Perm m := (List.perm_ext_iff_of_nodup (hl.imp Ordered.ne_of_before)
    (hm.imp Ordered.ne_of_before)).mpr same
  apply perm.eq_of_pairwise _ hl hm
  intro a b _ _ ab ba
  simp [Ordered.not_before ab] at ba

variable [DecidableEq κ]

theorem distinct_congr (same : ∀ k, k ∈ l ↔ k ∈ m) : distinct l = distinct m := by
  apply ascending_unique (distinct_ascending l) (distinct_ascending m)
  simpa [mem_distinct] using same

theorem distinct_eq_self (ascending : l.Pairwise fun a b => Ordered.before a b = true) :
    distinct l = l := by
  apply ascending_unique (distinct_ascending l) ascending
  simp [mem_distinct]

end Ascending

theorem before_iff_lt {a b : Int32} : Ordered.before a b = true ↔ a < b := by
  simp [Ordered.before, Int32.lt_iff_toInt_lt]

namespace Table

variable {κ α β : Type} [Ordered κ] [DecidableEq κ]

/-- Puts each element at the end of the list under its key. -/
def collect (t : Table κ (List β)) (pairs : List (κ × β)) : Table κ (List β) :=
  pairs.foldl (fun t e => t.modify e.1 [] (· ++ [e.2])) t

/-- The elements that come with a key, in their order. -/
def under (k : κ) (pairs : List (κ × β)) : List β :=
  (pairs.filter fun e => decide (e.1 = k)).map (·.2)

omit [Ordered κ] in
@[simp] theorem mem_under {k : κ} {pairs : List (κ × β)} {x : β} :
    x ∈ under k pairs ↔ (k, x) ∈ pairs := by
  simp [under]

omit [Ordered κ] in
theorem under_cons (k : κ) (e : κ × β) (rest : List (κ × β)) :
    under k (e :: rest) = if k = e.1 then e.2 :: under k rest else under k rest := by
  by_cases here : k = e.1
  · simp [under, here]
  · have other : e.1 ≠ k := fun eq => here eq.symm
    simp [under, here, other]

theorem get?_collect (t : Table κ (List β)) (pairs : List (κ × β)) (k : κ) :
    (t.collect pairs).get? k =
      if under k pairs = [] then t.get? k else some (t.getD k [] ++ under k pairs) := by
  induction pairs generalizing t with
  | nil => rfl
  | cons e rest ih =>
    have step : t.collect (e :: rest) = (t.modify e.1 [] (· ++ [e.2])).collect rest := rfl
    rw [step, ih, getD_modify, get?_modify, under_cons]
    by_cases here : k = e.1
    · subst here
      by_cases last : under e.1 rest = [] <;> simp [last]
    · simp [here]

theorem getD_collect (pairs : List (κ × β)) (k : κ) :
    ((∅ : Table κ (List β)).collect pairs).getD k [] = under k pairs := by
  rw [getD, get?_collect]
  split
  · simp [*]
  · simp [getD]

theorem mapValues_congr {t : Table κ α} {f g : κ → α → β}
    (same : ∀ k v, t.get? k = some v → f k v = g k v) : t.mapValues f = t.mapValues g := by
  apply ext_get?
  intro k
  simp only [get?_mapValues]
  cases here : t.get? k with
  | none => rfl
  | some v => simp [same k v here]

theorem mapValues_eq_self {t : Table κ α} {f : κ → α → α}
    (same : ∀ k v, t.get? k = some v → f k v = v) : t.mapValues f = t := by
  rw [mapValues_congr same]
  apply eq_of_entries
  simp [mapValues]

end Table

end ClusterClient
