/-!
Finite maps with their entries in ascending key order. Whatever order a map is
filled in, equal contents give equal tables, and everything that is shown of a
map is shown in key order.
-/
namespace ClusterClient

class Ordered (κ : Type) where
  before : κ → κ → Bool
  irrefl : ∀ a, before a a = false
  trans : ∀ {a b c}, before a b = true → before b c = true → before a c = true
  total : ∀ {a b}, before a b = false → before b a = false → a = b

namespace Ordered

/-- An order read through an injection into an ordered type. -/
@[reducible] def via {κ μ : Type} [Ordered μ] (f : κ → μ) (inj : ∀ {a b}, f a = f b → a = b) :
    Ordered κ where
  before a b := before (f a) (f b)
  irrefl a := irrefl (f a)
  trans h k := trans h k
  total h k := inj (total h k)

instance : Ordered Int where
  before a b := decide (a < b)
  irrefl := by simp
  trans := by simp only [decide_eq_true_eq]; omega
  total := by simp only [decide_eq_false_iff_not]; omega

instance : Ordered Nat where
  before a b := decide (a < b)
  irrefl := by simp
  trans := by simp only [decide_eq_true_eq]; omega
  total := by simp only [decide_eq_false_iff_not]; omega

instance : Ordered Int32 := via Int32.toInt Int32.toInt_inj.mp
instance : Ordered Int64 := via Int64.toInt Int64.toInt_inj.mp
instance : Ordered UInt16 := via UInt16.toNat UInt16.toNat_inj.mp

instance : Ordered String where
  before a b := decide (a < b)
  irrefl := by simp
  trans h k := by
    simp only [decide_eq_true_eq] at *
    exact String.lt_trans h k
  total h k := by
    simp only [decide_eq_false_iff_not, String.not_lt] at *
    exact String.le_antisymm k h

variable {κ μ : Type} [Ordered κ] [Ordered μ]

theorem ne_of_before {a b : κ} (h : before a b = true) : a ≠ b := by
  rintro rfl
  simp [irrefl] at h

theorem not_before {a b : κ} (h : before a b = true) : before b a = false := by
  cases k : before b a with
  | false => rfl
  | true => exact absurd (trans h k) (by simp [irrefl])

/-- Pairs are compared by their first parts, then by their second ones. -/
instance [DecidableEq κ] : Ordered (κ × μ) where
  before a b := before a.1 b.1 || (a.1 = b.1 && before a.2 b.2)
  irrefl a := by simp [irrefl]
  trans {a b c} h k := by
    simp only [Bool.or_eq_true, Bool.and_eq_true, decide_eq_true_eq] at *
    rcases h with h | ⟨e, h⟩ <;> rcases k with k | ⟨e', k⟩
    · exact .inl (trans h k)
    · exact .inl (e' ▸ h)
    · exact .inl (e ▸ k)
    · exact .inr ⟨e.trans e', trans h k⟩
  total {a b} h k := by
    simp only [Bool.or_eq_false_iff, Bool.and_eq_false_iff, decide_eq_false_iff_not] at *
    have e : a.1 = b.1 := total h.1 k.1
    have s : a.2 = b.2 := total (h.2.resolve_left (· e)) (k.2.resolve_left (· e.symm))
    exact Prod.ext e s

end Ordered

structure Table (κ α : Type) [Ordered κ] where
  entries : List (κ × α)
  ascending : entries.Pairwise fun a b => Ordered.before a.1 b.1 = true

namespace Table

variable {κ α β : Type} [Ordered κ]

def empty : Table κ α := ⟨[], .nil⟩

instance : EmptyCollection (Table κ α) := ⟨empty⟩
instance : Inhabited (Table κ α) := ⟨empty⟩

theorem eq_of_entries {s t : Table κ α} (h : s.entries = t.entries) : s = t := by
  cases s; cases t; simp_all

instance [DecidableEq κ] [DecidableEq α] : DecidableEq (Table κ α) := fun s t =>
  if h : s.entries = t.entries then .isTrue (eq_of_entries h)
  else .isFalse fun e => h (e ▸ rfl)

def place (k : κ) (v : α) : List (κ × α) → List (κ × α)
  | [] => [(k, v)]
  | e :: rest =>
    if Ordered.before k e.1 then (k, v) :: e :: rest
    else if Ordered.before e.1 k then e :: place k v rest
    else (k, v) :: rest

theorem mem_place {k : κ} {v : α} {l : List (κ × α)} {e : κ × α}
    (h : e ∈ place k v l) : e = (k, v) ∨ e ∈ l := by
  induction l with
  | nil => exact .inl (by simpa [place] using h)
  | cons d rest ih =>
    rw [place] at h
    split at h
    · exact (List.mem_cons.mp h)
    · split at h
      · rcases List.mem_cons.mp h with rfl | h
        · simp
        · rcases ih h with h | h <;> simp [h]
      · rcases List.mem_cons.mp h with h | h
        · exact .inl h
        · simp [h]

theorem place_ascending (k : κ) (v : α) {l : List (κ × α)}
    (h : l.Pairwise fun a b => Ordered.before a.1 b.1 = true) :
    (place k v l).Pairwise fun a b => Ordered.before a.1 b.1 = true := by
  induction l with
  | nil => simp [place]
  | cons d rest ih =>
    have ⟨first, later⟩ := List.pairwise_cons.mp h
    rw [place]
    split
    · rename_i lt
      refine List.pairwise_cons.mpr ⟨fun e m => ?_, h⟩
      rcases List.mem_cons.mp m with rfl | m
      · exact lt
      · exact Ordered.trans lt (first e m)
    · split
      · rename_i gt
        refine List.pairwise_cons.mpr ⟨fun e m => ?_, ih later⟩
        rcases mem_place m with rfl | m
        · exact gt
        · exact first e m
      · rename_i notLt notGt
        have same : k = d.1 := Ordered.total (by simpa using notLt) (by simpa using notGt)
        exact List.pairwise_cons.mpr ⟨fun e m => same ▸ first e m, later⟩

def insert (t : Table κ α) (k : κ) (v : α) : Table κ α :=
  ⟨place k v t.entries, place_ascending k v t.ascending⟩

def filter (t : Table κ α) (p : κ → α → Bool) : Table κ α :=
  ⟨t.entries.filter fun e => p e.1 e.2, t.ascending.filter _⟩

def mapValues (t : Table κ α) (f : κ → α → β) : Table κ β :=
  ⟨t.entries.map fun e => (e.1, f e.1 e.2), t.ascending.map _ fun _ _ h => h⟩

/-- A later entry for a key takes the place of an earlier one. -/
def insertAll (t : Table κ α) (l : List (κ × α)) : Table κ α :=
  l.foldl (fun t e => t.insert e.1 e.2) t

def ofList (l : List (κ × α)) : Table κ α := insertAll ∅ l

def keys (t : Table κ α) : List κ := t.entries.map (·.1)
def values (t : Table κ α) : List α := t.entries.map (·.2)
def size (t : Table κ α) : Nat := t.entries.length
def isEmpty (t : Table κ α) : Bool := t.entries.isEmpty

variable [DecidableEq κ]

def get? (t : Table κ α) (k : κ) : Option α := t.entries.lookup k

def contains (t : Table κ α) (k : κ) : Bool := (t.get? k).isSome

def getD (t : Table κ α) (k : κ) (default : α) : α := (t.get? k).getD default

def erase (t : Table κ α) (k : κ) : Table κ α := t.filter fun k' _ => k' != k

/-- Changes the value at a key, which is taken to be `default` if there is none. -/
def modify (t : Table κ α) (k : κ) (default : α) (f : α → α) : Table κ α :=
  t.insert k (f (t.getD k default))

end Table

/-- A list put into ascending order, each element once. -/
def distinct {κ : Type} [Ordered κ] (l : List κ) : List κ :=
  (Table.ofList (l.map fun k => (k, ()))).keys

end ClusterClient
