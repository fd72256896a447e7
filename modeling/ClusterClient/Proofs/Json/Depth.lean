import ClusterClient.Proofs.Json.Values
/-!
How deep a value is nested decides whether it is read back. Up to the limit of the reader it
is, and has its canonical form if it was written in that; beyond it no value is made of it.
-/
namespace ClusterClient.Json

mutual

/-- How many lists and objects stand within each other. -/
def nesting : Json → Nat
  | list items => itemsNesting items + 1
  | object members | respelled members => membersNesting members + 1
  | _ => 0

def itemsNesting : List Json → Nat
  | [] => 0
  | j :: rest => max (nesting j) (itemsNesting rest)

def membersNesting : List (String × Json) → Nat
  | [] => 0
  | (_, j) :: rest => max (nesting j) (membersNesting rest)

end

mutual

/-- What is read where a value was written, if that is not too deep. -/
def spelled : Json → Json
  | list items => list (spelledItems items)
  | object members => asObject (spelledMembers members)
  | j => j

def spelledItems : List Json → List Json
  | [] => []
  | j :: rest => spelled j :: spelledItems rest

def spelledMembers : List (String × Json) → List (String × Json)
  | [] => []
  | (k, j) :: rest => (k, spelled j) :: spelledMembers rest

end

theorem atDepth_of_lt {depth : Nat} (shallow : depth < depthLimit) (j : Json) :
    atDepth depth j = j := if_pos shallow

mutual

theorem asRead_eq_spelled {depth : Nat} :
    ∀ {j : Json}, depth + nesting j < depthLimit → asRead depth j = spelled j
  | list items, shallow => by
    rw [nesting] at shallow
    rw [asRead, spelled, atDepth_of_lt (by omega), asReadItems_eq_spelledItems (by omega)]
  | object members, shallow => by
    rw [nesting] at shallow
    rw [asRead, spelled, atDepth_of_lt (by omega), asReadMembers_eq_spelledMembers (by omega)]
  | null, _ | bool _, _ | int _, _ | real _, _ | text _, _ | respelled _, _ | unusable, _ => rfl

theorem asReadItems_eq_spelledItems {depth : Nat} :
    ∀ {items : List Json}, depth + itemsNesting items < depthLimit →
      asReadItems depth items = spelledItems items
  | [], _ => rfl
  | j :: rest, shallow => by
    rw [itemsNesting] at shallow
    rw [asReadItems, spelledItems, asRead_eq_spelled (by omega),
      asReadItems_eq_spelledItems (by omega)]

theorem asReadMembers_eq_spelledMembers {depth : Nat} :
    ∀ {members : List (String × Json)}, depth + membersNesting members < depthLimit →
      asReadMembers depth members = spelledMembers members
  | [], _ => rfl
  | (k, j) :: rest, shallow => by
    rw [membersNesting] at shallow
    rw [asReadMembers, spelledMembers, asRead_eq_spelled (by omega),
      asReadMembers_eq_spelledMembers (by omega)]

end

/-! ## Canonical forms -/

/-- A value in canonical form with no fraction in it and integers within 64 bits: the members
of an object are in the order of their names, which differ. -/
inductive Whole : Json → Prop
  | null : Whole null
  | bool (b : Bool) : Whole (bool b)
  | int {n : Int} (above : -(1 <<< 63 : Nat) ≤ n) (below : n < UInt64.size) : Whole (int n)
  | text (s : String) : Whole (text s)
  | list {items : List Json} (each : ∀ j ∈ items, Whole j) : Whole (list items)
  | object {members : List (String × Json)} (each : ∀ m ∈ members, Whole m.2)
    (ascending : members.Pairwise fun a b => Ordered.before a.1 b.1 = true) :
    Whole (object members)

theorem Whole.legible {j : Json} (whole : j.Whole) : j.Legible := by
  induction whole with
  | null => exact .null
  | bool b => exact .bool b
  | int above below => exact .int above below
  | text s => exact .text s
  | list each ih => exact .list ih
  | object each ascending ih => exact .object ih

theorem ordered_eq_self {members : List (String × Json)}
    (ascending : members.Pairwise fun a b => Ordered.before a.1 b.1 = true) :
    ordered members = members :=
  congrArg Table.entries (Table.ofList_entries ⟨members, ascending⟩)

theorem canonical?_asObject (members : List (String × Json)) :
    canonical? (asObject members) =
      (canonicalMembers? members).map fun ms => object (ordered ms) := by
  unfold asObject
  split <;> rfl

/-- Whether a value of its own at some depth is made of what was written. -/
def Fits (depth : Nat) (j : Json) : Prop :=
  canonical? (asRead depth j) = if depth + nesting j < depthLimit then some j else none

theorem canonicalItems?_asRead {depth : Nat} {items : List Json} (shallow : depth < depthLimit)
    (each : ∀ j ∈ items, Fits depth j) :
    canonicalItems? (asReadItems depth items) =
      if depth + itemsNesting items < depthLimit then some items else none := by
  induction items with
  | nil => exact (if_pos shallow).symm
  | cons j rest ih =>
    obtain ⟨first, others⟩ := List.forall_mem_cons.mp each
    rw [asReadItems, canonicalItems?, first, ih others, itemsNesting]
    by_cases own : depth + nesting j < depthLimit
    · by_cases later : depth + itemsNesting rest < depthLimit
      · rw [if_pos own, if_pos later, if_pos (by omega)]
      · rw [if_pos own, if_neg later, if_neg (by omega)]
    · have deep : ¬ depth + max (nesting j) (itemsNesting rest) < depthLimit := by omega
      rw [if_neg own, if_neg deep]

theorem canonicalMembers?_asRead {depth : Nat} {members : List (String × Json)}
    (shallow : depth < depthLimit) (each : ∀ m ∈ members, Fits depth m.2) :
    canonicalMembers? (asReadMembers depth members) =
      if depth + membersNesting members < depthLimit then some members else none := by
  induction members with
  | nil => exact (if_pos shallow).symm
  | cons m rest ih =>
    obtain ⟨first, others⟩ := List.forall_mem_cons.mp each
    rw [asReadMembers, canonicalMembers?, first, ih others, membersNesting]
    by_cases own : depth + nesting m.2 < depthLimit
    · by_cases later : depth + membersNesting rest < depthLimit
      · rw [if_pos own, if_pos later, if_pos (by omega)]
      · rw [if_pos own, if_neg later, if_neg (by omega)]
    · have deep : ¬ depth + max (nesting m.2) (membersNesting rest) < depthLimit := by omega
      rw [if_neg own, if_neg deep]

/-- Read at a depth where the reader still goes, a value is itself again or none at all. -/
theorem Whole.fits {j : Json} (whole : j.Whole) {depth : Nat} (shallow : depth < depthLimit) :
    Fits depth j := by
  induction whole generalizing depth with
  | null | bool | int | text => exact (if_pos shallow).symm
  | @list items each ih =>
    rw [Fits, asRead, nesting]
    -- one level down the reader may have come to its limit, whatever the items are
    by_cases next : depth + 1 < depthLimit
    · have made := canonicalItems?_asRead next fun j here => ih j here next
      rw [atDepth_of_lt next, canonical?, made]
      by_cases room : depth + 1 + itemsNesting items < depthLimit
      · rw [if_pos room, if_pos (by omega)]
        rfl
      · rw [if_neg room, if_neg (by omega)]
        rfl
    · rw [atDepth, if_neg next, if_neg (by omega)]
      rfl
  | @object members each ascending ih =>
    rw [Fits, asRead, nesting]
    by_cases next : depth + 1 < depthLimit
    · have made := canonicalMembers?_asRead next fun m here => ih m here next
      rw [atDepth_of_lt next, canonical?_asObject, made]
      by_cases room : depth + 1 + membersNesting members < depthLimit
      · rw [if_pos room, if_pos (by omega), Option.map_some, ordered_eq_self ascending]
      · rw [if_neg room, if_neg (by omega)]
        rfl
    · rw [atDepth, if_neg next, if_neg (by omega)]
      rfl

end ClusterClient.Json
