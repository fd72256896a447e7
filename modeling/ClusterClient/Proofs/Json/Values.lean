import ClusterClient.Proofs.Json.Scalars
import ClusterClient.Table.Lemmas
/-!
Values that are written as JSON are read back, as far as they are nested no deeper than the
reader goes. What was read tells how the names in it were spelled.
-/
namespace ClusterClient.Json

open Text

/-- No number has a fraction, and all of them fit into 64 bits. -/
inductive Legible : Json → Prop
  | null : Legible null
  | bool (b : Bool) : Legible (bool b)
  | int {n : Int} (above : -(1 <<< 63 : Nat) ≤ n) (below : n < UInt64.size) : Legible (int n)
  | text (s : String) : Legible (text s)
  | list {items : List Json} (each : ∀ j ∈ items, Legible j) : Legible (list items)
  | object {members : List (String × Json)} (each : ∀ m ∈ members, Legible m.2) :
    Legible (object members)

/-- How the reader gives an object: it tells whether a name was written with an escape. -/
def asObject (members : List (String × Json)) : Json :=
  if members.all fun m => isOwnName m.1 then object members else respelled members

mutual

/-- What is read at some depth where a value was written. -/
def asRead (depth : Nat) : Json → Json
  | list items => atDepth (depth + 1) (list (asReadItems (depth + 1) items))
  | object members => atDepth (depth + 1) (asObject (asReadMembers (depth + 1) members))
  | j => j

def asReadItems (depth : Nat) : List Json → List Json
  | [] => []
  | j :: rest => asRead depth j :: asReadItems depth rest

def asReadMembers (depth : Nat) : List (String × Json) → List (String × Json)
  | [] => []
  | (k, j) :: rest => (k, asRead depth j) :: asReadMembers depth rest

end

theorem withMember_asObject (k : String) (v : Json) (members : List (String × Json)) :
    withMember (isOwnName k) (some k) v (asObject members) = asObject ((k, v) :: members) := by
  unfold asObject
  rw [List.all_cons]
  cases own : isOwnName k <;> cases members.all fun m => isOwnName m.1 <;> rfl

/-! ## Reading -/

/-- Nothing is passed over before a value, and it does not look like the end of a list. -/
theorem write_starts {j : Json} (legible : j.Legible) :
    ∃ c cs, write j = c :: cs ∧ isSpace c = false ∧ c ≠ ']' := by
  cases legible with
  | null => exact ⟨_, _, rfl, rfl, by decide⟩
  | bool b => cases b <;> exact ⟨_, _, rfl, rfl, by decide⟩
  | text s => exact ⟨_, _, rfl, rfl, by decide⟩
  | list each => exact ⟨_, _, rfl, rfl, by decide⟩
  | object each => exact ⟨_, _, rfl, rfl, by decide⟩
  | @int n _ _ =>
    cases n with
    | negSucc n => exact ⟨_, _, rfl, rfl, by decide⟩
    | ofNat n =>
      obtain ⟨c, cs, front, digit, _⟩ := decimal_starts n
      exact ⟨c, cs, front, isSpace_of_isDigit digit, ne_of_kind digit rfl⟩

/-- Two units of fuel for each character are enough, and what stands behind is left. -/
def ReadsBack (j : Json) : Prop :=
  ∀ fuel depth rest, 2 * (write j).length ≤ fuel → Ends rest →
    readValue fuel depth (write j ++ rest) = some (asRead depth j, rest)

theorem skipSpace_solid {c : Char} (solid : isSpace c = false) (rest : List Char) :
    skipSpace (c :: rest) = c :: rest := by
  rw [skipSpace, solid]
  rfl

theorem ends_comma (rest : List Char) : Ends (',' :: rest) := by
  rintro c ⟨⟩
  exact .inl rfl

theorem ends_bracket (rest : List Char) : Ends (']' :: rest) := by
  rintro c ⟨⟩
  exact .inr (.inl rfl)

theorem ends_brace (rest : List Char) : Ends ('\x7d' :: rest) := by
  rintro c ⟨⟩
  exact .inr (.inr rfl)

theorem readsBack_of_succ {j : Json} (legible : j.Legible)
    (read : ∀ fuel depth rest, 2 * (write j).length ≤ fuel + 1 → Ends rest →
      readValue (fuel + 1) depth (write j ++ rest) = some (asRead depth j, rest)) :
    ReadsBack j := by
  intro fuel depth rest enough ends
  obtain ⟨c, cs, starts, _⟩ := write_starts legible
  have length : 0 < (write j).length := by
    rw [starts]
    exact Nat.succ_pos _
  obtain ⟨fuel, rfl⟩ : ∃ n, fuel = n + 1 := ⟨fuel - 1, by omega⟩
  exact read fuel depth rest enough ends

theorem readItems_write {items : List Json} (filled : items ≠ [])
    (each : ∀ j ∈ items, ReadsBack j) (fuel depth : Nat) (rest : List Char)
    (enough : 2 * (writeItems items).length ≤ fuel) :
    readItems fuel depth (writeItems items ++ rest) = some (asReadItems depth items, rest) := by
  induction items generalizing fuel with
  | nil => exact absurd rfl filled
  | cons j items ih =>
    obtain ⟨first, others⟩ := List.forall_mem_cons.mp each
    cases items with
    | nil =>
      rw [writeItems, List.length_append, List.length_singleton] at enough
      obtain ⟨fuel, rfl⟩ : ∃ n, fuel = n + 1 := ⟨fuel - 1, by omega⟩
      have read := first fuel depth (']' :: rest) (by omega) (ends_bracket rest)
      rw [writeItems, List.append_assoc, List.singleton_append, readItems, read]
      rfl
    | cons k items =>
      rw [writeItems, List.length_append, List.length_cons] at enough
      · obtain ⟨fuel, rfl⟩ : ∃ n, fuel = n + 1 := ⟨fuel - 1, by omega⟩
        have read := first fuel depth (',' :: (writeItems (k :: items) ++ rest)) (by omega)
          (ends_comma _)
        have later := ih (List.cons_ne_nil _ _) others fuel (by omega)
        rw [writeItems, List.append_assoc, List.cons_append, readItems, read]
        · simp only [skipSpace_solid (c := ',') rfl, later]
          rfl
        · exact List.cons_ne_nil _ _
      · exact List.cons_ne_nil _ _

theorem member_text (k : String) (value rest : List Char) :
    writeString k ++ ':' :: value ++ rest =
      '"' :: (k.toList.flatMap escape ++ '"' :: ':' :: (value ++ rest)) := by
  simp [writeString]

theorem isPlain_name (k : String) (rest : List Char) :
    isPlain (k.toList.flatMap escape ++ '"' :: rest) = isOwnName k :=
  isPlain_flatMap k.toList rest

theorem readMembers_last (k : String) {j : Json} (read : ReadsBack j) {fuel : Nat}
    (enough : 2 * (write j).length ≤ fuel) (depth : Nat) (rest : List Char) :
    readMembers (fuel + 1) depth (writeString k ++ ':' :: write j ++ '\x7d' :: rest) =
      some (asObject [(k, asRead depth j)], rest) := by
  have value := read fuel depth ('\x7d' :: rest) enough (ends_brace rest)
  rw [member_text, readMembers, skipSpace_solid rfl]
  simp only [readString_flatMap, skipSpace_solid (c := ':') rfl, value, isPlain_name,
    skipSpace_solid (c := '\x7d') rfl]
  exact congrArg (fun j => some (j, rest)) (withMember_asObject k (asRead depth j) [])

theorem readMembers_more (k : String) {j : Json} (read : ReadsBack j) {fuel : Nat}
    (enough : 2 * (write j).length ≤ fuel) {depth : Nat} {more rest : List Char}
    {members : List (String × Json)}
    (later : readMembers fuel depth more = some (asObject members, rest)) :
    readMembers (fuel + 1) depth (writeString k ++ ':' :: write j ++ ',' :: more) =
      some (asObject ((k, asRead depth j) :: members), rest) := by
  have value := read fuel depth (',' :: more) enough (ends_comma more)
  rw [member_text, readMembers, skipSpace_solid rfl]
  simp only [readString_flatMap, skipSpace_solid (c := ':') rfl, value, isPlain_name,
    skipSpace_solid (c := ',') rfl, later, Option.map_some, withMember_asObject]

theorem readMembers_write {members : List (String × Json)} (filled : members ≠ [])
    (each : ∀ m ∈ members, ReadsBack m.2) (fuel depth : Nat) (rest : List Char)
    (enough : 2 * (writeMembers members).length ≤ fuel) :
    readMembers fuel depth (writeMembers members ++ rest) =
      some (asObject (asReadMembers depth members), rest) := by
  induction members generalizing fuel with
  | nil => exact absurd rfl filled
  | cons m members ih =>
    obtain ⟨k, j⟩ := m
    obtain ⟨first, others⟩ := List.forall_mem_cons.mp each
    change ReadsBack j at first
    cases members with
    | nil =>
      simp only [writeMembers, List.length_append, List.length_cons, List.length_nil] at enough
      obtain ⟨fuel, rfl⟩ : ∃ n, fuel = n + 1 := ⟨fuel - 1, by omega⟩
      rw [writeMembers, List.append_assoc, List.singleton_append,
        readMembers_last k first (by omega)]
      rfl
    | cons n members =>
      have more : n :: members ≠ [] := List.cons_ne_nil _ _
      simp only [writeMembers, List.length_append, List.length_cons] at enough
      obtain ⟨fuel, rfl⟩ : ∃ n, fuel = n + 1 := ⟨fuel - 1, by omega⟩
      have later := ih more others fuel (by omega)
      rw [writeMembers, List.append_assoc, List.cons_append,
        readMembers_more k first (by omega) later]
      · rfl
      · exact more

theorem writeItems_starts {items : List Json} (filled : items ≠ [])
    (each : ∀ j ∈ items, Legible j) :
    ∃ c cs, writeItems items = c :: cs ∧ isSpace c = false ∧ c ≠ ']' := by
  obtain ⟨j, rest, rfl⟩ := List.exists_cons_of_ne_nil filled
  obtain ⟨c, cs, starts, solid, other⟩ := write_starts (each j List.mem_cons_self)
  cases rest with
  | nil => exact ⟨c, _, by rw [writeItems, starts]; rfl, solid, other⟩
  | cons k rest =>
    refine ⟨c, cs ++ ',' :: writeItems (k :: rest), ?_, solid, other⟩
    rw [writeItems, starts]
    · rfl
    · exact List.cons_ne_nil _ _

theorem readsBack_list {items : List Json} (each : ∀ j ∈ items, Legible j)
    (read : ∀ j ∈ items, ReadsBack j) : ReadsBack (list items) := by
  refine readsBack_of_succ (.list each) fun fuel depth rest enough ends => ?_
  rw [write, List.length_cons] at enough
  rw [write, List.cons_append, readValue, skipSpace_solid rfl, asRead]
  -- the reader has a case of its own for the list without items
  by_cases empty : items = []
  · subst empty
    rfl
  · have items := readItems_write empty read fuel (depth + 1) rest (by omega)
    obtain ⟨c, cs, starts, solid, other⟩ := writeItems_starts empty each
    rw [starts, List.cons_append] at items ⊢
    simp only [skipSpace_solid solid]
    simp [other, items]

theorem writeMembers_starts {members : List (String × Json)} (filled : members ≠ []) :
    ∃ cs, writeMembers members = '"' :: cs := by
  obtain ⟨m, rest, rfl⟩ := List.exists_cons_of_ne_nil filled
  cases rest with
  | nil => exact ⟨_, rfl⟩
  | cons n rest => exact ⟨_, rfl⟩

theorem readsBack_object {members : List (String × Json)} (each : ∀ m ∈ members, Legible m.2)
    (read : ∀ m ∈ members, ReadsBack m.2) : ReadsBack (object members) := by
  refine readsBack_of_succ (.object each) fun fuel depth rest enough ends => ?_
  rw [write, List.length_cons] at enough
  rw [write, List.cons_append, readValue, skipSpace_solid rfl, asRead]
  by_cases empty : members = []
  · subst empty
    rfl
  · have members := readMembers_write empty read fuel (depth + 1) rest (by omega)
    obtain ⟨cs, starts⟩ := writeMembers_starts empty
    rw [starts, List.cons_append] at members ⊢
    simp only [skipSpace_solid (c := '"') rfl]
    change (readMembers fuel (depth + 1) ('"' :: (cs ++ rest))).map _ = _
    rw [members]
    rfl

/-- Whatever stands behind it, a value is read as far as it was written. -/
theorem Legible.readsBack {j : Json} (legible : j.Legible) : ReadsBack j := by
  induction legible with
  | null => exact readsBack_of_succ .null fun _ _ _ _ _ => rfl
  | bool b => cases b <;> exact readsBack_of_succ (.bool _) fun _ _ _ _ _ => rfl
  | int above below =>
    exact readsBack_of_succ (.int above below) fun fuel depth _ _ ends =>
      readValue_signed fuel depth above below ends
  | text s =>
    refine readsBack_of_succ (.text s) fun fuel depth rest _ _ => ?_
    have text : write (.text s) ++ rest = '"' :: (s.toList.flatMap escape ++ '"' :: rest) := by
      simp [write, writeString]
    rw [text, readValue, skipSpace_solid rfl]
    simp only [readString_flatMap]
    rfl
  | list each ih => exact readsBack_list each ih
  | object each ih => exact readsBack_object each ih

/-- The text of a value is read back at the depth of nothing else. -/
theorem parse?_print {j : Json} (legible : j.Legible) : parse? (print j) = some (asRead 0 j) := by
  have read := legible.readsBack (2 * (write j).length + 2) 0 [] (by omega) (by rintro c ⟨⟩)
  rw [List.append_nil] at read
  rw [parse?, print, String.toList_ofList, read?, read]
  rfl

end ClusterClient.Json
