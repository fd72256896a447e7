import ClusterClient.Proofs.Json.Depth
import ClusterClient.Wire
import Mathlib.Data.List.Nodup
/-!
Which values keep all they are in their JSON form: the form can be read, and what is read
where it was written stands for the value again. Lists, options, tables and records do if
what is in them does.
-/
namespace ClusterClient.Wire

open Json (Legible nesting spelled asObject isOwnName depthLimit)

/-- The form of a value can be read, and no more than so many lists and objects stand within
each other in it. -/
structure Within (depth : Nat) (j : Json) : Prop where
  legible : j.Legible
  nesting_le : j.nesting ≤ depth

theorem Within.mono {depth depth' : Nat} {j : Json} (within : Within depth j)
    (more : depth ≤ depth') : Within depth' j :=
  ⟨within.legible, within.nesting_le.trans more⟩

/-- The form can be read, and what is read there is the value. -/
structure Stands {α : Type} [Wire α] (depth : Nat) (j : Json) (a : α) : Prop where
  within : Within depth j
  decode_spelled : decode? j.spelled = some a

/-- What is written for a value can be read, and what is read there is that value again. -/
class Lossless (α : Type) [Wire α] (depth : outParam Nat) : Prop where
  within (a : α) : Within depth (encode a)
  decode_spelled (a : α) : decode? (encode a).spelled = some a

/-- The text of the form is read as the value. -/
def ReadAs {α : Type} [Wire α] (j : Json) (a : α) : Prop :=
  (Json.parse? (Json.print j)).bind decode? = some a

/-- The text of the value is read back as that value. -/
def RoundTrips {α : Type} [Wire α] (a : α) : Prop := ReadAs (encode a) a

variable {α : Type} [Wire α] {depth : Nat} {j : Json} {a : α}

theorem Stands.readAs (stands : Stands depth j a) (shallow : depth < depthLimit) :
    ReadAs j a := by
  obtain ⟨⟨legible, nesting_le⟩, decoded⟩ := stands
  have room : 0 + j.nesting < depthLimit := by omega
  rw [ReadAs, Json.parse?_print legible, Option.bind_some, Json.asRead_eq_spelled room, decoded]

theorem Lossless.stands [Lossless α depth] (a : α) : Stands depth (encode a) a :=
  ⟨within a, decode_spelled a⟩

theorem Lossless.roundTrips [Lossless α depth] (shallow : depth < depthLimit) (a : α) :
    RoundTrips a :=
  (stands a).readAs shallow

theorem within_encode [Lossless α depth] {room : Nat} (enough : depth ≤ room) (a : α) :
    Within room (encode a) :=
  (Lossless.within a).mono enough

@[simp ↓] theorem decode_bind {β : Type} [Lossless α depth] (a : α) (f : α → Option β) :
    (decode? (encode a).spelled >>= f) = f a :=
  congrArg (Option.bind · f) (Lossless.decode_spelled a)

@[simp ↓] theorem need_bind {β : Type} [Lossless α depth] (a : α) (f : α → Option β) :
    (need (some (encode a).spelled) >>= f) = f a := decode_bind a f

@[simp ↓] theorem may_bind {β : Type} [Lossless (Option α) depth] (a : Option α)
    (f : Option α → Option β) : (may (some (encode a).spelled) >>= f) = f a := decode_bind a f

/-! ## Single values -/

theorem bounded_int {β : Type} {low high n : Int} {make : Int → β} (within : low ≤ n ∧ n ≤ high) :
    bounded low high make (.int n) = some (make n) := if_pos within

instance : Lossless Int32 0 where
  within n := by
    have low := n.minValue_le_toInt
    have high := n.toInt_lt
    refine ⟨.int ?_ ?_, le_refl 0⟩
    · have : -(1 <<< 63 : Nat) ≤ Int32.minValue.toInt := by decide
      omega
    · have : (2 : Int) ^ 31 ≤ UInt64.size := by decide
      omega
  decode_spelled n := by
    have within : Int32.minValue.toInt ≤ n.toInt ∧ n.toInt ≤ Int32.maxValue.toInt :=
      ⟨n.minValue_le_toInt, n.toInt_le⟩
    exact (bounded_int within).trans (congrArg some n.ofInt_toInt)

instance : Lossless Int64 0 where
  within n := by
    have low := n.minValue_le_toInt
    have high := n.toInt_lt
    refine ⟨.int ?_ ?_, le_refl 0⟩
    · have : -(1 <<< 63 : Nat) = Int64.minValue.toInt := by decide
      omega
    · have : (2 : Int) ^ 63 ≤ UInt64.size := by decide
      omega
  decode_spelled n := by
    have within : Int64.minValue.toInt ≤ n.toInt ∧ n.toInt ≤ Int64.maxValue.toInt :=
      ⟨n.minValue_le_toInt, n.toInt_le⟩
    exact (bounded_int within).trans (congrArg some n.ofInt_toInt)

instance : Lossless UInt16 0 where
  within n := by
    have high := n.toNat_lt
    have size : UInt64.size = 2 ^ 64 := rfl
    exact ⟨.int (by omega) (by omega), le_refl 0⟩
  decode_spelled n := by
    have high := n.toNat_lt
    have within : (0 : Int) ≤ n.toNat ∧ (n.toNat : Int) ≤ UInt16.size - 1 := by
      have size : (UInt16.size : Int) = 2 ^ 16 := rfl
      omega
    exact (bounded_int within).trans (by simp)

instance : Lossless UInt64 0 where
  within n := by
    have high := n.toNat_lt
    have size : UInt64.size = 2 ^ 64 := rfl
    exact ⟨.int (by omega) (by omega), le_refl 0⟩
  decode_spelled n := by
    have high := n.toNat_lt
    have within : (0 : Int) ≤ n.toNat ∧ (n.toNat : Int) ≤ UInt64.size - 1 := by
      have size : (UInt64.size : Int) = 2 ^ 64 := rfl
      omega
    exact (bounded_int within).trans (by simp)

instance : Lossless Bool 0 where
  within b := ⟨.bool b, le_refl 0⟩
  decode_spelled _ := rfl

instance : Lossless String 0 where
  within s := ⟨.text s, le_refl 0⟩
  decode_spelled _ := rfl

instance : Lossless Unit 0 where
  within _ := ⟨.null, le_refl 0⟩
  decode_spelled _ := rfl

/-- An enumeration, whose cases are written by their names. -/
theorem Lossless.cases (name : α → String) (form : ∀ a, encode a = .text (name a))
    (back : ∀ a : α, decode? (.text (name a)) = some a) : Lossless α 0 where
  within a := form a ▸ ⟨.text (name a), le_refl 0⟩
  decode_spelled a := by
    rw [form]
    exact back a

/-! ## Lists and options -/

theorem itemsNesting_le {items : List Json} (each : ∀ j ∈ items, j.nesting ≤ depth) :
    Json.itemsNesting items ≤ depth := by
  induction items with
  | nil => exact Nat.zero_le _
  | cons j rest ih =>
    obtain ⟨first, others⟩ := List.forall_mem_cons.mp each
    exact Nat.max_le.mpr ⟨first, ih others⟩

theorem decodeAll_spelled [Lossless α depth] (l : List α) :
    decodeAll (Json.spelledItems (l.map encode)) = some l := by
  induction l with
  | nil => rfl
  | cons a rest ih =>
    rw [List.map_cons, Json.spelledItems, decodeAll, Lossless.decode_spelled, ih]
    rfl

instance [Lossless α depth] : Lossless (List α) (depth + 1) where
  within l := by
    have each : ∀ j ∈ l.map encode, Within depth j := by
      intro j here
      obtain ⟨a, -, rfl⟩ := List.mem_map.mp here
      exact Lossless.within a
    have nesting := itemsNesting_le fun j here => (each j here).nesting_le
    exact ⟨.list fun j here => (each j here).legible, Nat.succ_le_succ nesting⟩
  decode_spelled l := decodeAll_spelled l

/-- No value looks as if there were none. -/
class NonNull (α : Type) [Wire α] : Prop where
  encode_ne_null (a : α) : encode a ≠ .null

instance : NonNull String := ⟨fun _ => nofun⟩

instance : NonNull (Table Int32 α) := ⟨fun _ => nofun⟩

theorem asObject_ne_null (members : List (String × Json)) : asObject members ≠ .null := by
  unfold asObject
  split <;> nofun

theorem spelled_ne_null (there : j ≠ .null) : j.spelled ≠ .null := by
  cases j with
  | null => exact absurd rfl there
  | object members => exact asObject_ne_null _
  | _ => nofun

theorem decode_option (there : j ≠ .null) :
    (decode? j : Option (Option α)) = (decode? j).map Option.some := by
  cases j with
  | null => exact absurd rfl there
  | _ => rfl

/-- An option is written as what is in it. -/
theorem Stands.some (stands : Stands depth j a) (there : j ≠ .null) :
    Stands depth j (Option.some a) where
  within := stands.within
  decode_spelled := by
    rw [decode_option (spelled_ne_null there), stands.decode_spelled]
    rfl

instance [Lossless α depth] [NonNull α] : Lossless (Option α) depth where
  within
    | none => ⟨.null, Nat.zero_le _⟩
    | some a => Lossless.within a
  decode_spelled
    | none => rfl
    | some a => ((Lossless.stands a).some (NonNull.encode_ne_null a)).decode_spelled

/-! ## Objects -/

theorem membersNesting_le {members : List (String × Json)}
    (each : ∀ m ∈ members, m.2.nesting ≤ depth) : Json.membersNesting members ≤ depth := by
  induction members with
  | nil => exact Nat.zero_le _
  | cons m rest ih =>
    obtain ⟨first, others⟩ := List.forall_mem_cons.mp each
    exact Nat.max_le.mpr ⟨first, ih others⟩

theorem within_object {members : List (String × Json)} (each : ∀ m ∈ members, Within depth m.2) :
    Within (depth + 1) (.object members) where
  legible := .object fun m here => (each m here).legible
  nesting_le := Nat.succ_le_succ (membersNesting_le fun m here => (each m here).nesting_le)

theorem asObject_own {members : List (String × Json)}
    (own : ∀ name ∈ members.map Prod.fst, isOwnName name = true) :
    asObject members = .object members := by
  refine if_pos (List.all_eq_true.mpr fun m here => ?_)
  exact own m.1 (List.mem_map_of_mem here)

/-- Where every name is there once, all members are found under theirs. -/
theorem fields?_object (members : List (String × Json))
    (distinct : (members.map Prod.fst).Nodup) :
    fields? (members.map Prod.fst) (.object members) = some (members.map fun m => some m.2) := by
  have once : ((members.map Prod.fst).all fun n =>
      (members.filter fun m => m.1 == n).length ≤ 1) = true := by
    rw [List.all_eq_true]
    intro n _
    rw [← List.countP_eq_length_filter, decide_eq_true_eq]
    have count := List.nodup_iff_count_le_one.mp distinct n
    rwa [List.count, List.countP_map] at count
  simp only [fields?, Json.members?, if_pos once]
  exact congrArg some (Table.map_lookup_keys distinct)

theorem fields?_bind {β : Type} (members : List (String × Json))
    (distinct : (members.map Prod.fst).Nodup) (make : List (Option Json) → Option β) :
    (fields? (members.map Prod.fst) (.object members) >>= make) =
      make (members.map fun m => some m.2) :=
  congrArg (Option.bind · make) (fields?_object members distinct)

theorem names_spelledMembers (members : List (String × Json)) :
    (Json.spelledMembers members).map Prod.fst = members.map Prod.fst := by
  induction members with
  | nil => rfl
  | cons m rest ih => exact congrArg (m.1 :: ·) ih

theorem spelledMembers_zip (names : List String) (values : List Json) :
    Json.spelledMembers (names.zip values) = names.zip (values.map spelled) := by
  induction names generalizing values with
  | nil => rfl
  | cons name names ih =>
    cases values with
    | nil => rfl
    | cons j values => exact congrArg ((name, j.spelled) :: ·) (ih values)

/-- A record whose fields have different names that need no escape, and which is made of what
is found under them. -/
theorem Stands.record (names : List String) (values : List Json)
    (each : ∀ j ∈ values, Within depth j)
    (back : ∀ members, (∀ make : List (Option Json) → Option α,
      (fields? names (.object members) >>= make) =
        make (values.map fun j => Option.some j.spelled)) →
        decode? (.object members) = Option.some a)
    (all : names.length = values.length := by exact rfl)
    (own : ∀ name ∈ names, isOwnName name = true := by decide)
    (distinct : names.Nodup := by decide) :
    Stands (depth + 1) (.object (names.zip values)) a where
  within := within_object fun m here => each m.2 (List.of_mem_zip here).2
  decode_spelled := by
    have length : names.length = (values.map spelled).length := by rw [List.length_map, all]
    have keys : (names.zip (values.map spelled)).map Prod.fst = names :=
      List.map_fst_zip length.le
    have contents : (names.zip (values.map spelled)).map Prod.snd = values.map spelled :=
      List.map_snd_zip length.ge
    have found : (names.zip (values.map spelled)).map (fun m => Option.some m.2) =
        values.map fun j => Option.some j.spelled := by
      rw [← Function.comp_def Option.some Prod.snd, ← List.map_map, contents, List.map_map]
      rfl
    have plain : (Json.object (names.zip values)).spelled =
        .object (names.zip (values.map spelled)) := by
      rw [spelled, spelledMembers_zip, asObject_own]
      rw [keys]
      exact own
    rw [plain]
    refine back _ fun make => ?_
    have made := fields?_bind (names.zip (values.map spelled)) (by rw [keys]; exact distinct) make
    rwa [keys, found] at made

theorem Lossless.record (names : List String) (values : α → List Json)
    (back : ∀ a members, (∀ make : List (Option Json) → Option α,
      (fields? names (.object members) >>= make) = make ((values a).map fun j => some j.spelled)) →
        decode? (.object members) = some a := by exact fun a _ found => (found _).trans (by simp))
    (form : ∀ a, encode a = .object (names.zip (values a)) := by exact fun _ => rfl)
    (all : ∀ a, names.length = (values a).length := by exact fun _ => rfl)
    (own : ∀ name ∈ names, isOwnName name = true := by decide)
    (distinct : names.Nodup := by decide)
    (within : ∀ a, ∀ j ∈ values a, Within depth j := by simp [within_encode]) :
    Lossless α (depth + 1) := by
  have stands (a : α) : Stands (depth + 1) (encode a) a :=
    form a ▸ .record names (values a) (within a) (back a) (all a) own distinct
  exact ⟨fun a => (stands a).within, fun a => (stands a).decode_spelled⟩

/-! ## Tables -/

theorem isOwn_of_isDigit {c : Char} (digit : c.isDigit = true) : Json.isOwn c = true := by
  have visible : 0x20 ≤ c.toNat := by
    have bounds := Text.toNat_of_isDigit digit
    omega
  simp [Json.isOwn, visible, Text.ne_of_kind digit]

theorem isOwnName_showInt (n : Int) : isOwnName (Text.showInt n) = true := by
  rw [isOwnName, Text.showInt, String.toList_ofList, List.all_eq_true]
  intro c written
  rcases Text.mem_signed written with rfl | digit
  · rfl
  · exact isOwn_of_isDigit digit

theorem readKey_showInt {n : Int} (above : -(1 <<< 63 : Nat) ≤ n) (below : n ≤ UInt64.size) :
    readKey (Text.showInt n) = some n := by
  rw [readKey, Text.showInt, String.toList_ofList]
  cases n with
  | ofNat n =>
    rcases Nat.eq_zero_or_pos n with rfl | positive
    · rfl
    · obtain ⟨c, cs, starts, digit, zero⟩ := Text.decimal_starts n
      have read := Text.readDigits_decimal .tooLarge (Int.ofNat_le.mp below)
      have first : c ≠ '0' := fun same => positive.ne' (zero same)
      have sign : c ≠ '-' := Text.ne_of_kind digit rfl
      rw [starts] at read
      rw [Text.signed, starts]
      simp [first, sign, read, Except.toOption]
  | negSucc n =>
    obtain ⟨c, cs, starts, _, zero⟩ := Text.decimal_starts (n + 1)
    have low : n + 1 ≤ 1 <<< 63 := by omega
    have read := Text.readDigits_decimal .tooLarge low
    have first : c ≠ '0' := fun same => n.succ_ne_zero (zero same)
    rw [starts] at read
    rw [Text.signed, starts]
    simp only [if_neg first, read]
    rfl

theorem decodeEntries_spelled [Lossless α depth] (entries : List (Int32 × α)) :
    decodeEntries (Json.spelledMembers (entries.map fun (k, a) => (Text.showInt k.toInt, encode a)))
      = some entries := by
  induction entries with
  | nil => rfl
  | cons e rest ih =>
    have low := e.1.minValue_le_toInt
    have high := e.1.toInt_lt
    have limits : -(1 <<< 63 : Nat) ≤ Int32.minValue.toInt ∧ (2 : Int) ^ 31 ≤ UInt64.size := by
      decide
    have key := readKey_showInt (n := e.1.toInt) (by omega) (by omega)
    have number : bounded Int32.minValue.toInt Int32.maxValue.toInt Int32.ofInt (.int e.1.toInt) =
        some e.1 := Lossless.decode_spelled e.1
    rw [List.map_cons, Json.spelledMembers, decodeEntries, key, Lossless.decode_spelled, ih]
    simp only [Option.bind_eq_bind, Option.bind_some, number]
    rfl

/-- It does not matter in which order the entries of a table are written. -/
theorem stands_ofEntries [Lossless α depth] {entries : List (Int32 × α)} {t : Table Int32 α}
    (perm : entries.Perm t.entries) : Stands (depth + 1) (ofEntries entries) t where
  within := by
    refine within_object fun m here => ?_
    obtain ⟨e, -, rfl⟩ := List.mem_map.mp here
    exact Lossless.within e.2
  decode_spelled := by
    have plain : (ofEntries entries).spelled = .object (Json.spelledMembers
        (entries.map fun (k, a) => (Text.showInt k.toInt, encode a))) := by
      refine asObject_own fun name here => ?_
      rw [names_spelledMembers] at here
      obtain ⟨m, there, rfl⟩ := List.mem_map.mp here
      obtain ⟨e, -, rfl⟩ := List.mem_map.mp there
      exact isOwnName_showInt e.1.toInt
    rw [plain]
    change (decodeEntries _).map Table.ofList = _
    rw [decodeEntries_spelled, Option.map_some, Table.ofList_of_perm perm]

instance [Lossless α depth] : Lossless (Table Int32 α) (depth + 1) where
  within t := (stands_ofEntries (.refl t.entries)).within
  decode_spelled t := (stands_ofEntries (.refl t.entries)).decode_spelled

end ClusterClient.Wire
