import ClusterClient.Json.Reader
import ClusterClient.Json.Writer
import ClusterClient.Proofs.Numerals
/-!
Strings and whole numbers that are written as JSON are read back.
-/
namespace ClusterClient.Json

open Text

/-! ## Strings -/

theorem hex4?_hex : ∀ n < 0x20, ∃ a b c d, hex 4 n = [a, b, c, d] ∧ hex4? a b c d = some n := by
  intro n below
  have each : ∀ n < 0x20, (hex 4 n).length = 4 ∧
      hex4? (hex 4 n)[0]! (hex 4 n)[1]! (hex 4 n)[2]! (hex 4 n)[3]! = some n := by decide +kernel
  obtain ⟨length, value⟩ := each n below
  generalize hex 4 n = digits at length value
  match digits, length with
  | [a, b, c, d], _ => exact ⟨a, b, c, d, rfl, value⟩

/-- Whether a character stands for itself. -/
def isOwn (c : Char) : Bool := c != '"' && c != '\\' && decide (0x20 ≤ c.toNat)

/-- How a character is written: as it is, with one letter or with its number. -/
theorem escape_cases (c : Char) :
    (escape c = [c] ∧ isOwn c = true) ∨
    (isOwn c = false ∧ ∃ x, escape c = ['\\', x] ∧ simpleEscape? x = some c ∧ x ≠ 'u') ∨
    (isOwn c = false ∧
      ∃ a b d e, escape c = ['\\', 'u', a, b, d, e] ∧ hex4? a b d e = some c.toNat) := by
  unfold escape
  split
  · exact .inr (.inl ⟨rfl, _, rfl, rfl, by decide⟩)
  · exact .inr (.inl ⟨rfl, _, rfl, rfl, by decide⟩)
  · exact .inr (.inl ⟨rfl, _, rfl, rfl, by decide⟩)
  · exact .inr (.inl ⟨rfl, _, rfl, rfl, by decide⟩)
  · exact .inr (.inl ⟨rfl, _, rfl, rfl, by decide⟩)
  · exact .inr (.inl ⟨rfl, _, rfl, rfl, by decide⟩)
  · exact .inr (.inl ⟨rfl, _, rfl, rfl, by decide⟩)
  · rename_i quote backslash _ _ _ _ _
    by_cases control : c.toNat < 0x20
    · obtain ⟨a, b, d, e, digits, value⟩ := hex4?_hex c.toNat control
      have other : isOwn c = false := by simp [isOwn, control]
      exact .inr (.inr ⟨other, a, b, d, e, by rw [if_pos control, digits], value⟩)
    · have own : isOwn c = true := by
        have visible : 0x20 ≤ c.toNat := Nat.not_lt.mp control
        simpa [isOwn, visible] using ⟨quote, backslash⟩
      exact .inl ⟨if_neg control, own⟩

theorem readUnits_escape (c : Char) (rest : List Char) :
    readUnits (escape c ++ rest) =
      (readUnits rest).map fun (units, rest) => (c.toNat :: units, rest) := by
  rcases escape_cases c with ⟨form, own⟩ | ⟨_, x, form, back, u⟩ | ⟨_, a, b, d, e, form, back⟩
  · simp only [isOwn, Bool.and_eq_true, bne_iff_ne, decide_eq_true_eq] at own
    obtain ⟨⟨quote, backslash⟩, visible⟩ := own
    rw [form, List.singleton_append, readUnits, if_neg (Nat.not_lt.mpr visible)]
    · exact quote
    · exact fun _ _ _ _ _ same => absurd same backslash
    · exact fun _ _ same => absurd same backslash
  · rw [form, List.cons_append, List.singleton_append, readUnits, back]
    exact fun _ _ _ _ _ same => absurd same u
  · rw [form]
    simp only [List.cons_append, List.nil_append, readUnits, back]

theorem readUnits_flatMap (cs rest : List Char) :
    readUnits (cs.flatMap escape ++ '"' :: rest) = some (cs.map Char.toNat, rest) := by
  induction cs with
  | nil => rfl
  | cons c cs ih =>
    rw [List.flatMap_cons, List.append_assoc, readUnits_escape, ih]
    rfl

/-- No character is half of another one. -/
theorem isHigh_or_isLow_toNat (c : Char) : isHigh c.toNat = false ∧ isLow c.toNat = false := by
  have valid : c.toNat < 0xD800 ∨ 0xDFFF < c.toNat ∧ c.toNat < 0x110000 := c.valid
  simp only [isHigh, isLow, Bool.and_eq_false_iff, decide_eq_false_iff_not]
  omega

theorem joinUnits_toNat (cs : List Char) : joinUnits (cs.map Char.toNat) = some cs := by
  induction cs with
  | nil => rfl
  | cons c cs ih =>
    obtain ⟨high, low⟩ := isHigh_or_isLow_toNat c
    cases cs with
    | nil => simp [joinUnits, high, low]
    | cons d cs =>
      rw [List.map_cons] at ih
      rw [List.map_cons, List.map_cons, joinUnits, high, low, ih]
      simp

theorem readString_flatMap (s : String) (rest : List Char) :
    readString (s.toList.flatMap escape ++ '"' :: rest) = some (some s, rest) := by
  rw [readString, readUnits_flatMap, Option.map_some]
  simp only [joinUnits_toNat, Option.map_some, String.ofList_toList]

/-- A name that is written without escapes. -/
def isOwnName (s : String) : Bool := s.toList.all isOwn

theorem isPlain_flatMap (cs rest : List Char) :
    isPlain (cs.flatMap escape ++ '"' :: rest) = cs.all isOwn := by
  induction cs with
  | nil => rfl
  | cons c cs ih =>
    rw [List.flatMap_cons, List.all_cons]
    rcases escape_cases c with ⟨form, own⟩ | ⟨other, x, form, _⟩ | ⟨other, a, b, d, e, form, _⟩
    · have plain := own
      simp only [isOwn, Bool.and_eq_true, bne_iff_ne] at plain
      obtain ⟨⟨quote, backslash⟩, _⟩ := plain
      rw [form, own, ← ih]
      simp [isPlain, quote, backslash.symm]
    · rw [form, other]
      simp [isPlain]
    · rw [form, other]
      simp [isPlain]

/-! ## Numbers -/

/-- What may stand behind a value: nothing, or what goes on with a list or an object. -/
def Ends (rest : List Char) : Prop := ∀ c ∈ rest.head?, c = ',' ∨ c = ']' ∨ c = '\x7d'

theorem takeDigits_digits {cs rest : List Char} (digits : ∀ c ∈ cs, c.isDigit = true)
    (ends : Ends rest) (value counted : Nat)
    (below : Nat.ofDigitChars 10 cs value < UInt64.size) :
    takeDigits ⟨value, counted, 0⟩ (cs ++ rest) =
      (⟨Nat.ofDigitChars 10 cs value, counted + cs.length, 0⟩, rest) := by
  induction cs generalizing value counted with
  | nil =>
    cases rest with
    | nil => rfl
    | cons c rest =>
      have other : digit? c = none := by
        rcases ends c rfl with rfl | rfl | rfl <;> rfl
      rw [List.nil_append, takeDigits, other]
      rfl
  | cons c cs ih =>
    obtain ⟨first, later⟩ := List.forall_mem_cons.mp digits
    rw [Nat.ofDigitChars_cons] at below ⊢
    have step : value * 10 + (c.toNat - '0'.toNat) = 10 * value + (c.toNat - '0'.toNat) := by omega
    have within := Nat.lt_of_le_of_lt (le_ofDigitChars cs _) below
    rw [List.cons_append, takeDigits, digit?_eq_some first]
    simp only [step]
    rw [if_pos ⟨trivial, within⟩, ih later _ _ below]
    simp [Nat.add_comm, Nat.add_left_comm]

theorem Ends.cases {rest : List Char} (ends : Ends rest) :
    rest = [] ∨ ∃ more, rest = ',' :: more ∨ rest = ']' :: more ∨ rest = '\x7d' :: more := by
  cases rest with
  | nil => exact .inl rfl
  | cons c more =>
    rcases ends c rfl with rfl | rfl | rfl
    · exact .inr ⟨more, .inl rfl⟩
    · exact .inr ⟨more, .inr (.inl rfl)⟩
    · exact .inr ⟨more, .inr (.inr rfl)⟩

/-- The digits of a number that fits into 64 bits. -/
theorem readNumber_decimal (negative : Bool) {n : Nat} (positive : 0 < n)
    (below : n < UInt64.size) (above : negative = true → n ≤ 1 <<< 63) {rest : List Char}
    (ends : Ends rest) :
    readNumber negative (decimal n ++ rest) =
      some (.int (if negative then -(n : Int) else n), rest) := by
  have digits : ∀ c ∈ decimal n, c.isDigit = true := fun c => isDigit_of_mem_decimal
  have value := ofDigitChars_decimal n
  have taken := takeDigits_digits digits ends 0 0 (by rw [value]; exact below)
  rw [value, Nat.zero_add] at taken
  have counted : (decimal n).length ≠ 0 := fun none =>
    decimal_ne_nil n (List.length_eq_zero_iff.mp none)
  have nonzero : n ≠ 0 := positive.ne'
  unfold readNumber
  split
  · rename_i starts
    obtain ⟨c, cs, front, _, zero⟩ := decimal_starts n
    rw [front] at starts
    exact absurd (zero (List.cons.inj starts).1) nonzero
  · simp only [taken, if_neg counted]
    cases negative with
    | false => rcases ends.cases with rfl | ⟨more, rfl | rfl | rfl⟩ <;> simp [nonzero]
    | true =>
      have low : n ≤ 9223372036854775808 := above rfl
      rcases ends.cases with rfl | ⟨more, rfl | rfl | rfl⟩ <;> simp [nonzero, positive, low]

theorem readNumber_zero {rest : List Char} (ends : Ends rest) :
    readNumber false ('0' :: rest) = some (.int 0, rest) := by
  rcases ends.cases with rfl | ⟨more, rfl | rfl | rfl⟩ <;> rfl

theorem isSpace_of_isDigit {c : Char} (digit : c.isDigit = true) : isSpace c = false := by
  have other : ∀ d : Char, d.isDigit = false → c ≠ d := fun d => ne_of_kind digit
  simp [isSpace, other ' ' rfl, other '\t' rfl, other '\n' rfl, other '\r' rfl]

/-- An integer of 64 bits, with a sign or without. -/
theorem readValue_signed (fuel depth : Nat) {n : Int} (above : -(1 <<< 63 : Nat) ≤ n)
    (below : n < UInt64.size) {rest : List Char} (ends : Ends rest) :
    readValue (fuel + 1) depth (signed n ++ rest) = some (.int n, rest) := by
  cases n with
  | ofNat n =>
    have number : readNumber false (decimal n ++ rest) = some (.int n, rest) := by
      rcases Nat.eq_zero_or_pos n with rfl | positive
      · exact readNumber_zero ends
      · exact readNumber_decimal false positive (Int.ofNat_lt.mp below) (by simp) ends
    obtain ⟨c, cs, front, digit, _⟩ := decimal_starts n
    have other : ∀ d : Char, d.isDigit = false → c ≠ d := fun d => ne_of_kind digit
    rw [front, List.cons_append] at number
    rw [signed, front, List.cons_append, readValue, skipSpace, isSpace_of_isDigit digit]
    simp [other '"' rfl, other '[' rfl, other '\x7b' rfl, other 't' rfl, other 'f' rfl,
      other 'n' rfl, other '-' rfl, number]
  | negSucc n =>
    have low : n + 1 ≤ 1 <<< 63 := by omega
    have size : (1 <<< 63 : Nat) < UInt64.size := by decide
    exact readNumber_decimal true n.succ_pos (by omega) (fun _ => low) ends

end ClusterClient.Json
