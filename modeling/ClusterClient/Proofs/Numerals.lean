import ClusterClient.Text.Blank
import ClusterClient.Text.Numeral
import Mathlib.Data.Nat.Digits.Defs
/-!
Decimal numerals that are written and read back.
-/
namespace ClusterClient.Text

theorem digit?_eq_some {c : Char} (digit : c.isDigit = true) :
    digit? c = some (c.toNat - '0'.toNat) :=
  if_pos (by simpa [Char.isDigit, Char.le_def] using digit)

theorem toNat_of_isDigit {c : Char} (digit : c.isDigit = true) : 48 ≤ c.toNat ∧ c.toNat ≤ 57 := by
  simpa [Char.isDigit, UInt32.le_iff_toNat_le] using digit

/-- A character of some kind is none that is not of that kind. -/
theorem ne_of_kind {kind : Char → Bool} {c d : Char} (own : kind c = true)
    (other : kind d = false) : c ≠ d := by
  rintro rfl
  exact Bool.false_ne_true (other.symm.trans own)

theorem isDigit_of_mem_decimal {n : Nat} {c : Char} (written : c ∈ decimal n) :
    c.isDigit = true :=
  Nat.isDigit_of_mem_toDigits (by decide) (by decide) written

theorem not_mem_decimal {c : Char} (other : c.isDigit = false) (n : Nat) : c ∉ decimal n :=
  fun here => Bool.false_ne_true (other.symm.trans (isDigit_of_mem_decimal here))

theorem decimal_ne_nil (n : Nat) : decimal n ≠ [] := Nat.toDigits_ne_nil

theorem ofDigitChars_decimal (n : Nat) : Nat.ofDigitChars 10 (decimal n) 0 = n :=
  Nat.ofDigitChars_toDigits (by decide) (by decide)

/-- No zeros are written in front. -/
theorem eq_zero_of_decimal {n : Nat} {rest : List Char} (starts : decimal n = '0' :: rest) :
    n = 0 := by
  induction n using Nat.strong_induction_on generalizing rest with
  | _ n ih =>
    by_cases small : n < 10
    · rw [decimal, Nat.toDigits_of_lt_base small] at starts
      have zero : ∀ n < 10, n.digitChar = '0' → n = 0 := by decide
      exact zero n small (List.cons.inj starts).1
    · rw [decimal, Nat.toDigits_of_base_le (by decide) (Nat.not_lt.mp small)] at starts
      cases front : decimal (n / 10) with
      | nil => exact absurd front (decimal_ne_nil _)
      | cons c cs =>
        rw [decimal] at front
        rw [front] at starts
        have zero := ih (n / 10) (by omega) (front.trans (by rw [(List.cons.inj starts).1]))
        omega

theorem decimal_starts (n : Nat) :
    ∃ c cs, decimal n = c :: cs ∧ c.isDigit = true ∧ (c = '0' → n = 0) := by
  obtain ⟨c, cs, starts⟩ := List.exists_cons_of_ne_nil (decimal_ne_nil n)
  refine ⟨c, cs, starts, isDigit_of_mem_decimal (starts ▸ List.mem_cons_self), ?_⟩
  rintro rfl
  exact eq_zero_of_decimal starts

theorem mem_signed {n : Int} {c : Char} (written : c ∈ signed n) : c = '-' ∨ c.isDigit = true := by
  cases n with
  | ofNat n => exact .inr (isDigit_of_mem_decimal written)
  | negSucc n =>
    rcases List.mem_cons.mp written with sign | digit
    · exact .inl sign
    · exact .inr (isDigit_of_mem_decimal digit)

theorem signed_ne_nil (n : Int) : signed n ≠ [] := by
  cases n with
  | ofNat n => exact decimal_ne_nil n
  | negSucc n => exact List.cons_ne_nil _ _

theorem le_ofDigitChars (cs : List Char) (acc : Nat) : acc ≤ Nat.ofDigitChars 10 cs acc := by
  induction cs generalizing acc with
  | nil => exact le_refl _
  | cons c rest ih =>
    rw [Nat.ofDigitChars_cons]
    exact le_trans (by omega) (ih _)

theorem readDigits_ok {limit : Nat} (excess : NumeralError) {cs : List Char} {acc : Nat}
    (digits : ∀ c ∈ cs, c.isDigit = true) (within : Nat.ofDigitChars 10 cs acc ≤ limit) :
    readDigits limit excess acc cs = .ok (Nat.ofDigitChars 10 cs acc) := by
  induction cs generalizing acc with
  | nil => rfl
  | cons c rest ih =>
    rw [Nat.ofDigitChars_cons] at within ⊢
    have next := le_trans (le_ofDigitChars rest _) within
    rw [readDigits, digit?_eq_some (digits c List.mem_cons_self)]
    simp only
    rw [if_neg (by omega), Nat.mul_comm acc 10]
    exact ih (fun c here => digits c (List.mem_cons_of_mem _ here)) within

theorem readDigits_decimal {limit n : Nat} (excess : NumeralError) (within : n ≤ limit) :
    readDigits limit excess 0 (decimal n) = .ok n := by
  have value := ofDigitChars_decimal n
  rw [readDigits_ok excess (fun c => isDigit_of_mem_decimal) (by rw [value]; exact within), value]

theorem readDigits_le {limit : Nat} {excess : NumeralError} {cs : List Char} {acc n : Nat}
    (start : acc ≤ limit) (read : readDigits limit excess acc cs = .ok n) : n ≤ limit := by
  induction cs generalizing acc with
  | nil =>
    cases read
    exact start
  | cons c rest ih =>
    simp only [readDigits] at read
    split at read
    · cases read
    · split at read
      · cases read
      · exact ih (by omega) read

theorem readNat_decimal {limit n : Nat} (within : n ≤ limit) :
    readNat limit (decimal n) = .ok n := by
  have digits : ∀ c ∈ decimal n, c.isDigit = true := fun c => isDigit_of_mem_decimal
  have read := readDigits_decimal .tooLarge within
  unfold readNat
  split
  · rename_i none
    exact absurd none (decimal_ne_nil n)
  · rename_i sign
    exact absurd (digits '+' (sign ▸ List.mem_cons_self)) (by decide)
  · rename_i sign
    exact absurd (digits '+' (sign ▸ List.mem_cons_self)) (by decide)
  · exact read

theorem readNat_le {limit n : Nat} {cs : List Char} (read : readNat limit cs = .ok n) :
    n ≤ limit := by
  unfold readNat at read
  split at read
  · cases read
  · cases read
  · exact readDigits_le (Nat.zero_le _) read
  · exact readDigits_le (Nat.zero_le _) read

/-- What is written is read back, up to the limits of the reader. -/
theorem readInt_signed {limit : Nat} {n : Int} (above : -(limit : Int) - 1 ≤ n)
    (below : n ≤ limit) : readInt limit (signed n) = .ok n := by
  cases n with
  | ofNat n =>
    have read : readNat limit (decimal n) = .ok n :=
      readNat_decimal (by simpa using below)
    have plain : ∀ rest, decimal n ≠ '-' :: rest := fun rest sign =>
      not_mem_decimal (c := '-') rfl n (sign ▸ List.mem_cons_self)
    unfold readInt signed
    split
    · rename_i sign
      exact absurd sign (plain [])
    · rename_i rest _ sign
      exact absurd sign (plain rest)
    · rw [read]
      rfl
  | negSucc n =>
    have read : readDigits (limit + 1) .tooSmall 0 (decimal (n + 1)) = .ok (n + 1) :=
      readDigits_decimal .tooSmall (by omega)
    rw [signed, readInt, read]
    · rfl
    · exact fun bare => decimal_ne_nil (n + 1) bare

theorem readInt_le {limit : Nat} {n : Int} {cs : List Char} (read : readInt limit cs = .ok n) :
    n ≤ limit := by
  unfold readInt at read
  split at read
  · cases read
  · rename_i rest _
    cases value : readDigits (limit + 1) .tooSmall 0 rest with
    | error e =>
      rw [value] at read
      cases read
    | ok m =>
      rw [value] at read
      obtain rfl : -(m : Int) = n := Except.ok.inj read
      omega
  · cases value : readNat limit cs with
    | error e =>
      rw [value] at read
      cases read
    | ok m =>
      rw [value] at read
      cases read
      exact Int.ofNat_le.mpr (readNat_le value)

theorem isBlank_of_isDigit {c : Char} (digit : c.isDigit = true) : isBlank c = false := by
  have bounds := toNat_of_isDigit digit
  simp only [isBlank, Bool.or_eq_false_iff, Bool.and_eq_false_iff, decide_eq_false_iff_not,
    beq_eq_false_iff_ne]
  omega

theorem trimStart_eq_self {cs : List Char} (plain : ∀ c ∈ cs, isBlank c = false) :
    trimStart cs = cs := by
  cases cs with
  | nil => rfl
  | cons c rest =>
    rw [trimStart, List.dropWhile_cons_of_neg]
    rw [plain c List.mem_cons_self]
    exact Bool.false_ne_true

theorem trim_eq_self {cs : List Char} (plain : ∀ c ∈ cs, isBlank c = false) : trim cs = cs := by
  have turned : trimStart cs.reverse = cs.reverse :=
    trimStart_eq_self fun c here => plain c (List.mem_reverse.mp here)
  rw [trim, trimStart_eq_self plain, trimEnd]
  exact (congrArg List.reverse turned).trans cs.reverse_reverse

end ClusterClient.Text
