import ClusterClient.Proofs.Words
import Mathlib.Tactic.IntervalCases
/-!
The hash of a text key, word by word. Each step of the mixing can be undone, so nothing of a word
gets lost on its own: keys that differ in one word only, or in their last bytes only, have
different hashes, and so has one key under different seeds.
-/
namespace ClusterClient.Hash

/-! ## Steps that can be undone -/

theorem mul_multiplier_injective : Function.Injective (· * multiplier) := by
  intro k k' same
  have unit : multiplier * 0x5f7a0ea7e59b19bd = 1 := by decide
  have undone := congrArg (· * (0x5f7a0ea7e59b19bd : UInt64)) same
  simpa only [UInt64.mul_assoc, unit, UInt64.mul_one] using undone

/-- The upper bits are not changed by the fold, so they can be taken out again. -/
theorem fold_fold : Function.LeftInverse fold fold := by
  intro k
  have none : k >>> 47 >>> 47 = 0 := by
    apply UInt64.toNat_inj.mp
    have shift : (47 : UInt64).toNat % 64 = 47 := rfl
    have below : k.toNat < 2 ^ 64 := k.toNat_lt
    rw [UInt64.toNat_shiftRight, UInt64.toNat_shiftRight, shift, ← Nat.shiftRight_add,
      Nat.shiftRight_eq_div_pow]
    exact Nat.div_eq_of_lt (by omega)
  unfold fold
  rw [UInt64.shiftRight_xor, none, UInt64.xor_zero, UInt64.xor_assoc, UInt64.xor_self,
    UInt64.xor_zero]

theorem fold_injective : Function.Injective fold := fold_fold.injective

theorem mixWord_injective : Function.Injective mixWord := by
  intro k k' same
  apply mul_multiplier_injective
  apply fold_injective
  exact mul_multiplier_injective same

theorem finish_injective : Function.Injective finish := by
  intro h h' same
  apply fold_injective
  apply mul_multiplier_injective
  exact fold_injective same

/-! ## Words and the bytes after them -/

theorem or_shifted (b : UInt8) (k : UInt64) : b.toUInt64 ||| k <<< 8 = b.toUInt64 ^^^ k <<< 8 := by
  apply UInt64.toBitVec_inj.mp
  ext i within
  by_cases low : i < 8
  · simp [low]
  · have none : b.toBitVec.getLsbD i = false := b.toBitVec.getLsbD_of_ge i (by omega)
    simp [low, none]

/-- Bytes that are left over are mixed in as the word that they are. -/
theorem xorBytes_eq (h : UInt64) {shift : UInt64} {bytes : List UInt8}
    (within : shift.toNat + 8 * bytes.length ≤ 64) :
    xorBytes h shift bytes = h ^^^ littleEndian bytes <<< shift := by
  induction bytes generalizing shift with
  | nil => simp [xorBytes, littleEndian]
  | cons b rest ih =>
    have within : shift.toNat + 8 * (rest.length + 1) ≤ 64 := within
    rw [xorBytes, littleEndian, or_shifted, UInt64.shiftLeft_xor,
      UInt64.xor_comm (b.toUInt64 <<< _), ← UInt64.xor_assoc]
    cases rest with
    | nil => simp [xorBytes, littleEndian]
    | cons b' rest =>
      have within : shift.toNat + 8 * (rest.length + 1 + 1) ≤ 64 := within
      have next : (shift + 8).toNat = shift.toNat + 8 := by
        rw [UInt64.toNat_add]
        exact Nat.mod_eq_of_lt (by change _ + 8 < _; omega)
      have twice (k : UInt64) : k <<< 8 <<< shift = k <<< (shift + 8) := by
        rw [UInt64.add_comm shift 8]
        exact (UInt64.shiftLeft_add_of_toNat_lt (by change 8 + _ < _; omega)).symm
      rw [ih (by rw [next, List.length_cons]; omega), twice]

theorem absorb_tail (h : UInt64) {tail : List UInt8} (short : tail.length < 8) :
    absorb h tail = if tail = [] then h else (h ^^^ littleEndian tail) * multiplier := by
  have mixed : xorBytes h 0 tail = h ^^^ littleEndian tail := by
    rw [xorBytes_eq h (by change 0 + _ ≤ _; omega), UInt64.shiftLeft_zero]
  unfold absorb
  split
  · simp only [List.length_cons] at short
    omega
  · rfl
  · rename_i some
    rw [if_neg some, mixed]

theorem absorb_word (h : UInt64) {data : List UInt8} (long : 8 ≤ data.length) :
    absorb h data =
      absorb ((h ^^^ mixWord (littleEndian (data.take 8))) * multiplier) (data.drop 8) := by
  match data, long with
  | _ :: _ :: _ :: _ :: _ :: _ :: _ :: _ :: _, _ => rfl

/-! ## What is never lost -/

/-- What was mixed in before makes a difference, whatever comes after it. -/
theorem absorb_injective (data : List UInt8) : Function.Injective (absorb · data) := by
  -- a word at a time, until less than a word is left
  induction size : data.length using Nat.strong_induction_on generalizing data with
  | h n ih =>
    intro h h' same
    change absorb h data = absorb h' data at same
    by_cases short : data.length < 8
    · rw [absorb_tail h short, absorb_tail h' short] at same
      split at same
      · exact same
      · exact (UInt64.xor_left_inj _).mp (mul_multiplier_injective same)
    · have long : 8 ≤ data.length := by omega
      rw [absorb_word h long, absorb_word h' long] at same
      have shorter : (data.drop 8).length < n := by
        rw [List.length_drop]
        omega
      have states := ih _ shorter (data.drop 8) rfl same
      exact (UInt64.xor_left_inj _).mp (mul_multiplier_injective states)

theorem tail_of_absorb {h : UInt64} {tail tail' : List UInt8} (length : tail.length = tail'.length)
    (short : tail.length < 8) (same : absorb h tail = absorb h tail') : tail = tail' := by
  rw [absorb_tail h short, absorb_tail h (length ▸ short)] at same
  by_cases none : tail = []
  · rw [none] at length ⊢
    exact (List.length_eq_zero_iff.mp length.symm).symm
  · have some : tail' ≠ [] := by
      rintro rfl
      exact none (List.length_eq_zero_iff.mp length)
    rw [if_neg none, if_neg some] at same
    have words := (UInt64.xor_right_inj _).mp (mul_multiplier_injective same)
    exact littleEndian_injective length (by omega) words

theorem word_of_absorb {h : UInt64} {data data' : List UInt8} (length : data.length = data'.length)
    (long : 8 ≤ data.length) (rest : data.drop 8 = data'.drop 8)
    (same : absorb h data = absorb h data') : data.take 8 = data'.take 8 := by
  rw [absorb_word h long, absorb_word h (length ▸ long), rest] at same
  have states := mul_multiplier_injective (absorb_injective _ same)
  have words := mixWord_injective ((UInt64.xor_right_inj _).mp states)
  exact littleEndian_injective (by simp [length]) (by simp) words

/-- Two rows of bytes are the same but for one word, counted from 0, which may be the part of
a word that is left over at the end. -/
def OnlyIn (word : Nat) (data data' : List UInt8) : Prop :=
  ∀ i, i / 8 ≠ word → data[i]? = data'[i]?

theorem OnlyIn.rest {word : Nat} {data data' : List UInt8} (only : OnlyIn (word + 1) data data') :
    data.take 8 = data'.take 8 ∧ OnlyIn word (data.drop 8) (data'.drop 8) := by
  constructor
  · apply List.ext_getElem?
    intro i
    rw [List.getElem?_take, List.getElem?_take]
    split
    · exact only i (by omega)
    · rfl
  · intro i other
    rw [List.getElem?_drop, List.getElem?_drop]
    exact only (8 + i) (by omega)

theorem OnlyIn.first {data data' : List UInt8} (only : OnlyIn 0 data data') :
    data.drop 8 = data'.drop 8 := by
  apply List.ext_getElem?
  intro i
  rw [List.getElem?_drop, List.getElem?_drop]
  exact only (8 + i) (by omega)

theorem OnlyIn.same_of_absorb {word : Nat} {h : UInt64} {data data' : List UInt8}
    (only : OnlyIn word data data') (length : data.length = data'.length)
    (same : absorb h data = absorb h data') : data = data' := by
  induction word generalizing h data data' with
  | zero =>
    by_cases short : data.length < 8
    · exact tail_of_absorb length short same
    · have rest := only.first
      have word := word_of_absorb length (by omega) rest same
      rw [← data.take_append_drop 8, word, rest, data'.take_append_drop]
  | succ word ih =>
    obtain ⟨before, after⟩ := only.rest
    by_cases short : data.length < 8
    · exact tail_of_absorb length short same
    · have long : 8 ≤ data.length := by omega
      rw [absorb_word h long, absorb_word h (length ▸ long), before] at same
      have rest := ih after (by simp [length]) same
      rw [← data.take_append_drop 8, before, rest, data'.take_append_drop]

theorem absorb_of_hash {seed : UInt64} {data data' : List UInt8}
    (length : data.length = data'.length) (same : hash seed data = hash seed data') :
    absorb (seed ^^^ (data.length.toUInt64 * multiplier)) data =
      absorb (seed ^^^ (data.length.toUInt64 * multiplier)) data' := by
  unfold hash at same
  rw [← length] at same
  exact finish_injective same

/-- Keys of one length that differ in a single word, or only in what is left over after the last
one, have different hashes. So no two keys of one length up to eight bytes have the same hash,
and no key has the same one under two seeds. -/
theorem one_word_tells :
    (∀ (seed : UInt64) (data data' : List UInt8) (word : Nat), data.length = data'.length →
      OnlyIn word data data' → data ≠ data' → hash seed data ≠ hash seed data') ∧
    (∀ data data' : List UInt8, data.length = data'.length → data.length ≤ 8 → data ≠ data' →
      hashBytes data ≠ hashBytes data') ∧
    ∀ (seed seed' : UInt64) (data : List UInt8), seed ≠ seed' →
      hash seed data ≠ hash seed' data := by
  have words (seed : UInt64) (data data' : List UInt8) (word : Nat)
      (length : data.length = data'.length) (only : OnlyIn word data data')
      (differ : data ≠ data') : hash seed data ≠ hash seed data' := fun same =>
    differ (only.same_of_absorb length (absorb_of_hash length same))
  refine ⟨words, ?_, ?_⟩
  · intro data data' length short differ
    refine words defaultSeed data data' 0 length (fun i later => ?_) differ
    rw [List.getElem?_eq_none (by omega), List.getElem?_eq_none (by omega)]
  · intro seed seed' data differ same
    have states := absorb_injective data (finish_injective same)
    exact differ ((UInt64.xor_left_inj _).mp states)

namespace Sample

/-- A word, and three bytes that are left over. -/
def text (last : UInt8) : List UInt8 := [104, 101, 108, 108, 111, 32, 119, 111, 114, 108, last]

theorem onlyIn_text (last last' : UInt8) : OnlyIn 1 (text last) (text last') := by
  intro i other
  by_cases before : i < 8
  · interval_cases i <;> rfl
  · have beyond : 11 ≤ i := by omega
    rw [List.getElem?_eq_none beyond, List.getElem?_eq_none beyond]

end Sample

theorem one_word_tells_in_sample :
    OnlyIn 1 (Sample.text 100) (Sample.text 101) ∧
    hash 42 (Sample.text 100) ≠ hash 42 (Sample.text 101) ∧
    hashBytes [97, 98] ≠ hashBytes [98, 97] ∧
    hash 1 (Sample.text 100) ≠ hash 2 (Sample.text 100) := by
  obtain ⟨words, short, seeds⟩ := one_word_tells
  refine ⟨Sample.onlyIn_text 100 101, ?_, ?_, ?_⟩
  · exact words 42 _ _ 1 rfl (Sample.onlyIn_text 100 101) (by decide)
  · exact short _ _ rfl (by decide) (by decide)
  · exact seeds 1 2 _ (by decide)

end ClusterClient.Hash
