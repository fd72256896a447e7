import ClusterClient.Proofs.Mixing
import Mathlib.Algebra.BigOperators.Ring.Finset
import Mathlib.Tactic.Ring
/-!
The hash in plain numbers, as it was published. The bytes are taken eight at a time as the digits
of a number, and all arithmetic is modulo 2^64.
-/
namespace ClusterClient.Hash

namespace Published

def factor : Nat := 0xc6a4a7935bd1e995

/-- The product with the factor, less what is beyond 64 bits. -/
def times (k : Nat) : Nat := k * factor % 2 ^ 64

def fold (k : Nat) : Nat := k ^^^ k / 2 ^ 47

def mix (k : Nat) : Nat := times (fold (times k))

/-- The number that some bytes stand for, the first one least significant. -/
def digits (data : List UInt8) (start count : Nat) : Nat :=
  ∑ j ∈ Finset.range count, (data.getD (start + j) 0).toNat * 2 ^ (8 * j)

def word (data : List UInt8) (i : Nat) : Nat := digits data (8 * i) 8

/-- What is left over after the last whole word. -/
def tail (data : List UInt8) : Nat := digits data (8 * (data.length / 8)) (data.length % 8)

def takeWord (data : List UInt8) (h i : Nat) : Nat := times (h ^^^ mix (word data i))

def takeTail (data : List UInt8) (h : Nat) : Nat :=
  if data.length % 8 = 0 then h else times (h ^^^ tail data)

def absorb (data : List UInt8) (h : Nat) : Nat :=
  takeTail data ((List.range (data.length / 8)).foldl (takeWord data) h)

/-- The seed and the count of bytes are mixed with the words in turn, and then with what is left
over, if there is anything. -/
def hash (seed : Nat) (data : List UInt8) : Nat :=
  fold (times (fold (absorb data (seed ^^^ times data.length))))

end Published

/-! ## Machine words as numbers -/

theorem toNat_times (k : UInt64) : (k * multiplier).toNat = Published.times k.toNat :=
  UInt64.toNat_mul k multiplier

theorem toNat_fold (k : UInt64) : (fold k).toNat = Published.fold k.toNat := by
  have shift : (47 : UInt64).toNat % 64 = 47 := rfl
  rw [fold, UInt64.toNat_xor, UInt64.toNat_shiftRight, shift, Nat.shiftRight_eq_div_pow]
  rfl

theorem toNat_mixWord (k : UInt64) : (mixWord k).toNat = Published.mix k.toNat := by
  rw [mixWord, toNat_times, toNat_fold, toNat_times]
  rfl

/-- A count of bytes that is too great for a word has the same product as what is left of it. -/
theorem toNat_length (n : Nat) : (n.toUInt64 * multiplier).toNat = Published.times n := by
  rw [toNat_times, Nat.toUInt64, UInt64.toNat_ofNat', Published.times, Nat.mod_mul_mod]
  rfl

/-! ## Bytes as numbers -/

theorem number_eq_digits (bytes : List UInt8) :
    number bytes = Published.digits bytes 0 bytes.length := by
  unfold Published.digits
  induction bytes with
  | nil => rfl
  | cons b rest ih =>
    rw [number_cons, ih, List.length_cons, Finset.sum_range_succ', Finset.mul_sum, Nat.add_comm]
    congr 1
    · refine Finset.sum_congr rfl fun j _ => ?_
      simp only [Nat.zero_add, List.getD_cons_succ]
      ring
    · simp

theorem digits_take (data : List UInt8) (count : Nat) :
    Published.digits (data.take count) 0 count = Published.digits data 0 count := by
  refine Finset.sum_congr rfl fun j below => ?_
  have before : 0 + j < count := by simpa using below
  rw [List.getD_eq_getElem?_getD, List.getD_eq_getElem?_getD, List.getElem?_take_of_lt before]

theorem digits_drop (data : List UInt8) (dropped start count : Nat) :
    Published.digits (data.drop dropped) start count =
      Published.digits data (dropped + start) count := by
  refine Finset.sum_congr rfl fun j _ => ?_
  rw [List.getD_eq_getElem?_getD, List.getD_eq_getElem?_getD, List.getElem?_drop, Nat.add_assoc]

variable {data : List UInt8}

theorem toNat_word (long : 8 ≤ data.length) :
    (littleEndian (data.take 8)).toNat = Published.word data 0 := by
  have eight : (data.take 8).length = 8 := by simpa using long
  rw [toNat_littleEndian eight.le, number_eq_digits, eight, digits_take]
  rfl

theorem toNat_tail (short : data.length < 8) :
    (littleEndian data).toNat = Published.tail data := by
  rw [toNat_littleEndian short.le, number_eq_digits, Published.tail, Nat.div_eq_of_lt short,
    Nat.mod_eq_of_lt short]

/-! ## The hash as a number -/

namespace Published

theorem takeWord_drop (h i : Nat) : takeWord (data.drop 8) h i = takeWord data h (i + 1) := by
  rw [takeWord, word, digits_drop, Nat.add_comm 8]
  rfl

theorem takeTail_drop (long : 8 ≤ data.length) (h : Nat) :
    takeTail (data.drop 8) h = takeTail data h := by
  have words : 8 + 8 * ((data.length - 8) / 8) = 8 * (data.length / 8) := by omega
  have left : (data.length - 8) % 8 = data.length % 8 := by omega
  rw [takeTail, takeTail, tail, tail, digits_drop, List.length_drop, words, left]

/-- The first word is taken, and then the bytes after it as if they were all. -/
theorem absorb_word (long : 8 ≤ data.length) (h : Nat) :
    absorb data h = absorb (data.drop 8) (takeWord data h 0) := by
  have words : data.length / 8 = (data.drop 8).length / 8 + 1 := by
    rw [List.length_drop]
    omega
  have later : takeWord (data.drop 8) = fun h i => takeWord data h (i + 1) := by
    funext h i
    exact takeWord_drop h i
  rw [absorb, absorb, takeTail_drop long, words, List.range_succ_eq_map, List.foldl_cons,
    List.foldl_map, later]

theorem absorb_short (short : data.length < 8) (h : Nat) :
    absorb data h = if data = [] then h else times (h ^^^ tail data) := by
  have none : data.length % 8 = 0 ↔ data = [] := by
    rw [Nat.mod_eq_of_lt short, List.length_eq_zero_iff]
  simp only [absorb, Nat.div_eq_of_lt short, List.range_zero, List.foldl_nil, takeTail, none]

end Published

theorem toNat_absorb (h : UInt64) (data : List UInt8) :
    (absorb h data).toNat = Published.absorb data h.toNat := by
  -- by the number of whole words, the first of which is taken off
  induction count : data.length / 8 generalizing h data with
  | zero =>
    have short : data.length < 8 := by omega
    rw [absorb_tail h short, Published.absorb_short short]
    split
    · rfl
    · rw [toNat_times, UInt64.toNat_xor, toNat_tail short]
  | succ words ih =>
    have long : 8 ≤ data.length := by omega
    have fewer : (data.drop 8).length / 8 = words := by
      rw [List.length_drop]
      omega
    rw [absorb_word h long, Published.absorb_word long, ih _ _ fewer, toNat_times,
      UInt64.toNat_xor, toNat_mixWord, toNat_word long]
    rfl

/-- The hash is the published one, for every seed and all bytes. -/
theorem hash_as_published (seed : UInt64) (data : List UInt8) :
    (hash seed data).toNat = Published.hash seed.toNat data := by
  rw [hash, finish, toNat_fold, toNat_times, toNat_fold, toNat_absorb, UInt64.toNat_xor,
    toNat_length]
  rfl

/-- A word, and three bytes that are left over. -/
example : Published.hash 0xc70f6907 [104, 101, 108, 108, 111, 32, 119, 111, 114, 108, 100] =
    0x4d6686d362067ff9 := by
  decide +kernel

end ClusterClient.Hash
