import ClusterClient.Partition
import Mathlib.Data.Nat.Digits.Lemmas
/-!
Bytes as words: up to eight bytes are the digits of a number below 2^64, the first one least
significant, and no two rows of as many bytes have the same number.
-/
namespace ClusterClient

namespace Hash

/-- The number that has these bytes as its digits, the first one least significant. -/
def number (bytes : List UInt8) : Nat := Nat.ofDigits 256 (bytes.map UInt8.toNat)

theorem byte_lt {bytes : List UInt8} : ∀ d ∈ bytes.map UInt8.toNat, d < 256 := by
  intro d digit
  obtain ⟨b, _, rfl⟩ := List.mem_map.mp digit
  exact b.toNat_lt

theorem number_cons (b : UInt8) (rest : List UInt8) :
    number (b :: rest) = b.toNat + 256 * number rest := by
  rw [number, List.map_cons, Nat.ofDigits_cons]
  rfl

theorem number_lt (bytes : List UInt8) : number bytes < 256 ^ bytes.length := by
  simpa [number] using Nat.ofDigits_lt_base_pow_length (by decide) (@byte_lt bytes)

theorem number_injective {bytes bytes' : List UInt8} (length : bytes.length = bytes'.length)
    (same : number bytes = number bytes') : bytes = bytes' := by
  have digits := Nat.ofDigits_inj_of_len_eq (by decide) (by simpa using length) byte_lt byte_lt same
  exact List.map_injective_iff.mpr (fun _ _ => UInt8.toNat_inj.mp) digits

/-- No byte is lost as long as there are eight of them at most. -/
theorem toNat_littleEndian {bytes : List UInt8} (short : bytes.length ≤ 8) :
    (littleEndian bytes).toNat = number bytes := by
  induction bytes with
  | nil => rfl
  | cons b rest ih =>
    have short : rest.length + 1 ≤ 8 := short
    have below : number rest * 2 ^ 8 < 2 ^ 64 := by
      have power : 256 ^ rest.length ≤ 256 ^ 7 := Nat.pow_le_pow_right (by decide) (by omega)
      have := number_lt rest
      omega
    have shifted : (littleEndian rest <<< 8).toNat = number rest <<< 8 := by
      rw [UInt64.toNat_shiftLeft, ih (by omega)]
      change number rest <<< 8 % 2 ^ 64 = _
      rw [Nat.shiftLeft_eq, Nat.mod_eq_of_lt below]
    have byte : b.toNat < 2 ^ 8 := b.toNat_lt
    rw [littleEndian, UInt64.toNat_or, shifted, UInt8.toNat_toUInt64, Nat.or_comm,
      ← Nat.shiftLeft_add_eq_or_of_lt byte, Nat.shiftLeft_eq, number_cons]
    omega

theorem littleEndian_injective {bytes bytes' : List UInt8} (length : bytes.length = bytes'.length)
    (short : bytes.length ≤ 8) (same : littleEndian bytes = littleEndian bytes') :
    bytes = bytes' := by
  refine number_injective length ?_
  rw [← toNat_littleEndian short, same, toNat_littleEndian (length ▸ short)]

/-- The bytes of a word from the least significant one on are the digits of its value. -/
theorem number_bytes (v : UInt64) {count : Nat} (within : count ≤ 8) :
    number ((List.range count).map fun i => (v >>> (8 * i.toUInt64)).toUInt8) =
      v.toNat % 256 ^ count := by
  induction count with
  | zero => simp [number, Nat.mod_one]
  | succ count ih =>
    have shift : (8 * count.toUInt64).toNat % 64 = 8 * count := by
      have eight : (8 : UInt64).toNat = 8 := rfl
      rw [UInt64.toNat_mul, eight, Nat.toUInt64, UInt64.toNat_ofNat']
      omega
    have next : (v >>> (8 * count.toUInt64)).toUInt8.toNat = v.toNat / 256 ^ count % 256 := by
      rw [UInt64.toNat_toUInt8, UInt64.toNat_shiftRight, shift, Nat.shiftRight_eq_div_pow,
        Nat.pow_mul]
    have before := ih (by omega)
    rw [number] at before ⊢
    rw [List.range_succ, List.map_append, List.map_append, Nat.ofDigits_append, before,
      Nat.mod_pow_succ]
    simp [next]

end Hash

namespace Partition

theorem length_intKey (vid : Int64) : (intKey vid).length = 8 := by
  simp [intKey]

/-- An integer key is read back as the number that its 64 bits are without a sign. -/
theorem littleEndian_intKey (vid : Int64) : Hash.littleEndian (intKey vid) = vid.toUInt64 := by
  apply UInt64.toNat_inj.mp
  rw [Hash.toNat_littleEndian (length_intKey vid).le, intKey, Hash.number_bytes _ (le_refl 8)]
  exact Nat.mod_eq_of_lt vid.toUInt64.toNat_lt

end Partition

end ClusterClient
