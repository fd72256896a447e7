import ClusterClient.Proofs.Words
import ClusterClient.Space
/-!
The numbers of partitions: every key belongs to one of those from 1 up to their count, integer
keys go round them in turn, and so no partition is without keys.
-/
namespace ClusterClient

namespace Partition

/-- The number of the partition of a key, counted from 0. -/
def offset (key : Bytes) (count : Int32) : Int32 :=
  (keyNumber key % count.toUInt32.toUInt64).toUInt32.toInt32

theorem ofKey_eq {count : Int32} (positive : 0 < count) (key : Bytes) :
    ofKey key count = .ok (offset key count + 1) :=
  if_neg (Int32.not_le.mpr positive)

theorem toNat_count {count : Int32} (positive : 0 < count) :
    (count.toUInt32.toUInt64.toNat : Int) = count.toInt := by
  have above : 0 < count.toInt := Int32.lt_iff_toInt_lt.mp positive
  have signed := count.toBitVec.toInt_eq_toNat_cond
  have below : count.toBitVec.toNat < 2 ^ 32 := count.toBitVec.isLt
  rw [Int32.toInt_toBitVec] at signed
  have same : count.toUInt32.toUInt64.toNat = count.toBitVec.toNat := UInt32.toNat_toUInt64 _
  split at signed <;> omega

/-- The remainder fits into 32 bits with a sign, so nothing of it is lost. -/
theorem toInt_offset {count : Int32} (positive : 0 < count) (key : Bytes) :
    (offset key count).toInt = (keyNumber key).toNat % count.toInt := by
  have above : 0 < count.toInt := Int32.lt_iff_toInt_lt.mp positive
  have below : count.toInt < 2 ^ 31 := count.toInt_lt
  have whole := toNat_count positive
  have value : (keyNumber key % count.toUInt32.toUInt64).toNat =
      (keyNumber key).toNat % count.toUInt32.toUInt64.toNat := UInt64.toNat_mod ..
  have less := Nat.mod_lt (keyNumber key).toNat (y := count.toUInt32.toUInt64.toNat) (by omega)
  rw [← value] at less
  have narrow : (offset key count).toBitVec.toNat =
      (keyNumber key % count.toUInt32.toUInt64).toNat % 2 ^ 32 := UInt64.toNat_toUInt32 _
  have signed := (offset key count).toBitVec.toInt_eq_toNat_of_lt (by omega)
  rw [Int32.toInt_toBitVec, narrow, Nat.mod_eq_of_lt (by omega), value] at signed
  rw [signed, Int.natCast_emod, whole]

theorem toInt_succ_offset {count : Int32} (positive : 0 < count) (key : Bytes) :
    (offset key count + 1).toInt = (offset key count).toInt + 1 := by
  have above : 0 < count.toInt := Int32.lt_iff_toInt_lt.mp positive
  have below : count.toInt < 2 ^ 31 := count.toInt_lt
  have least := Int.emod_nonneg (keyNumber key).toNat above.ne'
  have most := Int.emod_lt_of_pos (keyNumber key).toNat above
  rw [← toInt_offset positive] at least most
  rw [Int32.toInt_add]
  exact Int.bmod_eq_of_le (by change _ ≤ _ + 1; omega) (by change _ + 1 < _; omega)

theorem keyNumber_intKey (vid : Int64) : (keyNumber (intKey vid)).toNat = vid.toInt % 2 ^ 64 := by
  rw [keyNumber, if_pos (length_intKey vid), littleEndian_intKey]
  have signed := vid.toBitVec.toInt_eq_toNat_cond
  have below : vid.toBitVec.toNat < 2 ^ 64 := vid.toBitVec.isLt
  have same : vid.toUInt64.toNat = vid.toBitVec.toNat := rfl
  rw [Int64.toInt_toBitVec] at signed
  split at signed <;> omega

theorem ofKey_within {count : Int32} (positive : 0 < count) (key : Bytes) :
    1 ≤ offset key count + 1 ∧ offset key count + 1 ≤ count := by
  have above : 0 < count.toInt := Int32.lt_iff_toInt_lt.mp positive
  have least := Int.emod_nonneg (keyNumber key).toNat above.ne'
  have most := Int.emod_lt_of_pos (keyNumber key).toNat above
  rw [← toInt_offset positive] at least most
  have next := toInt_succ_offset positive key
  rw [Int32.le_iff_toInt_le, Int32.le_iff_toInt_le]
  constructor
  · change 1 ≤ _
    omega
  · omega

theorem toInt_ofKey_intKey {count : Int32} (positive : 0 < count) (vid : Int64) :
    (offset (intKey vid) count + 1).toInt = vid.toInt % 2 ^ 64 % count.toInt + 1 := by
  rw [toInt_succ_offset positive, toInt_offset positive, keyNumber_intKey]

/-- The integer keys from 0 on go round the partitions, beginning with the first one. -/
theorem exists_intKey {p count : Int32} (least : 1 ≤ p) (most : p ≤ count) :
    ∃ vid, ofKey (intKey vid) count = .ok p := by
  have least : 1 ≤ p.toInt := Int32.le_iff_toInt_le.mp least
  have most : p.toInt ≤ count.toInt := Int32.le_iff_toInt_le.mp most
  have below : p.toInt < 2 ^ 31 := p.toInt_lt
  have positive : 0 < count := by
    apply Int32.lt_iff_toInt_lt.mpr
    change 0 < _
    omega
  refine ⟨Int64.ofInt (p.toInt - 1), ?_⟩
  rw [ofKey_eq positive]
  apply congrArg Except.ok
  apply Int32.toInt_inj.mp
  rw [toInt_ofKey_intKey positive, Int64.toInt_ofInt_of_le (by omega) (by omega),
    Int.emod_eq_of_lt (by omega) (by omega), Int.emod_eq_of_lt (by omega) (by omega)]
  omega

theorem partId_fails_iff (s : Space) (key : Bytes) :
    (∃ fault, s.partId key = .error fault) ↔ s.partsNum ≤ 0 := by
  unfold Space.partId
  constructor
  · rintro ⟨fault, failed⟩
    by_contra some
    rw [if_neg some, ofKey_eq (Int32.not_le.mp some)] at failed
    cases failed
  · intro none
    exact ⟨_, if_pos none⟩

/-- A key is placed on one of the partitions from 1 on, and no step on the way leaves 32 bits;
an integer key counts without its sign; there is an integer key for every partition; and a
space with partitions, and only such a one, places its keys in the same way. -/
theorem keys_numbered :
    (∀ (key : Bytes) (count : Int32), 0 < count →
      ∃ p, ofKey key count = .ok p ∧ 1 ≤ p ∧ p ≤ count ∧
        (offset key count).toInt = (keyNumber key).toNat % count.toInt ∧
        p.toInt = (offset key count).toInt + 1) ∧
    (∀ (vid : Int64) (count : Int32), 0 < count →
      ∃ p, ofKey (intKey vid) count = .ok p ∧ p.toInt = vid.toInt % 2 ^ 64 % count.toInt + 1) ∧
    (∀ p count : Int32, 1 ≤ p → p ≤ count → ∃ vid, ofKey (intKey vid) count = .ok p) ∧
    (∀ (s : Space) (key : Bytes), 0 < s.partsNum → s.partId key = ofKey key s.partsNum) ∧
    ∀ (s : Space) (key : Bytes), (∃ fault, s.partId key = .error fault) ↔ s.partsNum ≤ 0 := by
  refine ⟨?_, ?_, fun p count least most => exists_intKey least most, ?_, partId_fails_iff⟩
  · intro key count positive
    obtain ⟨least, most⟩ := ofKey_within positive key
    exact ⟨_, ofKey_eq positive key, least, most, toInt_offset positive key,
      toInt_succ_offset positive key⟩
  · intro vid count positive
    exact ⟨_, ofKey_eq positive _, toInt_ofKey_intKey positive vid⟩
  · intro s key positive
    exact if_neg (Int32.not_le.mpr positive)

/-- The greatest count there is, and the integer key with the greatest number. -/
theorem keys_numbered_in_sample :
    (0 : Int32) < Int32.maxValue ∧
    (∃ p, ofKey (intKey (-1)) Int32.maxValue = .ok p ∧ p.toInt = 4) ∧
    ∃ vid, ofKey (intKey vid) Int32.maxValue = .ok Int32.maxValue := by
  obtain ⟨_, unsigned, all, _⟩ := keys_numbered
  have positive : (0 : Int32) < Int32.maxValue := by decide
  obtain ⟨p, placed, value⟩ := unsigned (-1) Int32.maxValue positive
  exact ⟨positive, ⟨p, placed, value⟩, all _ _ (by decide) (by decide)⟩

end Partition

end ClusterClient
