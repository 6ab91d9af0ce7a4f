import Mathlib.Data.BitVec

namespace Smmboss.BitFields

/-! # Fields of a machine word -/

variable {size low width : Nat}

/-- The bits of `kept` under `mask`, and the bits of `field` elsewhere. -/
def splice (mask field kept : BitVec size) : BitVec size :=
  (field &&& ~~~mask) ||| (kept &&& mask)

theorem splice_and_mask (mask field kept : BitVec size) :
    splice mask field kept &&& mask = kept &&& mask := by
  ext place bounded
  simp only [splice, BitVec.getElem_and, BitVec.getElem_or, BitVec.getElem_not]
  cases mask[place] <;> simp

theorem and_of_and_eq {first second mask part : BitVec size} (same : first &&& mask = second &&& mask)
    (within : mask &&& part = part) : first &&& part = second &&& part := by
  rw [← within, ← BitVec.and_assoc, same, BitVec.and_assoc]

theorem splice_and_part {mask part : BitVec size} (field kept : BitVec size)
    (within : mask &&& part = part) : splice mask field kept &&& part = kept &&& part :=
  and_of_and_eq (splice_and_mask mask field kept) within

theorem splice_and_outside {mask part : BitVec size} (field kept : BitVec size)
    (apart : mask &&& part = 0) : splice mask field kept &&& part = field &&& part := by
  apply BitVec.eq_of_getLsbD_eq
  intro place inside
  have bit := congrArg (fun word => word.getLsbD place) apart
  simp only [BitVec.getLsbD_and, BitVec.ofNat_eq_ofNat, BitVec.getLsbD_zero, Bool.and_eq_false_iff] at bit
  simp only [splice, BitVec.getLsbD_and, BitVec.getLsbD_or, BitVec.getLsbD_not, inside, decide_true, Bool.true_and]
  rcases bit with outside | outside
  · simp [outside]
  · simp [outside]

/-- Two tests on one word exclude each other where they disagree on a common bit. -/
theorem ne_of_and_eq {word mask other value reading : BitVec size} (read : word &&& mask = value)
    (differ : value &&& other ≠ reading &&& mask) : word &&& other ≠ reading := by
  intro same
  apply differ
  rw [← read, ← same, BitVec.and_assoc, BitVec.and_assoc, BitVec.and_comm mask]

theorem extract_of_and_eq {first second mask : BitVec size} (same : first &&& mask = second &&& mask)
    (covered : ∀ place < width, mask.getLsbD (low + place) = true) :
    first.extractLsb' low width = second.extractLsb' low width := by
  apply BitVec.eq_of_getLsbD_eq
  intro place bounded
  have bit := congrArg (fun word => word.getLsbD (low + place)) same
  simp only [BitVec.getLsbD_and, covered place bounded, Bool.and_true] at bit
  simp only [BitVec.getLsbD_extractLsb', bounded, decide_true, Bool.true_and, bit]

theorem splice_extract {mask : BitVec size} (field kept : BitVec size)
    (outside : ∀ place < width, mask.getLsbD (low + place) = false) (fits : low + width ≤ size) :
    (splice mask field kept).extractLsb' low width = field.extractLsb' low width := by
  apply BitVec.eq_of_getLsbD_eq
  intro place bounded
  have inside : low + place < size := by omega
  simp only [splice, BitVec.getLsbD_extractLsb', bounded, BitVec.getLsbD_or, BitVec.getLsbD_and,
    BitVec.getLsbD_not, outside place bounded, inside, decide_true, Bool.not_false, Bool.and_true,
    Bool.and_false, Bool.or_false, Bool.true_and]

theorem extract_shiftLeft (word : BitVec size) (fits : low + width ≤ size) :
    (word <<< low).extractLsb' low width = word.extractLsb' 0 width := by
  apply BitVec.eq_of_getLsbD_eq
  intro place bounded
  have inside : low + place < size := by omega
  have notBelow : ¬ low + place < low := by omega
  simp only [BitVec.getLsbD_extractLsb', BitVec.getLsbD_shiftLeft, bounded, inside, notBelow, decide_true,
    decide_false, Bool.not_false, Bool.true_and, Nat.add_sub_cancel_left, Nat.zero_add]

/-- A signed field reads back the integer that was truncated into it. -/
theorem toInt_extract_ofInt {value : Int} (narrow : width + 1 ≤ size)
    (lower : -(2 ^ width : Int) ≤ value) (upper : value < 2 ^ width) :
    ((BitVec.ofInt size value).extractLsb' 0 (width + 1)).toInt = value := by
  have truncated : (BitVec.ofInt size value).extractLsb' 0 (width + 1) = BitVec.ofInt (width + 1) value := by
    apply BitVec.eq_of_toNat_eq
    simp only [BitVec.extractLsb'_toNat, BitVec.toNat_ofInt, Nat.shiftRight_zero]
    have divides : (2 ^ (width + 1) : Nat) ∣ 2 ^ size := Nat.pow_dvd_pow 2 narrow
    have nonzero (power : Nat) : ((2 ^ power : Nat) : Int) ≠ 0 :=
      Int.natCast_ne_zero.mpr (Nat.two_pow_pos power).ne'
    apply Int.ofNat.inj
    simp only [Int.ofNat_eq_natCast, Int.natCast_emod, Int.toNat_of_nonneg (Int.emod_nonneg _ (nonzero _))]
    exact Int.emod_emod_of_dvd _ (Int.natCast_dvd_natCast.mpr divides)
  rw [truncated, BitVec.toInt_ofInt]
  apply Int.bmod_eq_of_le
  · rw [Nat.pow_succ]
    push_cast
    omega
  · rw [Nat.pow_succ]
    push_cast
    omega

/-- The bits under a field mask, as a number. -/
theorem toNat_and_field (low width : Nat) (mask word : BitVec size) (fits : low + width ≤ size)
    (field : ∀ place < size, mask.getLsbD place = (decide (low ≤ place) && decide (place < low + width))) :
    (word &&& mask).toNat = (word.extractLsb' low width).toNat * 2 ^ low := by
  have bits : word &&& mask = (word.extractLsb' low width).setWidth size <<< low := by
    apply BitVec.eq_of_getLsbD_eq
    intro place inside
    simp only [BitVec.getLsbD_and, field place inside, BitVec.getLsbD_shiftLeft, BitVec.getLsbD_setWidth,
      BitVec.getLsbD_extractLsb', inside, decide_true, Bool.true_and]
    by_cases above : low ≤ place
    · by_cases below : place < low + width
      · have e : low + (place - low) = place := by omega
        have a : place - low < size := by omega
        have b : place - low < width := by omega
        have c : ¬ place < low := by omega
        simp [above, below, e, a, b, c]
      · have b : ¬ place - low < width := by omega
        simp [above, below, b]
    · have c : place < low := by omega
      simp [above, c]
  have small : (word.extractLsb' low width).toNat < 2 ^ width := BitVec.isLt _
  have room : 2 ^ width * 2 ^ low ≤ 2 ^ size := by
    rw [← Nat.pow_add]
    exact Nat.pow_le_pow_right (by decide) (by omega)
  have le1 : 2 ^ width ≤ 2 ^ size := Nat.pow_le_pow_right (by decide) (by omega)
  rw [bits, BitVec.toNat_shiftLeft, BitVec.toNat_setWidth, Nat.shiftLeft_eq,
    Nat.mod_eq_of_lt (a := BitVec.toNat _) (by omega), Nat.mod_eq_of_lt]
  exact Nat.lt_of_lt_of_le (Nat.mul_lt_mul_of_pos_right small (Nat.two_pow_pos low)) room

theorem and_bit (word mask : BitVec size) (bit : Nat)
    (single : ∀ place < size, mask.getLsbD place = decide (place = bit)) :
    word &&& mask = 0 ∨ word &&& mask = mask := by
  have read : ∀ place < size, (word &&& mask).getLsbD place = (word.getLsbD bit && decide (place = bit)) := by
    intro place inside
    rw [BitVec.getLsbD_and, single place inside]
    by_cases here : place = bit
    · rw [here]
    · simp [here]
  cases value : word.getLsbD bit with
  | false =>
      left
      apply BitVec.eq_of_getLsbD_eq
      intro place inside
      simp [read place inside, value]
  | true =>
      right
      apply BitVec.eq_of_getLsbD_eq
      intro place inside
      rw [read place inside, value, single place inside, Bool.true_and]

end Smmboss.BitFields
