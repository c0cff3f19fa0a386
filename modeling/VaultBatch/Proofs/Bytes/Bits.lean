import Mathlib.Algebra.Group.Nat.Defs
import VaultBatch.Bytes.Bits
import VaultBatch.Bytes.TwosComplement

/-!
# Byte strings with their bits turned around

Turning the bits of a byte string around counts its number down from the last one of the width
(`BigEndian.decode_complement`) and takes its integer below minus one
(`TwosComplement.decode_complement`). From a place on, all bits of a byte string are equal if its
number is small or that of its complement is (`Bytes.forall_bit_eq_iff`).
-/

namespace VaultBatch

variable {width : Nat}

/-- There are as many byte strings of a width as there are ways to set its bits. -/
theorem Bytes.count_eq_two_pow (width : Nat) : count width = 2 ^ (8 * width) := by
  induction width with
  | zero => rfl
  | succ width ih => rw [count, ih, Nat.mul_succ, Nat.pow_add, Nat.mul_comm]

namespace BigEndian

/-- A byte string stands for a number below the power of two of its bits. -/
theorem decode_lt_two_pow (b : Bytes width) : decode b < 2 ^ (8 * width) :=
  Bytes.count_eq_two_pow width ▸ decode_lt b

/-- The numbers of bytes and of their complement are together the last one of their length. -/
theorem decodeList_complement (bytes : List UInt8) :
    decodeList (bytes.map (~~~ ·)) + decodeList bytes + 1 = Bytes.count bytes.length := by
  induction bytes with
  | nil => rfl
  | cons byte rest ih =>
      have hbyte : (~~~byte).toNat + byte.toNat = 255 := by
        have hlt := byte.toNat_lt
        have hnot : (~~~byte).toNat = 255 - byte.toNat := UInt8.toNat_not byte
        omega
      have hsplit := congrArg (· * Bytes.count rest.length) hbyte
      simp only [Nat.add_mul] at hsplit
      simp only [List.map_cons, decodeList, List.length_map, List.length_cons, Bytes.count]
      omega

/-- A number and that of its complement are together the last one of the width. -/
theorem decode_complement (b : Bytes width) :
    decode b.complement + decode b + 1 = Bytes.count width := by
  have h := decodeList_complement b.toList
  rwa [b.length_toList] at h

end BigEndian

/-- A byte string in the lower half of its width stands for the same integer as number. -/
theorem TwosComplement.decode_eq_decode {b : Bytes width}
    (h : 2 * BigEndian.decode b < Bytes.count width) : decode b = BigEndian.decode b :=
  if_pos h

/-- The integer of the complement lies as far below minus one as the integer lies above zero. -/
theorem TwosComplement.decode_complement (b : Bytes (width + 1)) :
    decode b.complement = -1 - decode b := by
  have hsum := BigEndian.decode_complement b
  have hcount : Bytes.count (width + 1) = 256 * Bytes.count width := rfl
  unfold decode
  simp only
  -- a width has an even number of byte strings, so exactly one of the two integers is negative
  split <;> split <;> omega

namespace Bytes

/-! ## Single bits -/

/-- The bits of the complement are the bits turned around. -/
theorem bit_complement (b : Bytes width) {place : Nat} (h : place < 8 * width) :
    b.complement.bit place = !b.bit place := by
  have hsum := BigEndian.decode_complement b
  have hdecode : BigEndian.decode b.complement = 2 ^ (8 * width) - (BigEndian.decode b + 1) := by
    rw [← count_eq_two_pow]
    omega
  rw [bit, hdecode, Nat.testBit_two_pow_sub_succ (BigEndian.decode_lt_two_pow b), decide_eq_true h,
    Bool.true_and, bit]

/-- From a place on all bits are clear exactly if the number is below the power of the place. -/
theorem forall_bit_eq_false_iff {b : Bytes width} {place : Nat} :
    (∀ i, place ≤ i ∧ i < 8 * width → b.bit i = false) ↔ BigEndian.decode b < 2 ^ place := by
  constructor
  · intro h
    refine Nat.lt_pow_two_of_testBit _ fun i hi => ?_
    by_cases hwidth : i < 8 * width
    · exact h i ⟨hi, hwidth⟩
    · -- there are no bits in front of the width
      have hpow : 2 ^ (8 * width) ≤ 2 ^ i := Nat.pow_le_pow_right (by decide) (Nat.not_lt.1 hwidth)
      exact Nat.testBit_lt_two_pow (Nat.lt_of_lt_of_le (BigEndian.decode_lt_two_pow b) hpow)
  · intro h i hi
    exact Nat.testBit_lt_two_pow
      (Nat.lt_of_lt_of_le h (Nat.pow_le_pow_right (by decide) hi.1))

/-- The first bit is clear exactly if the number is in the lower half of the width. -/
theorem bit_first_eq_false_iff {b : Bytes width} {place : Nat} (h : place + 1 = 8 * width) :
    b.bit place = false ↔ BigEndian.decode b < 2 ^ place := by
  rw [← forall_bit_eq_false_iff]
  constructor
  · intro hbit i hi
    obtain rfl : i = place := by omega
    exact hbit
  · exact fun hbits => hbits place ⟨Nat.le_refl _, by omega⟩

/-- From a place on all bits are set exactly if the number of the complement is below the power of
the place. -/
theorem forall_bit_eq_true_iff {b : Bytes width} {place : Nat} :
    (∀ i, place ≤ i ∧ i < 8 * width → b.bit i = true) ↔
      BigEndian.decode b.complement < 2 ^ place := by
  rw [← forall_bit_eq_false_iff]
  refine forall₂_congr fun i hi => ?_
  rw [bit_complement b hi.2, Bool.not_eq_false']

/-- From a place on all bits are equal exactly if the number, or that of the complement, is below
the power of the place. -/
theorem forall_bit_eq_iff {b : Bytes width} {place : Nat} (h : place < 8 * width) :
    (∀ i, place ≤ i ∧ i < 8 * width → b.bit i = b.bit place) ↔
      BigEndian.decode b < 2 ^ place ∨ BigEndian.decode b.complement < 2 ^ place := by
  have hplace : place ≤ place ∧ place < 8 * width := ⟨Nat.le_refl _, h⟩
  constructor
  · intro hequal
    cases hbit : b.bit place with
    | false => exact .inl (forall_bit_eq_false_iff.1 fun i hi => (hequal i hi).trans hbit)
    | true => exact .inr (forall_bit_eq_true_iff.1 fun i hi => (hequal i hi).trans hbit)
  · rintro (hclear | hset)
    · have hbits := forall_bit_eq_false_iff.2 hclear
      exact fun i hi => (hbits i hi).trans (hbits place hplace).symm
    · have hbits := forall_bit_eq_true_iff.2 hset
      exact fun i hi => (hbits i hi).trans (hbits place hplace).symm

/-- A byte string takes at most some bits exactly if its number is below the power of two of them.
-/
theorem bitLength_le_iff {b : Bytes width} {place : Nat} :
    b.bitLength ≤ place ↔ BigEndian.decode b < 2 ^ place := by
  unfold bitLength
  by_cases h : BigEndian.decode b = 0
  · rw [if_pos h, h]
    exact iff_of_true (Nat.zero_le place) (Nat.two_pow_pos place)
  · simp only [h, if_false, Nat.succ_le_iff, Nat.log2_lt h]

example : bitLength ⟨[0x01, 0x00], rfl⟩ = 9 := by decide

end Bytes
end VaultBatch
