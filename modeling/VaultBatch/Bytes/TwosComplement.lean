import VaultBatch.Bytes.BigEndian

/-!
# Integers in two's complement

An integer as bytes, most significant first, negative integers counted down from the number of all
byte strings of the width. `decode_encode` and `encode_decode` say that the two directions are
inverse on integers that fit.
-/

namespace VaultBatch.TwosComplement

/-- The lowest `width` bytes of an integer. -/
def encode (width : Nat) (value : Int) : Bytes width :=
  BigEndian.encode width (value % (Bytes.count width : Nat)).toNat

/-- The integer that a byte string stands for. -/
def decode {width : Nat} (bytes : Bytes width) : Int :=
  let n := BigEndian.decode bytes
  if 2 * n < Bytes.count width then n else (n : Int) - (Bytes.count width : Nat)

/-- Writing an integer and reading it back keeps what fits the width. -/
theorem decode_encode {width : Nat} {value : Int}
    (hlow : -(Bytes.count width : Nat) ≤ 2 * value) (hhigh : 2 * value < (Bytes.count width : Nat)) :
    decode (encode width value) = value := by
  have hpos := Bytes.count_pos width
  have hdecode : BigEndian.decode (encode width value) =
      (value % (Bytes.count width : Nat)).toNat := by
    apply BigEndian.decode_encode
    have := Int.emod_lt_of_pos value (show (0 : Int) < (Bytes.count width : Nat) by omega)
    omega
  have hmod : value % (Bytes.count width : Nat) =
      if 0 ≤ value then value else value + (Bytes.count width : Nat) := by
    split
    · exact Int.emod_eq_of_lt (by omega) (by omega)
    · rw [← Int.add_emod_right]
      exact Int.emod_eq_of_lt (by omega) (by omega)
  simp only [decode, hdecode, hmod]
  split <;> split <;> omega

/-- Reading a byte string and writing it back gives it again. -/
theorem encode_decode {width : Nat} (bytes : Bytes width) : encode width (decode bytes) = bytes := by
  have hlt := BigEndian.decode_lt bytes
  have hvalue : (decode bytes % (Bytes.count width : Nat)).toNat = BigEndian.decode bytes := by
    simp only [decode]
    split
    · rw [Int.emod_eq_of_lt (by omega) (by omega)]
      omega
    · rw [← Int.add_emod_right, Int.emod_eq_of_lt (by omega) (by omega)]
      omega
  rw [encode, hvalue, BigEndian.encode_decode]

/-- The bounds of the integers that byte strings of a width stand for. -/
theorem decode_bounds {width : Nat} (bytes : Bytes width) :
    -(Bytes.count width : Nat) ≤ 2 * decode bytes ∧
      2 * decode bytes < (Bytes.count width : Nat) := by
  have hlt := BigEndian.decode_lt bytes
  simp only [decode]
  split <;> omega

end VaultBatch.TwosComplement
