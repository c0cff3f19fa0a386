import VaultBatch.Bytes

/-!
# Big-endian numbers

A natural number as bytes, most significant first. `decode_encode` and `encode_decode` say that
the two directions are inverse on numbers that fit, and `decode_lt` that every byte string of a
width stands for a number that fits it.
-/

namespace VaultBatch.BigEndian

/-- The lowest `width` bytes of a number, most significant first. -/
def encodeList : Nat → Nat → List UInt8
  | 0, _ => []
  | width + 1, n => UInt8.ofNat (n / Bytes.count width) :: encodeList width n

/-- The number that a list of bytes stands for, most significant first. -/
def decodeList : List UInt8 → Nat
  | [] => 0
  | byte :: rest => byte.toNat * Bytes.count rest.length + decodeList rest

/-- A number is written in as many bytes as asked for. -/
@[simp] theorem length_encodeList (width n : Nat) : (encodeList width n).length = width := by
  induction width with
  | zero => rfl
  | succ width ih => simp [encodeList, ih]

/-- The lowest `width` bytes of a number as a byte string. -/
def encode (width n : Nat) : Bytes width :=
  ⟨encodeList width n, length_encodeList width n⟩

/-- The number that a byte string stands for. -/
def decode {width : Nat} (bytes : Bytes width) : Nat :=
  decodeList bytes.toList

/-- Bytes stand for a number below the number of byte strings of their length. -/
theorem decodeList_lt (bytes : List UInt8) : decodeList bytes < Bytes.count bytes.length := by
  induction bytes with
  | nil => simp [decodeList, Bytes.count]
  | cons byte rest ih =>
    have hbyte : byte.toNat < 256 := byte.toNat_lt
    have hstep : (byte.toNat + 1) * Bytes.count rest.length ≤ 256 * Bytes.count rest.length :=
      Nat.mul_le_mul_right _ hbyte
    simp only [decodeList, List.length_cons, Bytes.count]
    rw [Nat.add_mul] at hstep
    omega

/-- A byte string stands for a number below the number of byte strings of its width. -/
theorem decode_lt {width : Nat} (bytes : Bytes width) : decode bytes < Bytes.count width := by
  have h := decodeList_lt bytes.toList
  rwa [bytes.length_toList] at h

/-- Whole turns around the width do not change the bytes of a number. -/
theorem encodeList_add_mul (width n k : Nat) :
    encodeList width (n + k * Bytes.count width) = encodeList width n := by
  induction width generalizing k with
  | zero => rfl
  | succ width ih =>
    have hk : n + k * Bytes.count (width + 1) = n + (k * 256) * Bytes.count width := by
      rw [Bytes.count, Nat.mul_assoc]
    simp only [encodeList]
    congr 1
    · apply UInt8.toNat_inj.1
      simp only [UInt8.toNat_ofNat']
      rw [hk, Nat.add_mul_div_right _ _ (Bytes.count_pos width)]
      omega
    · rw [hk, ih]

/-- Bytes are written again from the number that they stand for. -/
theorem encodeList_decodeList (bytes : List UInt8) :
    encodeList bytes.length (decodeList bytes) = bytes := by
  induction bytes with
  | nil => rfl
  | cons byte rest ih =>
    simp only [List.length_cons, encodeList, decodeList]
    congr 1
    · rw [Nat.add_comm, Nat.add_mul_div_right _ _ (Bytes.count_pos _),
        Nat.div_eq_of_lt (decodeList_lt rest), Nat.zero_add, UInt8.ofNat_toNat]
    · rw [Nat.add_comm, encodeList_add_mul, ih]

/-- A number is read back up to whole turns around the width. -/
theorem decodeList_encodeList (width n : Nat) :
    decodeList (encodeList width n) = n % Bytes.count width := by
  induction width with
  | zero => simp [encodeList, decodeList, Bytes.count, Nat.mod_one]
  | succ width ih =>
    have hmod : n % Bytes.count (width + 1) =
        n % Bytes.count width + Bytes.count width * (n / Bytes.count width % 256) := by
      rw [Bytes.count, Nat.mul_comm 256, Nat.mod_mul]
    simp only [encodeList, decodeList, length_encodeList, ih, UInt8.toNat_ofNat', hmod]
    rw [Nat.mul_comm (Bytes.count width), Nat.add_comm (n % Bytes.count width)]

/-- Writing a number and reading it back keeps what fits the width. -/
theorem decode_encode {width n : Nat} (h : n < Bytes.count width) :
    decode (encode width n) = n := by
  simp [decode, encode, decodeList_encodeList, Nat.mod_eq_of_lt h]

/-- Reading a byte string and writing it back gives it again. -/
theorem encode_decode {width : Nat} (bytes : Bytes width) :
    encode width (decode bytes) = bytes := by
  apply Bytes.ext
  have h := encodeList_decodeList bytes.toList
  rwa [bytes.length_toList] at h

end VaultBatch.BigEndian
