import VaultBatch.Text.Digit
import VaultBatch.Text.Quoted

/-!
# Hexadecimal text

Bytes are written as two lower case digits each. Reading takes digits of either case and works on
the UTF-8 bytes of the text: an odd number of them is reported first, else the first byte that is
no digit together with its position. `decode_encode` says that what is written is read back.
-/

namespace VaultBatch.Hex

/-- Why a text is no hexadecimal form of bytes. -/
inductive Flaw where
  /-- The text has an odd number of bytes. -/
  | oddLength
  /-- The byte at a position is no hexadecimal digit. -/
  | invalidDigit (byte : UInt8) (position : Nat)
  deriving DecidableEq

/-- The flaw in words; a byte is shown as the character of the same number. -/
def Flaw.message : Flaw → String
  | .oddLength => "Odd number of digits"
  | .invalidDigit byte position =>
    "Invalid character " ++ Text.Quoted.char (Char.ofNat byte.toNat) ++ " at position " ++
      toString position

/-- The lower case digit of a number below sixteen. -/
def digit (n : Nat) : Char :=
  Nat.digitChar n

/-- The two digits of a byte. -/
def encodeByte (byte : UInt8) : List Char :=
  [digit (byte.toNat / 16), digit (byte.toNat % 16)]

/-- The digits of bytes, two for each. -/
def encode (bytes : List UInt8) : List Char :=
  bytes.flatMap encodeByte

/-- The digits of bytes after the mark `0x`. -/
def encodeMarked (bytes : List UInt8) : List Char :=
  '0' :: 'x' :: encode bytes

/-- A number after the mark `0x`, without leading zeros. -/
def encodeNat (n : Nat) : List Char :=
  '0' :: 'x' :: Nat.toDigits 16 n

/-- The value of a digit of either case, given as an ASCII byte. -/
def digitValue? (byte : UInt8) : Option Nat :=
  Digit.value? 16 (Char.ofNat byte.toNat)

/-- The value of the digit at a position. -/
def readDigit (position : Nat) (byte : UInt8) : Except Flaw Nat :=
  match digitValue? byte with
  | some value => .ok value
  | none => .error (.invalidDigit byte position)

/-- Reads digits in pairs, the first one standing at the given position. -/
def decodePairs : Nat → List UInt8 → Except Flaw (List UInt8)
  | _, [] => .ok []
  | _, [_] => .error .oddLength
  | position, high :: low :: rest => do
    let h ← readDigit position high
    let l ← readDigit (position + 1) low
    let bytes ← decodePairs (position + 2) rest
    return UInt8.ofNat (16 * h + l) :: bytes

/-- The UTF-8 bytes of a text. -/
def utf8 (text : List Char) : List UInt8 :=
  text.flatMap String.utf8EncodeChar

/-- The bytes that a text of digits stands for. -/
def decode (text : List Char) : Except Flaw (List UInt8) :=
  let bytes := utf8 text
  if bytes.length % 2 = 0 then decodePairs 0 bytes else .error .oddLength

/-- A text without the mark `0x` before it, if it has one. -/
def dropMark : List Char → List Char
  | '0' :: 'x' :: digits => digits
  | digits => digits

/-- A text without the mark `0x` or `0X` before it, if it has one. -/
def dropAnyMark : List Char → List Char
  | '0' :: 'x' :: digits => digits
  | '0' :: 'X' :: digits => digits
  | digits => digits

/-- The digits of bytes are those of the first byte and then those of the rest. -/
@[simp] theorem encode_cons (byte : UInt8) (rest : List UInt8) :
    encode (byte :: rest) = encodeByte byte ++ encode rest := rfl

/-- There are two digits for each byte. -/
@[simp] theorem length_encode (bytes : List UInt8) : (encode bytes).length = 2 * bytes.length := by
  induction bytes with
  | nil => rfl
  | cons byte rest ih => simp [encodeByte, ih]; omega

/-- The bytes of two texts joined are those of the first and then those of the second. -/
theorem utf8_append (a b : List Char) : utf8 (a ++ b) = utf8 a ++ utf8 b :=
  List.flatMap_append

/-- The ASCII byte of the digit of a number below sixteen. -/
def digitByte (n : Nat) : UInt8 :=
  UInt8.ofNat (digit n).toNat

/-- A digit is one byte, which is read as the number that the digit is written for. -/
theorem utf8_digit : ∀ n < 16, String.utf8EncodeChar (digit n) = [digitByte n] ∧
    digitValue? (digitByte n) = some n := by
  decide

/-- The digits of a byte stand as two bytes before those of the rest. -/
theorem utf8_encode_cons (byte : UInt8) (rest : List UInt8) :
    utf8 (encode (byte :: rest)) =
      digitByte (byte.toNat / 16) :: digitByte (byte.toNat % 16) :: utf8 (encode rest) := by
  have hbyte := byte.toNat_lt
  have hhigh := (utf8_digit (byte.toNat / 16) (by omega)).1
  have hlow := (utf8_digit (byte.toNat % 16) (by omega)).1
  rw [encode_cons, utf8_append]
  simp only [utf8, encodeByte, List.flatMap_cons, List.flatMap_nil, hhigh, hlow, List.append_nil]
  rfl

/-- The digits of bytes are read back pair by pair, whatever position they start at. -/
theorem decodePairs_utf8_encode (position : Nat) (bytes : List UInt8) :
    decodePairs position (utf8 (encode bytes)) = .ok bytes := by
  induction bytes generalizing position with
  | nil => rfl
  | cons byte rest ih =>
    have hbyte := byte.toNat_lt
    have hhigh := (utf8_digit (byte.toNat / 16) (by omega)).2
    have hlow := (utf8_digit (byte.toNat % 16) (by omega)).2
    have hjoin : UInt8.ofNat (16 * (byte.toNat / 16) + byte.toNat % 16) = byte := by
      rw [Nat.div_add_mod, UInt8.ofNat_toNat]
    rw [utf8_encode_cons]
    simp only [decodePairs, readDigit, hhigh, hlow, ih, hjoin, bind, Except.bind, pure, Except.pure]

/-- The digits of bytes have twice as many bytes. -/
theorem length_utf8_encode (bytes : List UInt8) :
    (utf8 (encode bytes)).length = 2 * bytes.length := by
  induction bytes with
  | nil => rfl
  | cons byte rest ih =>
    rw [utf8_encode_cons]
    simp only [List.length_cons, ih]
    omega

/-- The digits of bytes are read back as the bytes. -/
theorem decode_encode (bytes : List UInt8) : decode (encode bytes) = .ok bytes := by
  simp [decode, length_utf8_encode, decodePairs_utf8_encode]

/-- Without their mark `0x`, marked digits are the digits of the bytes. -/
@[simp] theorem dropMark_encodeMarked (bytes : List UInt8) :
    dropMark (encodeMarked bytes) = encode bytes := rfl

/-- Without a mark of either case, marked digits are the digits of the bytes. -/
@[simp] theorem dropAnyMark_encodeMarked (bytes : List UInt8) :
    dropAnyMark (encodeMarked bytes) = encode bytes := rfl

end VaultBatch.Hex
