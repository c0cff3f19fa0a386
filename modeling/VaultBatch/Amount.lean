import VaultBatch.Amount.Kind
import VaultBatch.Bytes.Bits
import VaultBatch.Bytes.TwosComplement
import VaultBatch.EncodingError
import VaultBatch.Text.Blank

/-!
# Amounts

Integers of 128 bits with a sign, which tells who pays: a positive amount goes from the user to
the vault, a negative one from the vault to the user. `Amount.pay` and `Amount.receive` build an
amount from its direction and size.
-/

namespace VaultBatch

namespace AmountKind

/-- Reads the name of a policy, with blanks around it and in letters of any case; the two words of
the middle one may be joined by a space, an underscore or nothing. -/
def parse (text : String) : Except EncodingError AmountKind :=
  let word := String.ofList (Text.lowerAscii (Text.trim text.toList))
  Field.amountKind.known text (if word = "atmost" then some .atMost else ofName? word)

/-- Reads the byte of a policy. -/
def ofByte (b : UInt8) : Except EncodingError AmountKind :=
  Field.amountKind.known (toString b.toNat) (ofByte? b)

/-- A policy is read exactly from its byte. -/
theorem ofByte_eq_ok_iff {b : UInt8} {kind : AmountKind} :
    ofByte b = .ok kind ↔ kind.byte = b := by
  rw [ofByte, Field.known_eq_ok_iff, ofByte?_eq_some_iff]

end AmountKind

/-- Who an amount is paid by. -/
inductive Direction where
  /-- The user pays the vault. -/
  | userPays
  /-- The vault pays the user. -/
  | userReceives
  /-- Nothing moves. -/
  | none
  deriving DecidableEq

/-- An integer of 128 bits with a sign. -/
structure Amount where
  value : Int
  le_value : -0x80000000000000000000000000000000 ≤ value
  value_le : value ≤ 0x7fffffffffffffffffffffffffffffff
  deriving DecidableEq

namespace Amount

/-- The number of bytes of an amount. -/
abbrev width : Nat := 16

/-- The smallest amount. -/
def minValue : Int := -0x80000000000000000000000000000000

/-- The largest amount. -/
def maxValue : Int := 0x7fffffffffffffffffffffffffffffff

/-- Amounts with the same value are equal. -/
theorem ext {a b : Amount} (h : a.value = b.value) : a = b := by
  cases a
  cases b
  cases h
  rfl

/-- An integer as an amount, if it fits. -/
def ofInt? (value : Int) : Option Amount :=
  if h : minValue ≤ value ∧ value ≤ maxValue then some ⟨value, h.1, h.2⟩ else none

/-- An integer is an amount exactly if it is the value of that amount. -/
theorem ofInt?_eq_some_iff {value : Int} {amount : Amount} :
    ofInt? value = some amount ↔ amount.value = value := by
  unfold ofInt?
  constructor
  · intro h
    split at h
    · cases h
      rfl
    · cases h
  · rintro rfl
    rw [dif_pos (show minValue ≤ amount.value ∧ amount.value ≤ maxValue from
      ⟨amount.le_value, amount.value_le⟩)]

/-- An integer is no amount exactly if it lies outside the bounds. -/
theorem ofInt?_eq_none_iff {value : Int} :
    ofInt? value = none ↔ value < minValue ∨ maxValue < value := by
  unfold ofInt?
  split
  · exact iff_of_false (by simp) (by omega)
  · exact iff_of_true rfl (by omega)

/-- The amount of nothing. -/
def zero : Amount := ⟨0, by decide, by decide⟩

/-- Amounts are ordered as integers. -/
instance : Ord Amount where
  compare a b := compare a.value b.value

/-- Who pays. -/
def direction (amount : Amount) : Direction :=
  if 0 < amount.value then .userPays
  else if amount.value < 0 then .userReceives
  else .none

/-- How much is paid. -/
def magnitude (amount : Amount) : Nat :=
  amount.value.natAbs

/-- The number of byte strings of sixteen bytes, written out. -/
theorem count_sixteen :
    ((Bytes.count width : Nat) : Int) = 0x100000000000000000000000000000000 := rfl

/-- The value of an amount fits 16 bytes. -/
theorem value_fits (amount : Amount) :
    -(Bytes.count width : Nat) ≤ 2 * amount.value ∧ 2 * amount.value < (Bytes.count width : Nat) := by
  have hlow := amount.le_value
  have hhigh := amount.value_le
  rw [count_sixteen]
  omega

/-- The amount in 16 bytes, in two's complement. -/
def toBytes (amount : Amount) : Bytes width :=
  TwosComplement.encode width amount.value

/-- The two's complement of sixteen bytes is always within the bounds. -/
theorem decode_bounds (bytes : Bytes width) :
    minValue ≤ TwosComplement.decode bytes ∧ TwosComplement.decode bytes ≤ maxValue := by
  have h := TwosComplement.decode_bounds bytes
  rw [count_sixteen] at h
  unfold minValue maxValue
  omega

/-- The amount that 16 bytes stand for, in two's complement. -/
def ofBytes (bytes : Bytes width) : Amount :=
  ⟨TwosComplement.decode bytes, (decode_bounds bytes).1, (decode_bounds bytes).2⟩

/-- The value of an amount read from bytes is their two's complement. -/
theorem value_ofBytes (bytes : Bytes width) :
    (ofBytes bytes).value = TwosComplement.decode bytes := rfl

/-- An amount is read back from its bytes. -/
@[simp] theorem ofBytes_toBytes (amount : Amount) : ofBytes amount.toBytes = amount := by
  apply ext
  rw [value_ofBytes, toBytes]
  exact TwosComplement.decode_encode amount.value_fits.1 amount.value_fits.2

/-- Bytes are written again from the amount that is read from them. -/
@[simp] theorem toBytes_ofBytes (bytes : Bytes width) : (ofBytes bytes).toBytes = bytes :=
  TwosComplement.encode_decode bytes

/-- The amount with every bit turned around. -/
def complement (amount : Amount) : Amount :=
  ofBytes amount.toBytes.complement

/-- The amount in the lowest 16 bytes of an integer. -/
def wrap (value : Int) : Amount :=
  ofBytes (TwosComplement.encode width value)

/-- An amount wraps to itself. -/
theorem value_wrap {value : Int} (h : minValue ≤ value ∧ value ≤ maxValue) :
    (wrap value).value = value :=
  congrArg Amount.value (ofBytes_toBytes ⟨value, h.1, h.2⟩)

/-- The user pays the vault. -/
def pay (magnitude : Nat) : Except EncodingError Amount :=
  match ofInt? magnitude with
  | some amount => .ok amount
  | none => .error (.overflow (String.ofList (Decimal.ofNat magnitude)))

/-- The vault pays the user. The largest magnitude wraps to the smallest amount, which is its own
opposite. -/
def receive (magnitude : Nat) : Except EncodingError Amount :=
  if minValue.natAbs < magnitude then
    .error (.overflow ("-" ++ String.ofList (Decimal.ofNat magnitude)))
  else .ok (wrap (-(wrap magnitude).value))

/-- The amount in decimal. -/
def display (amount : Amount) : String :=
  String.ofList (Decimal.ofInt amount.value)

/-- Reads an amount in decimal, with blanks around it and underscores anywhere. -/
def parse (text : String) : Except EncodingError Amount :=
  match Decimal.read minValue maxValue ((Text.trim text.toList).filter (· != '_')) with
  | .error .outOfBounds => .error (.overflow text)
  | .error flaw => .error (.malformed .amount text (.integer flaw))
  | .ok value =>
    match ofInt? value with
    | some amount => .ok amount
    | none => .error (.overflow text)

end Amount
end VaultBatch
