import VaultBatch.Layout

/-!
# Faults of packed bytes

Why bytes are no descriptor or packed instruction. Each cause is a constructor;
`DecodeError.message` has the words.
-/

namespace VaultBatch

/-- Why packed bytes cannot be read. -/
inductive DecodeError where
  /-- The bytes are more or fewer than the form has. -/
  | invalidLength (layout : Layout) (got : Nat)
  /-- A reserved byte is not zero. -/
  | nonZeroReserved (reserved : Bytes PackedInstruction.reservedWidth)
  /-- A pool or gauge has a number. -/
  | nonZeroTargetId (id : TokenId)
  /-- The first byte stands for neither a pool nor a gauge. -/
  | unknownDiscriminant (byte : UInt8)
  /-- A field holds a faulty value. -/
  | encoding (error : EncodingError)
  deriving DecidableEq

/-- The fault in words. -/
def DecodeError.message : DecodeError → String
  | .invalidLength layout got =>
    "Invalid " ++ layout.name ++ " length: expected " ++ toString layout.width ++ " bytes, got " ++
      toString got
  | .nonZeroReserved reserved =>
    "Non-zero reserved field in amount instruction: " ++
      String.ofList (Hex.encodeMarked reserved.toList)
  | .nonZeroTargetId id =>
    "Non-zero id field in pool/gauge reference: " ++ String.ofList (Decimal.ofNat id.value)
  | .unknownDiscriminant byte =>
    "Unknown operation target discriminant " ++ String.ofList (Hex.encodeMarked [byte]) ++
      ": expected 0x00 (pool) or 0x01 (gauge)"
  | .encoding error => error.message

namespace Layout

variable {α : Type} {layout : Layout} {make : Bytes layout.width → α}
  {bytesOf : α → Bytes layout.width} {bytes : List UInt8} {value : α} {error : DecodeError}

/-- Reads a value from as many bytes as its form has. -/
def read (layout : Layout) (make : Bytes layout.width → α) (bytes : List UInt8) :
    Except DecodeError α :=
  match Bytes.ofList? layout.width bytes with
  | some bytes => .ok (make bytes)
  | none => .error (.invalidLength layout bytes.length)

/-- Values that are made of their bytes alone are read exactly from these. -/
theorem read_eq_ok_iff (hmake : ∀ own, bytesOf (make own) = own)
    (hbytes : ∀ value, make (bytesOf value) = value) :
    layout.read make bytes = .ok value ↔ bytes = (bytesOf value).toList := by
  rw [← Bytes.ofList?_eq_some_iff, read]
  cases Bytes.ofList? layout.width bytes with
  | none => simp
  | some own =>
      rw [Except.ok.injEq, Option.some.injEq]
      constructor
      · intro h
        rw [← h, hmake]
      · intro h
        rw [h, hbytes]

/-- Bytes are refused exactly if they are more or fewer than the form has. -/
theorem read_eq_error_iff :
    layout.read make bytes = .error error ↔
      bytes.length ≠ layout.width ∧ error = .invalidLength layout bytes.length := by
  rw [← Bytes.ofList?_eq_none_iff, read]
  cases Bytes.ofList? layout.width bytes <;> simp [eq_comm]

end Layout
end VaultBatch
