import VaultBatch.DecodeError

/-!
# Packed instructions

An instruction in 32 bytes: a byte for the place of its token in the table, a byte for its policy,
14 reserved zeros and 16 bytes for the amount. `decode_encode` says that what is packed is read
back.
-/

namespace VaultBatch

/-- An instruction that names its token by a place in the token table. -/
structure IndexedInstruction where
  index : UInt8
  kind : AmountKind
  amount : Amount
  deriving DecidableEq

/-- A packed instruction. -/
structure PackedInstruction where
  bytes : Bytes PackedInstruction.width
  deriving DecidableEq

namespace PackedInstruction

/-- The last place in a table that a packed instruction can name. -/
def maxIndex : Nat := Bytes.count indexWidth - 1

/-- Packs an instruction whose place is known to fit. -/
def pack (instruction : IndexedInstruction) : PackedInstruction :=
  ⟨⟨instruction.index :: instruction.kind.byte ::
    ((Bytes.zero reservedWidth).toList ++ instruction.amount.toBytes.toList), by simp; rfl⟩⟩

/-- Packs an instruction from the place of its token, its policy and its amount. -/
def encode (index : Nat) (kind : AmountKind) (amount : Amount) :
    Except EncodingError PackedInstruction :=
  if index ≤ maxIndex then .ok (pack ⟨UInt8.ofNat index, kind, amount⟩)
  else .error (.outOfRange .tokenIndex index maxIndex)

/-- Packs an instruction whose policy is given as a byte. -/
def encodeRaw (index : Nat) (kind : UInt8) (amount : Amount) :
    Except EncodingError PackedInstruction := do
  encode index (← AmountKind.ofByte kind) amount

/-- The byte of the place in the table. -/
def index (p : PackedInstruction) : UInt8 :=
  p.bytes.head

/-- The byte of the policy. -/
def kindByte (p : PackedInstruction) : UInt8 :=
  (p.bytes.slice kindOffset kindWidth).head

/-- The reserved bytes. -/
def reserved (p : PackedInstruction) : Bytes reservedWidth :=
  p.bytes.slice reservedOffset reservedWidth

/-- The amount. -/
def amount (p : PackedInstruction) : Amount :=
  Amount.ofBytes (p.bytes.slice amountOffset amountWidth)

/-- Reads a packed instruction. -/
def decode (p : PackedInstruction) : Except DecodeError IndexedInstruction :=
  if p.reserved ≠ Bytes.zero reservedWidth then .error (.nonZeroReserved p.reserved)
  else
    match AmountKind.ofByte p.kindByte with
    | .ok kind => .ok ⟨p.index, kind, p.amount⟩
    | .error error => .error (.encoding error)

/-- Reads a packed instruction from bytes of any number. -/
def ofList (bytes : List UInt8) : Except DecodeError PackedInstruction :=
  Layout.instruction.read mk bytes

/-- Bytes are read as a packed instruction exactly if they are its own. -/
theorem ofList_eq_ok_iff {bytes : List UInt8} {p : PackedInstruction} :
    ofList bytes = .ok p ↔ bytes = p.bytes.toList :=
  Layout.read_eq_ok_iff (fun _ => rfl) fun _ => rfl

/-- The bytes of a packed instruction are read as that instruction. -/
@[simp] theorem ofList_toList (p : PackedInstruction) : ofList p.bytes.toList = .ok p :=
  ofList_eq_ok_iff.2 rfl

/-- A packed instruction as `0x` and its digits. -/
def hex (p : PackedInstruction) : String :=
  String.ofList (Hex.encodeMarked p.bytes.toList)

/-- Why a text is no packed instruction. -/
inductive ParseError where
  /-- The text is no hexadecimal text. -/
  | hex (flaw : Hex.Flaw)
  /-- The bytes are no packed instruction. -/
  | bytes (error : DecodeError)
  deriving DecidableEq

/-- The fault in words. -/
def ParseError.message : ParseError → String
  | .hex flaw => flaw.message
  | .bytes error => error.message

/-- Reads a packed instruction from its digits, with `0x` or nothing before them. -/
def parse (text : String) : Except ParseError PackedInstruction :=
  match Hex.decode (Hex.dropMark text.toList) with
  | .error flaw => .error (.hex flaw)
  | .ok bytes => (ofList bytes).mapError .bytes

/-- A written instruction is read back. -/
theorem parse_hex (p : PackedInstruction) : parse p.hex = .ok p := by
  simp only [parse, hex, String.toList_ofList, Hex.dropMark_encodeMarked, Hex.decode_encode,
    ofList_toList]
  rfl

/-- Packing leaves zeros in the reserved bytes. -/
theorem reserved_pack (i : IndexedInstruction) : (pack i).reserved = Bytes.zero reservedWidth :=
  Bytes.slice_eq_of_drop _ rfl

/-- The amount of a packed instruction is the one that was packed. -/
theorem amount_pack (i : IndexedInstruction) : (pack i).amount = i.amount := by
  have hdrop : (pack i).bytes.toList.drop amountOffset = i.amount.toBytes.toList ++ [] := by
    rw [List.append_nil]
    rfl
  rw [amount, Bytes.slice_eq_of_drop _ hdrop, Amount.ofBytes_toBytes]

/-- A packed instruction is read back. -/
@[simp] theorem decode_pack (i : IndexedInstruction) : (pack i).decode = .ok i := by
  have hkind : AmountKind.ofByte i.kind.byte = .ok i.kind := AmountKind.ofByte_eq_ok_iff.2 rfl
  have hbyte : (pack i).kindByte = i.kind.byte := rfl
  have hindex : (pack i).index = i.index := rfl
  simp [decode, reserved_pack, hbyte, hindex, hkind, amount_pack]

end PackedInstruction

/-- Reads an instruction from the bytes that it is packed in. -/
def IndexedInstruction.ofBytes (bytes : List UInt8) : Except DecodeError IndexedInstruction := do
  (← PackedInstruction.ofList bytes).decode

end VaultBatch
