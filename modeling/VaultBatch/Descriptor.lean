import VaultBatch.DecodeError
import VaultBatch.Reference

/-!
# Packed references

A reference in 36 bytes: a byte for its kind, 15 for the token number and 20 for the address.
Tokens have the byte of their standard first, pools and gauges their own byte and no number. The
two uses of the first byte overlap, so whoever reads a descriptor has to know which one is meant:
`Descriptor.token` and `Descriptor.target` are the two readings.
-/

namespace VaultBatch

/-- A packed reference. -/
structure Descriptor where
  bytes : Bytes Descriptor.width
  deriving DecidableEq

namespace Descriptor

/-- Descriptors with the same bytes are equal. -/
theorem ext {a b : Descriptor} (h : a.bytes.toList = b.bytes.toList) : a = b := by
  cases a
  cases b
  exact congrArg mk (Bytes.ext h)

/-- Descriptors are ordered as their bytes. -/
instance : Ord Descriptor where
  compare a b := compare a.bytes b.bytes

instance : Std.TransOrd Descriptor where
  eq_swap {a b} := Std.OrientedOrd.eq_swap (a := a.bytes) (b := b.bytes)
  isLE_trans {a b c} := Std.TransOrd.isLE_trans (a := a.bytes) (b := b.bytes) (c := c.bytes)

instance : Std.LawfulEqOrd Descriptor where
  compare_self {a} := Std.ReflOrd.compare_self (a := a.bytes)
  eq_of_compare {a b} h :=
    congrArg mk (Std.LawfulEqOrd.eq_of_compare (a := a.bytes) (b := b.bytes) h)

/-- The descriptor with the given first byte, number and address. -/
def ofFields (discriminant : UInt8) (id : TokenId) (address : Address) : Descriptor :=
  ⟨⟨discriminant :: (id.toBytes.toList ++ address.bytes.toList), by simp; rfl⟩⟩

/-- The first byte. -/
def discriminant (d : Descriptor) : UInt8 :=
  d.bytes.head

/-- The token number. -/
def id (d : Descriptor) : TokenId :=
  TokenId.ofBytes (d.bytes.slice idOffset TokenId.width)

/-- The address. -/
def address (d : Descriptor) : Address :=
  ⟨d.bytes.slice addressOffset Address.width⟩

/-- The fields stand one behind the other. -/
theorem toList_ofFields (b : UInt8) (id : TokenId) (address : Address) :
    (ofFields b id address).bytes.toList = b :: (id.toBytes.toList ++ address.bytes.toList) := rfl

/-- The first byte of packed fields is the kind that was packed. -/
@[simp] theorem discriminant_ofFields (b : UInt8) (id : TokenId) (address : Address) :
    (ofFields b id address).discriminant = b := rfl

/-- The token number of packed fields is the one that was packed. -/
@[simp] theorem id_ofFields (b : UInt8) (id : TokenId) (address : Address) :
    (ofFields b id address).id = id := by
  have hdrop : (ofFields b id address).bytes.toList.drop idOffset =
      id.toBytes.toList ++ address.bytes.toList := rfl
  rw [Descriptor.id, Bytes.slice_eq_of_drop _ hdrop, TokenId.ofBytes_toBytes]

/-- The address of packed fields is the one that was packed. -/
@[simp] theorem address_ofFields (b : UInt8) (id : TokenId) (address : Address) :
    (ofFields b id address).address = address := by
  have hdrop : (ofFields b id address).bytes.toList.drop addressOffset =
      address.bytes.toList ++ [] := by
    rw [List.append_nil]
    exact List.drop_left' id.toBytes.length_toList
  rw [Descriptor.address, Bytes.slice_eq_of_drop _ hdrop]

/-- A descriptor is made of its fields. -/
theorem ofFields_fields (d : Descriptor) : ofFields d.discriminant d.id d.address = d := by
  have hkind : d.bytes.toList = d.discriminant :: d.bytes.toList.drop idOffset :=
    Bytes.toList_eq_head_cons d.bytes
  have hid : d.bytes.toList.drop idOffset =
      (d.bytes.slice idOffset TokenId.width).toList ++ d.bytes.toList.drop addressOffset :=
    Bytes.drop_eq_slice_append _ _
  have haddress : d.bytes.toList.drop addressOffset =
      d.address.bytes.toList ++ d.bytes.toList.drop width :=
    Bytes.drop_eq_slice_append _ (by decide)
  apply ext
  rw [hkind, hid, haddress, Bytes.drop_width, List.append_nil, toList_ofFields, Descriptor.id,
    TokenId.toBytes_ofBytes]

/-- Reads a descriptor from bytes of any number. -/
def ofList (bytes : List UInt8) : Except DecodeError Descriptor :=
  Layout.descriptor.read mk bytes

/-- Bytes are read as a descriptor exactly if they are its own. -/
theorem ofList_eq_ok_iff {bytes : List UInt8} {d : Descriptor} :
    ofList bytes = .ok d ↔ bytes = d.bytes.toList :=
  Layout.read_eq_ok_iff (fun _ => rfl) fun _ => rfl

/-- The bytes of a descriptor are read as that descriptor. -/
@[simp] theorem ofList_toList (d : Descriptor) : ofList d.bytes.toList = .ok d :=
  ofList_eq_ok_iff.2 rfl

/-- Reads the descriptor of a token. -/
def token (d : Descriptor) : Except DecodeError Token :=
  match TokenKind.ofByte d.discriminant with
  | .ok kind => .ok ⟨kind, d.id, d.address⟩
  | .error error => .error (.encoding error)

/-- Reads the descriptor of a pool or gauge. -/
def target (d : Descriptor) : Except DecodeError Target :=
  if d.id.value ≠ 0 then .error (.nonZeroTargetId d.id)
  else if d.discriminant = 0 then .ok (.pool d.address)
  else if d.discriminant = 1 then .ok (.gauge d.address)
  else .error (.unknownDiscriminant d.discriminant)

/-- A descriptor as `0x` and its digits. -/
def hex (d : Descriptor) : String :=
  String.ofList (Hex.encodeMarked d.bytes.toList)

/-- Reads a descriptor from its digits, with `0x` or nothing before them. -/
def parse (text : String) : Except DecodeError Descriptor :=
  match Hex.decode (Hex.dropMark text.toList) with
  | .error flaw => .error (.encoding (.malformed .descriptor text (.hex flaw)))
  | .ok bytes => ofList bytes

/-- A written descriptor is read back. -/
theorem parse_hex (d : Descriptor) : parse d.hex = .ok d := by
  simp [parse, hex, Hex.decode_encode]

/-- Packs a token from a byte and a number that may be out of range. -/
def ofRaw (kind : UInt8) (id : Nat) (address : Address) : Except EncodingError Descriptor := do
  let kind ← match TokenKind.ofByte? kind with
    | some kind => .ok kind
    | none => .error (.outOfRange .tokenKind kind.toNat TokenKind.maxByte)
  let id ← TokenId.ofNat id
  return ofFields kind.byte id address

end Descriptor

/-- A token as a descriptor. -/
def Token.pack (token : Token) : Descriptor :=
  .ofFields token.kind.byte token.id token.address

/-- A pool or gauge as a descriptor. -/
def Target.pack (target : Target) : Descriptor :=
  .ofFields target.discriminant .zero target.address

/-- A reference as a descriptor. -/
def Reference.pack : Reference → Descriptor
  | .token t => t.pack
  | .target t => t.pack

/-- Reads a token from the bytes of its descriptor. -/
def Token.ofBytes (bytes : List UInt8) : Except DecodeError Token := do
  (← Descriptor.ofList bytes).token

/-- Reads a pool or gauge from the bytes of its descriptor. -/
def Target.ofBytes (bytes : List UInt8) : Except DecodeError Target := do
  (← Descriptor.ofList bytes).target

/-- A packed token is read back. -/
@[simp] theorem Descriptor.token_pack (token : Token) : token.pack.token = .ok token := by
  have hkind : TokenKind.ofByte token.kind.byte = .ok token.kind := TokenKind.ofByte_eq_ok_iff.2 rfl
  simp [Descriptor.token, Token.pack, hkind]

/-- A packed pool or gauge is read back. -/
@[simp] theorem Descriptor.target_pack (target : Target) : target.pack.target = .ok target := by
  cases target <;>
    simp [Descriptor.target, Target.pack, Target.discriminant, Target.address, TokenId.zero]

end VaultBatch
