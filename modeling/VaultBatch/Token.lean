import VaultBatch.Address
import VaultBatch.Bytes.BigEndian
import VaultBatch.Text.Blank

/-!
# Tokens

A token is a standard, a number that fits 15 bytes and an address; two tokens are the same if all three
agree. Tokens are ordered by standard, then number, then address.
-/

namespace VaultBatch

namespace TokenKind

/-- Reads the name of a standard, with blanks around it and in letters of any case. -/
def parse (text : String) : Except EncodingError TokenKind :=
  Field.tokenKind.known text (ofName? (String.ofList (Text.lowerAscii (Text.trim text.toList))))

/-- Reads the byte of a standard. -/
def ofByte (b : UInt8) : Except EncodingError TokenKind :=
  Field.tokenKind.known (toString b.toNat) (ofByte? b)

/-- A standard is read exactly from its byte. -/
theorem ofByte_eq_ok_iff {b : UInt8} {kind : TokenKind} : ofByte b = .ok kind ↔ kind.byte = b := by
  rw [ofByte, Field.known_eq_ok_iff, ofByte?_eq_some_iff]

end TokenKind

/-- The number of bytes of a token number. -/
abbrev TokenId.width : Nat := 15

/-- The number of a token within its contract. -/
structure TokenId where
  value : Nat
  value_lt : value < Bytes.count TokenId.width
  deriving DecidableEq

namespace TokenId

/-- The largest token number. -/
def maxValue : Nat := Bytes.count width - 1

/-- The token number that fungible tokens have. -/
def zero : TokenId := ⟨0, by decide⟩

/-- A number as a token number, if it fits. -/
def ofNat (value : Nat) : Except EncodingError TokenId :=
  if h : value < Bytes.count width then .ok ⟨value, h⟩
  else .error (.outOfRange .tokenId value maxValue)

/-- The token number in 15 bytes. -/
def toBytes (id : TokenId) : Bytes width :=
  BigEndian.encode width id.value

/-- The token number that 15 bytes stand for. -/
def ofBytes (bytes : Bytes width) : TokenId :=
  ⟨BigEndian.decode bytes, BigEndian.decode_lt bytes⟩

/-- The value of a token number fits and makes the same token number. -/
theorem ofNat_value (id : TokenId) : ofNat id.value = .ok id :=
  dif_pos id.value_lt

/-- A token number is read back from its bytes. -/
@[simp] theorem ofBytes_toBytes (id : TokenId) : ofBytes id.toBytes = id := by
  cases id with
  | mk value h => simp [ofBytes, toBytes, @BigEndian.decode_encode width value h]

/-- Bytes are written again from the token number that is read from them. -/
@[simp] theorem toBytes_ofBytes (bytes : Bytes width) : (ofBytes bytes).toBytes = bytes :=
  BigEndian.encode_decode bytes

end TokenId

/-- A token: a standard, a number and an address. -/
structure Token where
  kind : TokenKind
  id : TokenId
  address : Address
  deriving DecidableEq

namespace Token

/-- Tokens are ordered by standard, then number, then address. -/
instance : Ord Token where
  compare a b :=
    (compare a.kind.byte b.kind.byte).then
      ((compare a.id.value b.id.value).then (compare a.address b.address))

/-- Reads a token from a standard, a number and an address; without a standard it is fungible. -/
def parse (kind : Option String) (id : Nat) (address : String) : Except EncodingError Token := do
  let kind ← match kind with
    | some name => TokenKind.parse name
    | none => .ok .erc20
  let id ← TokenId.ofNat id
  let address ← Address.parse address
  return ⟨kind, id, address⟩

/-- A token in words; the number of a fungible token is left out. -/
def display (token : Token) : String :=
  match token.kind with
  | .erc20 => token.kind.name ++ ":" ++ token.address.hex
  | _ => token.kind.name ++ ":" ++ token.address.hex ++ "#" ++
    String.ofList (Decimal.ofNat token.id.value)

end Token
end VaultBatch
