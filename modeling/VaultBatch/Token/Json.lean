import VaultBatch.Json.Reader
import VaultBatch.Json.Writer

/-!
# Tokens as JSON

An address is a string of its digits, a token standard a name, a token number a plain integer of
any size, and a token an object of the three. The number may be left out and is zero then.
-/

namespace VaultBatch

namespace Address

/-- Writes an address. -/
def writeJson (address : Address) : List Char :=
  Json.Writer.text address.hex

/-- Reads an address. -/
def readJson : Json.Reader Address :=
  Json.checkedString fun text => (parse text).mapError .encoding

end Address

namespace TokenKind

/-- Writes a token standard. -/
def writeJson (kind : TokenKind) : List Char :=
  Json.Writer.text kind.name

/-- Reads a token standard. -/
def readJson : Json.Reader TokenKind :=
  Json.oneOf ofName? (all.map name)

end TokenKind

namespace TokenId

/-- Writes a token number. -/
def writeJson (id : TokenId) : List Char :=
  Json.Writer.integer id.value

/-- Reads a token number. -/
def readJson : Json.Reader TokenId := do
  match ofNat (← Json.natural128) with
  | .ok id => return id
  | .error error => Json.Reader.fail (.rejected (.encoding error))

end TokenId

namespace Token

/-- Writes a token. -/
def writeJson (token : Token) : List Char :=
  Json.Writer.object
    [("kind", token.kind.writeJson), ("id", token.id.writeJson),
      ("address", token.address.writeJson)]

/-- The members of a token that have been read. -/
structure Fields where
  kind : Option TokenKind := none
  id : Option TokenId := none
  address : Option Address := none

/-- Reads a member of a token. -/
def readField (fields : Fields) (name : String) : Json.Reader Fields :=
  match name with
  | "kind" => do
    Json.once fields.kind name
    return { fields with kind := some (← Json.member TokenKind.readJson) }
  | "id" => do
    Json.once fields.id name
    return { fields with id := some (← Json.member TokenId.readJson) }
  | "address" => do
    Json.once fields.address name
    return { fields with address := some (← Json.member Address.readJson) }
  | _ => do
    Json.skipMember
    return fields

/-- The token of all members. -/
def ofFields (fields : Fields) : Json.Reader Token := do
  let kind ← Json.required fields.kind "kind"
  let address ← Json.required fields.address "address"
  return ⟨kind, fields.id.getD .zero, address⟩

/-- Reads the members of a token in order. -/
def readPlaces : Json.Reader Token := do
  let wanted := .elements "TokenReference" 3
  let kind ← Json.element TokenKind.readJson 0 wanted none
  let id ← Json.element TokenId.readJson 1 wanted (some .zero)
  let address ← Json.element Address.readJson 2 wanted none
  return ⟨kind, id, address⟩

/-- Reads a token. -/
def readJson : Json.Reader Token :=
  Json.record (.record "TokenReference") readField {} ofFields readPlaces

end Token
end VaultBatch
