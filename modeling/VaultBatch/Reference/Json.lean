import VaultBatch.Target.Json

/-!
# References as JSON

A reference is written as what it refers to. It is read from the members `type`, `kind`, `id` and
`address`, in any order and with nothing else beside them; a null is as good as a missing member.
-/

namespace VaultBatch.Reference

/-- Writes a reference. -/
def writeJson : Reference → List Char
  | .token t => t.writeJson
  | .target t => t.writeJson

/-- The members of a reference, in the order of their places. -/
def fieldNames : List String :=
  ["type", "kind", "id", "address"]

/-- The members of a reference that have been read, some of them perhaps as nulls. -/
structure Fields where
  target : Option (Option TargetKind) := none
  kind : Option (Option TokenKind) := none
  id : Option (Option TokenId) := none
  address : Option Address := none

/-- Reads a member of a reference. -/
def readField (fields : Fields) (name : String) : Json.Reader Fields :=
  match name with
  | "type" => do
    Json.once fields.target name
    return { fields with target := some (← Json.member (Json.optional TargetKind.readJson)) }
  | "kind" => do
    Json.once fields.kind name
    return { fields with kind := some (← Json.member (Json.optional TokenKind.readJson)) }
  | "id" => do
    Json.once fields.id name
    return { fields with id := some (← Json.member (Json.optional TokenId.readJson)) }
  | "address" => do
    Json.once fields.address name
    return { fields with address := some (← Json.member Address.readJson) }
  | _ => Json.Reader.fail (.unknownField name fieldNames)

/-- The four values of a reference, before it is known whether they fit each other. -/
structure Values where
  target : Option TargetKind
  kind : Option TokenKind
  id : Option TokenId
  address : Address

/-- The values of all members. -/
def ofMembers (fields : Fields) : Json.Reader Values := do
  let address ← Json.required fields.address "address"
  return ⟨fields.target.join, fields.kind.join, fields.id.join, address⟩

/-- Reads the members of a reference in order. -/
def readPlaces : Json.Reader Values := do
  let wanted := .elements "ReferenceFields" 4
  let target ← Json.element (Json.optional TargetKind.readJson) 0 wanted none
  let kind ← Json.element (Json.optional TokenKind.readJson) 1 wanted none
  let id ← Json.element (Json.optional TokenId.readJson) 2 wanted none
  let address ← Json.element Address.readJson 3 wanted none
  return ⟨target, kind, id, address⟩

/-- Reads a reference. -/
def readJson : Json.Reader Reference := do
  let values ← Json.record (.record "ReferenceFields") readField {} ofMembers readPlaces
  match ofFields values.target values.kind values.id values.address with
  | .ok reference => return reference
  | .error error => Json.Reader.fail (.rejected (.encoding error))

end VaultBatch.Reference
