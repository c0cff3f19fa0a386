import VaultBatch.Token.Json

/-!
# Pools and gauges as JSON

A pool or gauge is an object of its kind and its address, in either order. An address that comes
before the kind is kept and looked at as soon as the kind is known.
-/

namespace VaultBatch

namespace TargetKind

/-- Reads a kind of account. -/
def readJson : Json.Reader TargetKind :=
  Json.oneOf ofName? (all.map name)

end TargetKind

namespace Target

/-- Writes a pool or gauge. -/
def writeJson (target : Target) : List Char :=
  Json.Writer.object
    [("type", Json.Writer.text target.kind.name), ("address", target.address.writeJson)]

/-- What the members read so far have told. -/
inductive Progress where
  | nothing
  /-- The kind is known. -/
  | kind (kind : TargetKind)
  /-- The address is kept until the kind is known. -/
  | address (kept : Json.Found)
  | done (target : Target)

/-- How deep a kept address may be nested, in an object that may be nested 127 deep itself. -/
def keptDepth : Nat := 126

/-- Keeps a value for later. -/
def keep : Json.Reader Json.Found := fun text => do
  let kept ← Json.found (Json.dropBlanks text)
  return (kept, ← Json.orMalformed ((Json.SkipRules.strict keptDepth).run text))

/-- The address that has been kept. -/
def keptAddress (kept : Json.Found) : Json.Reader Address :=
  match kept with
  | .text text =>
    match Address.parse text with
    | .ok address => return address
    | .error error => Json.Reader.fail (.rejected (.encoding error))
  | kept => Json.Reader.fail (.wrongType kept .text)

/-- Reads a member of a pool or gauge. -/
def readField (progress : Progress) (name : String) : Json.Reader Progress :=
  match name, progress with
  | "type", .nothing => return .kind (← Json.member TargetKind.readJson)
  | "type", .address kept => do
    let kind ← Json.member TargetKind.readJson
    return .done (.ofKind kind (← keptAddress kept))
  | "address", .nothing => return .address (← Json.member keep)
  | "address", .kind kind => return .done (.ofKind kind (← Json.member Address.readJson))
  | "type", _ => Json.Reader.fail (.duplicateField name)
  | "address", _ => Json.Reader.fail (.duplicateField name)
  | _, progress => do
    Json.skipMember
    return progress

/-- The pool or gauge of all members. -/
def ofProgress : Progress → Json.Reader Target
  | .nothing => Json.Reader.fail (.missingField "type")
  | .kind _ => Json.Reader.fail (.missingField "address")
  | .address _ => Json.Reader.fail (.missingField "type")
  | .done target => return target

/-- The thing that is wanted where a pool or gauge is read. -/
def wanted : Json.Wanted := .tagged "OperationTarget"

/-- Reads the kind and the address of a pool or gauge in order. -/
def readPlaces : Json.Reader Target := do
  let readKind := do
    Json.ofName TargetKind.ofName? (TargetKind.all.map (·.name)) (← Json.string .variantName)
  let kind ← Json.element readKind 0 wanted none
  let address ← Json.element Address.readJson 1 wanted none
  return .ofKind kind address

/-- Reads a pool or gauge. -/
def readJson : Json.Reader Target :=
  Json.record wanted readField .nothing ofProgress readPlaces

end Target
end VaultBatch
