import VaultBatch.Amount.Json
import VaultBatch.Operation
import VaultBatch.Reference.Json

/-!
# Operations as JSON

An instruction is an object of its token, policy and amount, an operation one of its reference and
instructions. The instructions may be left out.
-/

namespace VaultBatch

namespace Instruction

/-- Writes an instruction. -/
def writeJson (instruction : Instruction) : List Char :=
  Json.Writer.object
    [("token", instruction.token.writeJson), ("kind", instruction.kind.writeJson),
      ("amount", instruction.amount.writeJson)]

/-- The members of an instruction that have been read. -/
structure Fields where
  token : Option Token := none
  kind : Option AmountKind := none
  amount : Option Amount := none

/-- Reads a member of an instruction. -/
def readField (fields : Fields) (name : String) : Json.Reader Fields :=
  match name with
  | "token" => do
    Json.once fields.token name
    return { fields with token := some (← Json.member Token.readJson) }
  | "kind" => do
    Json.once fields.kind name
    return { fields with kind := some (← Json.member AmountKind.readJson) }
  | "amount" => do
    Json.once fields.amount name
    return { fields with amount := some (← Json.member Amount.readJson) }
  | _ => do
    Json.skipMember
    return fields

/-- The instruction of all members. -/
def ofFields (fields : Fields) : Json.Reader Instruction := do
  let token ← Json.required fields.token "token"
  let kind ← Json.required fields.kind "kind"
  let amount ← Json.required fields.amount "amount"
  return ⟨token, kind, amount⟩

/-- Reads the members of an instruction in order. -/
def readPlaces : Json.Reader Instruction := do
  let wanted := .elements "Instruction" 3
  let token ← Json.element Token.readJson 0 wanted none
  let kind ← Json.element AmountKind.readJson 1 wanted none
  let amount ← Json.element Amount.readJson 2 wanted none
  return ⟨token, kind, amount⟩

/-- Reads an instruction. -/
def readJson : Json.Reader Instruction :=
  Json.record (.record "Instruction") readField {} ofFields readPlaces

end Instruction

namespace Operation

/-- Writes an operation. -/
def writeJson (operation : Operation) : List Char :=
  Json.Writer.object
    [("reference", operation.reference.writeJson),
      ("instructions", Json.Writer.sequence (operation.instructions.map (·.writeJson)))]

/-- The members of an operation that have been read. -/
structure Fields where
  reference : Option Reference := none
  instructions : Option (List Instruction) := none

/-- Reads a member of an operation. -/
def readField (fields : Fields) (name : String) : Json.Reader Fields :=
  match name with
  | "reference" => do
    Json.once fields.reference name
    return { fields with reference := some (← Json.member Reference.readJson) }
  | "instructions" => do
    Json.once fields.instructions name
    return { fields with instructions := some (← Json.member (Json.list Instruction.readJson)) }
  | _ => do
    Json.skipMember
    return fields

/-- The operation of all members. -/
def ofFields (fields : Fields) : Json.Reader Operation := do
  let reference ← Json.required fields.reference "reference"
  return ⟨reference, fields.instructions.getD []⟩

/-- Reads the members of an operation in order. -/
def readPlaces : Json.Reader Operation := do
  let wanted := .elements "Operation" 2
  let reference ← Json.element Reference.readJson 0 wanted none
  let instructions ← Json.element (Json.list Instruction.readJson) 1 wanted (some [])
  return ⟨reference, instructions⟩

/-- Reads an operation. -/
def readJson : Json.Reader Operation :=
  Json.record (.record "Operation") readField {} ofFields readPlaces

/-- Writes a list of operations. -/
def writeListJson (operations : List Operation) : List Char :=
  Json.Writer.sequence (operations.map (·.writeJson))

/-- Reads a list of operations. -/
def readListJson : Json.Reader (List Operation) :=
  Json.list readJson

end Operation
end VaultBatch
