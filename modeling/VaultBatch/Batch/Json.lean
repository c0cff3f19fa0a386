import VaultBatch.Json.Reader
import VaultBatch.Json.Writer

/-!
# Batches as JSON

Descriptors and packed instructions are strings of their digits, a token table the sequence of its
descriptors, deposits are plain integers of any size and other bytes a sequence of numbers. A batch
that is read passes the checks of `TokenTable.ofEntries` and `Batch.ofParts`.
-/

namespace VaultBatch

namespace Descriptor

/-- Writes a descriptor. -/
def writeJson (descriptor : Descriptor) : List Char :=
  Json.Writer.text descriptor.hex

/-- Reads a descriptor. -/
def readJson : Json.Reader Descriptor :=
  Json.checkedString fun text => (parse text).mapError .decode

end Descriptor

namespace PackedInstruction

/-- Writes a packed instruction. -/
def writeJson (instruction : PackedInstruction) : List Char :=
  Json.Writer.text instruction.hex

/-- Reads a packed instruction. -/
def readJson : Json.Reader PackedInstruction :=
  Json.checkedString fun text => (parse text).mapError .instruction

end PackedInstruction

namespace TokenTable

/-- Writes a token table. -/
def writeJson (table : TokenTable) : List Char :=
  Json.Writer.sequence (table.entries.map (·.writeJson))

/-- Reads a token table. -/
def readJson : Json.Reader TokenTable := do
  match ofEntries (← Json.list Descriptor.readJson) with
  | .ok table => return table
  | .error error => Json.Reader.fail (.rejected (.decode error))

end TokenTable

namespace CompiledOperation

/-- Writes a compiled operation. -/
def writeJson (operation : CompiledOperation) : List Char :=
  Json.Writer.object
    [("reference", operation.reference.writeJson),
      ("instructions", Json.Writer.sequence (operation.instructions.map (·.writeJson))),
      ("data", Json.Writer.sequence
        (operation.data.map fun byte => Json.Writer.integer byte.toNat))]

/-- The members of a compiled operation that have been read. -/
structure Fields where
  reference : Option Descriptor := none
  instructions : Option (List PackedInstruction) := none
  data : Option (List UInt8) := none

/-- Reads a member of a compiled operation. -/
def readField (fields : Fields) (name : String) : Json.Reader Fields :=
  match name with
  | "reference" => do
    Json.once fields.reference name
    return { fields with reference := some (← Json.member Descriptor.readJson) }
  | "instructions" => do
    Json.once fields.instructions name
    let read := Json.list PackedInstruction.readJson
    return { fields with instructions := some (← Json.member read) }
  | "data" => do
    Json.once fields.data name
    return { fields with data := some (← Json.member (Json.list Json.byte)) }
  | _ => do
    Json.skipMember
    return fields

/-- The compiled operation of all members. -/
def ofFields (fields : Fields) : Json.Reader CompiledOperation := do
  let reference ← Json.required fields.reference "reference"
  let instructions ← Json.required fields.instructions "instructions"
  return ⟨reference, instructions, fields.data.getD []⟩

/-- Reads the members of a compiled operation in order. -/
def readPlaces : Json.Reader CompiledOperation := do
  let wanted := .elements "CompiledOperation" 3
  let reference ← Json.element Descriptor.readJson 0 wanted none
  let instructions ← Json.element (Json.list PackedInstruction.readJson) 1 wanted none
  let data ← Json.element (Json.list Json.byte) 2 wanted (some [])
  return ⟨reference, instructions, data⟩

/-- Reads a compiled operation. -/
def readJson : Json.Reader CompiledOperation :=
  Json.record (.record "CompiledOperation") readField {} ofFields readPlaces

end CompiledOperation

namespace Batch

/-- Writes a deposit. -/
def writeDeposit (deposit : Amount) : List Char :=
  Json.Writer.integer deposit.value

/-- Reads a deposit. -/
def readDeposit : Json.Reader Amount := do
  match Amount.ofInt? (← Json.wideInteger true Amount.minValue Amount.maxValue) with
  | some deposit => return deposit
  | none => Json.Reader.fail .malformed

/-- Writes the parts of a batch. -/
def writeParts (entries : List Descriptor) (deposits : List Amount)
    (operations : List CompiledOperation) : List Char :=
  Json.Writer.object
    [("token_table", Json.Writer.sequence (entries.map (·.writeJson))),
      ("deposits", Json.Writer.sequence (deposits.map writeDeposit)),
      ("operations", Json.Writer.sequence (operations.map (·.writeJson)))]

/-- Writes a batch. -/
def writeJson (batch : Batch) : List Char :=
  writeParts batch.table.entries batch.deposits batch.operations

/-- The members of a batch that have been read. -/
structure Fields where
  table : Option TokenTable := none
  deposits : Option (List Amount) := none
  operations : Option (List CompiledOperation) := none

/-- Reads a member of a batch. -/
def readField (fields : Fields) (name : String) : Json.Reader Fields :=
  match name with
  | "token_table" => do
    Json.once fields.table name
    return { fields with table := some (← Json.member TokenTable.readJson) }
  | "deposits" => do
    Json.once fields.deposits name
    return { fields with deposits := some (← Json.member (Json.list readDeposit)) }
  | "operations" => do
    Json.once fields.operations name
    let read := Json.list CompiledOperation.readJson
    return { fields with operations := some (← Json.member read) }
  | _ => do
    Json.skipMember
    return fields

/-- The parts of a batch, before it is known whether they fit each other. -/
abbrev Parts := TokenTable × List Amount × List CompiledOperation

/-- The parts of all members. -/
def ofFields (fields : Fields) : Json.Reader Parts := do
  let table ← Json.required fields.table "token_table"
  let deposits ← Json.required fields.deposits "deposits"
  let operations ← Json.required fields.operations "operations"
  return (table, deposits, operations)

/-- Reads the members of a batch in order. -/
def readPlaces : Json.Reader Parts := do
  let wanted := .elements "BatchParts" 3
  let table ← Json.element TokenTable.readJson 0 wanted none
  let deposits ← Json.element (Json.list readDeposit) 1 wanted none
  let operations ← Json.element (Json.list CompiledOperation.readJson) 2 wanted none
  return (table, deposits, operations)

/-- Reads a batch. -/
def readJson : Json.Reader Batch := do
  let (table, deposits, operations) ←
    Json.record (.record "BatchParts") readField {} ofFields readPlaces
  match ofParts table deposits operations with
  | .ok batch => return batch
  | .error error => Json.Reader.fail (.rejected (.batch error))

end Batch
end VaultBatch
