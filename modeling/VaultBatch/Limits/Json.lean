import VaultBatch.Json.Reader
import VaultBatch.Json.Writer
import VaultBatch.Limits

/-!
# Limits as JSON

Limits are an object of those that are set, with nothing else beside them; a limit that is missing
has its default.
-/

namespace VaultBatch.Limits

/-- Writes limits. -/
def writeJson (limits : Limits) : List Char :=
  let write (value : Nat) : List Char := Json.Writer.integer value
  let optional (name : String) (limit : Option Nat) : List (String × List Char) :=
    (limit.map fun value => (name, write value)).toList
  Json.Writer.object
    (("max_tokens", write limits.maxTokens) :: optional "max_operations" limits.maxOperations ++
      optional "max_instructions_per_operation" limits.maxInstructions)

/-- The members of limits, in the order of their places. -/
def fieldNames : List String :=
  ["max_tokens", "max_operations", "max_instructions_per_operation"]

/-- The members of limits that have been read, some of them perhaps as nulls. -/
structure Fields where
  maxTokens : Option Nat := none
  maxOperations : Option (Option Nat) := none
  maxInstructions : Option (Option Nat) := none

/-- Reads a member of limits. -/
def readField (fields : Fields) (name : String) : Json.Reader Fields :=
  match name with
  | "max_tokens" => do
    Json.once fields.maxTokens name
    return { fields with maxTokens := some (← Json.member Json.size) }
  | "max_operations" => do
    Json.once fields.maxOperations name
    return { fields with maxOperations := some (← Json.member (Json.optional Json.size)) }
  | "max_instructions_per_operation" => do
    Json.once fields.maxInstructions name
    return { fields with maxInstructions := some (← Json.member (Json.optional Json.size)) }
  | _ => Json.Reader.fail (.unknownField name fieldNames)

/-- The limits of all members. -/
def ofFields (fields : Fields) : Json.Reader Limits :=
  return ⟨fields.maxTokens.getD maxTableSize, fields.maxOperations.join,
    fields.maxInstructions.join⟩

/-- Reads the members of limits in order. -/
def readPlaces : Json.Reader Limits := do
  let wanted := .elements "CompilerConfig" 3
  let maxTokens ← Json.element Json.size 0 wanted (some maxTableSize)
  let maxOperations ← Json.element (Json.optional Json.size) 1 wanted (some none)
  let maxInstructions ← Json.element (Json.optional Json.size) 2 wanted (some none)
  return ⟨maxTokens, maxOperations, maxInstructions⟩

/-- Reads limits. -/
def readJson : Json.Reader Limits :=
  Json.record (.record "CompilerConfig") readField {} ofFields readPlaces

end VaultBatch.Limits
