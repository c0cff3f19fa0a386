import VaultBatch.Batch
import VaultBatch.Limits
import VaultBatch.Operation

/-!
# Compilation

An ordered list of operations becomes a batch: the distinct tokens of all instructions make the
table, every instruction carries the place of its token instead of the token, operations and
instructions keep their order, and every token gets a deposit of zero.
-/

namespace VaultBatch

/-- Why operations make no batch. -/
inductive CompileError where
  /-- A value does not fit its field. -/
  | encoding (error : EncodingError)
  /-- The token of an instruction is not in the table. -/
  | unresolvedToken (token : Token) (operation instruction : Nat)
  /-- There are more distinct tokens than allowed. -/
  | tooManyTokens (count limit : Nat)
  /-- There are more operations than allowed. -/
  | tooManyOperations (count limit : Nat)
  /-- An operation has more instructions than allowed. -/
  | tooManyInstructions (operation count limit : Nat)
  deriving DecidableEq

/-- The fault in words. -/
def CompileError.message : CompileError → String
  | .encoding error => "Encoding failed: " ++ error.message
  | .unresolvedToken token operation instruction =>
    "Unresolved token reference " ++ token.display ++ " in operation " ++ toString operation ++
      ", instruction " ++ toString instruction
  | .tooManyTokens count limit =>
    "Token table too large: " ++ toString count ++ " distinct tokens, limit is " ++ toString limit
  | .tooManyOperations count limit =>
    "Too many operations: " ++ toString count ++ ", limit is " ++ toString limit
  | .tooManyInstructions operation count limit =>
    "Operation " ++ toString operation ++ " has " ++ toString count ++ " instructions, limit is " ++
      toString limit

namespace Batch

/-- Checks the number of operations. -/
def checkOperationCount (limits : Limits) (operations : List Operation) :
    Except CompileError Unit :=
  match limits.maxOperations with
  | none => .ok ()
  | some limit =>
    if limit < operations.length then .error (.tooManyOperations operations.length limit)
    else .ok ()

/-- Checks the number of instructions in each operation, the first too long one being reported. -/
def checkInstructionCounts (limits : Limits) (operations : List Operation) :
    Except CompileError Unit :=
  match limits.maxInstructions with
  | none => .ok ()
  | some limit =>
    match operations.zipIdx.find? fun (operation, _) => limit < operation.instructions.length with
    | none => .ok ()
    | some (operation, place) =>
      .error (.tooManyInstructions place operation.instructions.length limit)

/-- Packs the instruction at a place, with the place of its token instead of the token. -/
def compileInstruction (places : Std.TreeMap Descriptor Nat) (operation : Nat) :
    Instruction × Nat → Except CompileError PackedInstruction
  | (instruction, place) =>
    match places[instruction.token.pack]? with
    | none => .error (.unresolvedToken instruction.token operation place)
    | some index =>
      (PackedInstruction.encode index instruction.kind instruction.amount).mapError .encoding

/-- Packs the operation at a place. -/
def compileOperation (places : Std.TreeMap Descriptor Nat) :
    Operation × Nat → Except CompileError CompiledOperation
  | (operation, place) => do
    let instructions ← operation.instructions.zipIdx.mapM (compileInstruction places place)
    return ⟨operation.reference.pack, instructions, []⟩

/-- Compiles operations under limits. The number of operations is checked first, then the number
of instructions in each, then the number of distinct tokens; then instructions are packed in
order. -/
def compile (limits : Limits) (operations : List Operation) : Except CompileError Batch := do
  checkOperationCount limits operations
  checkInstructionCounts limits operations
  let table := TokenTable.ofTokens (operations.flatMap (·.tokens))
  if limits.maxTokens < table.size then
    throw (.tooManyTokens table.size limits.maxTokens)
  let compiled ← operations.zipIdx.mapM (compileOperation table.places)
  return ⟨table, List.replicate table.size .zero, compiled⟩

end Batch
end VaultBatch
