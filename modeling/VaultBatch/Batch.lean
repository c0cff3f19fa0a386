import VaultBatch.PackedInstruction
import VaultBatch.TokenTable

/-!
# Batches

What the vault receives: a token table, one deposit per token, and operations whose instructions
name their tokens by places in the table. `Batch.ofParts` puts a batch together from parts that
come from elsewhere, and refuses those that do not fit each other.
-/

namespace VaultBatch

/-- An operation as the vault receives it. -/
structure CompiledOperation where
  reference : Descriptor
  instructions : List PackedInstruction
  /-- Bytes that are passed on as they are. -/
  data : List UInt8
  deriving DecidableEq

namespace CompiledOperation

/-- The pool or gauge of an operation. -/
def target (operation : CompiledOperation) : Except DecodeError Target :=
  operation.reference.target

/-- The instructions of an operation, unpacked. -/
def decodeInstructions (operation : CompiledOperation) :
    Except DecodeError (List IndexedInstruction) :=
  operation.instructions.mapM PackedInstruction.decode

end CompiledOperation

/-- Why parts make no batch. -/
inductive BatchError where
  /-- There is not one deposit per token. -/
  | depositCountMismatch (tokens deposits : Nat)
  /-- An instruction names a place outside the table. -/
  | tokenIndexOutOfRange (operation instruction : Nat) (index : UInt8) (tokens : Nat)
  /-- An instruction cannot be read. -/
  | decode (error : DecodeError)
  deriving DecidableEq

/-- The fault in words. -/
def BatchError.message : BatchError → String
  | .depositCountMismatch tokens deposits =>
    "Deposits length " ++ toString deposits ++ " does not match token table length " ++
      toString tokens
  | .tokenIndexOutOfRange operation instruction index tokens =>
    "Operation " ++ toString operation ++ ", instruction " ++ toString instruction ++
      ": token index " ++ toString index.toNat ++ " outside table of " ++ toString tokens
  | .decode error => error.message

/-- The arguments of one call of the vault. -/
structure Batch where
  table : TokenTable
  deposits : List Amount
  operations : List CompiledOperation
  deriving DecidableEq

namespace Batch

/-- The batch that does nothing. -/
def empty : Batch := ⟨.empty, [], []⟩

/-- Whether there is no operation. -/
def isEmpty (batch : Batch) : Bool :=
  batch.operations.isEmpty

/-- Checks that instructions, counted from a place on, name places in a table of a size. -/
def checkIndices (tokens operation : Nat) : Nat → List IndexedInstruction → Except BatchError Unit
  | _, [] => .ok ()
  | place, instruction :: rest =>
    if instruction.index.toNat < tokens then checkIndices tokens operation (place + 1) rest
    else .error (.tokenIndexOutOfRange operation place instruction.index tokens)

/-- Checks operations, counted from a place on, against a table of a size. In each operation all
instructions are unpacked before their places are looked at. -/
def checkOperations (tokens : Nat) : Nat → List CompiledOperation → Except BatchError Unit
  | _, [] => .ok ()
  | place, operation :: rest => do
    let instructions ← operation.decodeInstructions.mapError .decode
    checkIndices tokens place 0 instructions
    checkOperations tokens (place + 1) rest

/-- Puts a batch together from its parts. -/
def ofParts (table : TokenTable) (deposits : List Amount) (operations : List CompiledOperation) :
    Except BatchError Batch :=
  if deposits.length ≠ table.size then
    .error (.depositCountMismatch table.size deposits.length)
  else do
    checkOperations table.size 0 operations
    return ⟨table, deposits, operations⟩

end Batch
end VaultBatch
