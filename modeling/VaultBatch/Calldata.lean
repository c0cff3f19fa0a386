import VaultBatch.Abi.Form
import VaultBatch.Batch
import VaultBatch.Keccak

/-!
# Calldata

The bytes of a call of the vault's method `execute`: four bytes that name the method, then a batch
as its three arguments. Descriptors are longer than a word and travel as byte strings, packed
instructions are just one word, and deposits are words in two's complement.
-/

namespace VaultBatch

namespace Amount

/-- An amount as a word in two's complement. A negative one is turned around twice: the amount on
the way in, so that it fits as a number, and the word on the way out. -/
def toWord (amount : Amount) : Abi.Word :=
  if 0 ≤ amount.value then BigEndian.encode 32 (BigEndian.decode amount.toBytes)
  else (BigEndian.encode 32 (BigEndian.decode amount.complement.toBytes)).complement

/-- The amount in the lowest bytes of a word, if there is nothing in front of it. -/
def ofHalf? (word : Abi.Word) : Option Amount :=
  if 127 < word.bitLength then none else some (wrap (BigEndian.decode word))

/-- The amount that a word stands for, if it fits. A word with its first bit set is turned around
on the way in, and the amount on the way out. -/
def ofWord? (word : Abi.Word) : Option Amount :=
  if word.bit 255 then (ofHalf? word.complement).map complement else ofHalf? word

end Amount

namespace Calldata

/-- An operation as it stands among the arguments. -/
abbrev RawOperation := List UInt8 × List Abi.Word × List UInt8

/-- The arguments of the method: token references, deposits and operations. -/
abbrev Arguments := List (List UInt8) × List Abi.Word × List RawOperation

/-- The form of the token references. -/
def tokenForm : Abi.Form (List (List UInt8)) :=
  .list .bytes

/-- The form of the deposits. -/
def depositForm : Abi.Form (List Abi.Word) :=
  .list (.word "int128")

/-- The form of the operations. -/
def operationForm : Abi.Form (List RawOperation) :=
  .list (.triple .bytes (.list (.word "bytes32")) .bytes)

/-- The name of the method. -/
def methodName : String := "execute"

/-- The types and names of the arguments. -/
def parameters : List (String × String) :=
  [(tokenForm.name, "tokenRef"), (depositForm.name, "deposit"), (operationForm.name, "ops")]

/-- The method with the types of its arguments. -/
def signature : String :=
  methodName ++ "(" ++ ",".intercalate (parameters.map (·.1)) ++ ")"

/-- The bytes that name the method: the first four of the hash of its signature. -/
def selector : Bytes 4 :=
  (Keccak.hash (Hex.utf8 signature.toList)).slice 0 4

/-- Why calldata cannot be written or read. -/
inductive Error where
  /-- There is nothing after the method. -/
  | noArguments
  /-- The arguments cannot be followed. -/
  | malformedArguments
  /-- There are not even the four bytes of a method. -/
  | tooShort (length : Nat)
  /-- Another method is called. -/
  | selectorMismatch (got : List UInt8)
  /-- A deposit does not fit an amount. -/
  | depositOutOfRange (word : Abi.Word)
  /-- There is not one deposit per token. -/
  | depositCountMismatch (tokens deposits : Nat)
  /-- Packed bytes cannot be read. -/
  | decode (error : DecodeError)
  /-- The parts make no batch. -/
  | batch (error : BatchError)
  deriving DecidableEq

/-- The fault in words. -/
def Error.message : Error → String
  | .noArguments =>
    "ABI encoding failed: Invalid name: please ensure the contract and method you're calling " ++
      "exist! failed to decode empty bytes. if you're using jsonrpc this is likely due to " ++
      "jsonrpc returning `0x` in case contract or method don't exist"
  | .malformedArguments => "ABI encoding failed: Invalid data"
  | .tooShort length => "Calldata too short: " ++ toString length ++ " bytes"
  | .selectorMismatch got =>
    "Selector mismatch: expected " ++ String.ofList (Hex.encodeMarked selector.toList) ++ ", got " ++
      String.ofList (Hex.encodeMarked got)
  | .depositOutOfRange word =>
    "Deposit value does not fit int128: " ++
      String.ofList (Hex.encodeNat (BigEndian.decode word))
  | .depositCountMismatch tokens deposits =>
    (BatchError.depositCountMismatch tokens deposits).message
  | .decode error => error.message
  | .batch error => error.message

/-- The bytes of a call with the given arguments. -/
def ofArguments (arguments : Arguments) : List UInt8 :=
  selector.toList ++ Abi.Form.writeThree tokenForm depositForm operationForm arguments

/-- An operation as it stands among the arguments. -/
def rawOperation (operation : CompiledOperation) : RawOperation :=
  (operation.reference.bytes.toList, operation.instructions.map (·.bytes), operation.data)

/-- The bytes of a call with the parts of a batch, of which only the number of deposits is
checked. -/
def encodeParts (entries : List Descriptor) (deposits : List Amount)
    (operations : List CompiledOperation) : Except Error (List UInt8) :=
  if deposits.length ≠ entries.length then
    .error (.depositCountMismatch entries.length deposits.length)
  else
    .ok (ofArguments
      (entries.map (·.bytes.toList), deposits.map Amount.toWord, operations.map rawOperation))

/-- The bytes of a call with a batch. -/
def encode (batch : Batch) : Except Error (List UInt8) :=
  encodeParts batch.table.entries batch.deposits batch.operations

/-- Reads the arguments of a call. -/
def arguments (bytes : List UInt8) : Except Error Arguments :=
  if bytes.length < 4 then .error (.tooShort bytes.length)
  else if bytes.take 4 ≠ selector.toList then .error (.selectorMismatch (bytes.take 4))
  else if (bytes.drop 4).isEmpty then .error .noArguments
  else
    match Abi.Form.readThree tokenForm depositForm operationForm (bytes.drop 4) with
    | some arguments => .ok arguments
    | none => .error .malformedArguments

/-- Reads a deposit. -/
def readDeposit (word : Abi.Word) : Except Error Amount :=
  match Amount.ofWord? word with
  | some amount => .ok amount
  | none => .error (.depositOutOfRange word)

/-- Reads an operation. -/
def readOperation (raw : RawOperation) : Except Error CompiledOperation :=
  match Descriptor.ofList raw.1 with
  | .ok reference => .ok ⟨reference, raw.2.1.map PackedInstruction.mk, raw.2.2⟩
  | .error error => .error (.decode error)

/-- Reads a batch from arguments: the token table, then the deposits, then the operations, then
whether they fit each other. -/
def batchOfArguments (arguments : Arguments) : Except Error Batch := do
  let entries ← (arguments.1.mapM Descriptor.ofList).mapError .decode
  let table ← (TokenTable.ofEntries entries).mapError .decode
  let deposits ← arguments.2.1.mapM readDeposit
  let operations ← arguments.2.2.mapM readOperation
  (Batch.ofParts table deposits operations).mapError .batch

/-- Reads a batch from the bytes of a call. -/
def decode (bytes : List UInt8) : Except Error Batch := do
  batchOfArguments (← arguments bytes)

end Calldata
end VaultBatch
