import VaultBatch.Calldata
import VaultBatch.Proofs.Abi.Value
import VaultBatch.Proofs.Fault

/-!
# Calls of values that do not show their type

A second reading of calls: the arguments are values of which the type does not say what they are, and
every value is looked at before it is used. A value of another type than expected would be reported,
but there is none: this reading answers what `Calldata.decode` answers (`Untyped.decode_eq`), since
the shapes of the parameters read only values of these shapes.
-/

namespace VaultBatch.Calldata.Untyped

/-- Why a call cannot be read. -/
inductive Error where
  /-- The call is refused whatever the types of its values. -/
  | known (error : Calldata.Error)
  /-- There is no value for a field, or one of another type. -/
  | unexpectedValue (field : String)

/-- The shapes of the arguments. -/
def shapes : List Abi.Shape :=
  [.list .bytes, .list .integer, .list (.tuple [.bytes, .list .fixed, .bytes])]

/-- Reads the arguments of a call. -/
def values (bytes : List UInt8) : Except Calldata.Error (List Abi.Value) :=
  if bytes.length < 4 then .error (.tooShort bytes.length)
  else if bytes.take 4 ≠ selector.toList then .error (.selectorMismatch (bytes.take 4))
  else if (bytes.drop 4).isEmpty then .error .noArguments
  else
    match Abi.Shape.readAll shapes (bytes.drop 4) 0 with
    | some values => .ok values
    | none => .error .malformedArguments

/-- Takes a list from the front of some values. -/
def nextList (field : String) : List Abi.Value → Except Error (List Abi.Value × List Abi.Value)
  | .list values :: rest => .ok (values, rest)
  | _ => .error (.unexpectedValue field)

/-- Takes bytes from the front of some values. -/
def nextBytes (field : String) : List Abi.Value → Except Error (List UInt8 × List Abi.Value)
  | .bytes bytes :: rest => .ok (bytes, rest)
  | _ => .error (.unexpectedValue field)

/-- Reads an entry of the table. -/
def readEntry : Abi.Value → Except Error Descriptor
  | .bytes bytes => (Descriptor.ofList bytes).mapError fun error => .known (.decode error)
  | _ => .error (.unexpectedValue "tokenRef")

/-- Reads a deposit. -/
def readDeposit : Abi.Value → Except Error Amount
  | .integer word => (Calldata.readDeposit word).mapError .known
  | _ => .error (.unexpectedValue "deposit")

/-- Reads an instruction. -/
def readInstruction : Abi.Value → Except Error PackedInstruction
  | .fixed bytes => (PackedInstruction.ofList bytes).mapError fun error => .known (.decode error)
  | _ => .error (.unexpectedValue "ops.tokenInformations")

/-- Reads an operation. -/
def readOperation : Abi.Value → Except Error CompiledOperation
  | .tuple fields => do
    let (reference, fields) ← nextBytes "ops.poolId" fields
    let (instructions, fields) ← nextList "ops.tokenInformations" fields
    let instructions ← instructions.mapM readInstruction
    let (data, _) ← nextBytes "ops.data" fields
    let reference ← (Descriptor.ofList reference).mapError fun error => .known (.decode error)
    return ⟨reference, instructions, data⟩
  | _ => .error (.unexpectedValue "ops")

/-- Reads a batch from arguments, each taken from the front of those that are left. -/
def batchOfValues (values : List Abi.Value) : Except Error Batch := do
  let (entries, values) ← nextList "tokenRef" values
  let entries ← entries.mapM readEntry
  let table ← (TokenTable.ofEntries entries).mapError fun error => .known (.decode error)
  let (deposits, values) ← nextList "deposit" values
  let deposits ← deposits.mapM readDeposit
  let (operations, _) ← nextList "ops" values
  let operations ← operations.mapM readOperation
  (Batch.ofParts table deposits operations).mapError fun error => .known (.batch error)

/-- Reads a batch from the bytes of a call. -/
def decode (bytes : List UInt8) : Except Error Batch := do
  let values ← (values bytes).mapError .known
  batchOfValues values

/-! ## Arguments as values -/

/-- An instruction as a value. -/
def ofWord (word : Abi.Word) : Abi.Value :=
  .fixed word.toList

/-- An operation as a value. -/
def ofOperation (raw : RawOperation) : Abi.Value :=
  .tuple [.bytes raw.1, .list (raw.2.1.map ofWord), .bytes raw.2.2]

/-- Arguments as values. -/
def ofArguments (given : Arguments) : List Abi.Value :=
  [.list (given.1.map .bytes), .list (given.2.1.map .integer), .list (given.2.2.map ofOperation)]

open Abi.Shape in
/-- The shapes read what the forms of the arguments read. -/
theorem readAll_shapes (region : List UInt8) :
    Abi.Shape.readAll shapes region 0 =
      (Abi.Form.readThree tokenForm depositForm operationForm region).map ofArguments :=
  readAll_eq (list_readsAs bytes_readsAs) (list_readsAs (integer_readsAs _))
    (list_readsAs (tuple_readsAs bytes_readsAs (list_readsAs (fixed_readsAs _)) bytes_readsAs)) region

/-- The values that are read are the arguments that are read, without their types. -/
theorem values_eq (bytes : List UInt8) :
    values bytes = (arguments bytes).map ofArguments := by
  unfold values arguments
  rw [readAll_shapes]
  split
  · rfl
  · split
    · rfl
    · split
      · rfl
      · cases Abi.Form.readThree tokenForm depositForm operationForm (bytes.drop 4) <;> rfl

/-- Words are read as the instructions that they pack. -/
theorem mapM_readInstruction (words : List Abi.Word) :
    (words.map ofWord).mapM readInstruction = .ok (words.map PackedInstruction.mk) := by
  rw [List.mapM_map]
  refine mapM_eq_ok_of_forall ?_
  intro word _
  show (PackedInstruction.ofList (PackedInstruction.mk word).bytes.toList).mapError _ = _
  rw [PackedInstruction.ofList_toList]
  rfl

/-- An operation without its types is read like the operation, with the same faults. -/
theorem readOperation_ofOperation (raw : RawOperation) :
    readOperation (ofOperation raw) = (Calldata.readOperation raw).mapError .known := by
  -- the members of the tuple are met in their order, so only their own readings are left
  show (do
    let instructions ← (raw.2.1.map ofWord).mapM readInstruction
    let reference ← (Descriptor.ofList raw.1).mapError fun error => Error.known (.decode error)
    return CompiledOperation.mk reference instructions raw.2.2) = _
  rw [mapM_readInstruction, Calldata.readOperation]
  cases Descriptor.ofList raw.1 <;> rfl

/-- Arguments without their types make the same batch, with the same faults. -/
theorem batchOfValues_ofArguments (given : Arguments) :
    batchOfValues (ofArguments given) = (batchOfArguments given).mapError .known := by
  have hentries : (given.1.map Abi.Value.bytes).mapM readEntry =
      (given.1.mapM Descriptor.ofList).mapError fun error => .known (.decode error) := by
    rw [List.mapM_map]
    exact mapM_mapError given.1
  have hdeposits : (given.2.1.map Abi.Value.integer).mapM readDeposit =
      (given.2.1.mapM Calldata.readDeposit).mapError .known := by
    rw [List.mapM_map]
    exact mapM_mapError given.2.1
  have hoperations : (given.2.2.map ofOperation).mapM readOperation =
      (given.2.2.mapM Calldata.readOperation).mapError .known := by
    rw [List.mapM_map, ← mapM_mapError]
    exact mapM_congr fun raw _ => readOperation_ofOperation raw
  -- the three lists are met in their order
  show (do
    let entries ← (given.1.map Abi.Value.bytes).mapM readEntry
    let table ← (TokenTable.ofEntries entries).mapError fun error => .known (.decode error)
    let deposits ← (given.2.1.map Abi.Value.integer).mapM readDeposit
    let operations ← (given.2.2.map ofOperation).mapM readOperation
    (Batch.ofParts table deposits operations).mapError fun error => Error.known (.batch error)) = _
  rw [hentries, hdeposits, hoperations, batchOfArguments]
  simp only [mapError_bind, mapError_mapError]

/-- Values that do not show their type are read as the typed ones. -/
theorem decode_eq (bytes : List UInt8) : decode bytes = (Calldata.decode bytes).mapError .known := by
  rw [decode, Calldata.decode, values_eq]
  cases arguments bytes with
  | error error => rfl
  | ok given => exact batchOfValues_ofArguments given

end VaultBatch.Calldata.Untyped
