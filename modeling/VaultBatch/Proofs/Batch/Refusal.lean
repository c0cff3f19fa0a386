import VaultBatch.Proofs.Batch.WellFormed

/-!
# Parts that are no batch

Parts are refused for the number of deposits, or else for the first operation at fault
(`Batch.ofParts_eq_error_iff`). An operation is at fault for its first instruction that cannot be
read; if all can be read, for the first one whose place is outside the table. The two passes over
an operation are why an instruction that cannot be read is reported before an earlier one with a
place outside the table.
-/

namespace VaultBatch

/-- The faults that the operation at a place is refused for, against a table of the given size. -/
inductive CompiledOperation.Refused (size place : Nat) (operation : CompiledOperation) :
    BatchError → Prop where
  /-- The first instruction that cannot be read is reported by its own fault. -/
  | decode {before : List PackedInstruction} {packed : PackedInstruction}
      {after : List PackedInstruction} {error : DecodeError} :
      operation.instructions = before ++ packed :: after →
      (∀ other ∈ before, ∃ instruction, other.decode = .ok instruction) →
      packed.decode = .error error →
      Refused size place operation (.decode error)
  /-- The first instruction whose place is outside the table is reported. -/
  | tokenIndexOutOfRange {before : List IndexedInstruction} {instruction : IndexedInstruction}
      {after : List IndexedInstruction} :
      operation.decodeInstructions = .ok (before ++ instruction :: after) →
      (∀ other ∈ before, other.index.toNat < size) →
      size ≤ instruction.index.toNat →
      Refused size place operation
        (.tokenIndexOutOfRange place before.length instruction.index size)

namespace Batch

/-- The faults that parts are refused for. -/
inductive Refused (table : TokenTable) (deposits : List Amount)
    (operations : List CompiledOperation) : BatchError → Prop where
  /-- There is not one deposit per token. -/
  | depositCountMismatch :
      deposits.length ≠ table.size →
      Refused table deposits operations (.depositCountMismatch table.size deposits.length)
  /-- The first operation at fault is reported. -/
  | operation {before : List CompiledOperation} {operation : CompiledOperation}
      {after : List CompiledOperation} {error : BatchError} :
      deposits.length = table.size →
      operations = before ++ operation :: after →
      (∀ other ∈ before, other.InTable table.size) →
      operation.Refused table.size before.length error →
      Refused table deposits operations error

/-! ## Instructions -/

/-- The check of one instruction. -/
def checkIndex (size operation place : Nat) (instruction : IndexedInstruction) :
    Except BatchError Unit :=
  if instruction.index.toNat < size then .ok ()
  else .error (.tokenIndexOutOfRange operation place instruction.index size)

/-- An instruction passes exactly if its place is in the table. -/
theorem checkIndex_eq_ok_iff {size operation place : Nat} {instruction : IndexedInstruction} :
    checkIndex size operation place instruction = .ok () ↔ instruction.index.toNat < size := by
  unfold checkIndex
  split <;> simp [*]

/-- An instruction is refused exactly if its place is outside the table. -/
theorem checkIndex_eq_error_iff {size operation place : Nat} {instruction : IndexedInstruction}
    {error : BatchError} :
    checkIndex size operation place instruction = .error error ↔
      size ≤ instruction.index.toNat ∧
        error = .tokenIndexOutOfRange operation place instruction.index size := by
  rw [← Nat.not_lt, checkIndex]
  split <;> simp [*, eq_comm]

/-- Instructions are refused for the first of them whose place is outside the table. -/
theorem checkIndices_eq_error_iff {size operation place : Nat}
    {instructions : List IndexedInstruction} {error : BatchError} :
    checkIndices size operation place instructions = .error error ↔
      ∃ before instruction after, instructions = before ++ instruction :: after ∧
        (∀ other ∈ before, other.index.toNat < size) ∧ size ≤ instruction.index.toNat ∧
        error = .tokenIndexOutOfRange operation (place + before.length) instruction.index size := by
  have hnil : ∀ place, checkIndices size operation place [] = .ok () := fun _ => rfl
  have hcons : ∀ place instruction rest,
      checkIndices size operation place (instruction :: rest) =
        checkIndex size operation place instruction >>= fun _ =>
          checkIndices size operation (place + 1) rest := by
    intro place instruction rest
    rw [checkIndices, checkIndex]
    split <;> rfl
  simp only [check_eq_error_iff hnil hcons fun _ _ => checkIndex_eq_ok_iff,
    checkIndex_eq_error_iff]

/-! ## Operations -/

/-- The check of one operation. -/
def checkOperation (size place : Nat) (operation : CompiledOperation) : Except BatchError Unit :=
  operation.decodeInstructions.mapError .decode >>= checkIndices size place 0

/-- An operation passes exactly if its instructions can be read and name places in the table. -/
theorem checkOperation_eq_ok_iff {size place : Nat} {operation : CompiledOperation} :
    checkOperation size place operation = .ok () ↔ operation.InTable size := by
  simp only [checkOperation, bind_eq_ok_iff, mapError_eq_ok_iff, checkIndices_eq_ok_iff,
    CompiledOperation.inTable_iff]

/-- An operation is refused exactly for the listed faults. -/
theorem checkOperation_eq_error_iff {size place : Nat} {operation : CompiledOperation}
    {error : BatchError} :
    checkOperation size place operation = .error error ↔ operation.Refused size place error := by
  simp only [checkOperation, bind_eq_error_iff, mapError_eq_error_iff, mapError_eq_ok_iff,
    checkIndices_eq_error_iff, Nat.zero_add]
  constructor
  · intro h
    -- either reading fails, or all instructions are read and a place is outside the table
    rcases h with ⟨cause, hread, rfl⟩ |
      ⟨_, hread, before, instruction, after, rfl, hbefore, hplace, rfl⟩
    · obtain ⟨before, packed, after, heq, hbefore, hpacked⟩ := mapM_eq_error_iff.1 hread
      exact .decode heq hbefore hpacked
    · exact .tokenIndexOutOfRange hread hbefore hplace
  · intro h
    cases h with
    | decode heq hbefore hpacked =>
        exact .inl ⟨_, mapM_eq_error_iff.2 ⟨_, _, _, heq, hbefore, hpacked⟩, rfl⟩
    | tokenIndexOutOfRange hread hbefore hplace =>
        exact .inr ⟨_, hread, _, _, _, rfl, hbefore, hplace, rfl⟩

/-- Operations are refused for the first of them that is. -/
theorem checkOperations_eq_error_iff {size place : Nat} {operations : List CompiledOperation}
    {error : BatchError} :
    checkOperations size place operations = .error error ↔
      ∃ before operation after, operations = before ++ operation :: after ∧
        (∀ other ∈ before, other.InTable size) ∧
        operation.Refused size (place + before.length) error := by
  have hnil : ∀ place, checkOperations size place [] = .ok () := fun _ => rfl
  have hcons : ∀ place operation rest,
      checkOperations size place (operation :: rest) =
        checkOperation size place operation >>= fun _ =>
          checkOperations size (place + 1) rest := by
    intro place operation rest
    rw [checkOperations, checkOperation, bind_assoc]
  simp only [check_eq_error_iff hnil hcons fun _ _ => checkOperation_eq_ok_iff,
    checkOperation_eq_error_iff]

/-! ## Batches -/

/-- Parts are refused exactly for the listed faults. -/
theorem ofParts_eq_error_iff {table : TokenTable} {deposits : List Amount}
    {operations : List CompiledOperation} {error : BatchError} :
    ofParts table deposits operations = .error error ↔
      Refused table deposits operations error := by
  unfold ofParts
  constructor
  · intro h
    split at h
    · next hcount =>
      cases h
      exact .depositCountMismatch hcount
    · next hcount =>
      rcases bind_eq_error_iff.1 h with h | ⟨_, -, ⟨⟩⟩
      obtain ⟨before, operation, after, heq, hbefore, hoperation⟩ :=
        checkOperations_eq_error_iff.1 h
      rw [Nat.zero_add] at hoperation
      exact .operation (not_not.1 hcount) heq hbefore hoperation
  · intro h
    cases h with
    | depositCountMismatch hcount => rw [if_pos hcount]
    | operation hcount heq hbefore hoperation =>
        rw [if_neg (not_not.2 hcount)]
        refine bind_eq_error_iff.2 (.inl (checkOperations_eq_error_iff.2
          ⟨_, _, _, heq, hbefore, ?_⟩))
        rwa [Nat.zero_add]

end Batch
end VaultBatch
