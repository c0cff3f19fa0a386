import VaultBatch.Batch
import VaultBatch.Proofs.TokenTable.WellFormed

/-!
# Well-formed batches

In a well-formed batch the table is well-formed, there is one deposit per token, and every
instruction can be read and names a place in the table. `ofParts_eq_ok_iff` says that parts make a
batch exactly if it is well-formed apart from its table, so that a well-formed batch can be taken
apart and put together again (`WellFormed.ofParts`).
-/

namespace VaultBatch

/-- The instruction can be read and names a place in a table of the given size. -/
def PackedInstruction.InTable (size : Nat) (packed : PackedInstruction) : Prop :=
  ∃ indexed, packed.decode = .ok indexed ∧ indexed.index.toNat < size

/-- Each packed instruction names a place in the table exactly if they can be read as a list and
each of what is read does. -/
theorem PackedInstruction.forall_inTable_iff {size : Nat} {packed : List PackedInstruction} :
    (∀ other ∈ packed, other.InTable size) ↔
      ∃ instructions, packed.mapM decode = .ok instructions ∧
        ∀ instruction ∈ instructions, instruction.index.toNat < size := by
  induction packed with
  | nil =>
      refine ⟨fun _ => ⟨[], rfl, by simp⟩, fun _ => by simp⟩
  | cons first rest ih =>
      rw [List.forall_mem_cons, ih, List.mapM_cons]
      simp only [bind_eq_ok_iff]
      constructor
      · intro h
        obtain ⟨⟨indexed, hfirst, hlt⟩, instructions, hrest, hall⟩ := h
        exact ⟨indexed :: instructions, ⟨indexed, hfirst, instructions, hrest, rfl⟩,
          List.forall_mem_cons.2 ⟨hlt, hall⟩⟩
      · intro h
        obtain ⟨_, ⟨indexed, hfirst, instructions, hrest, h⟩, hall⟩ := h
        cases h
        obtain ⟨hlt, hall⟩ := List.forall_mem_cons.1 hall
        exact ⟨⟨indexed, hfirst, hlt⟩, instructions, hrest, hall⟩

/-- All instructions of an operation can be read and name places in a table of the given size. -/
def CompiledOperation.InTable (size : Nat) (operation : CompiledOperation) : Prop :=
  ∀ packed ∈ operation.instructions, packed.InTable size

/-- An operation names places in the table exactly if its instructions can be read and each of them
names one. -/
theorem CompiledOperation.inTable_iff {size : Nat} {operation : CompiledOperation} :
    operation.InTable size ↔ ∃ instructions, operation.decodeInstructions = .ok instructions ∧
      ∀ instruction ∈ instructions, instruction.index.toNat < size :=
  PackedInstruction.forall_inTable_iff

namespace Batch

/-- The table is well-formed, there is one deposit per token, and every instruction can be read
and names a place in the table. -/
structure WellFormed (batch : Batch) : Prop where
  table : batch.table.WellFormed
  deposits : batch.deposits.length = batch.table.size
  operations : ∀ operation ∈ batch.operations, operation.InTable batch.table.size

/-- Instructions pass exactly if all their places are in the table. -/
theorem checkIndices_eq_ok_iff {size operation place : Nat}
    {instructions : List IndexedInstruction} :
    checkIndices size operation place instructions = .ok () ↔
      ∀ instruction ∈ instructions, instruction.index.toNat < size := by
  induction instructions generalizing place with
  | nil => simp [checkIndices]
  | cons instruction rest ih =>
      rw [checkIndices, List.forall_mem_cons]
      split
      · next hlt => rw [ih, and_iff_right hlt]
      · next hlt => simp [hlt]

/-- Operations pass exactly if each of them names places in the table. -/
theorem checkOperations_eq_ok_iff {size place : Nat} {operations : List CompiledOperation} :
    checkOperations size place operations = .ok () ↔
      ∀ operation ∈ operations, operation.InTable size := by
  induction operations generalizing place with
  | nil => simp [checkOperations]
  | cons operation rest ih =>
      rw [checkOperations, List.forall_mem_cons, CompiledOperation.inTable_iff]
      simp only [bind_eq_ok_iff, mapError_eq_ok_iff, ih]
      constructor
      · intro h
        obtain ⟨instructions, hread, ⟨⟩, hplaces, hrest⟩ := h
        exact ⟨⟨instructions, hread, checkIndices_eq_ok_iff.1 hplaces⟩, hrest⟩
      · intro h
        obtain ⟨⟨instructions, hread, hplaces⟩, hrest⟩ := h
        exact ⟨instructions, hread, (), checkIndices_eq_ok_iff.2 hplaces, hrest⟩

/-- Parts make a batch exactly if there is one deposit per token and every instruction names a
place in the table; the batch has these parts. -/
theorem ofParts_eq_ok_iff {table : TokenTable} {deposits : List Amount}
    {operations : List CompiledOperation} {batch : Batch} :
    ofParts table deposits operations = .ok batch ↔
      batch = ⟨table, deposits, operations⟩ ∧ deposits.length = table.size ∧
        ∀ operation ∈ operations, operation.InTable table.size := by
  unfold ofParts
  split
  · next hcount => simp [hcount]
  · next hcount =>
    rw [not_not] at hcount
    simp only [bind_eq_ok_iff, hcount, true_and]
    constructor
    · intro h
      obtain ⟨⟨⟩, hoperations, h⟩ := h
      cases h
      exact ⟨rfl, checkOperations_eq_ok_iff.1 hoperations⟩
    · intro h
      obtain ⟨rfl, hoperations⟩ := h
      exact ⟨(), checkOperations_eq_ok_iff.2 hoperations, rfl⟩

/-- Parts with a well-formed table make a well-formed batch. -/
theorem wellFormed_of_ofParts {table : TokenTable} {deposits : List Amount}
    {operations : List CompiledOperation} {batch : Batch} (htable : table.WellFormed)
    (h : ofParts table deposits operations = .ok batch) : batch.WellFormed := by
  obtain ⟨rfl, hdeposits, hoperations⟩ := ofParts_eq_ok_iff.1 h
  exact ⟨htable, hdeposits, hoperations⟩

namespace WellFormed

variable {batch : Batch}

/-- The parts of a well-formed batch make the batch again. -/
theorem ofParts (h : batch.WellFormed) :
    Batch.ofParts batch.table batch.deposits batch.operations = .ok batch :=
  ofParts_eq_ok_iff.2 ⟨rfl, h.deposits, h.operations⟩

/-- All operations of a well-formed batch can be read. -/
theorem decodeInstructions (h : batch.WellFormed) {operation : CompiledOperation}
    (hoperation : operation ∈ batch.operations) :
    ∃ instructions, operation.decodeInstructions = .ok instructions := by
  obtain ⟨instructions, hread, -⟩ := CompiledOperation.inTable_iff.1 (h.operations _ hoperation)
  exact ⟨instructions, hread⟩

end WellFormed

/-- The empty batch is well-formed. -/
theorem empty_wellFormed : empty.WellFormed :=
  ⟨TokenTable.empty_wellFormed, rfl, by simp [empty]⟩

end Batch
end VaultBatch
