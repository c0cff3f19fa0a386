import VaultBatch.Proofs.Batch.Refusal

/-!
# The first fault of parts

Parts are looked at one operation after the other, and each operation twice: once to read all its
instructions, once to look at their places. `CompiledOperation.refused_iff` says of the packed
instructions alone which fault this finds in an operation, and
`Batch.ofParts_decided_by_first_fault` says which parts are accepted and what the others are refused
for.
-/

namespace VaultBatch

/-- The instruction can be read. -/
def PackedInstruction.Readable (packed : PackedInstruction) : Prop :=
  ∃ instruction, packed.decode = .ok instruction

namespace CompiledOperation

/-- The first instruction that cannot be read has the given fault. -/
def FirstUnreadable (operation : CompiledOperation) (error : DecodeError) : Prop :=
  ∃ before packed after, operation.instructions = before ++ packed :: after ∧
    (∀ other ∈ before, other.Readable) ∧ packed.decode = .error error

/-- The first instruction that names no place in a table of the given size is the one at `place`,
and it names `index`. -/
def FirstOutside (operation : CompiledOperation) (size place : Nat) (index : UInt8) : Prop :=
  ∃ before packed after instruction, operation.instructions = before ++ packed :: after ∧
    before.length = place ∧ (∀ other ∈ before, other.InTable size) ∧
    packed.decode = .ok instruction ∧ instruction.index = index ∧ size ≤ index.toNat

/-- An operation is refused for its first instruction that cannot be read; only if all can be read,
it is refused for the first one that names no place in the table. -/
theorem refused_iff {operation : CompiledOperation} {size place : Nat} {error : BatchError} :
    operation.Refused size place error ↔
      (∃ cause, operation.FirstUnreadable cause ∧ error = .decode cause) ∨
        (∀ packed ∈ operation.instructions, packed.Readable) ∧
          ∃ instruction index, operation.FirstOutside size instruction index ∧
            error = .tokenIndexOutOfRange place instruction index size := by
  constructor
  · intro h
    cases h with
    | decode heq hbefore hpacked => exact .inl ⟨_, ⟨_, _, _, heq, hbefore, hpacked⟩, rfl⟩
    | tokenIndexOutOfRange hread hbefore hplace =>
        have hreadable := exists_mapM_eq_ok_iff.1 ⟨_, hread⟩
        obtain ⟨first, packed, rest, heq, hfirst, hpacked, -⟩ :=
          mapM_eq_ok_append_cons_iff.1 hread
        have hlength := (mapM_eq_ok_iff.1 hfirst).length_eq
        have hinside := PackedInstruction.forall_inTable_iff.2 ⟨_, hfirst, hbefore⟩
        exact .inr ⟨hreadable, _, _,
          ⟨first, packed, rest, _, heq, hlength, hinside, hpacked, rfl, hplace⟩, rfl⟩
  · intro h
    rcases h with ⟨cause, hunreadable, rfl⟩ | ⟨hreadable, place, index, houtside, rfl⟩
    · obtain ⟨before, packed, after, heq, hbefore, hpacked⟩ := hunreadable
      exact .decode heq hbefore hpacked
    · obtain ⟨first, packed, rest, instruction, heq, rfl, hinside, hpacked, rfl, hplace⟩ :=
        houtside
      obtain ⟨before, hfirst, hbefore⟩ := PackedInstruction.forall_inTable_iff.1 hinside
      -- what stands behind the instruction is read as well, although it is not looked at
      have hbehind : ∀ other ∈ rest, other.Readable := by
        intro other hother
        exact hreadable other (heq ▸ List.mem_append_right _ (List.mem_cons_of_mem _ hother))
      obtain ⟨after, hrest⟩ := exists_mapM_eq_ok_iff.2 hbehind
      have hread : operation.decodeInstructions = .ok (before ++ instruction :: after) :=
        mapM_eq_ok_append_cons_iff.2 ⟨first, packed, rest, heq, hfirst, hpacked, hrest⟩
      rw [(mapM_eq_ok_iff.1 hfirst).length_eq]
      exact .tokenIndexOutOfRange hread hbefore hplace

end CompiledOperation

namespace Batch

/-- Parts are accepted as they are exactly if there is one deposit per token and every instruction
can be read and names a place in the table. Otherwise they are refused: for the number of deposits,
whatever the operations are, or else for the first operation at fault, in which an instruction that
cannot be read comes before all those that name no place in the table. -/
theorem ofParts_decided_by_first_fault (table : TokenTable) (deposits : List Amount)
    (operations : List CompiledOperation) :
    (∀ batch, ofParts table deposits operations = .ok batch ↔
      batch = ⟨table, deposits, operations⟩ ∧ deposits.length = table.size ∧
        ∀ operation ∈ operations, ∀ packed ∈ operation.instructions,
          ∃ instruction, packed.decode = .ok instruction ∧
            instruction.index.toNat < table.size) ∧
    ∀ error, ofParts table deposits operations = .error error ↔
      deposits.length ≠ table.size ∧
        error = .depositCountMismatch table.size deposits.length ∨
      deposits.length = table.size ∧ ∃ before operation after,
        operations = before ++ operation :: after ∧
        (∀ other ∈ before, ∀ packed ∈ other.instructions, packed.InTable table.size) ∧
        ((∃ cause, operation.FirstUnreadable cause ∧ error = .decode cause) ∨
          (∀ packed ∈ operation.instructions, packed.Readable) ∧
            ∃ place index, operation.FirstOutside table.size place index ∧
              error = .tokenIndexOutOfRange before.length place index table.size) := by
  refine ⟨fun batch => ofParts_eq_ok_iff, ?_⟩
  intro error
  rw [ofParts_eq_error_iff]
  constructor
  · intro h
    cases h with
    | depositCountMismatch hcount => exact .inl ⟨hcount, rfl⟩
    | operation hcount heq hbefore hoperation =>
        exact .inr ⟨hcount, _, _, _, heq, hbefore, CompiledOperation.refused_iff.1 hoperation⟩
  · intro h
    rcases h with ⟨hcount, rfl⟩ | ⟨hcount, before, operation, after, heq, hbefore, hoperation⟩
    · exact .depositCountMismatch hcount
    · exact .operation hcount heq hbefore (CompiledOperation.refused_iff.2 hoperation)

/-- The first instruction names a place although the table is empty, but the second one cannot be
read. -/
example :
    ofParts .empty [] [⟨(Target.pool .zero).pack,
      [.pack ⟨0, .exactly, .zero⟩, ⟨⟨List.replicate 32 1, by decide⟩⟩], []⟩] =
        .error (.decode (.nonZeroReserved ⟨List.replicate 14 1, by decide⟩)) := by
  decide

end Batch
end VaultBatch
