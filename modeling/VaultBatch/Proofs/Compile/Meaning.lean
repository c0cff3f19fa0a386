import VaultBatch.Proofs.Batch.WellFormed
import VaultBatch.Proofs.Compile.Packing

/-!
# What a compiled batch means

A compiled operation stands for an operation if it can be read back: its reference is the packed
reference, its data is empty, and its instructions are read, place by place, as the instructions of
the operation, with every token found in the table at the place that the instruction names.
`standsFor_of_compile` says that compilation keeps this meaning and that its table holds no token
that no instruction names.
-/

namespace VaultBatch

/-- The token at the place that an instruction names, its policy and its amount are those of
another instruction. -/
structure IndexedInstruction.StandsFor (table : TokenTable) (indexed : IndexedInstruction)
    (instruction : Instruction) : Prop where
  token : table.get? indexed.index.toNat = some instruction.token
  kind : indexed.kind = instruction.kind
  amount : indexed.amount = instruction.amount

/-- The instructions of a compiled operation are read as those of an operation, and its reference
is that of the operation. -/
structure CompiledOperation.StandsFor (table : TokenTable) (compiled : CompiledOperation)
    (operation : Operation) : Prop where
  reference : compiled.reference = operation.reference.pack
  data : compiled.data = []
  instructions : ∃ indexed, compiled.decodeInstructions = .ok indexed ∧
    List.Forall₂ (IndexedInstruction.StandsFor table) indexed operation.instructions

/-- The operations of a batch stand for the given ones in order. Its table holds just the tokens
that instructions name, each place is named by an instruction, and nothing is deposited. -/
structure Batch.StandsFor (batch : Batch) (given : List Operation) : Prop where
  operations : List.Forall₂ (CompiledOperation.StandsFor batch.table) batch.operations given
  tokens : ∀ token, token ∈ batch.table.tokens ↔
    ∃ operation ∈ given, ∃ instruction ∈ operation.instructions, instruction.token = token
  places : ∀ place < batch.table.size, ∃ compiled ∈ batch.operations,
    ∃ packed ∈ compiled.instructions, ∃ indexed, packed.decode = .ok indexed ∧
      indexed.index.toNat = place
  deposits : batch.deposits = List.replicate batch.table.size .zero

variable {tokens : List Token}

/-- An instruction with the place of its token stands for the instruction. -/
theorem Instruction.indexed_standsFor {instruction : Instruction} (h : instruction.token ∈ tokens)
    (hsize : tokens.toFinset.card ≤ maxTableSize) :
    (instruction.indexed tokens).StandsFor (.ofTokens tokens) instruction where
  token := by
    rw [toNat_indexed h hsize]
    exact TokenTable.get?_rank h
  kind := rfl
  amount := rfl

namespace Operation

/-- Packed instructions are read back with the ranks of their tokens. -/
theorem decodeInstructions_packed (operation : Operation) :
    (operation.packed tokens).decodeInstructions =
      .ok (operation.instructions.map (Instruction.indexed tokens)) := by
  rw [CompiledOperation.decodeInstructions, packed, List.mapM_map]
  refine mapM_eq_ok_of_forall ?_
  intro instruction _
  exact PackedInstruction.decode_pack _

/-- An operation packed against a table that holds its tokens stands for the operation. -/
theorem packed_standsFor {operation : Operation} (h : ∀ token ∈ operation.tokens, token ∈ tokens)
    (hsize : tokens.toFinset.card ≤ maxTableSize) :
    (operation.packed tokens).StandsFor (.ofTokens tokens) operation where
  reference := rfl
  data := rfl
  instructions := by
    refine ⟨_, decodeInstructions_packed operation, ?_⟩
    rw [List.forall₂_map_left_iff, List.forall₂_same]
    intro instruction hinstruction
    exact Instruction.indexed_standsFor (h _ (List.mem_map_of_mem hinstruction)) hsize

end Operation

namespace Batch

variable {operations : List Operation}

/-- The operations of the batch that operations stand for, read one by one. -/
theorem ofOperations_standsFor
    (hsize : (Operation.allTokens operations).toFinset.card ≤ maxTableSize) :
    List.Forall₂ (CompiledOperation.StandsFor (ofOperations operations).table)
      (ofOperations operations).operations operations := by
  show List.Forall₂ _
    (operations.map (Operation.packed (Operation.allTokens operations))) operations
  rw [List.forall₂_map_left_iff, List.forall₂_same]
  intro operation hoperation
  refine Operation.packed_standsFor ?_ hsize
  intro token htoken
  exact List.mem_flatMap.2 ⟨operation, hoperation, htoken⟩

/-- Every place of the table is named by an instruction. -/
theorem exists_instruction_of_place
    (hsize : (Operation.allTokens operations).toFinset.card ≤ maxTableSize) {place : Nat}
    (hplace : place < (ofOperations operations).table.size) :
    ∃ compiled ∈ (ofOperations operations).operations, ∃ packed ∈ compiled.instructions,
      ∃ indexed, packed.decode = .ok indexed ∧ indexed.index.toNat = place := by
  have hwf := TokenTable.ofTokens_wellFormed (Operation.allTokens operations)
  have hget : (TokenTable.ofTokens (Operation.allTokens operations)).get? place = some _ :=
    List.getElem?_eq_getElem (hwf.size_eq ▸ hplace)
  have htoken := TokenTable.mem_tokens_ofTokens.1 (List.mem_of_getElem? hget)
  obtain ⟨operation, hoperation, instruction, hinstruction, heq⟩ :=
    Operation.mem_allTokens.1 htoken
  refine ⟨operation.packed _, List.mem_map_of_mem hoperation, _, List.mem_map_of_mem hinstruction,
    _, PackedInstruction.decode_pack _, ?_⟩
  rw [Instruction.toNat_indexed (heq ▸ htoken) hsize, heq]
  exact TokenTable.rank_eq_of_get? hget

/-- Compilation keeps the meaning of operations: what compiles can be read back. -/
theorem standsFor_of_compile {limits : Limits} {operations : List Operation} {batch : Batch}
    (h : compile limits operations = .ok batch) : batch.StandsFor operations := by
  obtain ⟨rfl, -, -, -, hsize⟩ := compile_eq_ok_iff.1 h
  refine ⟨ofOperations_standsFor hsize, ?_, ?_, rfl⟩
  · intro token
    exact TokenTable.mem_tokens_ofTokens.trans Operation.mem_allTokens
  · intro place hplace
    exact exists_instruction_of_place hsize hplace

/-- Two operations that share a token. The second one acts on a token that no instruction moves. -/
def sharedToken : List Operation :=
  let account : Address := ⟨BigEndian.encode 20 0x11⟩
  let coin : Token := ⟨.erc20, .zero, account⟩
  let share : Token := ⟨.erc1155, ⟨7, by decide⟩, account⟩
  let collectible : Token := ⟨.erc721, ⟨9, by decide⟩, account⟩
  [⟨.target (.pool account),
      [⟨share, .exactly, ⟨-5, by decide, by decide⟩⟩, ⟨coin, .all, ⟨5, by decide, by decide⟩⟩]⟩,
    ⟨.token collectible, [⟨share, .atMost, .zero⟩]⟩]

/-- Two operations that share a token are compiled to a batch that stands for them. -/
theorem standsFor_sharedToken :
    compile ⟨2, some 2, none⟩ sharedToken = .ok (ofOperations sharedToken) ∧
      (ofOperations sharedToken).StandsFor sharedToken :=
  ⟨rfl, standsFor_of_compile (show compile ⟨2, some 2, none⟩ sharedToken = .ok _ from rfl)⟩

end Batch
end VaultBatch
