import VaultBatch.Compile
import VaultBatch.Proofs.TokenTable.Places

/-!
# What compilation packs

`Batch.ofOperations` is the batch that operations stand for: the table of all their tokens, a
deposit of nothing for each, and every instruction with the rank of its token. Within the limits
on operations, instructions and tokens, compilation packs this batch or reports the first
instruction whose rank is no byte (`compile_of_allows`). No limit but the width of a place decides
that, so `compile_eq_ok_iff` tells the limits and the batch apart.
-/

namespace VaultBatch

/-- The tokens that the instructions of operations name, in order. -/
def Operation.allTokens (operations : List Operation) : List Token :=
  operations.flatMap (·.tokens)

/-- The tokens of operations are those of their instructions. -/
theorem Operation.mem_allTokens {operations : List Operation} {token : Token} :
    token ∈ allTokens operations ↔
      ∃ operation ∈ operations, ∃ instruction ∈ operation.instructions,
        instruction.token = token := by
  simp [allTokens, tokens]

/-- An instruction with the rank of its token among others. -/
def Instruction.indexed (tokens : List Token) (instruction : Instruction) : IndexedInstruction :=
  ⟨UInt8.ofNat (instruction.token.rank tokens), instruction.kind, instruction.amount⟩

/-- A rank below 256 is kept by the byte that it is packed in. -/
theorem Instruction.toNat_indexed {tokens : List Token} {instruction : Instruction}
    (h : instruction.token ∈ tokens) (hsize : tokens.toFinset.card ≤ maxTableSize) :
    (instruction.indexed tokens).index.toNat = instruction.token.rank tokens := by
  have hrank := TokenTable.rank_lt_size h
  rw [TokenTable.size_ofTokens] at hrank
  have hbyte : instruction.token.rank tokens < 256 := Nat.lt_of_lt_of_le hrank hsize
  show (UInt8.ofNat (instruction.token.rank tokens)).toNat = instruction.token.rank tokens
  rw [UInt8.toNat_ofNat', Nat.mod_eq_of_lt hbyte]

/-- The fault of an instruction whose token has no place that fits a byte. -/
def Instruction.fault? (tokens : List Token) (instruction : Instruction) : Option CompileError :=
  let rank := instruction.token.rank tokens
  if rank ≤ PackedInstruction.maxIndex then none
  else some (.encoding (.outOfRange .tokenIndex rank PackedInstruction.maxIndex))

/-- An instruction can be packed exactly if the rank of its token fits a byte. -/
theorem Instruction.fault?_eq_none_iff {tokens : List Token} {instruction : Instruction} :
    instruction.fault? tokens = none ↔
      instruction.token.rank tokens ≤ PackedInstruction.maxIndex := by
  simp [fault?]

/-- An instruction cannot be packed exactly if the rank of its token does not fit a byte, which is
reported. -/
theorem Instruction.fault?_eq_some_iff {tokens : List Token} {instruction : Instruction}
    {error : CompileError} :
    instruction.fault? tokens = some error ↔
      PackedInstruction.maxIndex < instruction.token.rank tokens ∧
        error = .encoding (.outOfRange .tokenIndex (instruction.token.rank tokens)
          PackedInstruction.maxIndex) := by
  by_cases h : instruction.token.rank tokens ≤ PackedInstruction.maxIndex
  · simp [fault?, h, Nat.not_lt.2 h]
  · simp [fault?, h, Nat.not_le.1 h, eq_comm]

/-- An operation with its instructions packed against the table of the given tokens. -/
def Operation.packed (tokens : List Token) (operation : Operation) : CompiledOperation :=
  ⟨operation.reference.pack, operation.instructions.map fun instruction =>
    .pack (instruction.indexed tokens), []⟩

/-- What an operation is packed to depends on the distinct tokens of the table alone. -/
theorem Operation.packed_congr {tokens others : List Token}
    (h : ∀ token, token ∈ tokens ↔ token ∈ others) : packed tokens = packed others := by
  funext operation
  simp only [packed, Instruction.indexed, Token.rank_congr h]

namespace Limits

/-- There are no more operations than allowed. -/
def AllowsOperations (limits : Limits) (operations : List Operation) : Prop :=
  ∀ limit ∈ limits.maxOperations, operations.length ≤ limit

/-- No operation has more instructions than allowed. -/
def AllowsInstructions (limits : Limits) (operations : List Operation) : Prop :=
  ∀ limit ∈ limits.maxInstructions, ∀ operation ∈ operations, operation.instructions.length ≤ limit

end Limits

namespace Batch

/-- The batch that operations stand for. -/
def ofOperations (operations : List Operation) : Batch :=
  let tokens := Operation.allTokens operations
  let table := TokenTable.ofTokens tokens
  ⟨table, List.replicate table.size .zero, operations.map (Operation.packed tokens)⟩

variable {limits : Limits} {operations : List Operation} {error : CompileError}

/-! ## Packing -/

/-- An instruction is packed with the rank of its token as its place, unless that does not fit a
byte. -/
theorem compileInstruction_eq {tokens : List Token} {operation place : Nat}
    {instruction : Instruction} (h : instruction.token ∈ tokens) :
    compileInstruction (TokenTable.ofTokens tokens).places operation (instruction, place) =
      unlessFault (instruction.fault? tokens) (.pack (instruction.indexed tokens)) := by
  simp only [compileInstruction, TokenTable.places_ofTokens h, PackedInstruction.encode,
    Instruction.fault?]
  split <;> rfl

/-- An operation is packed instruction by instruction, unless one of them cannot be. -/
theorem compileOperation_eq {tokens : List Token} {place : Nat} {operation : Operation}
    (h : ∀ token ∈ operation.tokens, token ∈ tokens) :
    compileOperation (TokenTable.ofTokens tokens).places (operation, place) =
      unlessFault (operation.instructions.findSome? (Instruction.fault? tokens))
        (operation.packed tokens) := by
  have hinstructions : operation.instructions.zipIdx.mapM
      (compileInstruction (TokenTable.ofTokens tokens).places place) =
      unlessFault (operation.instructions.findSome? (Instruction.fault? tokens))
        (operation.instructions.map fun instruction => .pack (instruction.indexed tokens)) := by
    refine mapM_zipIdx_unlessFault ?_
    intro instruction hinstruction _
    exact compileInstruction_eq (h _ (List.mem_map_of_mem hinstruction))
  rw [compileOperation, hinstructions]
  cases operation.instructions.findSome? (Instruction.fault? tokens) <;> rfl

/-- Packing all operations finds the first instruction whose token has no place that fits a
byte. -/
theorem mapM_compileOperation :
    operations.zipIdx.mapM
        (compileOperation (TokenTable.ofTokens (Operation.allTokens operations)).places) =
      unlessFault
        ((operations.flatMap (·.instructions)).findSome?
          (Instruction.fault? (Operation.allTokens operations)))
        (operations.map (Operation.packed (Operation.allTokens operations))) := by
  rw [findSome?_flatMap]
  refine mapM_zipIdx_unlessFault ?_
  intro operation hoperation _
  refine compileOperation_eq ?_
  intro token htoken
  exact List.mem_flatMap.2 ⟨operation, hoperation, htoken⟩

/-! ## Limits -/

/-- Operations pass exactly if their number is within the limit. -/
theorem checkOperationCount_eq_ok_iff :
    checkOperationCount limits operations = .ok () ↔ limits.AllowsOperations operations := by
  unfold checkOperationCount Limits.AllowsOperations
  cases limits.maxOperations with
  | none => simp
  | some limit =>
      simp only [Option.mem_some, forall_eq']
      by_cases h : limit < operations.length
      · simp [h]
      · simp [h, Nat.not_lt.1 h]

/-- Operations are refused exactly if they are more than the limit, which is reported with their
number. -/
theorem checkOperationCount_eq_error_iff :
    checkOperationCount limits operations = .error error ↔
      ∃ limit ∈ limits.maxOperations, limit < operations.length ∧
        error = .tooManyOperations operations.length limit := by
  unfold checkOperationCount
  cases limits.maxOperations with
  | none => simp
  | some limit =>
      by_cases h : limit < operations.length
      · simp [h, eq_comm]
      · simp [h]

/-- Operations are refused exactly for the first of them that has more instructions than the limit.
-/
theorem checkInstructionCounts_eq_error_iff :
    checkInstructionCounts limits operations = .error error ↔
      ∃ limit ∈ limits.maxInstructions, ∃ before operation after,
        operations = before ++ operation :: after ∧
        (∀ other ∈ before, other.instructions.length ≤ limit) ∧
        limit < operation.instructions.length ∧
        error = .tooManyInstructions before.length operation.instructions.length limit := by
  unfold checkInstructionCounts
  cases limits.maxInstructions with
  | none => simp
  | some limit =>
      have hfirst := @find?_zipIdx_eq_some_iff Operation
        (fun operation => limit < operation.instructions.length) operations
      simp only [decide_eq_false_iff_not, Nat.not_lt, decide_eq_true_eq] at hfirst
      simp only [Option.mem_some, exists_eq_left']
      constructor
      · intro h
        split at h
        · cases h
        · next operation place hfound =>
          obtain ⟨before, after, heq, rfl, hbefore, hlong⟩ := hfirst.1 hfound
          cases h
          exact ⟨before, operation, after, heq, hbefore, hlong, rfl⟩
      · intro h
        obtain ⟨before, operation, after, heq, hbefore, hlong, rfl⟩ := h
        rw [hfirst.2 ⟨before, after, heq, rfl, hbefore, hlong⟩]

/-- Operations pass exactly if the number of instructions of each is within the limit. -/
theorem checkInstructionCounts_eq_ok_iff :
    checkInstructionCounts limits operations = .ok () ↔ limits.AllowsInstructions operations := by
  unfold checkInstructionCounts Limits.AllowsInstructions
  cases limits.maxInstructions with
  | none => simp
  | some limit =>
      simp only [Option.mem_some, forall_eq']
      have hnone := @find?_zipIdx_eq_none_iff Operation
        (fun operation => limit < operation.instructions.length) operations
      simp only [decide_eq_false_iff_not, Nat.not_lt] at hnone
      constructor
      · intro h
        split at h
        · next hfound => exact hnone.1 hfound
        · cases h
      · intro h
        rw [hnone.2 h]

/-- Within the limits on operations and instructions, the number of distinct tokens decides, and
then the first instruction whose token has no place that fits a byte. -/
theorem compile_of_allows (hoperations : limits.AllowsOperations operations)
    (hinstructions : limits.AllowsInstructions operations) :
    compile limits operations =
      if limits.maxTokens < (Operation.allTokens operations).toFinset.card then
        .error (.tooManyTokens (Operation.allTokens operations).toFinset.card limits.maxTokens)
      else
        unlessFault
          ((operations.flatMap (·.instructions)).findSome?
            (Instruction.fault? (Operation.allTokens operations)))
          (ofOperations operations) := by
  have hpacked := @mapM_compileOperation operations
  simp only [← TokenTable.size_ofTokens, Operation.allTokens] at hpacked ⊢
  rw [compile, checkOperationCount_eq_ok_iff.2 hoperations,
    checkInstructionCounts_eq_ok_iff.2 hinstructions]
  simp only [hpacked]
  by_cases hcount : limits.maxTokens < (TokenTable.ofTokens (operations.flatMap (·.tokens))).size
  · simp [hcount, bind, Except.bind, throw, throwThe, MonadExceptOf.throw]
  · simp only [hcount, if_false]
    cases (operations.flatMap (·.instructions)).findSome?
      (Instruction.fault? (operations.flatMap (·.tokens))) <;> rfl

/-! ## The width of a place -/

/-- Every rank fits a byte exactly if there are at most 256 distinct tokens, since the token at
each place is named by some instruction. -/
theorem forall_rank_le_iff :
    (∀ instruction ∈ operations.flatMap (·.instructions),
        instruction.token.rank (Operation.allTokens operations) ≤ PackedInstruction.maxIndex) ↔
      (Operation.allTokens operations).toFinset.card ≤ maxTableSize := by
  rw [← TokenTable.size_ofTokens]
  constructor
  · intro h
    by_contra hsize
    -- the token at place 256 is that of some instruction, whose rank would have to be smaller
    have hplace : maxTableSize <
        (TokenTable.ofTokens (Operation.allTokens operations)).tokens.length := by
      rw [← (TokenTable.ofTokens_wellFormed _).size_eq]
      omega
    have hget : (TokenTable.ofTokens (Operation.allTokens operations)).get? maxTableSize =
        some _ := List.getElem?_eq_getElem hplace
    have htoken := TokenTable.mem_tokens_ofTokens.1 (List.mem_of_getElem? hget)
    obtain ⟨operation, hoperation, instruction, hinstruction, heq⟩ :=
      Operation.mem_allTokens.1 htoken
    have hrank := h instruction (List.mem_flatMap.2 ⟨operation, hoperation, hinstruction⟩)
    rw [heq, TokenTable.rank_eq_of_get? hget] at hrank
    exact absurd hrank (by decide)
  · intro hsize instruction hinstruction
    obtain ⟨operation, hoperation, hinstruction⟩ := List.mem_flatMap.1 hinstruction
    have hrank := TokenTable.rank_lt_size
      (Operation.mem_allTokens.2 ⟨operation, hoperation, instruction, hinstruction, rfl⟩)
    have hwidth : maxTableSize = PackedInstruction.maxIndex + 1 := rfl
    omega

/-- All instructions can be packed exactly if their tokens fit a table. -/
theorem findSome?_fault?_eq_none_iff :
    (operations.flatMap (·.instructions)).findSome?
        (Instruction.fault? (Operation.allTokens operations)) = none ↔
      (Operation.allTokens operations).toFinset.card ≤ maxTableSize := by
  simp only [← forall_rank_le_iff, List.findSome?_eq_none_iff, Instruction.fault?_eq_none_iff]

/-- Operations compile exactly within the limits and the width of a place, and then to the batch
that they stand for. -/
theorem compile_eq_ok_iff {batch : Batch} :
    compile limits operations = .ok batch ↔
      batch = ofOperations operations ∧ limits.AllowsOperations operations ∧
        limits.AllowsInstructions operations ∧
        (Operation.allTokens operations).toFinset.card ≤ limits.maxTokens ∧
        (Operation.allTokens operations).toFinset.card ≤ maxTableSize := by
  constructor
  · intro h
    have hchecks := h
    simp only [compile, bind_eq_ok_iff] at hchecks
    obtain ⟨⟨⟩, hoperations, ⟨⟩, hinstructions, -⟩ := hchecks
    rw [checkOperationCount_eq_ok_iff] at hoperations
    rw [checkInstructionCounts_eq_ok_iff] at hinstructions
    rw [compile_of_allows hoperations hinstructions] at h
    split at h
    · cases h
    · next htokens =>
      rw [unlessFault_eq_ok_iff, findSome?_fault?_eq_none_iff] at h
      exact ⟨h.2.symm, hoperations, hinstructions, Nat.not_lt.1 htokens, h.1⟩
  · intro h
    obtain ⟨rfl, hoperations, hinstructions, htokens, hsize⟩ := h
    rw [compile_of_allows hoperations hinstructions, if_neg (Nat.not_lt.2 htokens)]
    exact unlessFault_eq_ok_iff.2 ⟨findSome?_fault?_eq_none_iff.2 hsize, rfl⟩

end Batch
end VaultBatch
