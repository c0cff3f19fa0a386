import VaultBatch.Proofs.Compile.Packing

/-!
# What compilation answers

Compilation makes its checks one after the other, and the first one that fails decides the answer.
`Outcome` lists the answers with the checks that lead to them, said of the operations alone;
`compile_eq_iff_outcome` says that compilation gives the answer of this list and no other.
-/

namespace VaultBatch.Batch

/-- The answers to operations under limits. Each one requires that the checks before it have been
passed, and what compiles is what compiles without limits. -/
inductive Outcome (limits : Limits) (operations : List Operation) :
    Except CompileError Batch → Prop where
  /-- There are more operations than allowed. -/
  | tooManyOperations {limit : Nat} :
      limit ∈ limits.maxOperations →
      limit < operations.length →
      Outcome limits operations (.error (.tooManyOperations operations.length limit))
  /-- The first operation with more instructions than allowed is reported. -/
  | tooManyInstructions {limit : Nat} {before : List Operation} {operation : Operation}
      {after : List Operation} :
      limits.AllowsOperations operations →
      limit ∈ limits.maxInstructions →
      operations = before ++ operation :: after →
      (∀ other ∈ before, other.instructions.length ≤ limit) →
      limit < operation.instructions.length →
      Outcome limits operations
        (.error (.tooManyInstructions before.length operation.instructions.length limit))
  /-- There are more distinct tokens than allowed. -/
  | tooManyTokens :
      limits.AllowsOperations operations →
      limits.AllowsInstructions operations →
      limits.maxTokens < (Operation.allTokens operations).toFinset.card →
      Outcome limits operations (.error (.tooManyTokens
        (Operation.allTokens operations).toFinset.card limits.maxTokens))
  /-- There are more distinct tokens than places. The first instruction whose token has no place
  that fits a byte is reported by the rank of its token. -/
  | placeOutOfRange {before : List Instruction} {instruction : Instruction}
      {after : List Instruction} :
      limits.AllowsOperations operations →
      limits.AllowsInstructions operations →
      (Operation.allTokens operations).toFinset.card ≤ limits.maxTokens →
      maxTableSize < (Operation.allTokens operations).toFinset.card →
      operations.flatMap (·.instructions) = before ++ instruction :: after →
      (∀ other ∈ before, other.token.rank (Operation.allTokens operations) ≤ 255) →
      255 < instruction.token.rank (Operation.allTokens operations) →
      Outcome limits operations (.error (.encoding (.outOfRange .tokenIndex
        (instruction.token.rank (Operation.allTokens operations)) 255)))
  /-- All checks are passed. -/
  | compiled {batch : Batch} :
      limits.AllowsOperations operations →
      limits.AllowsInstructions operations →
      (Operation.allTokens operations).toFinset.card ≤ limits.maxTokens →
      (Operation.allTokens operations).toFinset.card ≤ maxTableSize →
      compile {} operations = .ok batch →
      Outcome limits operations (.ok batch)

variable {limits : Limits} {operations : List Operation}

/-- Without limits, operations compile if their tokens fit a table. -/
theorem compile_default (h : (Operation.allTokens operations).toFinset.card ≤ maxTableSize) :
    compile {} operations = .ok (ofOperations operations) :=
  compile_eq_ok_iff.2 ⟨rfl, by simp [Limits.AllowsOperations],
    by simp [Limits.AllowsInstructions], h, h⟩

/-- An instruction whose rank is no byte has 256 distinct tokens before its own. -/
theorem maxTableSize_lt_of_findSome? {error : CompileError}
    (h : (operations.flatMap (·.instructions)).findSome?
      (Instruction.fault? (Operation.allTokens operations)) = some error) :
    maxTableSize < (Operation.allTokens operations).toFinset.card := by
  by_contra hsize
  rw [findSome?_fault?_eq_none_iff.2 (Nat.not_lt.1 hsize)] at h
  cases h

/-- The answer of compilation is listed. -/
theorem outcome_compile (limits : Limits) (operations : List Operation) :
    Outcome limits operations (compile limits operations) := by
  cases hoperations : checkOperationCount limits operations with
  | error error =>
      obtain ⟨limit, hlimit, hlt, rfl⟩ := checkOperationCount_eq_error_iff.1 hoperations
      rw [compile, hoperations]
      exact .tooManyOperations hlimit hlt
  | ok =>
      have hallows := checkOperationCount_eq_ok_iff.1 hoperations
      cases hinstructions : checkInstructionCounts limits operations with
      | error error =>
          obtain ⟨limit, hlimit, before, operation, after, heq, hbefore, hlong, rfl⟩ :=
            checkInstructionCounts_eq_error_iff.1 hinstructions
          rw [compile, hoperations, hinstructions]
          exact .tooManyInstructions hallows hlimit heq hbefore hlong
      | ok =>
          have hshort := checkInstructionCounts_eq_ok_iff.1 hinstructions
          -- from here on the distinct tokens decide
          rw [compile_of_allows hallows hshort]
          split
          · next hmany => exact .tooManyTokens hallows hshort hmany
          · next hfew =>
            have hfew := Nat.not_lt.1 hfew
            cases hfault : (operations.flatMap (·.instructions)).findSome?
                (Instruction.fault? (Operation.allTokens operations)) with
            | none =>
                have hsize := findSome?_fault?_eq_none_iff.1 hfault
                exact .compiled hallows hshort hfew hsize (compile_default hsize)
            | some error =>
                obtain ⟨before, instruction, after, heq, hinstruction, hbefore⟩ :=
                  List.findSome?_eq_some_iff.1 hfault
                obtain ⟨hrank, rfl⟩ := Instruction.fault?_eq_some_iff.1 hinstruction
                refine .placeOutOfRange hallows hshort hfew
                  (maxTableSize_lt_of_findSome? hfault) heq ?_ hrank
                intro other hother
                exact Instruction.fault?_eq_none_iff.1 (hbefore other hother)

/-- No other answer is listed. -/
theorem Outcome.compile_eq {result : Except CompileError Batch}
    (h : Outcome limits operations result) : compile limits operations = result := by
  cases h with
  | tooManyOperations hlimit hlt =>
      rw [compile, checkOperationCount_eq_error_iff.2 ⟨_, hlimit, hlt, rfl⟩]
      rfl
  | tooManyInstructions hallows hlimit heq hbefore hlong =>
      rw [compile, checkOperationCount_eq_ok_iff.2 hallows,
        checkInstructionCounts_eq_error_iff.2 ⟨_, hlimit, _, _, _, heq, hbefore, hlong, rfl⟩]
      rfl
  | tooManyTokens hallows hshort hmany =>
      rw [compile_of_allows hallows hshort, if_pos hmany]
  | placeOutOfRange hallows hshort hfew hsize heq hbefore hrank =>
      rw [compile_of_allows hallows hshort, if_neg (Nat.not_lt.2 hfew), unlessFault_eq_error_iff,
        List.findSome?_eq_some_iff]
      refine ⟨_, _, _, heq, Instruction.fault?_eq_some_iff.2 ⟨hrank, rfl⟩, ?_⟩
      intro other hother
      exact Instruction.fault?_eq_none_iff.2 (hbefore other hother)
  | compiled hallows hshort hfew hsize hdefault =>
      rw [compile_default hsize] at hdefault
      cases hdefault
      exact compile_eq_ok_iff.2 ⟨rfl, hallows, hshort, hfew, hsize⟩

/-- The first check that fails decides the answer of compilation, and the token of an instruction
is always in the table. -/
theorem compile_eq_iff_outcome (limits : Limits) (operations : List Operation) :
    (∀ result, compile limits operations = result ↔ Outcome limits operations result) ∧
      ∀ token operation instruction,
        compile limits operations ≠ .error (.unresolvedToken token operation instruction) := by
  refine ⟨fun result => ⟨?_, Outcome.compile_eq⟩, ?_⟩
  · rintro rfl
    exact outcome_compile limits operations
  · intro token operation instruction h
    have houtcome := outcome_compile limits operations
    rw [h] at houtcome
    cases houtcome

end VaultBatch.Batch
