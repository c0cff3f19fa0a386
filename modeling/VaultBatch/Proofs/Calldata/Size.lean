import VaultBatch.Proofs.Abi.Size
import VaultBatch.Proofs.Calldata.RoundTrip
import VaultBatch.Proofs.Compile.Meaning

/-!
# The length of calldata

How long a call is depends on the shape of its batch alone: the number of tokens, the numbers of
instructions in the operations, and the numbers of words that their data fill. The three arguments
are measured one by one, and `length_encode_of_built` adds them up. Descriptors fill two words, not
one, and operations that have been compiled have no data.
-/

namespace VaultBatch

namespace Descriptor

/-- A descriptor fills two words, the second one in part. -/
theorem words_eq (d : Descriptor) : (d.bytes.toList.length + 31) / 32 = 2 := by
  rw [d.bytes.length_toList]
  rfl

end Descriptor

namespace Calldata

/-! ## The arguments one by one -/

/-- A table takes a word for its place and one for its size, and for each entry two words and its
bytes rounded up. -/
theorem tokenForm_takes :
    tokenForm.Takes fun tokens => 2 + (tokens.map fun bytes => 2 + (bytes.length + 31) / 32).sum :=
  Abi.Form.list_takes Abi.Form.bytes_takes

/-- Deposits take a word for their place and one for their number, and one for each of them. -/
theorem depositForm_takes : depositForm.Takes fun deposits => 2 + deposits.length :=
  Abi.Form.words_takes _

/-- Operations take a word for their place and one for their number, and for each of them one for
its place and what its three parts take. -/
theorem operationForm_takes :
    operationForm.Takes fun operations => 2 + (operations.map fun operation =>
      1 + (2 + (operation.1.length + 31) / 32 + (2 + operation.2.1.length) +
        (2 + (operation.2.2.length + 31) / 32))).sum :=
  Abi.Form.list_takes (Abi.Form.triple_takes Abi.Form.bytes_takes (Abi.Form.words_takes _)
    Abi.Form.bytes_takes)

/-! ## Batches -/

/-- The words of an operation in the arguments: nine, and those of its instructions and data. -/
def operationWords (operation : CompiledOperation) : Nat :=
  9 + operation.instructions.length + (operation.data.length + 31) / 32

/-- The region of a batch has six words, four for each token, one for each deposit, and those of the
operations. -/
theorem length_region_rawArguments (batch : Batch) :
    (region (rawArguments batch)).length =
      32 * (6 + 4 * batch.table.size + batch.deposits.length +
        (batch.operations.map operationWords).sum) := by
  have htokens : ((rawArguments batch).1.map fun bytes => 2 + (bytes.length + 31) / 32).sum =
      4 * batch.table.size := by
    simp only [rawArguments, List.map_map, Function.comp_def, Descriptor.words_eq, List.map_const',
      List.sum_replicate_nat, TokenTable.size]
    omega
  have hoperations : ((rawArguments batch).2.2.map fun operation =>
      1 + (2 + (operation.1.length + 31) / 32 + (2 + operation.2.1.length) +
        (2 + (operation.2.2.length + 31) / 32))).sum =
          (batch.operations.map operationWords).sum := by
    rw [rawArguments, List.map_map]
    congr 1
    refine List.map_congr_left ?_
    intro operation _
    simp only [Function.comp_apply, rawOperation, operationWords, Descriptor.words_eq,
      List.length_map]
    omega
  rw [region, Abi.Form.length_writeThree tokenForm_takes depositForm_takes operationForm_takes,
    htokens, hoperations, rawArguments, List.length_map]
  omega

/-- Every batch can be written as a call, whose length is that of the name of the method and of six
words, five for each token, and nine for each operation besides those of its instructions and its
data. Compiled operations have no data. -/
theorem length_encode_of_built :
    (∀ batch : Batch, batch.Built →
      ∃ call, encode batch = .ok call ∧
        call.length = 4 + 32 * (6 + 5 * batch.table.size +
          (batch.operations.map fun operation =>
            9 + operation.instructions.length + (operation.data.length + 31) / 32).sum)) ∧
    ∀ (limits : Limits) (operations : List Operation) (batch : Batch),
      Batch.compile limits operations = .ok batch →
        ∀ operation ∈ batch.operations, operation.data.length = 0 := by
  refine ⟨?_, ?_⟩
  · intro batch h
    have hwf := h.wellFormed
    have hregion := length_region_rawArguments batch
    have hdeposits := hwf.deposits
    refine ⟨selector.toList ++ region (rawArguments batch), encode_eq hwf, ?_⟩
    rw [List.length_append, selector.length_toList, hregion, hdeposits]
    show 4 + 32 * (6 + 4 * batch.table.size + batch.table.size +
      (batch.operations.map operationWords).sum) = 4 + 32 * (6 + 5 * batch.table.size +
      (batch.operations.map operationWords).sum)
    omega
  · intro limits operations batch h operation hoperation
    obtain ⟨rfl, -⟩ := Batch.compile_eq_ok_iff.1 h
    obtain ⟨given, -, rfl⟩ := List.mem_map.1 hoperation
    rfl

/-- One token and one operation with an instruction and three bytes of data make 22 words. -/
theorem length_encode_coinMove :
    Batch.coinMove.Built ∧
      (∃ call, encode Batch.coinMove = .ok call ∧ call.length = 4 + 32 * 22) ∧
      Batch.compile ⟨2, some 2, none⟩ Batch.sharedToken =
        .ok (Batch.ofOperations Batch.sharedToken) ∧
      ∀ operation ∈ (Batch.ofOperations Batch.sharedToken).operations,
        operation.data.length = 0 := by
  obtain ⟨hlength, hcompiled⟩ := length_encode_of_built
  have hbuilt : Batch.coinMove.Built := .decoded Batch.decode_looseRegion
  have hcompile : Batch.compile ⟨2, some 2, none⟩ Batch.sharedToken =
      .ok (Batch.ofOperations Batch.sharedToken) := rfl
  exact ⟨hbuilt, hlength _ hbuilt, hcompile, hcompiled _ _ _ hcompile⟩

end Calldata
end VaultBatch
