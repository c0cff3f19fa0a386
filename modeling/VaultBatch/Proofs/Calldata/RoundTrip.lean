import VaultBatch.Proofs.Batch.Built

/-!
# Calldata is read back

Every batch, however it is built, can be written as a call. If its arguments take less than
`Abi.sizeBound` bytes, so that all their offsets and lengths can be written, the call is read as the
same batch (`encode_decode_of_built`).
-/

namespace VaultBatch.Calldata

variable {batch : Batch}

/-- A well-formed batch is written as a call of the method with its arguments. -/
theorem encode_eq (h : batch.WellFormed) :
    encode batch = .ok (ofArguments (rawArguments batch)) := by
  have hcount : ¬ batch.deposits.length ≠ batch.table.entries.length := not_not.2 h.deposits
  rw [encode, encodeParts, if_neg hcount]
  rfl

/-- A call with the arguments of a well-formed batch is read as the batch. -/
theorem decode_ofArguments (h : batch.WellFormed)
    (hlength : (region (rawArguments batch)).length < Abi.sizeBound) :
    decode (ofArguments (rawArguments batch)) = .ok batch := by
  rw [decode, arguments_ofArguments hlength]
  exact batchOfArguments_rawArguments h

/-- Every batch can be written as a call of the method, which is read as the same batch if the
arguments are not too long. -/
theorem encode_decode_of_built (h : batch.Built) :
    ∃ block, encode batch = .ok (selector.toList ++ block) ∧
      (block.length < Abi.sizeBound → decode (selector.toList ++ block) = .ok batch) := by
  have hwf := h.wellFormed
  refine ⟨region (rawArguments batch), encode_eq hwf, ?_⟩
  intro hlength
  exact decode_ofArguments hwf hlength

/-- A batch with a deposit and with bytes to pass on is written and read back. -/
theorem encode_decode_coinMove :
    Batch.coinMove.Built ∧ ∃ block, encode Batch.coinMove = .ok (selector.toList ++ block) ∧
      block.length < Abi.sizeBound ∧
      decode (selector.toList ++ block) = .ok Batch.coinMove := by
  have hbuilt : Batch.coinMove.Built := .decoded Batch.decode_looseRegion
  obtain ⟨block, hencode, hdecode⟩ := encode_decode_of_built hbuilt
  have hblock : block = region (rawArguments Batch.coinMove) := by
    rw [encode_eq hbuilt.wellFormed] at hencode
    exact (List.append_cancel_left (Except.ok.inj hencode)).symm
  have hlength : block.length < Abi.sizeBound := by
    rw [hblock]
    decide +kernel
  exact ⟨hbuilt, block, hencode, hlength, hdecode hlength⟩

end VaultBatch.Calldata
