import VaultBatch.Proofs.Calldata.RoundTrip
import VaultBatch.Proofs.Json.Containers

/-!
# Parts that are admitted

The parts of a batch may come as text or as calldata. Text is read as a batch exactly if a table is
made of its descriptors and a batch of the parts (`Batch.readJson_answers`, which also gives the
faults), and so is calldata, if its arguments are not too long. `Batch.admits_same_parts` puts the
two side by side: neither of them lets parts pass that the other one refuses, and a batch that has
been built survives being written as text.
-/

namespace VaultBatch

open Json Json.Reader

/-! ## Single values -/

/-- A written descriptor is read back. -/
theorem Descriptor.readJson_answers (descriptor : Descriptor) :
    readJson.Answers descriptor.writeJson (.ok descriptor) := by
  refine checkedString_answers ?_
  rw [parse_hex]
  rfl

/-- A written instruction is read back. -/
theorem PackedInstruction.readJson_answers (packed : PackedInstruction) :
    readJson.Answers packed.writeJson (.ok packed) := by
  refine checkedString_answers ?_
  rw [parse_hex]
  rfl

/-- A written deposit is read back. -/
theorem Batch.readDeposit_answers (deposit : Amount) :
    readDeposit.Answers (writeDeposit deposit) (.ok deposit) := by
  have hwide : (wideInteger true Amount.minValue Amount.maxValue).Answers
      (writeDeposit deposit) (.ok deposit.value) :=
    wideInteger_answers ⟨deposit.le_value, deposit.value_le⟩ fun _ => rfl
  refine hwide.settle ?_
  rw [Amount.ofInt?_eq_some_iff.2 rfl]
  exact settles_pure deposit

/-- A written operation is read back. -/
theorem CompiledOperation.readJson_answers (operation : CompiledOperation) :
    readJson.Answers operation.writeJson (.ok operation) := by
  have hinstructions := list_answers PackedInstruction.readJson_answers operation.instructions
  have hdata := list_answers byte_answers operation.data
  have hmembers : Collects readField {}
      [("reference", operation.reference.writeJson),
        ("instructions", Writer.sequence (operation.instructions.map (·.writeJson))),
        ("data", Writer.sequence
          (operation.data.map fun byte => Writer.integer byte.toNat))]
      (.ok ⟨some operation.reference, some operation.instructions, some operation.data⟩) :=
    .member (once_answers operation.reference.readJson_answers) <|
      .member (once_answers hinstructions) <| .member (once_answers hdata) <| .done _
  exact record_answers hmembers (settles_pure operation)

/-! ## Tables and batches -/

/-- A table is read from descriptors as it is made of them, with the same faults. -/
theorem TokenTable.readJson_answers (entries : List Descriptor) :
    readJson.Answers (Writer.sequence (entries.map (·.writeJson)))
      ((ofEntries entries).mapError fun error => .rejected (.decode error)) := by
  refine (list_answers Descriptor.readJson_answers entries).settle ?_
  cases ofEntries entries with
  | ok table => exact settles_pure table
  | error error => exact settles_fail _

namespace Batch

variable {entries : List Descriptor} {deposits : List Amount}
  {operations : List CompiledOperation} {batch : Batch}

/-- What is read from the written parts of a batch: their table first, then whether they fit each
other. -/
def ofWritten (entries : List Descriptor) (deposits : List Amount)
    (operations : List CompiledOperation) : Except Json.Error Batch := do
  let table ← (TokenTable.ofEntries entries).mapError fun error => .rejected (.decode error)
  (ofParts table deposits operations).mapError fun error => .rejected (.batch error)

/-- The written parts of a batch are read as the batch that they make, or refused like the parts. -/
theorem readJson_answers (entries : List Descriptor) (deposits : List Amount)
    (operations : List CompiledOperation) :
    readJson.Answers (writeParts entries deposits operations)
      (ofWritten entries deposits operations) := by
  have htable := TokenTable.readJson_answers entries
  have hdeposits := list_answers readDeposit_answers deposits
  have hoperations := list_answers CompiledOperation.readJson_answers operations
  -- a table that is refused ends the reading at the first member
  cases hentries : TokenTable.ofEntries entries with
  | error error =>
      rw [hentries] at htable
      have hparts : (record (.record "BatchParts") readField {} ofFields readPlaces).Answers
          (writeParts entries deposits operations) (.error (.rejected (.decode error))) :=
        record_stops (.fault (once_answers htable))
      rw [ofWritten, hentries]
      exact hparts.stop
  | ok table =>
      rw [hentries] at htable
      have hparts : (record (.record "BatchParts") readField {} ofFields readPlaces).Answers
          (writeParts entries deposits operations) (.ok (table, deposits, operations)) :=
        record_answers (.member (once_answers htable) <| .member (once_answers hdeposits) <|
          .member (once_answers hoperations) <| .done _) (settles_pure _)
      rw [ofWritten, hentries]
      refine hparts.settle ?_
      show Settles _ ((ofParts table deposits operations).mapError _)
      dsimp only
      cases ofParts table deposits operations with
      | ok batch => exact settles_pure batch
      | error error => exact settles_fail _

/-- Parts are read from text exactly if they make a table and then a batch. -/
theorem parse_writeParts_eq_ok_iff :
    parse readJson (String.ofList (writeParts entries deposits operations)) = .ok batch ↔
      ∃ table, TokenTable.ofEntries entries = .ok table ∧
        ofParts table deposits operations = .ok batch := by
  rw [parse_of_answers (readJson_answers entries deposits operations), ofWritten]
  simp only [bind_eq_ok_iff, mapError_eq_ok_iff]

/-- A well-formed batch is read back from text. -/
theorem WellFormed.parse_writeJson (h : batch.WellFormed) :
    parse readJson (String.ofList batch.writeJson) = .ok batch :=
  parse_writeParts_eq_ok_iff.2
    ⟨batch.table, TokenTable.ofEntries_eq_ok_iff.2 ⟨h.table, rfl⟩, h.ofParts⟩

end Batch

/-! ## Parts as calldata -/

namespace Calldata

variable {entries : List Descriptor} {deposits : List Amount}
  {operations : List CompiledOperation} {batch : Batch}

/-- The parts of a batch as they stand among the arguments. -/
def partArguments (entries : List Descriptor) (deposits : List Amount)
    (operations : List CompiledOperation) : Arguments :=
  (entries.map (·.bytes.toList), deposits.map Amount.toWord, operations.map rawOperation)

/-- Parts with one deposit for each descriptor are written as calldata. -/
theorem encodeParts_eq (hcount : deposits.length = entries.length) :
    encodeParts entries deposits operations =
      .ok (ofArguments (partArguments entries deposits operations)) :=
  if_neg (not_not.2 hcount)

/-- A batch is made of the arguments for parts exactly if they make a table and then a batch. -/
theorem batchOfArguments_partArguments_eq_ok_iff :
    batchOfArguments (partArguments entries deposits operations) = .ok batch ↔
      ∃ table, TokenTable.ofEntries entries = .ok table ∧
        Batch.ofParts table deposits operations = .ok batch := by
  have hentries : (entries.map (·.bytes.toList)).mapM Descriptor.ofList = .ok entries :=
    mapM_map_eq_ok fun entry _ => entry.ofList_toList
  have hdeposits : (deposits.map Amount.toWord).mapM readDeposit = .ok deposits :=
    mapM_map_eq_ok fun deposit _ => readDeposit_toWord deposit
  have hoperations : (operations.map rawOperation).mapM readOperation = .ok operations :=
    mapM_map_eq_ok fun operation _ => readOperation_rawOperation operation
  rw [batchOfArguments_eq_ok_iff]
  constructor
  · intro h
    obtain ⟨_, table, _, _, hread, htable, hreadDeposits, hreadOperations, hbatch⟩ := h
    cases hentries.symm.trans hread
    cases hdeposits.symm.trans hreadDeposits
    cases hoperations.symm.trans hreadOperations
    exact ⟨table, htable, hbatch⟩
  · intro h
    obtain ⟨table, htable, hbatch⟩ := h
    exact ⟨entries, table, deposits, operations, hentries, htable, hdeposits, hoperations, hbatch⟩

/-- A call with parts is read as a batch exactly if they make a table and then a batch, as long as
the arguments are not too long. -/
theorem decode_partArguments_eq_ok_iff
    (hlength : (region (partArguments entries deposits operations)).length < Abi.sizeBound) :
    decode (ofArguments (partArguments entries deposits operations)) = .ok batch ↔
      ∃ table, TokenTable.ofEntries entries = .ok table ∧
        Batch.ofParts table deposits operations = .ok batch := by
  rw [decode, arguments_ofArguments hlength]
  exact batchOfArguments_partArguments_eq_ok_iff

end Calldata

namespace Batch

/-- Text and calldata let the same parts pass, as the same batch: those that make a table and then a
batch. A batch that has been built is read back from its text. -/
theorem admits_same_parts :
    (∀ entries deposits operations batch,
      parse readJson (String.ofList (writeParts entries deposits operations)) = .ok batch ↔
        ∃ table, TokenTable.ofEntries entries = .ok table ∧
          ofParts table deposits operations = .ok batch) ∧
    (∀ batch : Batch, batch.Built → parse readJson (String.ofList batch.writeJson) = .ok batch) ∧
    (∀ entries deposits operations, deposits.length = entries.length →
      ∃ block, Calldata.encodeParts entries deposits operations =
          .ok (Calldata.selector.toList ++ block) ∧
        (block.length < Abi.sizeBound → ∀ batch,
          Calldata.decode (Calldata.selector.toList ++ block) = .ok batch ↔
            parse readJson (String.ofList (writeParts entries deposits operations)) =
              .ok batch)) := by
  refine ⟨?_, ?_, ?_⟩
  · intro entries deposits operations batch
    exact parse_writeParts_eq_ok_iff
  · intro batch h
    exact h.wellFormed.parse_writeJson
  · intro entries deposits operations hcount
    refine ⟨Calldata.region (Calldata.partArguments entries deposits operations), ?_, ?_⟩
    · exact Calldata.encodeParts_eq hcount
    · intro hlength batch
      rw [parse_writeParts_eq_ok_iff]
      exact Calldata.decode_partArguments_eq_ok_iff hlength

/-- A batch with bytes to pass on is read from its text and from its calldata alike. -/
theorem admits_same_parts_coinMove :
    coinMove.Built ∧ parse readJson (String.ofList coinMove.writeJson) = .ok coinMove ∧
      coinMove.deposits.length = coinMove.table.entries.length ∧
      ∃ block, Calldata.encodeParts coinMove.table.entries coinMove.deposits coinMove.operations =
          .ok (Calldata.selector.toList ++ block) ∧ block.length < Abi.sizeBound ∧
        Calldata.decode (Calldata.selector.toList ++ block) = .ok coinMove := by
  have hbuilt : coinMove.Built := .decoded decode_looseRegion
  have hcount : coinMove.deposits.length = coinMove.table.entries.length :=
    hbuilt.wellFormed.deposits
  obtain ⟨-, hparse, hcalldata⟩ := admits_same_parts
  obtain ⟨block, hencode, hagree⟩ := hcalldata _ _ coinMove.operations hcount
  have hblock : block = Calldata.region (Calldata.rawArguments coinMove) := by
    have hcall := (Calldata.encodeParts_eq hcount).symm.trans hencode
    exact (List.append_cancel_left (Except.ok.inj hcall)).symm
  have hlength : block.length < Abi.sizeBound := by
    rw [hblock]
    decide +kernel
  exact ⟨hbuilt, hparse _ hbuilt, hcount, block, hencode, hlength,
    (hagree hlength _).2 (hparse _ hbuilt)⟩

end Batch
end VaultBatch
