import VaultBatch.Proofs.Abi.Region
import VaultBatch.Proofs.Amount
import VaultBatch.Proofs.Batch.WellFormed

/-!
# Batches as arguments

`rawArguments` are the arguments that a batch is written as. `arguments_selector_append` says that
the arguments of a call are read from what stands behind the name of the method, whatever that is,
and `arguments_ofArguments` that written arguments are read back if their region is short enough.
From arguments only well-formed batches are made (`wellFormed_of_batchOfArguments`), and a
well-formed batch is made again from its own (`batchOfArguments_rawArguments`).
-/

namespace VaultBatch.Calldata

/-! ## The region of the arguments -/

/-- The descriptors of a table are read back. -/
theorem tokenForm_readsBack : tokenForm.ReadsBack :=
  Abi.Form.list_readsBack Abi.Form.bytes_readsBack

/-- Words of deposits are read back. -/
theorem depositForm_readsBack : depositForm.ReadsBack :=
  Abi.Form.list_readsBack (Abi.Form.word_readsBack _)

/-- Raw operations are read back. -/
theorem operationForm_readsBack : operationForm.ReadsBack :=
  Abi.Form.list_readsBack (Abi.Form.triple_readsBack Abi.Form.bytes_readsBack
    (Abi.Form.list_readsBack (Abi.Form.word_readsBack _)) Abi.Form.bytes_readsBack)

/-- The region of arguments: what stands behind the name of the method. -/
def region (arguments : Arguments) : List UInt8 :=
  Abi.Form.writeThree tokenForm depositForm operationForm arguments

/-- The region of arguments is never empty. -/
theorem region_ne_nil (arguments : Arguments) : region arguments ≠ [] := by
  refine List.ne_nil_of_length_pos ?_
  simp only [region, Abi.Form.writeThree, Abi.Part.region, List.length_append,
    Abi.Part.length_heads, List.length_cons]
  omega

/-- A call of the method is read from what stands behind its name. -/
theorem arguments_selector_append {block : List UInt8} (h : block ≠ []) :
    arguments (selector.toList ++ block) =
      (Abi.Form.readThree tokenForm depositForm operationForm block).elim
        (.error .malformedArguments) .ok := by
  have hlength : ¬ (selector.toList ++ block).length < 4 := by
    rw [List.length_append, selector.length_toList]
    omega
  have htake : (selector.toList ++ block).take 4 = selector.toList :=
    List.take_left' selector.length_toList
  have hdrop : (selector.toList ++ block).drop 4 = block :=
    List.drop_left' selector.length_toList
  rw [arguments, if_neg hlength, htake, if_neg (not_not.2 rfl), hdrop,
    if_neg (by rwa [List.isEmpty_iff])]
  cases Abi.Form.readThree tokenForm depositForm operationForm block <;> rfl

/-- Written arguments are read back. -/
theorem arguments_ofArguments {given : Arguments} (h : (region given).length < Abi.sizeBound) :
    arguments (ofArguments given) = .ok given := by
  have hread : Abi.Form.readThree tokenForm depositForm operationForm (region given) = some given :=
    Abi.Form.readThree_writeThree tokenForm_readsBack depositForm_readsBack
      operationForm_readsBack List.prefix_rfl h
  show arguments (selector.toList ++ region given) = .ok given
  rw [arguments_selector_append (region_ne_nil given), hread, Option.elim_some]

/-! ## Batches -/

/-- A batch as it stands among the arguments. -/
def rawArguments (batch : Batch) : Arguments :=
  (batch.table.entries.map (·.bytes.toList), batch.deposits.map Amount.toWord,
    batch.operations.map rawOperation)

/-- A deposit is read back from its word. -/
theorem readDeposit_toWord (amount : Amount) : readDeposit amount.toWord = .ok amount := by
  rw [readDeposit, Amount.ofWord?_toWord]

/-- An operation is read back from its raw form. -/
theorem readOperation_rawOperation (operation : CompiledOperation) :
    readOperation (rawOperation operation) = .ok operation := by
  obtain ⟨reference, instructions, data⟩ := operation
  have hinstructions :
      (instructions.map (·.bytes)).map PackedInstruction.mk = instructions := by
    rw [List.map_map]
    exact List.map_id _
  simp only [readOperation, rawOperation, Descriptor.ofList_toList, hinstructions]

/-- The batch of a call is made of what stands behind the name of the method. -/
theorem decode_selector_append {block : List UInt8} (h : block ≠ []) :
    decode (selector.toList ++ block) =
      (Abi.Form.readThree tokenForm depositForm operationForm block).elim
        (.error .malformedArguments) batchOfArguments := by
  rw [decode, arguments_selector_append h]
  cases Abi.Form.readThree tokenForm depositForm operationForm block <;> rfl

/-- A batch is made of arguments exactly if its parts are read from them and fit each other. -/
theorem batchOfArguments_eq_ok_iff {given : Arguments} {batch : Batch} :
    batchOfArguments given = .ok batch ↔
      ∃ entries table deposits operations, given.1.mapM Descriptor.ofList = .ok entries ∧
        TokenTable.ofEntries entries = .ok table ∧ given.2.1.mapM readDeposit = .ok deposits ∧
        given.2.2.mapM readOperation = .ok operations ∧
        Batch.ofParts table deposits operations = .ok batch := by
  simp only [batchOfArguments, bind_eq_ok_iff, mapError_eq_ok_iff, exists_and_left]

/-- What is made of arguments is well-formed. -/
theorem wellFormed_of_batchOfArguments {given : Arguments} {batch : Batch}
    (h : batchOfArguments given = .ok batch) : batch.WellFormed := by
  obtain ⟨entries, table, deposits, operations, -, htable, -, -, hbatch⟩ :=
    batchOfArguments_eq_ok_iff.1 h
  exact Batch.wellFormed_of_ofParts (TokenTable.ofEntries_eq_ok_iff.1 htable).1 hbatch

/-- A well-formed batch is made again of its own arguments. -/
theorem batchOfArguments_rawArguments {batch : Batch} (h : batch.WellFormed) :
    batchOfArguments (rawArguments batch) = .ok batch := by
  refine batchOfArguments_eq_ok_iff.2
    ⟨batch.table.entries, batch.table, batch.deposits, batch.operations, ?_, ?_, ?_, ?_, h.ofParts⟩
  · exact mapM_map_eq_ok fun entry _ => entry.ofList_toList
  · exact TokenTable.ofEntries_eq_ok_iff.2 ⟨h.table, rfl⟩
  · exact mapM_map_eq_ok fun deposit _ => readDeposit_toWord deposit
  · exact mapM_map_eq_ok fun operation _ => readOperation_rawOperation operation

end VaultBatch.Calldata
