import VaultBatch.Proofs.Abi.LongRegion
import VaultBatch.Proofs.Amount
import VaultBatch.Proofs.Batch.Refusal
import VaultBatch.Proofs.Calldata.Arguments
import VaultBatch.Proofs.Calldata.Untyped
import VaultBatch.Proofs.TokenTable.Refusal

/-!
# What the arguments of a call are answered

A batch is read from arguments in stages, each over all of them, and the first stage that fails
decides the answer. `Outcome` lists the answers with the stages that lead to them, said of the
arguments alone; `decode_eq_iff_outcome` says that the call with these arguments is given the answer
of this list and no other.
-/

namespace VaultBatch.Calldata

/-- The answers to arguments. Each one requires that the stages before it have been passed: that the
entries are those of a table, the deposits extend amounts, and the operations have references of 36
bytes. -/
inductive Outcome (given : Arguments) : Except Error Batch → Prop where
  /-- The first entry that is no descriptor is reported by its length. -/
  | entryLength {before : List (List UInt8)} {entry : List UInt8} {after : List (List UInt8)} :
      given.1 = before ++ entry :: after →
      (∀ other ∈ before, other.length = 36) →
      entry.length ≠ 36 →
      Outcome given (.error (.decode (.invalidLength .descriptor entry.length)))
  /-- The entries are descriptors, but no table. -/
  | table {entries : List Descriptor} {error : DecodeError} :
      given.1 = entries.map (·.bytes.toList) →
      TokenTable.Refused entries error →
      Outcome given (.error (.decode error))
  /-- The first word that extends no amount is reported. -/
  | depositOutOfRange {table : TokenTable} {before : List Abi.Word} {word : Abi.Word}
      {after : List Abi.Word} :
      table.WellFormed →
      given.1 = table.entries.map (·.bytes.toList) →
      given.2.1 = before ++ word :: after →
      (∀ other ∈ before, ∃ amount : Amount, other = amount.signExtension) →
      (∀ amount : Amount, word ≠ amount.signExtension) →
      Outcome given (.error (.depositOutOfRange word))
  /-- The first operation whose reference is no descriptor is reported by the length of the
  reference. -/
  | referenceLength {table : TokenTable} {deposits : List Amount} {before : List RawOperation}
      {raw : RawOperation} {after : List RawOperation} :
      table.WellFormed →
      given.1 = table.entries.map (·.bytes.toList) →
      given.2.1 = deposits.map Amount.signExtension →
      given.2.2 = before ++ raw :: after →
      (∀ other ∈ before, other.1.length = 36) →
      raw.1.length ≠ 36 →
      Outcome given (.error (.decode (.invalidLength .descriptor raw.1.length)))
  /-- The parts do not fit each other. -/
  | parts {table : TokenTable} {deposits : List Amount} {operations : List CompiledOperation}
      {error : BatchError} :
      table.WellFormed →
      given.1 = table.entries.map (·.bytes.toList) →
      given.2.1 = deposits.map Amount.signExtension →
      given.2.2 = operations.map rawOperation →
      Batch.Refused table deposits operations error →
      Outcome given (.error (.batch error))
  /-- All stages are passed. -/
  | decoded {batch : Batch} :
      batch.WellFormed →
      given.1 = batch.table.entries.map (·.bytes.toList) →
      given.2.1 = batch.deposits.map Amount.signExtension →
      given.2.2 = batch.operations.map rawOperation →
      Outcome given (.ok batch)

/-! ## Stages -/

/-- A deposit is read exactly from the bytes of its amount behind those that repeat its sign. -/
theorem readDeposit_eq_ok_iff {word : Abi.Word} {amount : Amount} :
    readDeposit word = .ok amount ↔ word = amount.signExtension := by
  rw [← Amount.ofWord?_eq_some_iff, readDeposit]
  cases Amount.ofWord? word <;> simp

/-- A word is refused, and reported whole, exactly if it is not that of an amount. -/
theorem readDeposit_eq_error_iff {word : Abi.Word} {error : Error} :
    readDeposit word = .error error ↔
      (∀ amount : Amount, word ≠ amount.signExtension) ∧ error = .depositOutOfRange word := by
  rw [← Amount.ofWord?_eq_none_iff, readDeposit]
  cases Amount.ofWord? word <;> simp [eq_comm]

/-- Words are read as deposits exactly if they are their sign extensions. -/
theorem mapM_readDeposit_eq_ok_iff {words : List Abi.Word} {deposits : List Amount} :
    words.mapM readDeposit = .ok deposits ↔ words = deposits.map Amount.signExtension :=
  mapM_eq_ok_iff_eq_map fun _ _ => readDeposit_eq_ok_iff

/-- An operation is refused exactly if its reference has not 36 bytes, which is reported with their
number. -/
theorem readOperation_eq_error_iff {raw : RawOperation} {error : Error} :
    readOperation raw = .error error ↔
      raw.1.length ≠ 36 ∧ error = .decode (.invalidLength .descriptor raw.1.length) := by
  unfold readOperation
  constructor
  · intro h
    split at h
    · cases h
    · next cause hcause =>
      cases h
      obtain ⟨hlength, rfl⟩ := Descriptor.ofList_eq_error_iff.1 hcause
      exact ⟨hlength, rfl⟩
  · intro h
    obtain ⟨hlength, rfl⟩ := h
    rw [Descriptor.ofList_eq_error_iff.2 ⟨hlength, rfl⟩]

/-- An operation is read exactly if its reference has 36 bytes. -/
theorem exists_readOperation_iff {raw : RawOperation} :
    (∃ operation, readOperation raw = .ok operation) ↔ raw.1.length = 36 := by
  rw [exists_ok_iff fun _ => readOperation_eq_error_iff, not_not]

/-- An operation is read exactly from its raw form. -/
theorem readOperation_eq_ok_iff {raw : RawOperation} {operation : CompiledOperation} :
    readOperation raw = .ok operation ↔ raw = rawOperation operation := by
  constructor
  · intro h
    unfold readOperation at h
    split at h
    · next reference hreference =>
      cases h
      obtain ⟨bytes, words, data⟩ := raw
      have hwords : (words.map PackedInstruction.mk).map (·.bytes) = words := by
        rw [List.map_map]
        exact List.map_id _
      rw [rawOperation, hwords, ← Descriptor.ofList_eq_ok_iff.1 hreference]
    · cases h
  · rintro rfl
    exact readOperation_rawOperation operation

/-- Operations are read exactly from what they are written as. -/
theorem mapM_readOperation_eq_ok_iff {raws : List RawOperation}
    {operations : List CompiledOperation} :
    raws.mapM readOperation = .ok operations ↔ raws = operations.map rawOperation :=
  mapM_eq_ok_iff_eq_map fun _ _ => readOperation_eq_ok_iff

variable {given : Arguments} {result : Except Error Batch} {table : TokenTable}
  {deposits : List Amount} {operations : List CompiledOperation}

/-- Once there are entries, it decides whether they are a table. -/
theorem batchOfArguments_of_entries {entries : List Descriptor}
    (hentries : given.1 = entries.map (·.bytes.toList)) :
    batchOfArguments given = (TokenTable.ofEntries entries).mapError Error.decode >>= fun table =>
      given.2.1.mapM readDeposit >>= fun deposits =>
        given.2.2.mapM readOperation >>= fun operations =>
          (Batch.ofParts table deposits operations).mapError .batch := by
  rw [batchOfArguments, Descriptor.mapM_ofList_eq_ok_iff.2 hentries]
  rfl

/-- Once there is a table, the deposits decide. -/
theorem batchOfArguments_of_table (htable : table.WellFormed)
    (hentries : given.1 = table.entries.map (·.bytes.toList)) :
    batchOfArguments given = given.2.1.mapM readDeposit >>= fun deposits =>
      given.2.2.mapM readOperation >>= fun operations =>
        (Batch.ofParts table deposits operations).mapError .batch := by
  rw [batchOfArguments_of_entries hentries, TokenTable.ofEntries_eq_ok_iff.2 ⟨htable, rfl⟩]
  rfl

/-- Once there are deposits as well, the operations decide. -/
theorem batchOfArguments_of_deposits (htable : table.WellFormed)
    (hentries : given.1 = table.entries.map (·.bytes.toList))
    (hdeposits : given.2.1 = deposits.map Amount.signExtension) :
    batchOfArguments given = given.2.2.mapM readOperation >>= fun operations =>
      (Batch.ofParts table deposits operations).mapError .batch := by
  rw [batchOfArguments_of_table htable hentries, mapM_readDeposit_eq_ok_iff.2 hdeposits]
  rfl

/-- Once all parts are read, it decides whether they fit each other. -/
theorem batchOfArguments_of_parts (htable : table.WellFormed)
    (hentries : given.1 = table.entries.map (·.bytes.toList))
    (hdeposits : given.2.1 = deposits.map Amount.signExtension)
    (hoperations : given.2.2 = operations.map rawOperation) :
    batchOfArguments given = (Batch.ofParts table deposits operations).mapError .batch := by
  rw [batchOfArguments_of_deposits htable hentries hdeposits,
    mapM_readOperation_eq_ok_iff.2 hoperations]
  rfl

/-! ## Answers -/

/-- The answer to arguments of which all parts are read is listed. -/
theorem outcome_of_parts (htable : table.WellFormed)
    (hentries : given.1 = table.entries.map (·.bytes.toList))
    (hdeposits : given.2.1 = deposits.map Amount.signExtension)
    (hoperations : given.2.2 = operations.map rawOperation) :
    Outcome given ((Batch.ofParts table deposits operations).mapError .batch) := by
  cases hparts : Batch.ofParts table deposits operations with
  | error error =>
      exact .parts htable hentries hdeposits hoperations (Batch.ofParts_eq_error_iff.1 hparts)
  | ok batch =>
      have hbatch := Batch.wellFormed_of_ofParts htable hparts
      obtain ⟨rfl, -, -⟩ := Batch.ofParts_eq_ok_iff.1 hparts
      exact .decoded hbatch hentries hdeposits hoperations

/-- The answer to arguments is listed. -/
theorem outcome_batchOfArguments (given : Arguments) : Outcome given (batchOfArguments given) := by
  -- stage by stage: a failure is an answer, a success tells what a part of the arguments is
  cases hentries : given.1.mapM Descriptor.ofList with
  | error error =>
      obtain ⟨before, entry, after, heq, hbefore, hentry⟩ := mapM_eq_error_iff.1 hentries
      obtain ⟨hlength, rfl⟩ := Descriptor.ofList_eq_error_iff.1 hentry
      simp only [Descriptor.exists_ofList_iff] at hbefore
      rw [batchOfArguments, hentries]
      exact .entryLength heq hbefore hlength
  | ok entries =>
      have hgiven := Descriptor.mapM_ofList_eq_ok_iff.1 hentries
      cases hread : TokenTable.ofEntries entries with
      | error error =>
          rw [batchOfArguments_of_entries hgiven, hread]
          exact .table hgiven (TokenTable.ofEntries_eq_error_iff.1 hread)
      | ok table =>
          obtain ⟨htable, rfl⟩ := TokenTable.ofEntries_eq_ok_iff.1 hread
          rw [batchOfArguments_of_table htable hgiven]
          cases hdeposits : given.2.1.mapM readDeposit with
          | error error =>
              obtain ⟨before, word, after, heq, hbefore, hword⟩ := mapM_eq_error_iff.1 hdeposits
              obtain ⟨hrange, rfl⟩ := readDeposit_eq_error_iff.1 hword
              simp only [readDeposit_eq_ok_iff] at hbefore
              exact .depositOutOfRange htable hgiven heq hbefore hrange
          | ok deposits =>
              have hwords := mapM_readDeposit_eq_ok_iff.1 hdeposits
              cases hoperations : given.2.2.mapM readOperation with
              | error error =>
                  obtain ⟨before, raw, after, heq, hbefore, hraw⟩ :=
                    mapM_eq_error_iff.1 hoperations
                  obtain ⟨hlength, rfl⟩ := readOperation_eq_error_iff.1 hraw
                  simp only [exists_readOperation_iff] at hbefore
                  exact .referenceLength htable hgiven hwords heq hbefore hlength
              | ok operations =>
                  exact outcome_of_parts htable hgiven hwords
                    (mapM_readOperation_eq_ok_iff.1 hoperations)

/-- No other answer is listed. -/
theorem Outcome.batchOfArguments_eq (h : Outcome given result) :
    batchOfArguments given = result := by
  -- what stands before the fault passes its stage, so that the run comes as far as the fault
  cases h with
  | entryLength heq hbefore hlength =>
      have hfault := Descriptor.ofList_eq_error_iff.2 ⟨hlength, rfl⟩
      simp only [← Descriptor.exists_ofList_iff] at hbefore
      rw [batchOfArguments, mapM_eq_error_iff.2 ⟨_, _, _, heq, hbefore, hfault⟩]
      rfl
  | table hentries hrefused =>
      rw [batchOfArguments_of_entries hentries, TokenTable.ofEntries_eq_error_iff.2 hrefused]
      rfl
  | depositOutOfRange htable hentries heq hbefore hrange =>
      have hfault := readDeposit_eq_error_iff.2 ⟨hrange, rfl⟩
      simp only [← readDeposit_eq_ok_iff] at hbefore
      rw [batchOfArguments_of_table htable hentries,
        mapM_eq_error_iff.2 ⟨_, _, _, heq, hbefore, hfault⟩]
      rfl
  | referenceLength htable hentries hdeposits heq hbefore hlength =>
      have hfault := readOperation_eq_error_iff.2 ⟨hlength, rfl⟩
      simp only [← exists_readOperation_iff] at hbefore
      rw [batchOfArguments_of_deposits htable hentries hdeposits,
        mapM_eq_error_iff.2 ⟨_, _, _, heq, hbefore, hfault⟩]
      rfl
  | parts htable hentries hdeposits hoperations hrefused =>
      rw [batchOfArguments_of_parts htable hentries hdeposits hoperations,
        Batch.ofParts_eq_error_iff.2 hrefused]
      rfl
  | decoded hbatch hentries hdeposits hoperations =>
      rw [batchOfArguments_of_parts hbatch.table hentries hdeposits hoperations, hbatch.ofParts]
      rfl

/-! ## Calls -/

/-- Arguments that are not too long are read as the batch that they make, or refused like them. -/
theorem decode_ofArguments_of_lt_sizeBound (h : (region given).length < Abi.sizeBound) :
    decode (ofArguments given) = batchOfArguments given := by
  rw [decode, arguments_ofArguments h]
  rfl

/-- However long the arguments of a call are, no others are read from it. -/
theorem decode_ofArguments_of_lt_count (h : (region given).length < Bytes.count 32) :
    decode (ofArguments given) = .error .malformedArguments ∨
      decode (ofArguments given) = batchOfArguments given := by
  have htoken : tokenForm.ReadsOnly := Abi.Form.list_readsOnly Abi.Form.bytes_readsOnly
  have hdeposit : depositForm.ReadsOnly := Abi.Form.list_readsOnly (Abi.Form.word_readsOnly _)
  have hoperation : operationForm.ReadsOnly :=
    Abi.Form.list_readsOnly (Abi.Form.triple_readsOnly Abi.Form.bytes_readsOnly
      (Abi.Form.list_readsOnly (Abi.Form.word_readsOnly _)) Abi.Form.bytes_readsOnly)
  show decode (selector.toList ++ region given) = _ ∨ decode (selector.toList ++ region given) = _
  rw [decode_selector_append (region_ne_nil given)]
  cases hread : Abi.Form.readThree tokenForm depositForm operationForm (region given) with
  | none => exact .inl rfl
  | some read =>
      rw [Abi.Form.eq_of_readThree htoken hdeposit hoperation List.prefix_rfl h hread]
      exact .inr rfl

/-- Less than four bytes are too short. -/
theorem decode_of_length_lt {bytes : List UInt8} (h : bytes.length < 4) :
    decode bytes = .error (.tooShort bytes.length) := by
  rw [decode, arguments, if_pos h]
  rfl

/-- Four bytes that are not those of the method are reported. -/
theorem decode_of_take_ne {bytes : List UInt8} (hlength : 4 ≤ bytes.length)
    (h : bytes.take 4 ≠ selector.toList) :
    decode bytes = .error (.selectorMismatch (bytes.take 4)) := by
  rw [decode, arguments, if_neg (Nat.not_lt.2 hlength), if_pos h]
  rfl

/-- A value of an unexpected type is never met. -/
theorem Untyped.decode_ne_unexpectedValue (bytes : List UInt8) (field : String) :
    Untyped.decode bytes ≠ .error (.unexpectedValue field) := by
  rw [Untyped.decode_eq]
  cases Calldata.decode bytes <;> simp [Except.mapError]

/-- The first stage that fails decides the answer to the call with given arguments, of which longer
ones than can be read are malformed at worst. Other bytes are refused for their number or their
first four, and no bytes hold a value of an unexpected type. -/
theorem decode_eq_iff_outcome :
    (∀ given, (region given).length < Abi.sizeBound →
      ∀ result, decode (ofArguments given) = result ↔ Outcome given result) ∧
    (∀ given, (region given).length < Bytes.count 32 →
      decode (ofArguments given) = .error .malformedArguments ∨
        ∀ result, decode (ofArguments given) = result ↔ Outcome given result) ∧
    (∀ bytes : List UInt8, bytes.length < 4 → decode bytes = .error (.tooShort bytes.length)) ∧
    (∀ bytes : List UInt8, 4 ≤ bytes.length → bytes.take 4 ≠ selector.toList →
      decode bytes = .error (.selectorMismatch (bytes.take 4))) ∧
    ∀ bytes, Untyped.decode bytes = (decode bytes).mapError .known ∧
      ∀ field, Untyped.decode bytes ≠ .error (.unexpectedValue field) := by
  have hiff : ∀ given result, batchOfArguments given = result ↔ Outcome given result := by
    intro given result
    constructor
    · rintro rfl
      exact outcome_batchOfArguments given
    · exact Outcome.batchOfArguments_eq
  refine ⟨?_, ?_, ?_, ?_, ?_⟩
  · intro given hlength
    rw [decode_ofArguments_of_lt_sizeBound hlength]
    exact hiff given
  · intro given hlength
    rcases decode_ofArguments_of_lt_count hlength with h | h
    · exact .inl h
    · rw [h]
      exact .inr (hiff given)
  · exact fun bytes => decode_of_length_lt
  · exact fun bytes => decode_of_take_ne
  · exact fun bytes => ⟨Untyped.decode_eq bytes, Untyped.decode_ne_unexpectedValue bytes⟩

/-- A deposit just above all amounts, for no token and before an operation with no reference. -/
def strayDeposit : Arguments :=
  ([], [BigEndian.encode 32 0x80000000000000000000000000000000], [([], [], [])])

/-- Four bytes that all differ from those of the method. -/
def otherMethod : List UInt8 :=
  selector.toList.map (· + 1)

/-- The stray deposit is reported before the reference, and other bytes in front before all
arguments. -/
theorem decode_eq_iff_outcome_strayDeposit :
    (region strayDeposit).length < Abi.sizeBound ∧
      decode (ofArguments strayDeposit) = .error (.depositOutOfRange
        (BigEndian.encode 32 0x80000000000000000000000000000000)) ∧
      (decode (ofArguments strayDeposit) = .error .malformedArguments ∨
        ∀ result, decode (ofArguments strayDeposit) = result ↔ Outcome strayDeposit result) ∧
      decode [1, 2] = .error (.tooShort 2) ∧
      otherMethod.length = 4 ∧
      decode otherMethod = .error (.selectorMismatch otherMethod) := by
  have hlength : (region strayDeposit).length < Abi.sizeBound := by decide +kernel
  have hrange : Amount.ofWord? (BigEndian.encode 32 0x80000000000000000000000000000000) = none := by
    decide +kernel
  have houtcome : Outcome strayDeposit (.error (.depositOutOfRange
      (BigEndian.encode 32 0x80000000000000000000000000000000))) :=
    .depositOutOfRange TokenTable.empty_wellFormed rfl (List.nil_append _).symm (by simp)
      (Amount.ofWord?_eq_none_iff.1 hrange)
  have hfour : otherMethod.length = 4 := by simp [otherMethod]
  have htake : otherMethod.take 4 = otherMethod := List.take_of_length_le hfour.le
  have hother : otherMethod ≠ selector.toList := by
    obtain ⟨byte, rest, hselector⟩ :=
      List.exists_cons_of_length_eq_add_one selector.length_toList
    rw [otherMethod, hselector]
    simp
  obtain ⟨hcall, hlong, hshort, hmethod, -⟩ := decode_eq_iff_outcome
  have hmismatch := hmethod otherMethod hfour.ge (by rwa [htake])
  rw [htake] at hmismatch
  exact ⟨hlength, (hcall _ hlength _).2 houtcome,
    hlong _ (Nat.lt_trans hlength Abi.sizeBound_lt), hshort [1, 2] (by decide), hfour, hmismatch⟩

end VaultBatch.Calldata
