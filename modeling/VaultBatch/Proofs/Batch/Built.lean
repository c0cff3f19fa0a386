import VaultBatch.Batch.Json
import VaultBatch.Proofs.Calldata.Arguments
import VaultBatch.Proofs.Compile.Packing
import VaultBatch.Proofs.Json.Yields

/-!
# Batches however they are built

A batch is built by compiling operations, by putting parts together, or by reading untrusted text
or calldata. `Batch.built_iff_wellFormed` says that these are just the well-formed batches, so that
no way of building one forgets a check, and `Batch.wellFormed_of_built` what follows for whoever
gets a batch without knowing where it comes from.
-/

namespace VaultBatch

open Json Json.Reader

/-! ## Compiled batches -/

/-- An instruction packed against a table of few enough tokens names a place in it. -/
theorem Instruction.indexed_inTable {tokens : List Token} {instruction : Instruction}
    (h : instruction.token ∈ tokens) (hsize : tokens.toFinset.card ≤ maxTableSize) :
    (PackedInstruction.pack (instruction.indexed tokens)).InTable
      (TokenTable.ofTokens tokens).size := by
  refine ⟨_, PackedInstruction.decode_pack _, ?_⟩
  rw [toNat_indexed h hsize]
  exact TokenTable.rank_lt_size h

/-- Operations whose tokens fit a table are compiled to a well-formed batch. -/
theorem Batch.ofOperations_wellFormed {operations : List Operation}
    (hsize : (Operation.allTokens operations).toFinset.card ≤ maxTableSize) :
    (ofOperations operations).WellFormed where
  table := TokenTable.ofTokens_wellFormed _
  deposits := List.length_replicate
  operations := by
    intro compiled hcompiled packed hpacked
    obtain ⟨operation, hoperation, rfl⟩ := List.mem_map.1 hcompiled
    obtain ⟨instruction, hinstruction, rfl⟩ := List.mem_map.1 hpacked
    have htoken : instruction.token ∈ Operation.allTokens operations :=
      Operation.mem_allTokens.2 ⟨operation, hoperation, instruction, hinstruction, rfl⟩
    exact Instruction.indexed_inTable htoken hsize

/-! ## Batches from text -/

namespace TokenTable

/-- A table that is read is well-formed. -/
theorem yields_readJson : readJson.Yields WellFormed := by
  refine yields_then ?_
  intro entries
  split
  · next table htable => exact yields_pure (ofEntries_eq_ok_iff.1 htable).1
  · exact yields_fail _

/-- Tables are built of tokens or read from descriptors, whether they come from calldata or from
text. -/
inductive Built : TokenTable → Prop where
  | empty : Built empty
  | ofTokens (tokens : List Token) : Built (ofTokens tokens)
  | ofEntries {entries : List Descriptor} {table : TokenTable} (h : ofEntries entries = .ok table) :
    Built table
  | parsed {text : String} {table : TokenTable} (h : parse readJson text = .ok table) :
    Built table

/-- The tables that can be built are the well-formed ones. -/
theorem built_iff_wellFormed {table : TokenTable} : table.Built ↔ table.WellFormed := by
  constructor
  · intro h
    cases h with
    | empty => exact empty_wellFormed
    | ofTokens tokens => exact ofTokens_wellFormed tokens
    | ofEntries h => exact (ofEntries_eq_ok_iff.1 h).1
    | parsed h => exact of_parse yields_readJson h
  · intro h
    exact .ofEntries (ofEntries_eq_ok_iff.2 ⟨h, rfl⟩)

end TokenTable

namespace Batch

/-- A table that has been read is well-formed. -/
def Fields.Sound (fields : Fields) : Prop :=
  ∀ table ∈ fields.table, table.WellFormed

/-- Reading a member keeps the table that has been read well-formed. -/
theorem Fields.Sound.yields_readField {fields : Fields} (h : fields.Sound) (name : String) :
    (readField fields name).Yields Sound := by
  unfold readField
  split
  · refine yields_then fun _ => yields_bind (yields_member TokenTable.yields_readJson) ?_
    intro table htable
    refine yields_pure ?_
    intro read hread
    cases hread
    exact htable
  · exact yields_then fun _ => yields_then fun _ => yields_pure h
  · exact yields_then fun _ => yields_then fun _ => yields_pure h
  · exact yields_then fun _ => yields_pure h

/-- Members that have been read make parts with a well-formed table. -/
theorem Fields.Sound.yields_ofFields {fields : Fields} (h : fields.Sound) :
    (ofFields fields).Yields fun parts => parts.1.WellFormed := by
  refine yields_bind (yields_required h) ?_
  intro table htable
  exact yields_then fun _ => yields_then fun _ => yields_pure htable

/-- Parts in the order of their places have a well-formed table. -/
theorem yields_readPlaces : readPlaces.Yields fun parts => parts.1.WellFormed := by
  refine yields_bind (yields_element TokenTable.yields_readJson) ?_
  intro table htable
  exact yields_then fun _ => yields_then fun _ => yields_pure htable

/-- The members of a text may stand in any order and be anything, but they make a well-formed
batch or none. -/
theorem yields_readJson : readJson.Yields WellFormed := by
  have hparts : (record (.record "BatchParts") readField {} ofFields readPlaces).Yields
      fun parts => parts.1.WellFormed := by
    refine yields_record (Q := Fields.Sound) ?_ ?_ ?_ yields_readPlaces
    · intro table htable
      cases htable
    · intro fields name h
      exact h.yields_readField name
    · intro fields h
      exact h.yields_ofFields
  -- deposits and instructions are arbitrary up to here; only `ofParts` looks at them
  refine yields_bind hparts ?_
  intro parts htable
  dsimp only
  split
  · next batch hbatch => exact yields_pure (wellFormed_of_ofParts htable hbatch)
  · exact yields_fail _

/-! ## All batches -/

/-- Batches are empty, compiled under any limits, put together of any parts, or read from any text
or calldata. -/
inductive Built : Batch → Prop where
  | empty : Built empty
  | compiled {limits : Limits} {operations : List Operation} {batch : Batch}
    (h : compile limits operations = .ok batch) : Built batch
  | assembled {table : TokenTable} {deposits : List Amount} {operations : List CompiledOperation}
    {batch : Batch} (htable : table.Built) (h : ofParts table deposits operations = .ok batch) :
    Built batch
  | parsed {text : String} {batch : Batch} (h : parse readJson text = .ok batch) : Built batch
  | decoded {bytes : List UInt8} {batch : Batch} (h : Calldata.decode bytes = .ok batch) :
    Built batch

variable {batch : Batch}

/-- However a batch is built, it is well-formed. -/
theorem Built.wellFormed (h : batch.Built) : batch.WellFormed := by
  cases h with
  | empty => exact empty_wellFormed
  | compiled h =>
      obtain ⟨rfl, -, -, -, hsize⟩ := compile_eq_ok_iff.1 h
      exact ofOperations_wellFormed hsize
  | assembled htable h => exact wellFormed_of_ofParts (TokenTable.built_iff_wellFormed.1 htable) h
  | parsed h => exact of_parse yields_readJson h
  | decoded h =>
      obtain ⟨arguments, -, hbatch⟩ := bind_eq_ok_iff.1 h
      exact Calldata.wellFormed_of_batchOfArguments hbatch

/-- The batches that can be built are the well-formed ones. -/
theorem built_iff_wellFormed : batch.Built ↔ batch.WellFormed := by
  constructor
  · intro h
    exact h.wellFormed
  · intro h
    exact .assembled (TokenTable.built_iff_wellFormed.2 h.table) h.ofParts

/-- However a batch is built, it is well-formed. Its descriptors are read as its tokens, all its
operations can be read, and its parts make it again. -/
theorem wellFormed_of_built (h : batch.Built) :
    batch.WellFormed ∧
      List.Forall₂ (fun entry token => entry.token = .ok token) batch.table.entries
        batch.table.tokens ∧
      (∀ operation ∈ batch.operations,
        ∃ instructions, operation.decodeInstructions = .ok instructions) ∧
      ofParts batch.table batch.deposits batch.operations = .ok batch := by
  have hwf := h.wellFormed
  refine ⟨hwf, ?_, ?_, hwf.ofParts⟩
  · exact mapM_eq_ok_iff.1 hwf.table.mapM_token
  · intro operation hoperation
    exact hwf.decodeInstructions hoperation

/-- A batch that moves a coin, with a deposit and with bytes to pass on. -/
def coinMove : Batch :=
  let coin : Token := ⟨.erc20, .zero, ⟨BigEndian.encode 20 0x11⟩⟩
  ⟨.ofTokens [coin], [⟨-1, by decide, by decide⟩],
    [⟨coin.pack, [.pack ⟨0, .atMost, ⟨-7, by decide, by decide⟩⟩], [1, 2, 3]⟩]⟩

/-- Arguments that are read as this batch although they are not written like that: the last byte of
padding is a one, and a byte follows. -/
def looseRegion : List UInt8 :=
  (Calldata.region (Calldata.rawArguments coinMove)).dropLast ++ [1, 255]

/-- The loose arguments are read as the batch. -/
theorem decode_looseRegion :
    Calldata.decode (Calldata.selector.toList ++ looseRegion) = .ok coinMove := by
  rw [Calldata.decode_selector_append (by decide +kernel)]
  decide +kernel

/-- The batch that is read from the loose arguments is well-formed. -/
theorem wellFormed_of_looseRegion :
    Calldata.decode (Calldata.selector.toList ++ looseRegion) = .ok coinMove ∧
      coinMove.WellFormed ∧
      List.Forall₂ (fun entry token => entry.token = .ok token) coinMove.table.entries
        coinMove.table.tokens ∧
      (∀ operation ∈ coinMove.operations,
        ∃ instructions, operation.decodeInstructions = .ok instructions) ∧
      ofParts coinMove.table coinMove.deposits coinMove.operations = .ok coinMove :=
  ⟨decode_looseRegion, wellFormed_of_built (.decoded decode_looseRegion)⟩

end Batch
end VaultBatch
