import VaultBatch.Proofs.Calldata.RoundTrip
import VaultBatch.Proofs.Compile.Meaning
import VaultBatch.Proofs.Reference

/-!
# Calldata tells what was asked for

Two lists of operations that compile have the same calldata exactly if they ask for the same: as many
operations, with the same instructions in the same order, on references that are the same or cannot
be told apart by their descriptors (`Calldata.encode_eq_encode_iff`). Two facts carry the proof: a
call is read as one batch only, and a table names the tokens of its places, so that packed
instructions can be compared when their tables are the same.
-/

namespace VaultBatch

/-- The same instructions in the same order, on references that are the same or collide. -/
structure Operation.Alike (operation other : Operation) : Prop where
  instructions : operation.instructions = other.instructions
  reference : operation.reference.Alike other.reference

variable {tokens : List Token}

/-- Instructions packed against one table are the same if their bytes are. -/
theorem Instruction.eq_of_pack_eq {instruction other : Instruction}
    (hsize : tokens.toFinset.card ≤ maxTableSize) (hinstruction : instruction.token ∈ tokens)
    (hother : other.token ∈ tokens)
    (h : PackedInstruction.pack (instruction.indexed tokens) = .pack (other.indexed tokens)) :
    instruction = other := by
  have hread := congrArg PackedInstruction.decode h
  rw [PackedInstruction.decode_pack, PackedInstruction.decode_pack] at hread
  have hindexed : instruction.indexed tokens = other.indexed tokens := Except.ok.inj hread
  have hrank : instruction.token.rank tokens = other.token.rank tokens := by
    rw [← toNat_indexed hinstruction hsize, ← toNat_indexed hother hsize, hindexed]
  have htoken : instruction.token = other.token := by
    have hget := TokenTable.get?_rank hinstruction
    rw [hrank, TokenTable.get?_rank hother] at hget
    exact (Option.some.inj hget).symm
  have hkind : instruction.kind = other.kind := congrArg IndexedInstruction.kind hindexed
  have hamount : instruction.amount = other.amount := congrArg IndexedInstruction.amount hindexed
  cases instruction
  cases other
  cases htoken
  cases hkind
  cases hamount
  rfl

namespace Operation

/-- Operations that are alike are packed the same. -/
theorem Alike.packed_eq {operation other : Operation} (h : operation.Alike other) :
    operation.packed tokens = other.packed tokens := by
  rw [packed, packed, h.instructions, Reference.pack_eq_pack_iff.2 h.reference]

/-- Operations packed against one table are alike if what they are packed to is the same. -/
theorem alike_of_packed_eq {operation other : Operation}
    (hsize : tokens.toFinset.card ≤ maxTableSize)
    (hoperation : ∀ token ∈ operation.tokens, token ∈ tokens)
    (hother : ∀ token ∈ other.tokens, token ∈ tokens)
    (h : operation.packed tokens = other.packed tokens) : operation.Alike other where
  instructions := by
    have hpacked := congrArg CompiledOperation.instructions h
    rw [← List.forall₂_eq_eq_eq]
    refine forall₂_of_map_eq_map hpacked ?_
    intro first hfirst second hsecond hbytes
    exact Instruction.eq_of_pack_eq hsize (hoperation _ (List.mem_map_of_mem hfirst))
      (hother _ (List.mem_map_of_mem hsecond)) hbytes
  reference := Reference.pack_eq_pack_iff.1 (congrArg CompiledOperation.reference h)

/-- Operations that are alike, one by one, move the same tokens. -/
theorem allTokens_eq_of_alike {given other : List Operation} (h : List.Forall₂ Alike given other) :
    allTokens given = allTokens other := by
  induction h with
  | nil => rfl
  | cons halike _ ih =>
      simp only [allTokens, List.flatMap_cons, tokens, halike.instructions] at ih ⊢
      rw [ih]

end Operation

namespace Batch

variable {given other : List Operation}

/-- Lists of operations stand for the same batch exactly if their operations are alike one by
one. -/
theorem ofOperations_eq_iff
    (hsize : (Operation.allTokens given).toFinset.card ≤ maxTableSize) :
    ofOperations given = ofOperations other ↔ List.Forall₂ Operation.Alike given other := by
  constructor
  · intro h
    have htable : TokenTable.ofTokens (Operation.allTokens given) =
        TokenTable.ofTokens (Operation.allTokens other) := congrArg Batch.table h
    -- the tables are the same, so both lists are packed against the tokens of the first one
    have hmem : ∀ token,
        token ∈ Operation.allTokens given ↔ token ∈ Operation.allTokens other := by
      intro token
      rw [← TokenTable.mem_tokens_ofTokens, htable, TokenTable.mem_tokens_ofTokens]
    have hoperations : given.map (Operation.packed (Operation.allTokens given)) =
        other.map (Operation.packed (Operation.allTokens given)) := by
      calc given.map (Operation.packed (Operation.allTokens given))
        _ = other.map (Operation.packed (Operation.allTokens other)) :=
            congrArg Batch.operations h
        _ = other.map (Operation.packed (Operation.allTokens given)) := by
            rw [Operation.packed_congr hmem]
    refine forall₂_of_map_eq_map hoperations ?_
    intro first hfirst second hsecond hpacked
    refine Operation.alike_of_packed_eq hsize ?_ ?_ hpacked
    · intro token htoken
      exact List.mem_flatMap.2 ⟨first, hfirst, htoken⟩
    · intro token htoken
      exact (hmem token).2 (List.mem_flatMap.2 ⟨second, hsecond, htoken⟩)
  · intro h
    have hoperations : given.map (Operation.packed (Operation.allTokens other)) =
        other.map (Operation.packed (Operation.allTokens other)) := by
      rw [← List.forall₂_eq_eq_eq, List.forall₂_map_left_iff, List.forall₂_map_right_iff]
      exact h.imp fun _ _ halike => halike.packed_eq
    rw [ofOperations, ofOperations, Operation.allTokens_eq_of_alike h, hoperations]

end Batch

namespace Calldata

/-- Well-formed batches that are written as the same call are the same, if the arguments are not too
long. -/
theorem eq_of_region_eq {batch other : Batch} (h : batch.WellFormed) (hother : other.WellFormed)
    (hlength : (region (rawArguments batch)).length < Abi.sizeBound)
    (heq : region (rawArguments batch) = region (rawArguments other)) : batch = other := by
  have hbatch := decode_ofArguments h hlength
  have hdecode := decode_ofArguments hother (heq ▸ hlength)
  have hcall : ofArguments (rawArguments batch) = ofArguments (rawArguments other) :=
    congrArg (selector.toList ++ ·) heq
  rw [hcall, hdecode] at hbatch
  exact (Except.ok.inj hbatch).symm

/-- Operations that compile are written as the same call exactly if they are alike one by one. -/
theorem encode_eq_encode_iff {limits otherLimits : Limits} {given other : List Operation}
    {batch otherBatch : Batch} (h : Batch.compile limits given = .ok batch)
    (hother : Batch.compile otherLimits other = .ok otherBatch) :
    ∃ block otherBlock, encode batch = .ok (selector.toList ++ block) ∧
      encode otherBatch = .ok (selector.toList ++ otherBlock) ∧
      (block.length < Abi.sizeBound →
        (selector.toList ++ block = selector.toList ++ otherBlock ↔
          List.Forall₂ Operation.Alike given other)) := by
  obtain ⟨rfl, -, -, -, hsize⟩ := Batch.compile_eq_ok_iff.1 h
  obtain ⟨rfl, -, -, -, hotherSize⟩ := Batch.compile_eq_ok_iff.1 hother
  have hwf := Batch.ofOperations_wellFormed hsize
  have hotherWf := Batch.ofOperations_wellFormed hotherSize
  refine ⟨_, _, encode_eq hwf, encode_eq hotherWf, ?_⟩
  intro hlength
  rw [List.append_cancel_left_eq, ← Batch.ofOperations_eq_iff hsize]
  constructor
  · intro heq
    exact eq_of_region_eq hwf hotherWf hlength heq
  · intro heq
    rw [heq]

/-- The operations of `sharedToken`, but the first one acts on the coin instead of the pool at its
address. -/
def coinForPool : List Operation :=
  let coin : Token := ⟨.erc20, .zero, ⟨BigEndian.encode 20 0x11⟩⟩
  Batch.sharedToken.modifyHead fun operation => { operation with reference := .token coin }

/-- A pool and the coin at its address are written the same, under different limits. -/
theorem encode_eq_encode_coinForPool :
    Batch.compile ⟨2, some 2, none⟩ Batch.sharedToken =
        .ok (Batch.ofOperations Batch.sharedToken) ∧
      Batch.compile {} coinForPool = .ok (Batch.ofOperations coinForPool) ∧
      ∃ block otherBlock,
        encode (Batch.ofOperations Batch.sharedToken) = .ok (selector.toList ++ block) ∧
        encode (Batch.ofOperations coinForPool) = .ok (selector.toList ++ otherBlock) ∧
        block.length < Abi.sizeBound ∧
        List.Forall₂ Operation.Alike Batch.sharedToken coinForPool ∧
        selector.toList ++ block = selector.toList ++ otherBlock := by
  have hcompile : Batch.compile ⟨2, some 2, none⟩ Batch.sharedToken =
      .ok (Batch.ofOperations Batch.sharedToken) := rfl
  have hother : Batch.compile {} coinForPool = .ok (Batch.ofOperations coinForPool) := rfl
  have halike : List.Forall₂ Operation.Alike Batch.sharedToken coinForPool :=
    .cons ⟨rfl, .targetToken (.pool _)⟩ (.cons ⟨rfl, .refl _⟩ .nil)
  obtain ⟨block, otherBlock, hblock, hotherBlock, hiff⟩ := encode_eq_encode_iff hcompile hother
  have hlength : block.length < Abi.sizeBound := by
    have hregion : encode (Batch.ofOperations Batch.sharedToken) =
        .ok (selector.toList ++ region (rawArguments (Batch.ofOperations Batch.sharedToken))) := rfl
    rw [hregion] at hblock
    rw [← List.append_cancel_left (Except.ok.inj hblock)]
    decide +kernel
  exact ⟨hcompile, hother, block, otherBlock, hblock, hotherBlock, hlength, halike,
    (hiff hlength).2 halike⟩

end Calldata
end VaultBatch
