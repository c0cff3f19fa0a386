import Mathlib.Data.List.Flatten
import Mathlib.Order.Fin.Basic
import VaultBatch.Proofs.Compile.Meaning

/-!
# Compiling one list after another

The table of more tokens holds the tokens of a smaller table in the same order, with others between
them: `TokenTable.inclusion` tells where a place of the smaller table has moved. It is strictly
increasing, and packing against the larger table renumbers the places of instructions by it and
changes nothing else. Limits that allow a list allow its parts, so when two lists compile one after
the other they also compile on their own, and the batch of both joins their batches
(`Batch.compile_append`).
-/

namespace VaultBatch

/-! ## Renumbering -/

variable {m n : Nat}

/-- The instruction names the place to which the place of another one has moved, and is the same
otherwise. -/
structure IndexedInstruction.Renumbered (f : Fin m → Fin n) (old new : IndexedInstruction) :
    Prop where
  index : ∃ place : Fin m, old.index.toNat = place ∧ new.index.toNat = f place
  kind : new.kind = old.kind
  amount : new.amount = old.amount

/-- The instructions of an operation are those of another one, renumbered one by one, and the rest
is the same. -/
structure CompiledOperation.Renumbered (f : Fin m → Fin n) (old new : CompiledOperation) :
    Prop where
  reference : new.reference = old.reference
  data : new.data = old.data
  instructions : ∃ before after, old.decodeInstructions = .ok before ∧
    new.decodeInstructions = .ok after ∧
    List.Forall₂ (IndexedInstruction.Renumbered f) before after

namespace TokenTable

variable {part whole : List Token}

/-- Where the token at a place of a table stands in the table of more tokens. -/
def inclusion (h : ∀ token ∈ part, token ∈ whole) (place : Fin (ofTokens part).size) :
    Fin (ofTokens whole).size :=
  have hplace : place < (ofTokens part).tokens.length :=
    (ofTokens_wellFormed part).size_eq ▸ place.isLt
  ⟨(ofTokens part).tokens[place].rank whole,
    rank_lt_size (h _ (mem_tokens_ofTokens.1 (List.getElem_mem hplace)))⟩

/-- A token moves from its rank among the fewer tokens to its rank among the more. -/
theorem inclusion_rank (h : ∀ token ∈ part, token ∈ whole) {token : Token} (htoken : token ∈ part) :
    (inclusion h ⟨token.rank part, rank_lt_size htoken⟩ : Nat) = token.rank whole := by
  obtain ⟨hlt, hget⟩ := List.getElem?_eq_some_iff.1 (get?_rank htoken)
  exact congrArg (Token.rank whole) hget

/-- Places keep their order. -/
theorem inclusion_strictMono (h : ∀ token ∈ part, token ∈ whole) : StrictMono (inclusion h) := by
  intro first second hlt
  have hwf := ofTokens_wellFormed part
  have hsecond : second < (ofTokens part).tokens.length := hwf.size_eq ▸ second.isLt
  have hfirst : first < (ofTokens part).tokens.length := Nat.lt_trans hlt hsecond
  -- the tokens at ascending places have ascending descriptors, and these decide the rank
  have hascending := hwf.ascending
  rw [Ascending, hwf.entries_eq, List.pairwise_map, List.pairwise_iff_getElem] at hascending
  have hmem : (ofTokens part).tokens[first] ∈ whole :=
    h _ (mem_tokens_ofTokens.1 (List.getElem_mem hfirst))
  exact Token.rank_lt_rank hmem (hascending first second hfirst hsecond hlt)

/-- A table holds the tokens of two others, in order and each once. -/
structure IsUnion (first second table : TokenTable) : Prop where
  wellFormed : table.WellFormed
  mem_tokens : ∀ token, token ∈ table.tokens ↔ token ∈ first.tokens ∨ token ∈ second.tokens

/-- The table of two lists of tokens is the union of their tables. -/
theorem isUnion_ofTokens_append (first second : List Token) :
    IsUnion (ofTokens first) (ofTokens second) (ofTokens (first ++ second)) where
  wellFormed := ofTokens_wellFormed _
  mem_tokens := by
    intro token
    simp only [mem_tokens_ofTokens, List.mem_append]

end TokenTable

variable {part whole : List Token}

/-- Fewer tokens are fewer distinct tokens. -/
theorem Token.card_le_card (h : ∀ token ∈ part, token ∈ whole) :
    part.toFinset.card ≤ whole.toFinset.card := by
  refine Finset.card_le_card ?_
  intro token htoken
  rw [List.mem_toFinset] at htoken ⊢
  exact h token htoken

/-- Among more tokens, an instruction names the place where its token has moved. -/
theorem Instruction.indexed_renumbered (h : ∀ token ∈ part, token ∈ whole)
    (hsize : whole.toFinset.card ≤ maxTableSize) {instruction : Instruction}
    (hinstruction : instruction.token ∈ part) :
    (instruction.indexed part).Renumbered (TokenTable.inclusion h) (instruction.indexed whole) where
  index := by
    have hpart : part.toFinset.card ≤ maxTableSize := (Token.card_le_card h).trans hsize
    refine ⟨⟨instruction.token.rank part, TokenTable.rank_lt_size hinstruction⟩, ?_, ?_⟩
    · exact toNat_indexed hinstruction hpart
    · rw [TokenTable.inclusion_rank h hinstruction]
      exact toNat_indexed (h _ hinstruction) hsize
  kind := rfl
  amount := rfl

/-- Packing an operation against a larger table renumbers the places. -/
theorem Operation.packed_renumbered (h : ∀ token ∈ part, token ∈ whole)
    (hsize : whole.toFinset.card ≤ maxTableSize) {operation : Operation}
    (hoperation : ∀ token ∈ operation.tokens, token ∈ part) :
    (operation.packed part).Renumbered (TokenTable.inclusion h) (operation.packed whole) where
  reference := rfl
  data := rfl
  instructions := by
    refine ⟨_, _, decodeInstructions_packed operation, decodeInstructions_packed operation, ?_⟩
    rw [List.forall₂_map_left_iff, List.forall₂_map_right_iff, List.forall₂_same]
    intro instruction hinstruction
    exact Instruction.indexed_renumbered h hsize (hoperation _ (List.mem_map_of_mem hinstruction))

/-- Among more tokens, operations are packed the same, one by one, but for the places that have
moved. -/
theorem Operation.forall₂_renumbered {operations : List Operation}
    (h : ∀ token ∈ allTokens operations, token ∈ whole)
    (hsize : whole.toFinset.card ≤ maxTableSize) :
    List.Forall₂ (CompiledOperation.Renumbered (TokenTable.inclusion h))
      (operations.map (packed (allTokens operations))) (operations.map (packed whole)) := by
  rw [List.forall₂_map_left_iff, List.forall₂_map_right_iff, List.forall₂_same]
  intro operation hoperation
  refine packed_renumbered h hsize ?_
  intro token htoken
  exact List.mem_flatMap.2 ⟨operation, hoperation, htoken⟩

/-! ## Parts of a list -/

/-- Fewer operations move fewer tokens, in the same order. -/
theorem Operation.allTokens_sublist {fewer operations : List Operation}
    (h : fewer.Sublist operations) : (allTokens fewer).Sublist (allTokens operations) :=
  h.flatMap _

namespace Batch

/-- What is left of operations that compile also compiles. -/
theorem compile_of_sublist {limits : Limits} {fewer operations : List Operation} {batch : Batch}
    (h : compile limits operations = .ok batch) (hfewer : fewer.Sublist operations) :
    compile limits fewer = .ok (ofOperations fewer) := by
  obtain ⟨-, hoperations, hinstructions, htokens, hsize⟩ := compile_eq_ok_iff.1 h
  have hcard := Token.card_le_card (fun _ => (Operation.allTokens_sublist hfewer).mem)
  refine compile_eq_ok_iff.2 ⟨rfl, ?_, ?_, hcard.trans htokens, hcard.trans hsize⟩
  · intro limit hlimit
    exact hfewer.length_le.trans (hoperations limit hlimit)
  · intro limit hlimit operation hoperation
    exact hinstructions limit hlimit operation (hfewer.mem hoperation)

/-- A batch does what two others do, one after the other: its table is the union of theirs, and its
operations are theirs with the places renumbered. -/
structure Joins (first second batch : Batch) : Prop where
  table : first.table.IsUnion second.table batch.table
  operations : ∃ (f : Fin first.table.size → Fin batch.table.size)
    (g : Fin second.table.size → Fin batch.table.size), StrictMono f ∧ StrictMono g ∧
      ∃ front back, batch.operations = front ++ back ∧
        List.Forall₂ (CompiledOperation.Renumbered f) first.operations front ∧
        List.Forall₂ (CompiledOperation.Renumbered g) second.operations back

variable {given other : List Operation}

/-- The batch of two lists of operations does what the batches of the two do one after the other. -/
theorem ofOperations_append_joins
    (hsize : (Operation.allTokens (given ++ other)).toFinset.card ≤ maxTableSize) :
    Joins (ofOperations given) (ofOperations other) (ofOperations (given ++ other)) where
  table := by
    have htokens : Operation.allTokens (given ++ other) =
        Operation.allTokens given ++ Operation.allTokens other := List.flatMap_append
    show (TokenTable.ofTokens _).IsUnion (TokenTable.ofTokens _) (TokenTable.ofTokens _)
    rw [htokens]
    exact TokenTable.isUnion_ofTokens_append _ _
  operations := by
    have hgiven : ∀ token ∈ Operation.allTokens given,
        token ∈ Operation.allTokens (given ++ other) :=
      fun _ => (Operation.allTokens_sublist (List.sublist_append_left given other)).mem
    have hother : ∀ token ∈ Operation.allTokens other,
        token ∈ Operation.allTokens (given ++ other) :=
      fun _ => (Operation.allTokens_sublist (List.sublist_append_right given other)).mem
    exact ⟨TokenTable.inclusion hgiven, TokenTable.inclusion hother,
      TokenTable.inclusion_strictMono hgiven, TokenTable.inclusion_strictMono hother,
      _, _, List.map_append, Operation.forall₂_renumbered hgiven hsize,
      Operation.forall₂_renumbered hother hsize⟩

/-- Operations that bring no new token leave those before them as they are. -/
theorem take_operations_append
    (h : ∀ token ∈ Operation.allTokens other, token ∈ Operation.allTokens given) :
    (ofOperations (given ++ other)).operations.take given.length =
      (ofOperations given).operations := by
  have hmem : ∀ token, token ∈ Operation.allTokens (given ++ other) ↔
      token ∈ Operation.allTokens given := by
    intro token
    rw [Operation.allTokens, List.flatMap_append, List.mem_append]
    exact or_iff_left_of_imp (h token)
  show ((given ++ other).map _).take given.length = given.map _
  rw [Operation.packed_congr hmem, List.map_append, List.take_left' (List.length_map _)]

/-- Lists that compile one after the other compile on their own, and their batches are joined by the
batch of both. If the second list has no token of its own, the operations of the first one are
packed the same. -/
theorem compile_append {limits : Limits} {given other : List Operation} {batch : Batch}
    (h : compile limits (given ++ other) = .ok batch) :
    ∃ first second, compile limits given = .ok first ∧ compile limits other = .ok second ∧
      Joins first second batch ∧
      ((∀ token ∈ Operation.allTokens other, token ∈ Operation.allTokens given) →
        batch.operations.take given.length = first.operations) := by
  obtain ⟨rfl, -, -, -, hsize⟩ := compile_eq_ok_iff.1 h
  refine ⟨ofOperations given, ofOperations other, ?_, ?_, ofOperations_append_joins hsize,
    take_operations_append⟩
  · exact compile_of_sublist h (List.sublist_append_left given other)
  · exact compile_of_sublist h (List.sublist_append_right given other)

/-- An operation on a token that stands between the two of `sharedToken`. -/
def collectibleMove : List Operation :=
  let account : Address := ⟨BigEndian.encode 20 0x11⟩
  [⟨.target (.gauge account),
    [⟨⟨.erc721, .ofBytes (BigEndian.encode 15 9), account⟩, .exactly, .zero⟩]⟩]

/-- A list compiles behind another one that brings a token between its own, and behind itself. -/
theorem compile_append_sharedToken :
    compile ⟨3, some 4, some 2⟩ (sharedToken ++ collectibleMove) =
        .ok (ofOperations (sharedToken ++ collectibleMove)) ∧
      Joins (ofOperations sharedToken) (ofOperations collectibleMove)
        (ofOperations (sharedToken ++ collectibleMove)) ∧
      compile ⟨3, some 4, some 2⟩ (sharedToken ++ sharedToken) =
        .ok (ofOperations (sharedToken ++ sharedToken)) ∧
      (ofOperations (sharedToken ++ sharedToken)).operations.take 2 =
        (ofOperations sharedToken).operations := by
  have hmove : compile ⟨3, some 4, some 2⟩ (sharedToken ++ collectibleMove) =
      .ok (ofOperations (sharedToken ++ collectibleMove)) := rfl
  have htwice : compile ⟨3, some 4, some 2⟩ (sharedToken ++ sharedToken) =
      .ok (ofOperations (sharedToken ++ sharedToken)) := rfl
  obtain ⟨first, second, hfirst, hsecond, hjoins, -⟩ := compile_append hmove
  obtain ⟨again, _, hagain, -, -, htake⟩ := compile_append htwice
  obtain ⟨rfl, -⟩ := compile_eq_ok_iff.1 hfirst
  obtain ⟨rfl, -⟩ := compile_eq_ok_iff.1 hsecond
  obtain ⟨rfl, -⟩ := compile_eq_ok_iff.1 hagain
  exact ⟨hmove, hjoins, htwice, htake fun _ htoken => htoken⟩

end Batch
end VaultBatch
