import VaultBatch.Proofs.Token.Order
import VaultBatch.Proofs.TokenTable.Refusal

/-!
# Tables as canonical forms

A table is the canonical form of a set of tokens: there is one table for each set
(`ofTokens_eq_ofTokens_iff`), and making a table of its own tokens changes nothing. The well-formed
tables are therefore those that are made of tokens (`wellFormed_iff_ofTokens_eq`), and the
descriptors that are read as a table are those of such a table, no more and no fewer.
`ofTokens_canonical` and `ofEntries_canonical` put this together for the two ways to a table.
-/

namespace VaultBatch.TokenTable

variable {table : TokenTable} {tokens others : List Token} {entries : List Descriptor}

/-- The tokens of a well-formed table ascend as its descriptors do. -/
theorem WellFormed.tokens_pairwise (h : table.WellFormed) :
    table.tokens.Pairwise fun a b => compare a b = .lt := by
  have hentries := h.ascending
  rw [Ascending, h.entries_eq, List.pairwise_map] at hentries
  refine hentries.imp ?_
  intro a b hlt
  rwa [← Token.compare_pack]

/-- The well-formed tables are the tables of their own tokens. -/
theorem wellFormed_iff_ofTokens_eq : table.WellFormed ↔ ofTokens table.tokens = table := by
  constructor
  · intro h
    exact (ofTokens_wellFormed table.tokens).eq_of_mem_iff h fun token => mem_tokens_ofTokens
  · intro h
    rw [← h]
    exact ofTokens_wellFormed table.tokens

/-- There is one table for each set of tokens. -/
theorem ofTokens_eq_ofTokens_iff :
    ofTokens tokens = ofTokens others ↔ ∀ token, token ∈ tokens ↔ token ∈ others := by
  constructor
  · intro h token
    rw [← mem_tokens_ofTokens, h, mem_tokens_ofTokens]
  · exact ofTokens_congr

/-- A token stands once in a table that is made with it, and else nowhere. -/
theorem count_tokens_ofTokens (token : Token) :
    (ofTokens tokens).tokens.count token = if token ∈ tokens then 1 else 0 := by
  rw [(ofTokens_wellFormed tokens).nodup.count]
  simp only [mem_tokens_ofTokens]

/-- The table of a list of tokens holds them in ascending order and once each, beside their
descriptors, which ascend as well. It tells sets of tokens apart and nothing else: lists with the
same tokens have the same table, whatever their order and repetitions, and a table is that of its
own tokens. -/
theorem ofTokens_canonical (tokens : List Token) :
    (ofTokens tokens).tokens.Pairwise (fun a b => compare a b = .lt) ∧
    (∀ token, (ofTokens tokens).tokens.count token = if token ∈ tokens then 1 else 0) ∧
    (ofTokens tokens).entries = (ofTokens tokens).tokens.map Token.pack ∧
    (ofTokens tokens).entries.Pairwise (fun a b => compare a b = .lt) ∧
    (∀ others, ofTokens tokens = ofTokens others ↔ ∀ token, token ∈ tokens ↔ token ∈ others) ∧
    ofTokens (ofTokens tokens).tokens = ofTokens tokens := by
  have hwf := ofTokens_wellFormed tokens
  refine ⟨hwf.tokens_pairwise, count_tokens_ofTokens, hwf.entries_eq, hwf.ascending, ?_, ?_⟩
  · exact fun others => ofTokens_eq_ofTokens_iff
  · exact wellFormed_iff_ofTokens_eq.1 hwf

/-! ## Descriptors of a table -/

/-- A table is made of descriptors exactly if they are the entries of a table of tokens. -/
theorem exists_ofEntries_iff_ofTokens :
    (∃ table, ofEntries entries = .ok table) ↔ ∃ tokens, (ofTokens tokens).entries = entries := by
  constructor
  · rintro ⟨table, h⟩
    obtain ⟨hwf, rfl⟩ := ofEntries_eq_ok_iff.1 h
    exact ⟨table.tokens, by rw [wellFormed_iff_ofTokens_eq.1 hwf]⟩
  · rintro ⟨tokens, h⟩
    exact ⟨ofTokens tokens, ofEntries_eq_ok_iff.2 ⟨ofTokens_wellFormed tokens, h⟩⟩

/-- Descriptors are those of a table exactly if neighbours ascend and each starts with the byte of
a standard. -/
theorem exists_ofEntries_iff_isChain :
    (∃ table, ofEntries entries = .ok table) ↔
      entries.IsChain (fun a b => compare a b = .lt) ∧
        ∀ entry ∈ entries, entry.discriminant.toNat ≤ TokenKind.maxByte := by
  constructor
  · rintro ⟨table, h⟩
    obtain ⟨hwf, rfl⟩ := ofEntries_eq_ok_iff.1 h
    refine ⟨ascending_iff_isChain.1 hwf.ascending, ?_⟩
    intro entry hentry
    rw [hwf.entries_eq] at hentry
    obtain ⟨token, -, rfl⟩ := List.mem_map.1 hentry
    exact token.kind.byte_le
  · rintro ⟨hchain, hkinds⟩
    cases hread : ofEntries entries with
    | ok table => exact ⟨table, rfl⟩
    | error error =>
        cases ofEntries_eq_error_iff.1 hread with
        | descent heq _ hdescent =>
            have hascending := ascending_iff_isChain.2 hchain
            rw [heq] at hascending
            have hpair := (List.pairwise_append.1 hascending).2.1
            exact absurd ((List.pairwise_cons.1 hpair).1 _ List.mem_cons_self) hdescent
        | unknownKind _ heq _ hkind =>
            have hentry := hkinds _ (heq ▸ List.mem_append_right _ List.mem_cons_self)
            exact absurd hentry (Nat.not_le.2 hkind)

/-- Descriptors are read as a table exactly if they are those of a table made of tokens, which is if
neighbours ascend and each starts with the byte of a standard. The table has just these descriptors
and is made of its own tokens. They are refused for the first descent with its place, or, if there
is none, for the first descriptor that starts with another byte. -/
theorem ofEntries_canonical (entries : List Descriptor) :
    ((∃ table, ofEntries entries = .ok table) ↔ ∃ tokens, (ofTokens tokens).entries = entries) ∧
    ((∃ table, ofEntries entries = .ok table) ↔
      entries.IsChain (fun a b => compare a b = .lt) ∧
        ∀ entry ∈ entries, entry.discriminant.toNat ≤ 2) ∧
    (∀ table, ofEntries entries = .ok table ↔
      table.entries = entries ∧ ofTokens table.tokens = table) ∧
    ∀ error, ofEntries entries = .error error ↔ Refused entries error := by
  refine ⟨exists_ofEntries_iff_ofTokens, exists_ofEntries_iff_isChain, ?_, ?_⟩
  · intro table
    rw [ofEntries_eq_ok_iff, wellFormed_iff_ofTokens_eq, and_comm]
  · exact fun error => ofEntries_eq_error_iff

end VaultBatch.TokenTable
