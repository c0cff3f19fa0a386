import VaultBatch.Proofs.TokenTable.WellFormed

/-!
# Descriptors that are no table

Descriptors are refused as a table for the first pair of neighbours that does not ascend, or, if
all of them ascend, for the first one that is no token (`ofEntries_eq_error_iff`). A descent is
therefore reported before a descriptor of no token, wherever the two stand.
-/

namespace VaultBatch.TokenTable

/-- The faults that descriptors are refused for. -/
inductive Refused (entries : List Descriptor) : DecodeError → Prop where
  /-- The second of the first two neighbours that do not ascend is reported with its place. -/
  | descent {before : List Descriptor} {previous entry : Descriptor} {after : List Descriptor} :
      entries = before ++ previous :: entry :: after →
      Ascending (before ++ [previous]) →
      compare previous entry ≠ .lt →
      Refused entries
        (.encoding (.malformed .tokenTable entry.hex (.notAscending (before.length + 1))))
  /-- The first descriptor whose first byte is that of no standard is reported by this byte. -/
  | unknownKind {before : List Descriptor} {entry : Descriptor} {after : List Descriptor} :
      Ascending entries →
      entries = before ++ entry :: after →
      (∀ other ∈ before, other.discriminant.toNat ≤ TokenKind.maxByte) →
      TokenKind.maxByte < entry.discriminant.toNat →
      Refused entries (.encoding (.unknownKind .tokenKind (toString entry.discriminant.toNat)))

/-- Entries in front of which a smaller one is put ascend as before. -/
theorem ascending_cons_iff {first second : Descriptor} {rest : List Descriptor}
    (h : compare first second = .lt) :
    Ascending (first :: second :: rest) ↔ Ascending (second :: rest) := by
  rw [ascending_iff_isChain, ascending_iff_isChain, List.isChain_cons_cons, and_iff_right h]

/-- The first descent is the first pair of neighbours that does not ascend. -/
theorem firstDescent_eq_some_iff {start place : Nat} {entries : List Descriptor}
    {entry : Descriptor} :
    firstDescent start entries = some (place, entry) ↔
      ∃ before previous after, entries = before ++ previous :: entry :: after ∧
        Ascending (before ++ [previous]) ∧ compare previous entry ≠ .lt ∧
        place = start + before.length + 1 := by
  fun_induction firstDescent start entries with
  | case1 start a b rest hlt ih =>
      rw [ih]
      constructor
      · intro h
        obtain ⟨before, previous, after, heq, hascending, hdescent, hplace⟩ := h
        -- the entries before the descent still ascend with one more in front of them
        refine ⟨a :: before, previous, after, by rw [heq]; rfl, ?_, hdescent, ?_⟩
        · cases before <;> cases heq <;> exact (ascending_cons_iff hlt).2 hascending
        · rw [hplace, List.length_cons]
          omega
      · intro h
        obtain ⟨before, previous, after, heq, hascending, hdescent, hplace⟩ := h
        cases before with
        | nil =>
            cases heq
            exact absurd hlt hdescent
        | cons first before =>
            obtain ⟨rfl, htail⟩ := List.cons.inj heq
            refine ⟨before, previous, after, htail, ?_, hdescent, ?_⟩
            · exact (List.pairwise_cons.1 hascending).2
            · rw [hplace, List.length_cons]
              omega
  | case2 start a b rest hdescent =>
      constructor
      · intro h
        cases h
        exact ⟨[], a, rest, rfl, List.pairwise_singleton _ _, hdescent, rfl⟩
      · intro h
        obtain ⟨before, previous, after, heq, hascending, -, rfl⟩ := h
        cases before with
        | nil =>
            cases heq
            rfl
        | cons first before =>
            -- a pair further on would have the descending pair before it
            cases before <;> cases heq <;>
              exact absurd ((List.pairwise_cons.1 hascending).1 b (by simp)) hdescent
  | case3 start entries hshort =>
      constructor
      · intro h
        cases h
      · intro h
        obtain ⟨before, previous, after, rfl, -⟩ := h
        rcases before with _ | ⟨first, _ | ⟨second, before⟩⟩
        · exact (hshort previous entry after rfl).elim
        · exact (hshort first previous (entry :: after) rfl).elim
        · exact (hshort first second _ rfl).elim

/-- Descriptors are refused as a table exactly for the listed faults. -/
theorem ofEntries_eq_error_iff {entries : List Descriptor} {error : DecodeError} :
    ofEntries entries = .error error ↔ Refused entries error := by
  constructor
  · intro h
    -- the order of all entries is looked at before any of them is read
    unfold ofEntries at h
    split at h
    · next place entry hdescent =>
      cases h
      obtain ⟨before, previous, after, heq, hascending, hnot, rfl⟩ :=
        firstDescent_eq_some_iff.1 hdescent
      rw [Nat.zero_add]
      exact .descent heq hascending hnot
    · next hnone =>
      rcases bind_eq_error_iff.1 h with h | ⟨_, -, ⟨⟩⟩
      obtain ⟨before, entry, after, heq, hbefore, hentry⟩ := mapM_eq_error_iff.1 h
      obtain ⟨hkind, rfl⟩ := Descriptor.token_eq_error_iff.1 hentry
      refine .unknownKind (firstDescent_eq_none_iff.1 hnone) heq ?_ hkind
      intro other hother
      exact Descriptor.exists_token_iff.1 (hbefore other hother)
  · intro h
    unfold ofEntries
    cases h with
    | descent heq hascending hdescent =>
        rw [firstDescent_eq_some_iff.2 ⟨_, _, _, heq, hascending, hdescent, rfl⟩, Nat.zero_add]
    | unknownKind hascending heq hbefore hkind =>
        rw [firstDescent_eq_none_iff.2 hascending]
        refine bind_eq_error_iff.2 (.inl (mapM_eq_error_iff.2
          ⟨_, _, _, heq, ?_, Descriptor.token_eq_error_iff.2 ⟨hkind, rfl⟩⟩))
        intro other hother
        exact Descriptor.exists_token_iff.2 (hbefore other hother)

end VaultBatch.TokenTable
