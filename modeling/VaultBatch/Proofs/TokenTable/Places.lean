import VaultBatch.Proofs.TokenTable.WellFormed

/-!
# Places in token tables

The place of a token in a table is its rank: how many of the distinct tokens come before it in the
order of descriptors (`idxOf_ofTokens`). `getElem?_places` says that the map of a table finds each
descriptor at its place, and `places_ofTokens` puts the two together.
-/

namespace VaultBatch

/-- How many of the distinct tokens of a list come before a token in the order of descriptors. -/
def Token.rank (tokens : List Token) (token : Token) : Nat :=
  {other ∈ tokens.toFinset | compare other.pack token.pack = .lt}.card

/-- A rank depends on the distinct tokens alone. -/
theorem Token.rank_congr {tokens others : List Token}
    (h : ∀ token, token ∈ tokens ↔ token ∈ others) (token : Token) :
    token.rank tokens = token.rank others := by
  rw [rank, rank, List.toFinset.ext_iff.2 h]

/-- A token that comes before another one has a smaller rank. -/
theorem Token.rank_lt_rank {tokens : List Token} {first second : Token} (h : first ∈ tokens)
    (hlt : compare first.pack second.pack = .lt) : first.rank tokens < second.rank tokens := by
  refine Finset.card_lt_card (Finset.ssubset_iff_of_subset ?_ |>.2 ⟨first, ?_, ?_⟩)
  · intro other hother
    rw [Finset.mem_filter] at hother ⊢
    exact ⟨hother.1, Std.TransCmp.lt_trans hother.2 hlt⟩
  · rw [Finset.mem_filter, List.mem_toFinset]
    exact ⟨h, hlt⟩
  · rw [Finset.mem_filter, Std.ReflOrd.compare_self]
    rintro ⟨_, hself⟩
    cases hself

namespace TokenTable

/-- In a list that goes up, a value stands behind just the values below it. -/
theorem idxOf_eq_countP {α : Type} [DecidableEq α] {below : α → α → Prop} [DecidableRel below]
    (hasymm : ∀ a b, below a b → ¬ below b a) {values : List α} (h : values.Pairwise below)
    {value : α} (hvalue : value ∈ values) :
    values.idxOf value = values.countP (below · value) := by
  induction values with
  | nil => cases hvalue
  | cons first rest ih =>
      obtain ⟨hfirst, hrest⟩ := List.pairwise_cons.1 h
      by_cases heq : first = value
      · subst heq
        have hself : ¬ below first first := fun hlt => hasymm _ _ hlt hlt
        have hnone : rest.countP (below · first) = 0 := by
          rw [List.countP_eq_zero]
          intro other hother
          simpa using hasymm _ _ (hfirst other hother)
        rw [List.idxOf_cons_self, List.countP_cons, hnone]
        simp [hself]
      · have hmem : value ∈ rest := by simpa [Ne.symm heq] using hvalue
        rw [List.idxOf_cons_ne _ heq, ih hrest hmem, List.countP_cons]
        simp [hfirst value hmem]

/-- The place of a token is its rank. -/
theorem idxOf_ofTokens {tokens : List Token} {token : Token} (h : token ∈ tokens) :
    (ofTokens tokens).tokens.idxOf token = token.rank tokens := by
  have hwf := ofTokens_wellFormed tokens
  have hsorted : (ofTokens tokens).tokens.Pairwise fun a b => compare a.pack b.pack = .lt := by
    have hentries := hwf.ascending
    rw [Ascending, hwf.entries_eq] at hentries
    exact List.pairwise_map.1 hentries
  have hasymm : ∀ a b : Token, compare a.pack b.pack = .lt → ¬ compare b.pack a.pack = .lt := by
    intro a b hlt
    rw [Std.OrientedOrd.eq_swap (a := b.pack), hlt]
    decide
  rw [idxOf_eq_countP hasymm hsorted (mem_tokens_ofTokens.2 h), List.countP_eq_length_filter,
    ← List.toFinset_card_of_nodup (hwf.nodup.filter _), Token.rank]
  congr 1
  ext other
  simp

/-- Each token stands at its rank. -/
theorem get?_rank {tokens : List Token} {token : Token} (h : token ∈ tokens) :
    (ofTokens tokens).get? (token.rank tokens) = some token := by
  rw [← idxOf_ofTokens h]
  exact List.getElem?_idxOf (mem_tokens_ofTokens.2 h)

/-- The rank of a token is a place in the table. -/
theorem rank_lt_size {tokens : List Token} {token : Token} (h : token ∈ tokens) :
    token.rank tokens < (ofTokens tokens).size := by
  rw [(ofTokens_wellFormed tokens).size_eq]
  exact (List.getElem?_eq_some_iff.1 (get?_rank h)).1

/-- A place is the rank of the token that stands there. -/
theorem rank_eq_of_get? {tokens : List Token} {token : Token} {place : Nat}
    (h : (ofTokens tokens).get? place = some token) : token.rank tokens = place := by
  have hmem : token ∈ tokens := mem_tokens_ofTokens.1 (List.mem_of_getElem? h)
  obtain ⟨hlt, -⟩ := List.getElem?_eq_some_iff.1 h
  refine ((List.getElem?_inj hlt (ofTokens_wellFormed tokens).nodup).1 ?_).symm
  exact h.trans (get?_rank hmem).symm

/-- The map of a table finds a descriptor where it stands. -/
theorem getElem?_places {table : TokenTable} (h : Ascending table.entries) {d : Descriptor}
    {place : Nat} : table.places[d]? = some place ↔ table.entries[place]? = some d := by
  have hdistinct : table.entries.zipIdx.Pairwise fun a b => ¬ compare a.1 b.1 = .eq := by
    have hne : table.entries.Pairwise fun a b => ¬ compare a b = .eq := by
      refine h.imp ?_
      intro a b hlt
      rw [hlt]
      decide
    rw [← List.zipIdx_map_fst 0 table.entries] at hne
    exact List.pairwise_map.1 hne
  -- a key that stood twice would be found at its last place; an ascending table has none
  have hplace : ∀ place, table.entries[place]? = some d → table.places[d]? = some place := by
    intro place hat
    exact Std.TreeMap.getElem?_ofList_of_mem Std.ReflOrd.compare_self hdistinct
      (List.mem_zipIdx_iff_getElem?.2 hat)
  constructor
  · intro hfound
    have hkey : d ∈ table.places := by
      rw [Std.TreeMap.mem_iff_isSome_getElem?, hfound]
      rfl
    rw [places, Std.TreeMap.mem_ofList, List.zipIdx_map_fst, List.contains_iff_mem] at hkey
    obtain ⟨other, hother⟩ := List.mem_iff_getElem?.1 hkey
    rw [hplace other hother] at hfound
    cases hfound
    exact hother
  · exact hplace place

/-- The map of a table made of tokens finds each token at its rank. -/
theorem places_ofTokens {tokens : List Token} {token : Token} (h : token ∈ tokens) :
    (ofTokens tokens).places[token.pack]? = some (token.rank tokens) := by
  have hwf := ofTokens_wellFormed tokens
  rw [getElem?_places hwf.ascending, hwf.entries_eq, List.getElem?_map]
  exact congrArg (Option.map Token.pack) (get?_rank h)

end TokenTable
end VaultBatch
