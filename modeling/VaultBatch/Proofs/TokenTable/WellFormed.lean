import Mathlib.Data.Finset.Card
import VaultBatch.Proofs.Descriptor
import VaultBatch.TokenTable

/-!
# Well-formed token tables

In a well-formed table the descriptors ascend and are the packed tokens, place by place. Tables
made of tokens are well-formed (`ofTokens_wellFormed`) and hold just these tokens
(`mem_tokens_ofTokens`); the tables read back from descriptors are the well-formed ones
(`ofEntries_eq_ok_iff`). In a well-formed table `places` finds a descriptor where it stands.
-/

namespace VaultBatch.TokenTable

/-- Each descriptor is below all that follow it. -/
def Ascending (entries : List Descriptor) : Prop :=
  entries.Pairwise fun a b => compare a b = .lt

/-- It is enough to compare neighbours. -/
theorem ascending_iff_isChain {entries : List Descriptor} :
    Ascending entries ↔ entries.IsChain fun a b => compare a b = .lt := by
  have : Trans (fun a b : Descriptor => compare a b = .lt) (fun a b => compare a b = .lt)
      (fun a b => compare a b = .lt) := ⟨Std.TransCmp.lt_trans⟩
  exact List.isChain_iff_pairwise.symm

/-- The descriptors of a table ascend and are its tokens packed. -/
structure WellFormed (table : TokenTable) : Prop where
  ascending : Ascending table.entries
  entries_eq : table.entries = table.tokens.map Token.pack

/-- Entries that ascend are different. -/
theorem Ascending.nodup {entries : List Descriptor} (h : Ascending entries) : entries.Nodup := by
  refine List.Pairwise.imp ?_ h
  rintro a b hlt rfl
  rw [Std.ReflOrd.compare_self] at hlt
  cases hlt

namespace WellFormed

variable {table : TokenTable}

/-- A well-formed table has a place for each token. -/
theorem size_eq (h : table.WellFormed) : table.size = table.tokens.length := by
  rw [size, h.entries_eq, List.length_map]

/-- The tokens of a well-formed table are different. -/
theorem nodup (h : table.WellFormed) : table.tokens.Nodup := by
  have hentries := h.ascending.nodup
  rw [h.entries_eq] at hentries
  exact hentries.of_map _

/-- The descriptors are read as the tokens. -/
theorem mapM_token (h : table.WellFormed) :
    table.entries.mapM Descriptor.token = .ok table.tokens :=
  Descriptor.mapM_token_eq_ok_iff.2 h.entries_eq

/-- There is one well-formed table of the same tokens. -/
theorem eq_of_mem_iff {other : TokenTable} (h : table.WellFormed) (hother : other.WellFormed)
    (hmem : ∀ token, token ∈ table.tokens ↔ token ∈ other.tokens) : table = other := by
  have hasymm : ∀ a b : Descriptor, a ∈ table.entries → b ∈ other.entries →
      compare a b = .lt → compare b a = .lt → a = b := by
    intro a b _ _ hlt hgt
    rw [Std.OrientedOrd.eq_swap (a := b), hlt] at hgt
    cases hgt
  have htokens : table.tokens.Perm other.tokens :=
    (List.perm_ext_iff_of_nodup h.nodup hother.nodup).2 hmem
  have hperm : table.entries.Perm other.entries := by
    rw [h.entries_eq, hother.entries_eq]
    exact htokens.map Token.pack
  have hentries : table.entries = other.entries :=
    hperm.eq_of_pairwise hasymm h.ascending hother.ascending
  have hread := h.mapM_token
  rw [hentries, hother.mapM_token] at hread
  cases table
  cases other
  cases hentries
  cases hread
  rfl

end WellFormed

/-- The empty table is well-formed. -/
theorem empty_wellFormed : empty.WellFormed :=
  ⟨List.Pairwise.nil, rfl⟩

/-! ## Tables of tokens -/

/-- The tokens of a list by descriptor. -/
def index (tokens : List Token) : Std.TreeMap Descriptor Token :=
  .ofList (tokens.map fun token => (token.pack, token))

/-- Inserting packed tokens keeps every token under its own descriptor. -/
theorem getElem?_insertMany {tokens : List Token} {map : Std.TreeMap Descriptor Token}
    (hmap : ∀ (d : Descriptor) (token : Token), map[d]? = some token → d = token.pack)
    {d : Descriptor} {token : Token}
    (h : (map.insertMany (tokens.map fun token => (token.pack, token)))[d]? = some token) :
    d = token.pack := by
  induction tokens generalizing map with
  | nil => exact hmap d token (by simpa using h)
  | cons first rest ih =>
      rw [List.map_cons, Std.TreeMap.insertMany_cons] at h
      refine ih ?_ h
      intro d' token' hfound
      rw [Std.TreeMap.getElem?_insert] at hfound
      split at hfound
      · next heq =>
        cases hfound
        exact (Std.LawfulEqOrd.eq_of_compare heq).symm
      · exact hmap d' token' hfound

/-- The index of a list finds just the tokens of the list, each under its own descriptor. -/
theorem mem_index {tokens : List Token} {d : Descriptor} {token : Token} :
    (d, token) ∈ (index tokens).toList ↔ token ∈ tokens ∧ d = token.pack := by
  have hown : ∀ {d : Descriptor} {token : Token}, (index tokens)[d]? = some token →
      d = token.pack := by
    intro d token h
    have hempty : ∀ (d : Descriptor) (token : Token),
        (∅ : Std.TreeMap Descriptor Token)[d]? = some token → d = token.pack := by simp
    exact getElem?_insertMany hempty h
  rw [Std.TreeMap.mem_toList_iff_getElem?_eq_some]
  -- of two tokens with one descriptor the map keeps the later one, but packing is injective, so
  -- these are the same token
  have hmem : ∀ d, d ∈ index tokens ↔ ∃ token ∈ tokens, token.pack = d := by
    intro d
    rw [index, Std.TreeMap.mem_ofList, List.map_map]
    simp
  constructor
  · intro h
    obtain ⟨other, hother, hpack⟩ := (hmem d).1 (by
      rw [Std.TreeMap.mem_iff_isSome_getElem?, h]
      rfl)
    have hd := hown h
    rw [hd] at hpack
    exact ⟨Token.pack_injective hpack ▸ hother, hd⟩
  · intro h
    obtain ⟨htoken, rfl⟩ := h
    have hsome := (hmem token.pack).2 ⟨token, htoken, rfl⟩
    rw [Std.TreeMap.mem_iff_isSome_getElem?] at hsome
    obtain ⟨other, hother⟩ := Option.isSome_iff_exists.1 hsome
    rw [hother, Token.pack_injective (hown hother)]

/-- A table made of tokens is well-formed. -/
theorem ofTokens_wellFormed (tokens : List Token) : (ofTokens tokens).WellFormed where
  ascending := List.pairwise_map.2 Std.TreeMap.ordered_keys_toList
  entries_eq := by
    show (index tokens).toList.map (·.1) = ((index tokens).toList.map (·.2)).map Token.pack
    rw [List.map_map]
    refine List.map_congr_left ?_
    rintro ⟨d, token⟩ h
    exact (mem_index.1 h).2

/-- A table made of tokens holds just these tokens. -/
@[simp] theorem mem_tokens_ofTokens {tokens : List Token} {token : Token} :
    token ∈ (ofTokens tokens).tokens ↔ token ∈ tokens := by
  show token ∈ (index tokens).toList.map (·.2) ↔ token ∈ tokens
  rw [List.mem_map]
  constructor
  · intro h
    obtain ⟨⟨d, other⟩, h, rfl⟩ := h
    exact (mem_index.1 h).1
  · intro h
    exact ⟨(token.pack, token), mem_index.2 ⟨h, rfl⟩, rfl⟩

/-- Order and repetitions make no difference to a table. -/
theorem ofTokens_congr {tokens others : List Token}
    (h : ∀ token, token ∈ tokens ↔ token ∈ others) : ofTokens tokens = ofTokens others := by
  refine (ofTokens_wellFormed tokens).eq_of_mem_iff (ofTokens_wellFormed others) ?_
  intro token
  rw [mem_tokens_ofTokens, mem_tokens_ofTokens]
  exact h token

/-- A table made of tokens has as many places as there are distinct tokens. -/
theorem size_ofTokens (tokens : List Token) : (ofTokens tokens).size = tokens.toFinset.card := by
  have hwf := ofTokens_wellFormed tokens
  rw [hwf.size_eq, ← List.toFinset_card_of_nodup hwf.nodup]
  congr 1
  ext token
  simp

/-! ## Tables read from descriptors -/

/-- Descriptors without a descent ascend. -/
theorem firstDescent_eq_none_iff {place : Nat} {entries : List Descriptor} :
    firstDescent place entries = none ↔ Ascending entries := by
  rw [ascending_iff_isChain]
  fun_induction firstDescent place entries with
  | case1 place a b rest hlt ih => simp [ih, hlt]
  | case2 place a b rest hlt => simp [hlt]
  | case3 entries _ hshort =>
      match entries, hshort with
      | [], _ => simp
      | [_], _ => simp
      | a :: b :: rest, hshort => exact False.elim (hshort a b rest rfl)

/-- The tables that are read from descriptors are the well-formed tables with these
descriptors. -/
theorem ofEntries_eq_ok_iff {entries : List Descriptor} {table : TokenTable} :
    ofEntries entries = .ok table ↔ table.WellFormed ∧ table.entries = entries := by
  obtain ⟨tokens, own⟩ := table
  unfold ofEntries
  constructor
  · intro h
    split at h
    · cases h
    · next hascending =>
      obtain ⟨read, htokens, h⟩ := bind_eq_ok_iff.1 h
      cases h
      have hentries := Descriptor.mapM_token_eq_ok_iff.1 htokens
      exact ⟨⟨firstDescent_eq_none_iff.1 hascending, hentries⟩, rfl⟩
  · intro h
    obtain ⟨hwf, rfl⟩ := h
    rw [firstDescent_eq_none_iff.2 hwf.ascending]
    exact bind_eq_ok_iff.2 ⟨tokens, hwf.mapM_token, rfl⟩

end VaultBatch.TokenTable
