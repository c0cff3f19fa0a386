import VaultBatch.Proofs.Batch.Built
import VaultBatch.Proofs.Token.Order

/-!
# Looking up tokens

A token is looked up by halving the descriptors, in the map of all places, or by going through the
tokens one after the other. In an ascending table the places are in the order of the descriptors
(`Ascending.compare_eq`), which is what halving relies on. All three ways find a token exactly where
it stands (`WellFormed.indexOf?_eq_some_iff`, `WellFormed.getElem?_places_pack`,
`WellFormed.idxOf?_eq_some_iff`), and so they agree on every table, however it is built
(`lookups_agree`).
-/

namespace VaultBatch.TokenTable

/-- Descriptors of an ascending list are compared as their places. -/
theorem Ascending.compare_eq {entries : List Descriptor} (h : Ascending entries)
    {first second : Nat} {a b : Descriptor} (ha : entries[first]? = some a)
    (hb : entries[second]? = some b) : compare a b = compare first second := by
  obtain ⟨hfirst, rfl⟩ := List.getElem?_eq_some_iff.1 ha
  obtain ⟨hsecond, rfl⟩ := List.getElem?_eq_some_iff.1 hb
  have hlt := List.pairwise_iff_getElem.1 h
  rcases Nat.lt_trichotomy first second with hless | rfl | hgreater
  · rw [Nat.compare_eq_lt.2 hless]
    exact hlt first second hfirst hsecond hless
  · rw [Nat.compare_eq_eq.2 rfl]
    exact Std.ReflOrd.compare_self
  · rw [Nat.compare_eq_gt.2 hgreater, Std.OrientedOrd.eq_swap,
      hlt second first hsecond hfirst hgreater]
    rfl

/-! ## Halving -/

/-- Halving finds a descriptor exactly if it stands within the bounds. -/
theorem search_eq_some_iff {entries : Array Descriptor} (hascending : Ascending entries.toList)
    {key : Descriptor} {low high place : Nat} (hhigh : high ≤ entries.size) :
    search entries key low high = some place ↔
      low ≤ place ∧ place < high ∧ entries[place]? = some key := by
  -- the places that are given up on either side of the middle do not hold the key
  have hcompare : ∀ {middle place : Nat} {entry : Descriptor}, entries[middle]? = some entry →
      entries[place]? = some key → compare entry key = compare middle place := by
    intro middle place entry hentry hkey
    rw [← Array.getElem?_toList] at hentry hkey
    exact hascending.compare_eq hentry hkey
  fun_induction search entries key low high with
  | case1 low high hlt middle hnone =>
      have hmiddle : entries.size ≤ middle := Array.getElem?_eq_none_iff.1 hnone
      omega
  | case2 low high hlt middle entry hentry heq =>
      obtain rfl := Std.LawfulEqOrd.eq_of_compare heq
      constructor
      · intro hfound
        obtain rfl : middle = place := Option.some.inj hfound
        exact ⟨by omega, by omega, hentry⟩
      · intro h
        obtain ⟨-, -, hplace⟩ := h
        rw [hcompare hentry hplace] at heq
        rw [Nat.compare_eq_eq.1 heq]
  | case3 low high hlt middle entry hentry hless ih =>
      refine (ih hhigh).trans ?_
      constructor
      · intro h
        obtain ⟨hlow, hbelow, hplace⟩ := h
        exact ⟨by omega, hbelow, hplace⟩
      · intro h
        obtain ⟨hlow, hbelow, hplace⟩ := h
        rw [hcompare hentry hplace] at hless
        exact ⟨Nat.compare_eq_lt.1 hless, hbelow, hplace⟩
  | case4 low high hlt middle entry hentry hgreater ih =>
      refine (ih (by omega)).trans ?_
      constructor
      · intro h
        obtain ⟨hlow, hbelow, hplace⟩ := h
        exact ⟨hlow, by omega, hplace⟩
      · intro h
        obtain ⟨hlow, hbelow, hplace⟩ := h
        rw [hcompare hentry hplace] at hgreater
        exact ⟨hlow, Nat.compare_eq_gt.1 hgreater, hplace⟩
  | case5 low high hempty =>
      constructor
      · intro hfound
        cases hfound
      · intro h
        obtain ⟨hlow, hbelow, -⟩ := h
        omega

/-! ## Places -/

namespace WellFormed

variable {table : TokenTable} {token : Token} {place : Nat}

/-- A table has the descriptor of a token where it has the token. -/
theorem getElem?_entries_eq_some_iff (h : table.WellFormed) :
    table.entries[place]? = some token.pack ↔ table.get? place = some token := by
  rw [h.entries_eq, List.getElem?_map, Option.map_eq_some_iff]
  constructor
  · intro hother
    obtain ⟨other, hget, hpack⟩ := hother
    rw [← Token.pack_injective hpack]
    exact hget
  · intro hget
    exact ⟨token, hget, rfl⟩

/-- Halving finds a token where it stands. -/
theorem indexOf?_eq_some_iff (h : table.WellFormed) :
    table.indexOf? token = some place ↔ table.get? place = some token := by
  rw [← h.getElem?_entries_eq_some_iff, indexOf?, search_eq_some_iff h.ascending (by simp)]
  constructor
  · intro hfound
    obtain ⟨-, -, hplace⟩ := hfound
    simpa using hplace
  · intro hplace
    obtain ⟨hlt, -⟩ := List.getElem?_eq_some_iff.1 hplace
    exact ⟨Nat.zero_le place, hlt, by simpa using hplace⟩

/-- The map of all places finds a token where it stands. -/
theorem getElem?_places_pack (h : table.WellFormed) :
    table.places[token.pack]? = some place ↔ table.get? place = some token := by
  rw [getElem?_places h.ascending, h.getElem?_entries_eq_some_iff]

/-- Going through the tokens finds a token where it stands. -/
theorem idxOf?_eq_some_iff (h : table.WellFormed) :
    table.tokens.idxOf? token = some place ↔ table.get? place = some token := by
  rw [List.idxOf?_eq_some_iff, get?, List.getElem?_eq_some_iff]
  constructor
  · intro hfound
    obtain ⟨hlt, heq, -⟩ := hfound
    exact ⟨hlt, heq⟩
  · intro hget
    obtain ⟨hlt, heq⟩ := hget
    refine ⟨hlt, heq, ?_⟩
    -- a token that stood earlier as well would stand twice
    intro earlier hearlier hsame
    have hplaces : earlier = place := h.nodup.getElem_inj_iff.1 (hsame.trans heq.symm)
    omega

/-- The tokens of a table are found in the order of their places. -/
theorem exists_indexOf?_compare (h : table.WellFormed) {first second : Token}
    (hfirst : first ∈ table.tokens) (hsecond : second ∈ table.tokens) :
    ∃ i j, table.indexOf? first = some i ∧ table.indexOf? second = some j ∧
      compare i j = compare first second := by
  obtain ⟨i, hi⟩ := List.mem_iff_getElem?.1 hfirst
  obtain ⟨j, hj⟩ := List.mem_iff_getElem?.1 hsecond
  refine ⟨i, j, h.indexOf?_eq_some_iff.2 hi, h.indexOf?_eq_some_iff.2 hj, ?_⟩
  rw [← Token.compare_pack]
  exact (h.ascending.compare_eq (h.getElem?_entries_eq_some_iff.2 hi)
    (h.getElem?_entries_eq_some_iff.2 hj)).symm

end WellFormed

/-- In every table, however it is built, halving the descriptors, the map of all places and going
through the tokens find the same place of a token or none. It is the place where the table has the
token, and of two tokens of the table the smaller one is found first. -/
theorem lookups_agree {table : TokenTable} (h : table.Built) :
    (∀ token, table.indexOf? token = table.places[token.pack]? ∧
      table.indexOf? token = table.tokens.idxOf? token) ∧
    (∀ token place, table.indexOf? token = some place ↔ table.get? place = some token) ∧
    ∀ first ∈ table.tokens, ∀ second ∈ table.tokens, ∃ i j,
      table.indexOf? first = some i ∧ table.indexOf? second = some j ∧
        (i < j ↔ compare first second = .lt) := by
  have hwf := built_iff_wellFormed.1 h
  refine ⟨?_, ?_, ?_⟩
  · intro token
    constructor <;> refine Option.ext fun place => ?_
    · rw [hwf.indexOf?_eq_some_iff, hwf.getElem?_places_pack]
    · rw [hwf.indexOf?_eq_some_iff, hwf.idxOf?_eq_some_iff]
  · exact fun token place => hwf.indexOf?_eq_some_iff
  · intro first hfirst second hsecond
    obtain ⟨i, j, hi, hj, hcompare⟩ := hwf.exists_indexOf?_compare hfirst hsecond
    refine ⟨i, j, hi, hj, ?_⟩
    rw [← hcompare, Nat.compare_eq_lt]

/-- A token of one contract. -/
def ofContract (kind : TokenKind) (id : TokenId) : Token :=
  ⟨kind, id, ⟨BigEndian.encode 20 0x11⟩⟩

/-- Tokens of one contract, not in order and one of them twice. -/
def shuffled : List Token :=
  [ofContract .erc1155 .zero, ofContract .erc20 .zero,
    ofContract .erc721 (.ofBytes (BigEndian.encode 15 7)), ofContract .erc20 .zero]

/-- The three ways to look a token up agree on tokens that are there and on one that is not. -/
theorem lookups_agree_shuffled :
    (ofTokens shuffled).Built ∧
      (ofTokens shuffled).indexOf? (ofContract .erc1155 .zero) = some 2 ∧
      (ofTokens shuffled).places[(ofContract .erc1155 .zero).pack]? = some 2 ∧
      (ofTokens shuffled).tokens.idxOf? (ofContract .erc1155 .zero) = some 2 ∧
      (ofTokens shuffled).indexOf? (ofContract .erc721 .zero) = none ∧
      (ofTokens shuffled).places[(ofContract .erc721 .zero).pack]? = none ∧
      ∃ i j, (ofTokens shuffled).indexOf? (ofContract .erc20 .zero) = some i ∧
        (ofTokens shuffled).indexOf? (ofContract .erc1155 .zero) = some j ∧ i < j := by
  have hbuilt : (ofTokens shuffled).Built := .ofTokens shuffled
  have hget : (ofTokens shuffled).get? 2 = some (ofContract .erc1155 .zero) := by decide +kernel
  have hmissing : (ofTokens shuffled).tokens.idxOf? (ofContract .erc721 .zero) = none := by
    decide +kernel
  have hcoin : ofContract .erc20 .zero ∈ (ofTokens shuffled).tokens := by simp [shuffled]
  have hlast : ofContract .erc1155 .zero ∈ (ofTokens shuffled).tokens := List.mem_of_getElem? hget
  obtain ⟨hagree, hplace, horder⟩ := lookups_agree hbuilt
  have hfound := (hplace (ofContract .erc1155 .zero) 2).2 hget
  obtain ⟨hmap, hscan⟩ := hagree (ofContract .erc1155 .zero)
  obtain ⟨hmapMissing, hscanMissing⟩ := hagree (ofContract .erc721 .zero)
  have hnone := hscanMissing.trans hmissing
  obtain ⟨i, j, hi, hj, hlt⟩ := horder _ hcoin _ hlast
  exact ⟨hbuilt, hfound, hmap.symm.trans hfound, hscan.symm.trans hfound, hnone,
    hmapMissing.symm.trans hnone, i, j, hi, hj, hlt.2 (by decide)⟩

end VaultBatch.TokenTable
