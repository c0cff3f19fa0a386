import VaultBatch.Abi.Form

/-!
# Regions are read back

A part stands at an offset of a region if its word is there, or the offset of its content.
`Part.standsAt_of_prefix` says that the region of parts holds each part at its own head, whatever
follows the region. A form reads back what it writes if it reads every value whose part stands in a
region (`Form.ReadsBack`). Words do, and byte strings, lists and triples do if their members do, as
long as regions are so short that every offset and length fits four bytes.
-/

namespace VaultBatch.Abi

/-! ## Words and sizes -/

/-- A word is read where its bytes stand. -/
theorem wordAt_of_prefix {region : List UInt8} {offset : Nat} {word : Word}
    (h : word.toList <+: region.drop offset) : wordAt region offset = some word := by
  obtain ⟨rest, hrest⟩ := h
  rw [wordAt, ← hrest, List.take_left' word.length_toList, Bytes.ofList?_toList]

/-- A number that is a whole word is read as an offset or length exactly if it fits four bytes. -/
theorem sizeAt_eq_some_iff {region : List UInt8} {offset n size : Nat}
    (h : wordAt region offset = some (BigEndian.encode 32 n)) (hn : n < Bytes.count 32) :
    sizeAt region offset = some size ↔ n < sizeBound ∧ size = n := by
  rw [sizeAt, h, Option.bind_eq_bind, Option.bind_some]
  simp only [BigEndian.decode_encode hn]
  split <;> simp [*, eq_comm]

/-- What stands behind a number. -/
theorem prefix_of_number_append {region rest : List UInt8} {offset n : Nat}
    (h : BigEndian.encodeList 32 n ++ rest <+: region.drop offset) :
    wordAt region offset = some (BigEndian.encode 32 n) ∧ rest <+: region.drop (offset + 32) := by
  constructor
  · exact wordAt_of_prefix ((List.prefix_append _ _).trans h)
  · obtain ⟨after, hafter⟩ := h
    rw [← List.drop_drop, ← hafter, List.append_assoc,
      List.drop_left' (BigEndian.length_encodeList _ _)]
    exact List.prefix_append _ _

/-- Sizes below the bound fit a word. -/
theorem sizeBound_lt : sizeBound < Bytes.count 32 := by
  simp [sizeBound, Bytes.count]

namespace Part

/-- The part lies at an offset of a region: its word does, or the place of its content, which may be
too far behind to be an offset that is read. -/
def LiesAt (region : List UInt8) (offset : Nat) : Part → Prop
  | word w => wordAt region offset = some w
  | content bytes => ∃ start, wordAt region offset = some (BigEndian.encode 32 start) ∧
      start ≤ region.length ∧ bytes <+: region.drop start

/-- The part stands at an offset of a region: its word does, or the offset of its content. -/
def StandsAt (region : List UInt8) (offset : Nat) : Part → Prop
  | word w => wordAt region offset = some w
  | content bytes => ∃ start, sizeAt region offset = some start ∧ bytes <+: region.drop start

/-- In a region that is short enough, the places of contents are offsets that are read. -/
theorem LiesAt.standsAt {region : List UInt8} {offset : Nat} {part : Part}
    (h : part.LiesAt region offset) (hlength : region.length < sizeBound) :
    part.StandsAt region offset := by
  cases part with
  | word w => exact h
  | content bytes =>
      obtain ⟨start, hword, hstart, hcontent⟩ := h
      have hlt : start < sizeBound := Nat.lt_of_le_of_lt hstart hlength
      exact ⟨start, (sizeAt_eq_some_iff hword (Nat.lt_trans hlt sizeBound_lt)).2 ⟨hlt, rfl⟩,
        hcontent⟩

/-! ## Heads and contents -/

/-- There is one word in front for each part. -/
@[simp] theorem length_heads (offset : Nat) (parts : List Part) :
    (heads offset parts).length = 32 * parts.length := by
  induction parts generalizing offset with
  | nil => rfl
  | cons part parts ih =>
      cases part <;> simp [heads, ih] <;> omega

/-- The words in front of more parts start where the contents of the parts before end. -/
theorem heads_append (offset : Nat) (before after : List Part) :
    heads offset (before ++ after) =
      heads offset before ++ heads (offset + (before.flatMap tail).length) after := by
  induction before generalizing offset with
  | nil => rfl
  | cons part before ih =>
      cases part with
      | word w => simp [heads, tail, ih]
      | content bytes => simp [heads, tail, ih, Nat.add_assoc]

/-- The head of a part is behind the heads of the parts before it. -/
theorem drop_region_head (before after : List Part) (part : Part) :
    (region (before ++ part :: after)).drop (32 * before.length) =
      heads (32 * (before ++ part :: after).length + (before.flatMap tail).length)
          (part :: after) ++
        (before ++ part :: after).flatMap tail := by
  rw [region, heads_append, List.append_assoc, List.drop_left' (length_heads _ _)]

/-- The content of a part is behind all heads and the contents of the parts before it. -/
theorem drop_region_tail (before after : List Part) (part : Part) :
    (region (before ++ part :: after)).drop
        (32 * (before ++ part :: after).length + (before.flatMap tail).length) =
      part.tail ++ after.flatMap tail := by
  rw [region, ← List.drop_drop, List.drop_left' (length_heads _ _), List.flatMap_append,
    List.drop_left' rfl, List.flatMap_cons]

/-- In a region that starts with the region of parts, each part lies at its own head. -/
theorem liesAt_of_prefix {parts : List Part} {region : List UInt8}
    (h : Part.region parts <+: region) {place : Nat} {part : Part}
    (hpart : parts[place]? = some part) : part.LiesAt region (32 * place) := by
  obtain ⟨rest, rfl⟩ := h
  obtain ⟨before, after, rfl, rfl⟩ : ∃ before after, parts = before ++ part :: after ∧
      before.length = place := by
    obtain ⟨hlt, rfl⟩ := List.getElem?_eq_some_iff.1 hpart
    exact ⟨parts.take place, parts.drop (place + 1), by simp, by simp; omega⟩
  have hheads : 32 * before.length ≤ (Part.region (before ++ part :: after)).length := by
    simp [Part.region]
    omega
  have hhead := drop_region_head before after part
  -- a word stands in the front itself; contents stand where their word in the front points to
  cases part with
  | word w =>
      refine wordAt_of_prefix ?_
      rw [List.drop_append_of_le_length hheads, hhead, heads, List.append_assoc, List.append_assoc]
      exact List.prefix_append _ _
  | content bytes =>
      have hstart : 32 * (before ++ content bytes :: after).length + (before.flatMap tail).length ≤
          (Part.region (before ++ content bytes :: after)).length := by
        simp [Part.region]
      refine ⟨32 * (before ++ content bytes :: after).length + (before.flatMap tail).length,
        wordAt_of_prefix ?_, ?_, ?_⟩
      · rw [List.drop_append_of_le_length hheads, hhead, heads, List.append_assoc,
          List.append_assoc]
        exact List.prefix_append _ _
      · exact Nat.le_trans hstart (List.prefix_append _ _).length_le
      · rw [List.drop_append_of_le_length hstart, drop_region_tail, List.append_assoc]
        exact List.prefix_append _ _

/-- If the region is short enough, each part stands at its own head. -/
theorem standsAt_of_prefix {parts : List Part} {region : List UInt8}
    (h : Part.region parts <+: region) (hlength : region.length < sizeBound) {place : Nat}
    {part : Part} (hpart : parts[place]? = some part) : part.StandsAt region (32 * place) := by
  have hlies := liesAt_of_prefix h hpart
  exact hlies.standsAt hlength

end Part

/-! ## Forms -/

namespace Form

variable {α β γ : Type} {f : Form α} {g : Form β} {h : Form γ}

/-- Bytes are read at an offset, behind their number. -/
theorem bytes_read (region : List UInt8) (offset : Nat) :
    bytes.read region offset = (sizeAt region offset).bind fun start =>
      (sizeAt region start).bind fun length =>
        if start + 32 + length ≤ region.length then
          some ((region.drop (start + 32)).take length)
        else none := rfl

/-- A list is read at an offset, behind the number of its values. -/
theorem list_read (f : Form α) (region : List UInt8) (offset : Nat) :
    (list f).read region offset = (sizeAt region offset).bind fun start =>
      (sizeAt region start).bind fun count =>
        readMany f (region.drop (start + 32)) count 0 := rfl

/-- Three values are read at an offset, side by side. -/
theorem triple_read (f : Form α) (g : Form β) (h : Form γ) (region : List UInt8) (offset : Nat) :
    (triple f g h).read region offset = (sizeAt region offset).bind fun start =>
      readThree f g h (region.drop start) := rfl

/-- In regions whose offsets and lengths fit four bytes, the form reads every value whose part
stands there. -/
def ReadsBack (form : Form α) : Prop :=
  ∀ value region offset, region.length < sizeBound →
    (form.write value).StandsAt region offset → form.read region offset = some value

/-- A word that is written is read back. -/
theorem word_readsBack (name : String) : (word name).ReadsBack :=
  fun _ _ _ _ h => h

/-- Bytes that are written are read back. -/
theorem bytes_readsBack : bytes.ReadsBack := by
  intro content region offset hlength hstands
  obtain ⟨start, hstart, hcontent⟩ := hstands
  have hend := hcontent.length_le
  rw [List.append_assoc] at hcontent
  simp only [List.length_append, BigEndian.length_encodeList, List.length_drop] at hend
  obtain ⟨hword, hrest⟩ := prefix_of_number_append hcontent
  have hlt : content.length < sizeBound := by omega
  have hsize : sizeAt region start = some content.length :=
    (sizeAt_eq_some_iff hword (Nat.lt_trans hlt sizeBound_lt)).2 ⟨hlt, rfl⟩
  have hinside : start + 32 + content.length ≤ region.length := by omega
  have htake : content = (region.drop (start + 32)).take content.length :=
    List.prefix_iff_eq_take.1 ((List.prefix_append _ _).trans hrest)
  rw [bytes_read, hstart, Option.bind_some, hsize, Option.bind_some, if_pos hinside, ← htake]

/-- Values that stand one word after the other are read one after the other. -/
theorem readMany_of_standsAt (hf : f.ReadsBack) {region : List UInt8}
    (hlength : region.length < sizeBound) {values : List α} {offset : Nat}
    (hstands : ∀ place value, values[place]? = some value →
      (f.write value).StandsAt region (offset + 32 * place)) :
    readMany f region values.length offset = some values := by
  induction values generalizing offset with
  | nil => rfl
  | cons value values ih =>
      -- the other values stand at the places of the tail, one word further on
      have hvalue : f.read region offset = some value :=
        hf value region offset hlength (hstands 0 value rfl)
      have hvalues : readMany f region values.length (offset + 32) = some values := by
        refine ih ?_
        intro place other hother
        have hnext := hstands (place + 1) other hother
        rwa [show offset + 32 * (place + 1) = offset + 32 + 32 * place by omega] at hnext
      rw [List.length_cons, readMany, hvalue, Option.bind_eq_bind, Option.bind_some, hvalues]
      rfl

/-- A list that is written is read back if its values are. -/
theorem list_readsBack (hf : f.ReadsBack) : (list f).ReadsBack := by
  intro values region offset hlength hstands
  obtain ⟨start, hstart, hcontent⟩ := hstands
  obtain ⟨hword, hregion⟩ := prefix_of_number_append hcontent
  have hshort : (region.drop (start + 32)).length < sizeBound := by
    rw [List.length_drop]
    omega
  have hlt : values.length < sizeBound := by
    have hle := hregion.length_le
    rw [Part.region, List.length_append, Part.length_heads, List.length_map] at hle
    omega
  have hcount : sizeAt region start = some values.length :=
    (sizeAt_eq_some_iff hword (Nat.lt_trans hlt sizeBound_lt)).2 ⟨hlt, rfl⟩
  have hvalues : readMany f (region.drop (start + 32)) values.length 0 = some values := by
    refine readMany_of_standsAt hf hshort ?_
    intro place value hvalue
    rw [Nat.zero_add]
    exact Part.standsAt_of_prefix hregion hshort (by rw [List.getElem?_map, hvalue]; rfl)
  rw [list_read, hstart, Option.bind_some, hcount, Option.bind_some, hvalues]

/-- Three values are read back from any region that starts with their own. -/
theorem readThree_writeThree (hf : f.ReadsBack) (hg : g.ReadsBack) (hh : h.ReadsBack)
    {value : α × β × γ} {region : List UInt8} (hregion : writeThree f g h value <+: region)
    (hlength : region.length < sizeBound) : readThree f g h region = some value := by
  have hstands : ∀ (place : Nat) (part : Part),
      [f.write value.1, g.write value.2.1, h.write value.2.2][place]? = some part →
      part.StandsAt region (32 * place) :=
    fun _ _ => Part.standsAt_of_prefix hregion hlength
  have hfirst : f.read region 0 = some value.1 := hf _ _ _ hlength (hstands 0 _ rfl)
  have hsecond : g.read region 32 = some value.2.1 := hg _ _ _ hlength (hstands 1 _ rfl)
  have hthird : h.read region 64 = some value.2.2 := hh _ _ _ hlength (hstands 2 _ rfl)
  rw [readThree, hfirst, hsecond, hthird]
  rfl

/-- Three values that are written are read back if each of them is. -/
theorem triple_readsBack (hf : f.ReadsBack) (hg : g.ReadsBack) (hh : h.ReadsBack) :
    (triple f g h).ReadsBack := by
  intro value region offset hlength hstands
  obtain ⟨start, hstart, hcontent⟩ := hstands
  have hshort : (region.drop start).length < sizeBound := by
    rw [List.length_drop]
    omega
  rw [triple_read, hstart, Option.bind_some]
  exact readThree_writeThree hf hg hh hcontent hshort

end Form
end VaultBatch.Abi
