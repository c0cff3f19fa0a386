import VaultBatch.Proofs.Abi.Region

/-!
# Regions of any length

A region may be so long that some of its offsets or lengths do not fit four bytes and are not read.
Then values may be missed, but no others are read in their place: what a form reads where a value
lies is this value (`Form.ReadsOnly`). All that is asked of the region is that its length can be
written in a word.
-/

namespace VaultBatch.Abi.Form

variable {α β γ : Type} {f : Form α} {g : Form β} {h : Form γ}

/-- The form reads nothing but the value where its part lies. -/
def ReadsOnly (form : Form α) : Prop :=
  ∀ value region offset other, region.length < Bytes.count 32 →
    (form.write value).LiesAt region offset → form.read region offset = some other → other = value

/-- Where a word lies, no other word is read. -/
theorem word_readsOnly (name : String) : (word name).ReadsOnly := by
  intro value region offset other _ hlies hread
  exact Option.some.inj (hread.symm.trans hlies)

/-- Where bytes lie, no other bytes are read. -/
theorem bytes_readsOnly : bytes.ReadsOnly := by
  intro content region offset other hlength hlies hread
  obtain ⟨start, hstart, hle, hcontent⟩ := hlies
  have hend := hcontent.length_le
  rw [List.append_assoc] at hcontent
  simp only [List.length_append, List.length_drop] at hend
  obtain ⟨hword, hrest⟩ := prefix_of_number_append hcontent
  simp only [bytes_read, Option.bind_eq_some_iff] at hread
  obtain ⟨start', hstart', length, hsize, hread⟩ := hread
  -- both sizes that are read are those that were written
  obtain ⟨-, rfl⟩ := (sizeAt_eq_some_iff hstart (by omega)).1 hstart'
  obtain ⟨-, rfl⟩ := (sizeAt_eq_some_iff hword (by omega)).1 hsize
  split at hread
  · cases hread
    exact (List.prefix_iff_eq_take.1 ((List.prefix_append _ _).trans hrest)).symm
  · cases hread

/-- Where values lie one word after the other, no others are read. -/
theorem readMany_eq_of_liesAt (hf : f.ReadsOnly) {region : List UInt8}
    (hlength : region.length < Bytes.count 32) {values others : List α} {offset : Nat}
    (hlies : ∀ place value, values[place]? = some value →
      (f.write value).LiesAt region (offset + 32 * place))
    (hread : readMany f region values.length offset = some others) : others = values := by
  induction values generalizing offset others with
  | nil =>
      cases hread
      rfl
  | cons value values ih =>
      simp only [List.length_cons, readMany, Option.bind_eq_bind, Option.bind_eq_some_iff,
        Option.pure_def] at hread
      obtain ⟨other, hother, rest, hrest, hread⟩ := hread
      cases hread
      have hvalue : other = value :=
        hf value region offset other hlength (hlies 0 value rfl) hother
      -- the other values lie at the places of the tail, one word further on
      have hvalues : rest = values := by
        refine ih ?_ hrest
        intro place next hnext
        have hlater := hlies (place + 1) next hnext
        rwa [show offset + 32 * (place + 1) = offset + 32 + 32 * place by omega] at hlater
      rw [hvalue, hvalues]

/-- Where a list lies, no other list is read if this holds of its values. -/
theorem list_readsOnly (hf : f.ReadsOnly) : (list f).ReadsOnly := by
  intro values region offset others hlength hlies hread
  obtain ⟨start, hstart, hle, hcontent⟩ := hlies
  obtain ⟨hword, hregion⟩ := prefix_of_number_append hcontent
  have hshort : (region.drop (start + 32)).length < Bytes.count 32 := by
    rw [List.length_drop]
    omega
  have hcount : values.length < Bytes.count 32 := by
    have hend := hregion.length_le
    rw [Part.region, List.length_append, Part.length_heads, List.length_map] at hend
    omega
  simp only [list_read, Option.bind_eq_some_iff] at hread
  obtain ⟨start', hstart', count, hsize, hread⟩ := hread
  obtain ⟨-, rfl⟩ := (sizeAt_eq_some_iff hstart (by omega)).1 hstart'
  obtain ⟨-, rfl⟩ := (sizeAt_eq_some_iff hword hcount).1 hsize
  refine readMany_eq_of_liesAt hf hshort ?_ hread
  intro place value hvalue
  rw [Nat.zero_add]
  exact Part.liesAt_of_prefix hregion (by rw [List.getElem?_map, hvalue]; rfl)

/-- From a region that starts with that of three values, no others are read. -/
theorem eq_of_readThree (hf : f.ReadsOnly) (hg : g.ReadsOnly) (hh : h.ReadsOnly)
    {value other : α × β × γ} {region : List UInt8} (hregion : writeThree f g h value <+: region)
    (hlength : region.length < Bytes.count 32) (hread : readThree f g h region = some other) :
    other = value := by
  have hlies : ∀ (place : Nat) (part : Part),
      [f.write value.1, g.write value.2.1, h.write value.2.2][place]? = some part →
      part.LiesAt region (32 * place) :=
    fun _ _ => Part.liesAt_of_prefix hregion
  simp only [readThree, Option.bind_eq_bind, Option.bind_eq_some_iff, Option.pure_def] at hread
  obtain ⟨first, hfirst, second, hsecond, third, hthird, hread⟩ := hread
  cases hread
  rw [hf _ _ _ _ hlength (hlies 0 _ rfl) hfirst, hg _ _ _ _ hlength (hlies 1 _ rfl) hsecond,
    hh _ _ _ _ hlength (hlies 2 _ rfl) hthird]

/-- Where three values lie, no others are read if this holds of each of them. -/
theorem triple_readsOnly (hf : f.ReadsOnly) (hg : g.ReadsOnly) (hh : h.ReadsOnly) :
    (triple f g h).ReadsOnly := by
  intro value region offset other hlength hlies hread
  obtain ⟨start, hstart, hle, hcontent⟩ := hlies
  have hshort : (region.drop start).length < Bytes.count 32 := by
    rw [List.length_drop]
    omega
  rw [triple_read, Option.bind_eq_some_iff] at hread
  obtain ⟨start', hstart', hread⟩ := hread
  obtain ⟨-, rfl⟩ := (sizeAt_eq_some_iff hstart (by omega)).1 hstart'
  exact eq_of_readThree hf hg hh hcontent hshort hread

end VaultBatch.Abi.Form
