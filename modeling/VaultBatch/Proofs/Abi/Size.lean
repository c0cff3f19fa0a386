import Mathlib.Algebra.BigOperators.Ring.List
import Mathlib.Algebra.Ring.Nat
import VaultBatch.Proofs.Abi.Region

/-!
# Sizes of regions

A part takes a word for its head and as many bytes as its content has, so the size of a region is
a sum over its parts (`Part.length_region`). Every form takes whole words: `Form.Takes` says how
many for each value, with one law for each way to make a form. No law asks for short regions, since
an offset that is too large to be read is still written as one word.
-/

namespace VaultBatch.Abi

namespace Part

/-- The number of bytes that a part takes in its region, its head included. -/
def size (part : Part) : Nat :=
  32 + part.tail.length

/-- A region is as long as its parts together. -/
theorem length_region (parts : List Part) : (region parts).length = (parts.map size).sum := by
  rw [region, List.length_append, length_heads]
  induction parts with
  | nil => rfl
  | cons part parts ih =>
      rw [List.map_cons, List.sum_cons, ← ih, size, List.length_cons, List.flatMap_cons,
        List.length_append]
      omega

end Part

/-- Zeros fill the last word of some bytes. -/
theorem length_add_padding (length : Nat) :
    length + (padding length).length = 32 * ((length + 31) / 32) := by
  rw [padding, List.length_replicate]
  omega

namespace Form

variable {α β γ : Type} {f : Form α} {g : Form β} {h : Form γ} {words : α → Nat}
  {otherWords : β → Nat} {thirdWords : γ → Nat}

/-- Each value takes the given number of words, the one for its head included. -/
def Takes (form : Form α) (words : α → Nat) : Prop :=
  ∀ value, (form.write value).size = 32 * words value

/-- A word takes one word. -/
theorem word_takes (name : String) : (word name).Takes fun _ => 1 :=
  fun _ => rfl

/-- Besides the bytes there are an offset and a length. -/
theorem bytes_takes : bytes.Takes fun content => 2 + (content.length + 31) / 32 := by
  intro content
  have hcontent := length_add_padding content.length
  simp only [bytes, Part.size, Part.tail, List.length_append, BigEndian.length_encodeList]
  omega

/-- Besides the values there are an offset and a length. -/
theorem list_takes (hf : f.Takes words) :
    (list f).Takes fun values => 2 + (values.map words).sum := by
  intro values
  have hvalues : (Part.region (values.map f.write)).length = 32 * (values.map words).sum := by
    have hsizes : Part.size ∘ f.write = fun value => 32 * words value := funext hf
    rw [Part.length_region, List.map_map, hsizes, List.sum_map_mul_left]
  simp only [list, Part.size, Part.tail, List.length_append, BigEndian.length_encodeList, hvalues]
  omega

/-- A list of words takes one for each of them. -/
theorem words_takes (name : String) : (list (word name)).Takes fun words => 2 + words.length := by
  intro words
  have hones : (words.map fun _ => 1).sum = words.length := by
    rw [List.map_const', List.sum_replicate_nat, Nat.mul_one]
  simpa only [hones] using list_takes (word_takes name) words

/-- Three values side by side are as long as the words that they take. -/
theorem length_writeThree (hf : f.Takes words) (hg : g.Takes otherWords) (hh : h.Takes thirdWords)
    (value : α × β × γ) :
    (writeThree f g h value).length =
      32 * (words value.1 + otherWords value.2.1 + thirdWords value.2.2) := by
  rw [writeThree, Part.length_region]
  simp only [List.map_cons, List.map_nil, List.sum_cons, List.sum_nil, hf value.1, hg value.2.1,
    hh value.2.2]
  omega

/-- Besides the three values there is an offset. -/
theorem triple_takes (hf : f.Takes words) (hg : g.Takes otherWords) (hh : h.Takes thirdWords) :
    (triple f g h).Takes fun value =>
      1 + (words value.1 + otherWords value.2.1 + thirdWords value.2.2) := by
  intro value
  simp only [triple, Part.size, Part.tail, length_writeThree hf hg hh]
  omega

end Form
end VaultBatch.Abi
