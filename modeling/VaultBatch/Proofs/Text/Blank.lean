import Mathlib.Data.List.TakeWhile
import VaultBatch.Text.Blank

/-!
# Texts without the blanks around them

`Text.Trimmed text inner` says what trimming is to give: the text with blank characters at both ends
taken away and none left there. `Text.trimmed_iff` says that trimming gives it. Names are looked up
in trimmed texts whatever the case of their letters: `Text.IsSpelling`.
-/

namespace VaultBatch.Text

/-- The second text is left of the first one when all blanks at its ends are taken away. -/
def Trimmed (text inner : List Char) : Prop :=
  ∃ before after, text = before ++ inner ++ after ∧
    (∀ c ∈ before ++ after, isBlank c = true) ∧
    (∀ c ∈ inner.head?, isBlank c = false) ∧ ∀ c ∈ inner.getLast?, isBlank c = false

/-- Nothing is dropped if the first character is to be kept. -/
theorem dropWhile_eq_self {p : Char → Bool} {text : List Char} (h : ∀ c ∈ text.head?, p c = false) :
    text.dropWhile p = text := by
  cases text with
  | nil => rfl
  | cons c rest => rw [List.dropWhile_cons, h c rfl, if_neg Bool.false_ne_true]

/-- What is left without the blanks around it is what trimming gives. -/
theorem trim_of_trimmed {text inner : List Char} (h : Trimmed text inner) : trim text = inner := by
  obtain ⟨before, after, rfl, hblank, hfirst, hlast⟩ := h
  obtain ⟨hbefore, hafter⟩ := List.forall_mem_append.1 hblank
  rw [trim, List.append_assoc, List.dropWhile_append_of_pos hbefore]
  cases inner with
  | nil =>
      rw [List.nil_append, List.dropWhile_eq_nil_iff.2 hafter]
      rfl
  | cons c rest =>
      have hstart : (c :: rest ++ after).dropWhile isBlank = c :: rest ++ after :=
        dropWhile_eq_self hfirst
      rw [hstart, List.reverse_append,
        List.dropWhile_append_of_pos (fun c hc => hafter c (List.mem_reverse.1 hc)),
        dropWhile_eq_self (by rwa [List.head?_reverse]), List.reverse_reverse]

/-- What is left starts with a character that is to be kept. -/
theorem head?_dropWhile {p : Char → Bool} {text : List Char} :
    ∀ c ∈ (text.dropWhile p).head?, p c = false := by
  intro c hc
  have h := List.head?_dropWhile_not p text
  rwa [Option.mem_def.1 hc] at h

/-- Trimming takes the blanks at both ends away. -/
theorem trimmed_trim (text : List Char) : Trimmed text (trim text) := by
  let middle := text.dropWhile isBlank
  have hmiddle : trim text ++ (middle.reverse.takeWhile isBlank).reverse = middle := by
    rw [trim, ← List.reverse_append, List.takeWhile_append_dropWhile, List.reverse_reverse]
  refine ⟨text.takeWhile isBlank, (middle.reverse.takeWhile isBlank).reverse, ?_, ?_, ?_, ?_⟩
  · rw [List.append_assoc, hmiddle, List.takeWhile_append_dropWhile]
  · refine List.forall_mem_append.2 ⟨fun c hc => List.mem_takeWhile_imp hc, fun c hc => ?_⟩
    exact List.mem_takeWhile_imp (List.mem_reverse.1 hc)
  · -- what is left starts where the blanks at the start end
    intro c hc
    have hhead : c ∈ middle.head? := by
      rw [← hmiddle, List.head?_append, Option.mem_def.1 hc]
      rfl
    exact head?_dropWhile c hhead
  · intro c hc
    rw [trim, List.getLast?_reverse] at hc
    exact head?_dropWhile c hc

/-- Trimming takes away the blanks at the ends, and only those. -/
theorem trimmed_iff {text inner : List Char} : Trimmed text inner ↔ trim text = inner :=
  ⟨trim_of_trimmed, fun h => h ▸ trimmed_trim text⟩

example : trim ['\u00a0', ' ', 'a', ' ', 'b', '\u3000', '\n'] = ['a', ' ', 'b'] := by decide

/-- The text is the name in letters of any case, with blanks around it. -/
def IsSpelling (name text : String) : Prop :=
  ∃ inner, Trimmed text.toList inner ∧ lowerAscii inner = name.toList

/-- A text is a spelling of the name that it is in lower case and without the blanks around it. -/
theorem isSpelling_iff {name text : String} :
    IsSpelling name text ↔ name = String.ofList (lowerAscii (trim text.toList)) := by
  rw [← String.toList_inj, String.toList_ofList, eq_comm]
  simp only [IsSpelling, trimmed_iff, exists_eq_left']

end VaultBatch.Text
