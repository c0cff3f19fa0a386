import VaultBatch.Json.Skip
import VaultBatch.Proofs.Text.Decimal

/-!
# JSON integers are read back

Behind a value of a text stands a blank, a comma, a closing bracket or nothing (`Delimited`), so
that the digits of a number end where they were written to end. `Lexeme.split_ofNat` splits a number
into its digits and nothing else, and `Lexeme.value_ofDigits` gives the integer that they stand for.
-/

namespace VaultBatch.Json

/-- What may stand behind a value: a blank, a comma, the end of a sequence or of an object, or
nothing. -/
def Delimited (rest : List Char) : Prop :=
  ∀ c ∈ rest.head?, isBlank c = true ∨ c = ',' ∨ c = ']' ∨ c = '\x7d'

/-- A value may end with the text. -/
theorem delimited_nil : Delimited [] := by
  simp [Delimited]

/-- A value may end at a comma or at the end of a sequence or of an object. -/
theorem delimited_cons {c : Char} (h : c = ',' ∨ c = ']' ∨ c = '\x7d') (rest : List Char) :
    Delimited (c :: rest) := by
  intro d hd
  cases hd
  exact .inr h

/-- A digit is no blank. -/
theorem isBlank_of_isDigit {c : Char} (h : c.isDigit = true) : isBlank c = false := by
  refine Bool.eq_false_iff.2 ?_
  intro hblank
  simp only [isBlank, Bool.or_eq_true, decide_eq_true_eq] at hblank
  rcases hblank with ((rfl | rfl) | rfl) | rfl <;> cases h

/-- No digit stands at the start. -/
def Stops (rest : List Char) : Prop :=
  ∀ c ∈ rest.head?, c.isDigit = false

/-- No digit stands in front if the first character is none. -/
theorem stops_cons {c : Char} (h : c.isDigit = false) (rest : List Char) : Stops (c :: rest) := by
  intro d hd
  cases hd
  exact h

/-- No digit stands behind a value. -/
theorem Delimited.stops {rest : List Char} (h : Delimited rest) : Stops rest := by
  intro c hc
  rcases h c hc with hblank | rfl | rfl | rfl
  · refine Bool.eq_false_iff.2 ?_
    intro hdigit
    rw [isBlank_of_isDigit hdigit] at hblank
    cases hblank
  · rfl
  · rfl
  · rfl

namespace Lexeme

/-- The values of the digits that a number is written in. -/
def digits (n : Nat) : List Nat :=
  (Decimal.ofNat n).map fun c => c.toNat - 48

/-- A number is read back from its digits. -/
theorem natOfDigits_digits (n : Nat) : natOfDigits (digits n) = n := by
  rw [natOfDigits, digits, List.foldl_map]
  exact Decimal.ofDigitChars_ofNat n

variable {rest : List Char}

/-- There are no digits to split off where none stands in front. -/
theorem splitDigits_of_stops (h : Stops rest) : splitDigits rest = ([], rest) := by
  cases rest with
  | nil => rfl
  | cons c rest =>
      have hc : Digit.value? 10 c = none := by
        rw [Digit.value?_ten, h c rfl]
        rfl
      rw [splitDigits, hc]

/-- Digits are split off in front of something that is no digit. -/
theorem splitDigits_append {text : List Char} (htext : ∀ c ∈ text, c.isDigit = true)
    (h : Stops rest) :
    splitDigits (text ++ rest) = (text.map fun c => c.toNat - 48, rest) := by
  induction text with
  | nil => exact splitDigits_of_stops h
  | cons c text ih =>
      obtain ⟨hc, htext⟩ := List.forall_mem_cons.1 htext
      rw [List.cons_append, splitDigits, Digit.value?_ten, if_pos hc, ih htext]
      rfl

/-- A written natural number is split off. -/
theorem splitWhole_ofNat (n : Nat) (h : Stops rest) :
    splitWhole (Decimal.ofNat n ++ rest) = some (digits n, rest) := by
  have hsplit : splitDigits (Decimal.ofNat n ++ rest) = (digits n, rest) :=
    splitDigits_append (fun _ => Decimal.isDigit_of_mem_ofNat) h
  obtain ⟨c, more, heq, hc, hzero⟩ := Decimal.ofNat_eq_cons n
  have hdigits : digits n = (c.toNat - 48) :: more.map fun c => c.toNat - 48 := by
    rw [digits, heq, List.map_cons]
  unfold splitWhole
  rw [hsplit, hdigits]
  split
  · next hnil => cases hnil
  · next hlead =>
    -- of a zero in front nothing would be left
    have hvalue := congrArg Prod.fst hlead
    obtain ⟨hfirst, hmore⟩ := List.cons.inj hvalue
    have hbounds := (Digit.isDigit_iff_toNat c).1 hc
    have hc : c = '0' := Char.toNat_inj.1 (show c.toNat = 48 by omega)
    rw [hzero hc] at hmore
    cases hmore
  · rfl

/-- The number that consists of digits only. -/
def ofDigits (digits : List Nat) : Lexeme :=
  ⟨false, digits, [], none⟩

/-- There is no fraction behind a value. -/
theorem splitFraction_of_delimited (h : Delimited rest) : splitFraction rest = some ([], rest) := by
  unfold splitFraction
  split
  · rcases h _ rfl with h | h | h | h <;> cases h
  · rfl

/-- There is no exponent behind a value. -/
theorem splitExponent_of_delimited (h : Delimited rest) :
    splitExponent rest = some (none, rest) := by
  unfold splitExponent
  split
  · rcases h _ rfl with h | h | h | h <;> cases h
  · rcases h _ rfl with h | h | h | h <;> cases h
  · rfl

/-- A written natural number is split off as a number without a fraction and an exponent. -/
theorem split_ofNat (n : Nat) (h : Delimited rest) :
    split (Decimal.ofNat n ++ rest) = some (ofDigits (digits n), rest) := by
  have hwhole := splitWhole_ofNat n h.stops
  obtain ⟨c, more, heq, hc, -⟩ := Decimal.ofNat_eq_cons n
  rw [heq, List.cons_append] at hwhole ⊢
  unfold split
  split
  next negative unsigned hsign =>
  split at hsign
  · next hminus =>
    cases hminus
    cases hc
  · cases hsign
    simp only [hwhole, splitFraction_of_delimited h, splitExponent_of_delimited h,
      Option.bind_eq_bind, Option.bind_some]
    rfl

/-- Digits alone have the value of the number that they are written for, if that fits a word. -/
theorem value_ofDigits {n : Nat} (h : n < wordBound) :
    (ofDigits (digits n)).value = some (.integer n) := by
  unfold value
  simp only [ofDigits, natOfDigits_digits, if_pos h]
  rfl

end Lexeme
end VaultBatch.Json
