import Mathlib.Data.List.Infix
import VaultBatch.Proofs.Text.Decimal

/-!
# Texts that are decimal integers

A text is an integer within bounds if only digits, at least one, stand behind the sign and stand for
an integer within the bounds (`Decimal.read_eq_ok_iff`). It is out of bounds as soon as its first
digits are, whatever stands behind them (`Decimal.read_eq_outOfBounds_iff`), and
`Decimal.read_eq_error_iff` adds why else a text is refused.
-/

namespace VaultBatch.Decimal

/-- The second text is the first one without its sign, if it has one; the number is negative if the
sign is a minus. -/
inductive WithoutSign : List Char → Bool → List Char → Prop where
  | plain {text : List Char} : (∀ c ∈ text.head?, c ≠ '+' ∧ c ≠ '-') → WithoutSign text false text
  | plus (digits : List Char) : WithoutSign ('+' :: digits) false digits
  | minus (digits : List Char) : WithoutSign ('-' :: digits) true digits

/-- The text without its sign is what splitting the sign off leaves. -/
theorem withoutSign_iff {text digits : List Char} {negative : Bool} :
    WithoutSign text negative digits ↔ splitSign text = (negative, digits) := by
  constructor
  · intro h
    cases h with
    | plain hfirst =>
        unfold splitSign
        split
        · exact absurd rfl (hfirst _ rfl).1
        · exact absurd rfl (hfirst _ rfl).2
        · rfl
    | plus => rfl
    | minus => rfl
  · intro h
    unfold splitSign at h
    split at h
    · cases h
      exact .plus _
    · cases h
      exact .minus _
    · next hplus hminus =>
      cases h
      refine .plain fun c hc => ?_
      cases text with
      | nil => cases hc
      | cons first rest =>
          cases hc
          exact ⟨fun heq => hplus rest (heq ▸ rfl), fun heq => hminus rest (heq ▸ rfl)⟩

variable {low high value : Int} {negative : Bool} {n : Nat} {flaw : Flaw}
  {c : Char} {text digits rest : List Char}

/-- The integer that digits behind a number stand for. -/
def number (negative : Bool) (n : Nat) (digits : List Char) : Int :=
  signed negative (Nat.ofDigitChars 10 digits n)

/-- At least one digit and nothing else. -/
def IsNumeral (text : List Char) : Prop :=
  text ≠ [] ∧ ∀ c ∈ text, c.isDigit = true

/-- Behind a number the text starts with digits that lead out of the bounds. -/
def Overruns (low high : Int) (negative : Bool) (n : Nat) (text : List Char) : Prop :=
  ∃ leading, leading <+: text ∧ (∀ c ∈ leading, c.isDigit = true) ∧
    ¬ (low ≤ number negative n leading ∧ number negative n leading ≤ high)

/-! ## Reading digits -/

/-- The first digit goes onto the number that stands before it. -/
theorem number_cons :
    number negative n (c :: rest) = number negative (10 * n + (c.toNat - 48)) rest := by
  rw [number, Nat.ofDigitChars_cons]
  rfl

/-- A digit is read onto the number, if that stays within bounds; anything else is refused first. -/
theorem readDigits_cons :
    readDigits low high negative (signed negative n) (c :: rest) =
      if c.isDigit then
        if low ≤ signed negative (10 * n + (c.toNat - 48)) ∧
            signed negative (10 * n + (c.toNat - 48)) ≤ high then
          readDigits low high negative (signed negative (10 * n + (c.toNat - 48))) rest
        else .error .outOfBounds
      else .error .invalidDigit := by
  rw [readDigits, Digit.value?_ten]
  by_cases hc : c.isDigit = true
  · simp only [if_pos hc, signed_digit]
  · simp only [if_neg hc]

/-- No digits lead out of the bounds from a number within. -/
theorem not_overruns_nil (hstart : low ≤ signed negative n ∧ signed negative n ≤ high) :
    ¬ Overruns low high negative n [] := by
  rintro ⟨leading, hprefix, -, hrange⟩
  rw [List.prefix_nil.1 hprefix] at hrange
  exact hrange hstart

/-- Digits lead out of the bounds from a number within exactly if the first one is a digit and the
rest do from the number that it makes. -/
theorem overruns_cons (hstart : low ≤ signed negative n ∧ signed negative n ≤ high) :
    Overruns low high negative n (c :: rest) ↔
      c.isDigit = true ∧ Overruns low high negative (10 * n + (c.toNat - 48)) rest := by
  constructor
  · rintro ⟨leading, hprefix, hdigits, hrange⟩
    rcases List.prefix_cons_iff.1 hprefix with rfl | ⟨behind, rfl, hbehind⟩
    · exact absurd hstart hrange
    · obtain ⟨hc, hdigits⟩ := List.forall_mem_cons.1 hdigits
      exact ⟨hc, behind, hbehind, hdigits, number_cons ▸ hrange⟩
  · rintro ⟨hc, leading, hprefix, hdigits, hrange⟩
    exact ⟨c :: leading, List.prefix_cons_iff.2 (.inr ⟨leading, rfl, hprefix⟩),
      List.forall_mem_cons.2 ⟨hc, hdigits⟩, number_cons ▸ hrange⟩

/-- Digits that stand for an integer within bounds never lead out of them. -/
theorem not_overruns (hzero : low ≤ 0 ∧ 0 ≤ high)
    (h : low ≤ number negative n text ∧ number negative n text ≤ high) :
    ¬ Overruns low high negative n text := by
  rintro ⟨leading, ⟨rest, rfl⟩, -, hrange⟩
  rw [number, Nat.ofDigitChars_append] at h
  exact hrange (signed_within hzero (le_ofDigitChars rest _) h)

/-- Digits are refused as out of bounds exactly if they lead out of them before anything else
stands. -/
theorem readDigits_eq_outOfBounds_iff
    (hstart : low ≤ signed negative n ∧ signed negative n ≤ high) :
    readDigits low high negative (signed negative n) text = .error .outOfBounds ↔
      Overruns low high negative n text := by
  induction text generalizing n with
  | nil =>
      rw [readDigits]
      exact iff_of_false (by simp) (not_overruns_nil hstart)
  | cons c rest ih =>
      rw [readDigits_cons, overruns_cons hstart]
      by_cases hc : c.isDigit = true
      · rw [if_pos hc, and_iff_right hc]
        by_cases hnext : low ≤ signed negative (10 * n + (c.toNat - 48)) ∧
            signed negative (10 * n + (c.toNat - 48)) ≤ high
        · rw [if_pos hnext, ih hnext]
        · -- the digits up to here are those that lead out of the bounds
          rw [if_neg hnext]
          exact iff_of_true rfl ⟨[], List.nil_prefix, by simp, hnext⟩
      · simp [hc]

/-- Digits are read exactly if there is nothing else and they stand for an integer within the
bounds. -/
theorem readDigits_eq_ok_iff (hzero : low ≤ 0 ∧ 0 ≤ high)
    (hstart : low ≤ signed negative n ∧ signed negative n ≤ high) :
    readDigits low high negative (signed negative n) text = .ok value ↔
      (∀ c ∈ text, c.isDigit = true) ∧ value = number negative n text ∧
        low ≤ value ∧ value ≤ high := by
  constructor
  · intro h
    induction text generalizing n with
    | nil =>
        cases h
        exact ⟨by simp, rfl, hstart⟩
    | cons c rest ih =>
        rw [readDigits_cons] at h
        split at h
        · next hc =>
          split at h
          · next hnext =>
            obtain ⟨hrest, hvalue⟩ := ih hnext h
            exact ⟨List.forall_mem_cons.2 ⟨hc, hrest⟩, number_cons ▸ hvalue⟩
          · cases h
        · cases h
  · rintro ⟨hdigits, rfl, hrange⟩
    exact readDigits_eq_ok hdigits hzero hrange

/-- Digits that are read are never reported as empty. -/
theorem readDigits_ne_empty :
    readDigits low high negative value text ≠ .error .empty := by
  induction text generalizing value with
  | nil => simp [readDigits]
  | cons c rest ih =>
      rw [readDigits]
      split
      · simp
      · simp only
        split
        · split <;> simp [ih]
        · split <;> simp [ih]

/-! ## Reading integers -/

/-- Without a digit behind the sign nothing is read. -/
theorem read_of_withoutSign (h : WithoutSign text negative digits) :
    read low high text =
      if digits = [] then .error (if text = [] then .empty else .invalidDigit)
      else readDigits low high negative (signed negative 0) digits := by
  have hzero : signed negative 0 = 0 := by cases negative <;> rfl
  rw [read, withoutSign_iff.1 h, hzero]
  cases h with
  | plain => cases text <;> rfl
  | plus => cases digits <;> rfl
  | minus => cases digits <;> rfl

/-- Only an empty text is reported as empty. -/
theorem flaw_of_read (h : WithoutSign text negative digits)
    (hread : read low high text = .error flaw) (hrange : flaw ≠ .outOfBounds) :
    flaw = if text = [] then .empty else .invalidDigit := by
  rw [read_of_withoutSign h] at hread
  split at hread
  · cases hread
    rfl
  · next hdigits =>
    have htext : text ≠ [] := by
      cases h with
      | plain => exact hdigits
      | plus => simp
      | minus => simp
    rw [if_neg htext]
    cases flaw with
    | empty => exact absurd hread readDigits_ne_empty
    | invalidDigit => rfl
    | outOfBounds => exact absurd rfl hrange

/-- Zero is within the bounds with either sign. -/
theorem signed_zero_within (hzero : low ≤ 0 ∧ 0 ≤ high) :
    low ≤ signed negative 0 ∧ signed negative 0 ≤ high := by
  cases negative <;> simpa [signed] using hzero

variable (hzero : low ≤ 0 ∧ 0 ≤ high) (h : WithoutSign text negative digits)

include hzero h

/-- A text is read exactly if there are only digits behind its sign, as the integer that they stand
for. -/
theorem read_eq_ok_iff :
    read low high text = .ok value ↔
      IsNumeral digits ∧ value = number negative 0 digits ∧ low ≤ value ∧ value ≤ high := by
  rw [read_of_withoutSign h]
  by_cases hdigits : digits = []
  · simp [hdigits, IsNumeral]
  · rw [if_neg hdigits, readDigits_eq_ok_iff hzero (signed_zero_within hzero), IsNumeral,
      and_iff_right hdigits]

/-- A text is out of bounds exactly if the digits that it starts with behind its sign are. -/
theorem read_eq_outOfBounds_iff :
    read low high text = .error .outOfBounds ↔ Overruns low high negative 0 digits := by
  have hstart : low ≤ signed negative 0 ∧ signed negative 0 ≤ high := signed_zero_within hzero
  rw [read_of_withoutSign h]
  by_cases hdigits : digits = []
  · rw [if_pos hdigits, hdigits]
    exact iff_of_false (by split <;> simp) (not_overruns_nil hstart)
  · rw [if_neg hdigits, readDigits_eq_outOfBounds_iff hstart]

/-- A text is refused for digits that lead out of the bounds, or else for something that is no
digit or for having none. -/
theorem read_eq_error_iff :
    read low high text = .error flaw ↔
      Overruns low high negative 0 digits ∧ flaw = .outOfBounds ∨
        ¬ Overruns low high negative 0 digits ∧ ¬ IsNumeral digits ∧
          flaw = if text = [] then .empty else .invalidDigit := by
  by_cases hoverruns : Overruns low high negative 0 digits
  · rw [(read_eq_outOfBounds_iff hzero h).2 hoverruns]
    simp [hoverruns, eq_comm]
  by_cases hnumeral : IsNumeral digits
  · -- these digits do not lead out of the bounds, so they are read
    have hrange : low ≤ number negative 0 digits ∧ number negative 0 digits ≤ high := by
      by_contra hrange
      exact hoverruns ⟨digits, List.prefix_rfl, hnumeral.2, hrange⟩
    rw [(read_eq_ok_iff hzero h).2 ⟨hnumeral, rfl, hrange⟩]
    simp [hoverruns, hnumeral]
  · have hflaw : read low high text = .error (if text = [] then .empty else .invalidDigit) := by
      cases hread : read low high text with
      | ok value => exact absurd ((read_eq_ok_iff hzero h).1 hread).1 hnumeral
      | error cause =>
          rw [← flaw_of_read h hread]
          rintro rfl
          exact hoverruns ((read_eq_outOfBounds_iff hzero h).1 hread)
    rw [hflaw]
    simp [hoverruns, hnumeral, eq_comm]

end VaultBatch.Decimal
