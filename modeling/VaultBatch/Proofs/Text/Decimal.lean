import Mathlib.Data.List.Basic
import VaultBatch.Amount

/-!
# Decimal numbers are read back

A natural number is written in digits that stand for it (`Decimal.ofDigitChars_ofNat`), with no zero
before other digits (`Decimal.ofNat_eq_cons`). Reading within bounds gives every integer within them
back from its digits (`Decimal.read_ofInt`).
-/

namespace VaultBatch

namespace Digit

/-- The digits are the characters from 48 to 57. -/
theorem isDigit_iff_toNat (c : Char) : c.isDigit = true ↔ 48 ≤ c.toNat ∧ c.toNat ≤ 57 := by
  rw [Char.isDigit, Bool.and_eq_true, decide_eq_true_eq, decide_eq_true_eq]
  exact Iff.rfl

/-- The digits of base ten are the ASCII digits. -/
theorem value?_ten (c : Char) : value? 10 c = if c.isDigit then some (c.toNat - 48) else none := by
  have hdigit := isDigit_iff_toNat c
  simp only [value?]
  by_cases h : c.isDigit = true
  · have hc := hdigit.1 h
    rw [if_pos h, if_pos hc, Option.filter_eq_some_iff]
    simp
    omega
  · -- letters have values from ten on
    rw [if_neg h, if_neg (mt hdigit.2 h), Option.filter_eq_none_iff]
    intro n hn
    split at hn
    · cases hn
      simp
      omega
    · split at hn
      · cases hn
        simp
        omega
      · cases hn

/-- A digit is no blank. -/
theorem isBlank_eq_false {c : Char} (h : c.isDigit = true) : Text.isBlank c = false := by
  have hc := (isDigit_iff_toNat c).1 h
  simp [Text.isBlank]
  omega

end Digit

namespace Decimal

/-- A natural number has a digit. -/
theorem ofNat_ne_nil (n : Nat) : ofNat n ≠ [] :=
  Nat.toDigits_ne_nil

/-- A natural number is written in digits only. -/
theorem isDigit_of_mem_ofNat {n : Nat} {c : Char} (h : c ∈ ofNat n) : c.isDigit = true :=
  Nat.isDigit_of_mem_toDigits (by decide) (by decide) h

/-- Digits stand for the number that they are written for. -/
theorem ofDigitChars_ofNat (n : Nat) : Nat.ofDigitChars 10 (ofNat n) 0 = n :=
  Nat.ofDigitChars_ten_toDigits

/-- A number starts with a digit, and only the number zero starts with a zero. -/
theorem ofNat_eq_cons (n : Nat) :
    ∃ c rest, ofNat n = c :: rest ∧ c.isDigit = true ∧ (c = '0' → rest = []) := by
  induction n using Nat.strongRecOn with
  | ind n ih =>
      rcases Nat.lt_or_ge n 10 with hlt | hge
      · have heq : ofNat n = [Nat.digitChar n] := Nat.toDigits_of_lt_base hlt
        exact ⟨_, [], heq, isDigit_of_mem_ofNat (heq ▸ List.mem_cons_self), fun _ => rfl⟩
      · have hstep : ofNat n = ofNat (n / 10) ++ [Nat.digitChar (n % 10)] :=
          Nat.toDigits_of_base_le (by decide) hge
        obtain ⟨c, rest, heq, hdigit, hzero⟩ := ih (n / 10) (by omega)
        refine ⟨c, rest ++ [_], by rw [hstep, heq]; rfl, hdigit, ?_⟩
        -- a zero in front would be all of `n / 10`, which is positive
        intro hc
        have hvalue := ofDigitChars_ofNat (n / 10)
        rw [heq, hzero hc, hc] at hvalue
        have : n / 10 = 0 := hvalue.symm
        omega

/-! ## Reading within bounds -/

/-- A natural number with a sign. -/
def signed (negative : Bool) (n : Nat) : Int :=
  if negative then -n else n

/-- An integer is its size with its sign. -/
theorem signed_natAbs (value : Int) : signed (decide (value < 0)) value.natAbs = value := by
  by_cases h : value < 0
  · rw [decide_eq_true h]
    show -(value.natAbs : Int) = value
    omega
  · rw [decide_eq_false h]
    show (value.natAbs : Int) = value
    omega

variable {low high : Int} {negative : Bool}

/-- A number nearer to zero is within the bounds as well. -/
theorem signed_within {m n : Nat} (hzero : low ≤ 0 ∧ 0 ≤ high) (hle : m ≤ n)
    (h : low ≤ signed negative n ∧ signed negative n ≤ high) :
    low ≤ signed negative m ∧ signed negative m ≤ high := by
  cases negative <;> simp only [signed, Bool.false_eq_true, if_false, if_true] at h ⊢ <;> omega

/-- A digit is read onto the size of a number, whatever its sign. -/
theorem signed_digit (n digit : Nat) :
    (if negative then signed negative n * 10 - (digit : Int)
      else signed negative n * 10 + digit) = signed negative (10 * n + digit) := by
  cases negative <;> simp [signed] <;> omega

/-- Further digits make a number no smaller. -/
theorem le_ofDigitChars (text : List Char) (n : Nat) : n ≤ Nat.ofDigitChars 10 text n := by
  induction text generalizing n with
  | nil => exact Nat.le_refl n
  | cons c text ih =>
      rw [Nat.ofDigitChars_cons]
      exact Nat.le_trans (by omega) (ih _)

/-- Digits are read onto a number if all of them together stay within bounds. -/
theorem readDigits_eq_ok {text : List Char} (htext : ∀ c ∈ text, c.isDigit = true)
    (hzero : low ≤ 0 ∧ 0 ≤ high) {n : Nat}
    (h : low ≤ signed negative (Nat.ofDigitChars 10 text n) ∧
      signed negative (Nat.ofDigitChars 10 text n) ≤ high) :
    readDigits low high negative (signed negative n) text =
      .ok (signed negative (Nat.ofDigitChars 10 text n)) := by
  induction text generalizing n with
  | nil => rfl
  | cons c text ih =>
      obtain ⟨hc, htext⟩ := List.forall_mem_cons.1 htext
      rw [Nat.ofDigitChars_cons, show '0'.toNat = 48 from rfl] at h ⊢
      -- the number grows with each digit, so it is within bounds at every step
      have hnext := signed_within hzero (le_ofDigitChars text _) h
      rw [readDigits, Digit.value?_ten, if_pos hc]
      simp only [signed_digit]
      rw [if_pos hnext]
      exact ih htext h

/-- There is no sign in front of a digit. -/
theorem splitSign_of_isDigit {c : Char} (h : c.isDigit = true) (rest : List Char) :
    splitSign (c :: rest) = (false, c :: rest) := by
  unfold splitSign
  split
  · next heq =>
    cases heq
    cases h
  · next heq =>
    cases heq
    cases h
  · rfl

/-- A written integer is split into its sign and the digits of its size. -/
theorem splitSign_ofInt (value : Int) :
    splitSign (ofInt value) = (decide (value < 0), ofNat value.natAbs) := by
  cases value with
  | ofNat n =>
      obtain ⟨c, rest, heq, hc, -⟩ := ofNat_eq_cons n
      rw [ofInt, heq, splitSign_of_isDigit hc, ← heq]
      rfl
  | negSucc n =>
      rw [decide_eq_true (Int.negSucc_lt_zero n)]
      rfl

/-- An integer has a digit. -/
theorem ofInt_ne_nil (value : Int) : ofInt value ≠ [] := by
  intro hnil
  have hsplit := splitSign_ofInt value
  rw [hnil] at hsplit
  exact ofNat_ne_nil _ (congrArg Prod.snd hsplit).symm

/-- Every integer within bounds is read back from its digits. -/
theorem read_ofInt (hzero : low ≤ 0 ∧ 0 ≤ high) {value : Int} (h : low ≤ value ∧ value ≤ high) :
    read low high (ofInt value) = .ok value := by
  have hvalue :
      signed (decide (value < 0)) (Nat.ofDigitChars 10 (ofNat value.natAbs) 0) = value := by
    rw [ofDigitChars_ofNat, signed_natAbs]
  have hdigits : readDigits low high (decide (value < 0)) (signed (decide (value < 0)) 0)
      (ofNat value.natAbs) = .ok _ :=
    readDigits_eq_ok (fun _ => isDigit_of_mem_ofNat) hzero (hvalue.symm ▸ h)
  have hstart : signed (decide (value < 0)) 0 = 0 := by simp [signed]
  rw [hvalue, hstart] at hdigits
  have hdigit : (ofNat value.natAbs).isEmpty = false := List.isEmpty_eq_false_iff.2 (ofNat_ne_nil _)
  have htext : (ofInt value).isEmpty = false := List.isEmpty_eq_false_iff.2 (ofInt_ne_nil value)
  rw [read, htext, splitSign_ofInt]
  simp only [Bool.false_eq_true, if_false, hdigit]
  exact hdigits

/-- An integer is written in digits and a minus only. -/
theorem mem_ofInt {value : Int} {c : Char} (h : c ∈ ofInt value) :
    c = '-' ∨ c.isDigit = true := by
  cases value with
  | ofNat n => exact .inr (isDigit_of_mem_ofNat h)
  | negSucc n =>
      rcases List.mem_cons.1 h with rfl | h
      · exact .inl rfl
      · exact .inr (isDigit_of_mem_ofNat h)

end Decimal
end VaultBatch
