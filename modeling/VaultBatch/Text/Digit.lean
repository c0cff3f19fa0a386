/-!
# Digits

The values of ASCII digits in bases up to sixteen, letters of either case standing for ten to
fifteen.
-/

namespace VaultBatch.Digit

/-- The value of a digit in a base. -/
def value? (base : Nat) (c : Char) : Option Nat :=
  let n := c.toNat
  let value :=
    if 48 ≤ n ∧ n ≤ 57 then some (n - 48)
    else if 97 ≤ n ∧ n ≤ 102 then some (n - 87)
    else if 65 ≤ n ∧ n ≤ 70 then some (n - 55)
    else none
  value.filter (· < base)

/-- The value of a digit is below its base. -/
theorem lt_of_value?_eq_some {base n : Nat} {c : Char} (h : value? base c = some n) : n < base := by
  obtain ⟨-, hn⟩ := Option.filter_eq_some_iff.1 h
  simpa using hn

end VaultBatch.Digit
