import VaultBatch.Text.Digit

/-!
# Decimal integers

Integers are written with the fewest digits and a sign only if negative. They are read from left
to right within bounds: `read` refuses the first character that is no digit, or the first prefix
that stands for a number out of bounds, whichever comes first. At one and the same character the
missing digit is what is reported.
-/

namespace VaultBatch.Decimal

/-- The decimal digits of a natural number. -/
def ofNat (n : Nat) : List Char :=
  Nat.toDigits 10 n

/-- An integer in decimal, with a sign if it is negative. -/
def ofInt : Int → List Char
  | .ofNat n => ofNat n
  | .negSucc n => '-' :: ofNat (n + 1)

/-- Why a text is no integer within the bounds. -/
inductive Flaw where
  /-- The text is empty. -/
  | empty
  /-- A character is no digit, or there is nothing after the sign. -/
  | invalidDigit
  /-- The number is out of bounds. -/
  | outOfBounds
  deriving DecidableEq

/-- The flaw in words. -/
def Flaw.message : Flaw → String
  | .empty => "cannot parse integer from empty string"
  | .invalidDigit => "invalid digit found in string"
  | .outOfBounds => "number out of bounds"

/-- Reads digits onto a number already read; a negative number grows downwards. -/
def readDigits (low high : Int) (negative : Bool) : Int → List Char → Except Flaw Int
  | value, [] => .ok value
  | value, c :: rest =>
    match Digit.value? 10 c with
    | none => .error .invalidDigit
    | some digit =>
      let next := if negative then value * 10 - digit else value * 10 + digit
      if low ≤ next ∧ next ≤ high then readDigits low high negative next rest
      else .error .outOfBounds

/-- Splits a sign off: whether the number is negative, and its digits. -/
def splitSign : List Char → Bool × List Char
  | '+' :: digits => (false, digits)
  | '-' :: digits => (true, digits)
  | digits => (false, digits)

/-- Reads an integer within bounds: at most one sign, then at least one digit. -/
def read (low high : Int) (text : List Char) : Except Flaw Int :=
  if text.isEmpty then .error .empty
  else
    let (negative, digits) := splitSign text
    if digits.isEmpty then .error .invalidDigit else readDigits low high negative 0 digits

end VaultBatch.Decimal
