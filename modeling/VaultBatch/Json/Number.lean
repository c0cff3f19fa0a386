import VaultBatch.Text.Digit
import VaultBatch.Text.Shortest

/-!
# JSON numbers

A number is first read as its digits. Without a fraction or an exponent it is an integer, as long
as it fits 64 bits; all other numbers are floating point numbers of 64 bits, made from the leading
digits that fit 64 bits and a power of ten, in as few rounded steps as that takes. The negative
zero is a floating point number too. A number too large for one is refused.
-/

namespace VaultBatch.Json

/-- The digits of a number. -/
structure Lexeme where
  negative : Bool
  /-- The digits before the point. -/
  whole : List Nat
  /-- The digits after the point, none if there is no point. -/
  fraction : List Nat
  /-- Whether the exponent is negative, and its digits. -/
  exponent : Option (Bool × List Nat)

/-- What a number stands for. -/
inductive Number where
  /-- An integer that fits 64 bits, with a sign if it is negative. -/
  | integer (value : Int)
  /-- Any other number. -/
  | float (value : Float)

namespace Lexeme

/-- Splits the digits off the start of a text. -/
def splitDigits : List Char → List Nat × List Char
  | [] => ([], [])
  | c :: rest =>
    match Digit.value? 10 c with
    | some digit =>
      let (digits, after) := splitDigits rest
      (digit :: digits, after)
    | none => ([], c :: rest)

/-- Splits the digits before the point off: a zero, or digits that do not start with a zero. -/
def splitWhole (text : List Char) : Option (List Nat × List Char) :=
  match splitDigits text with
  | ([], _) => none
  | (0 :: _ :: _, _) => none
  | split => some split

/-- Splits a point and digits off, if there is a point. -/
def splitFraction : List Char → Option (List Nat × List Char)
  | '.' :: rest =>
    match splitDigits rest with
    | ([], _) => none
    | split => some split
  | rest => some ([], rest)

/-- Splits an exponent with its sign off, after the letter for it. -/
def splitExponentDigits (text : List Char) : Option ((Bool × List Nat) × List Char) :=
  let (negative, text) := match text with
    | '+' :: rest => (false, rest)
    | '-' :: rest => (true, rest)
    | rest => (false, rest)
  match splitDigits text with
  | ([], _) => none
  | (digits, rest) => some ((negative, digits), rest)

/-- Splits an exponent off, if there is a letter for it. -/
def splitExponent : List Char → Option (Option (Bool × List Nat) × List Char)
  | 'e' :: rest => (splitExponentDigits rest).map fun (exponent, after) => (some exponent, after)
  | 'E' :: rest => (splitExponentDigits rest).map fun (exponent, after) => (some exponent, after)
  | rest => some (none, rest)

/-- Splits a number off the start of a text. -/
def split (text : List Char) : Option (Lexeme × List Char) := do
  let (negative, text) := match text with
    | '-' :: rest => (true, rest)
    | rest => (false, rest)
  let (whole, text) ← splitWhole text
  let (fraction, text) ← splitFraction text
  let (exponent, text) ← splitExponent text
  return (⟨negative, whole, fraction, exponent⟩, text)

/-- The number that digits stand for. -/
def natOfDigits (digits : List Nat) : Nat :=
  digits.foldl (fun value digit => 10 * value + digit) 0

/-- The first number that does not fit 64 bits. -/
def wordBound : Nat := 0x10000000000000000

/-- Takes digits onto a number as long as it fits 64 bits; the second part counts the digits that
were taken. -/
def takeDigits (value : Nat) : List Nat → Nat × Nat
  | [] => (value, 0)
  | digit :: rest =>
    if 10 * value + digit < wordBound then
      let (value, taken) := takeDigits (10 * value + digit) rest
      (value, taken + 1)
    else (value, 0)

/-- Multiplies a number by a power of ten, in steps of powers that are floating point numbers. The
first part of the result tells steps apart that are left from a number too large. -/
def scale : Nat → Float → Int → Option Float
  | 0, value, _ => some value
  | fuel + 1, value, power =>
    if power.natAbs ≤ 308 then
      let ten := Float.ofScientific 1 false power.natAbs
      if 0 ≤ power then
        let scaled := value * ten
        if scaled.isInf then none else some scaled
      else some (value / ten)
    else if value == 0 then some value
    else if 0 ≤ power then none
    else scale fuel (value / Float.ofScientific 1 false 308) (power + 308)

/-- The floating point number of leading digits and a power of ten. -/
def floatOfParts (negative : Bool) (digits : Nat) (power : Int) : Option Float :=
  (scale (power.natAbs / 308 + 2) digits.toUInt64.toFloat power).map fun value =>
    if negative then -value else value

/-- The largest exponent that is looked at. -/
def maxExponent : Nat := 0x7fffffff

/-- The floating point number that a number stands for. -/
def float (number : Lexeme) : Option Float :=
  let (wholePart, takenWhole) := takeDigits 0 number.whole
  let (digits, takenFraction) := takeDigits wholePart number.fraction
  let power : Int := (number.whole.length - takenWhole : Nat) - (takenFraction : Int)
  match number.exponent with
  | none => floatOfParts number.negative digits power
  | some (below, exponentDigits) =>
    let exponent := natOfDigits exponentDigits
    if exponent ≤ maxExponent then
      floatOfParts number.negative digits (if below then power - exponent else power + exponent)
    else if digits = 0 ∨ below then some (if number.negative then -0.0 else 0.0)
    else none

/-- What a number stands for. -/
def value (number : Lexeme) : Option Number :=
  let whole := natOfDigits number.whole
  if number.fraction.isEmpty && number.exponent.isNone then
    if number.negative then
      if 0 < whole ∧ 2 * whole ≤ wordBound then some (.integer (-whole)) else number.float.map .float
    else if whole < wordBound then some (.integer whole)
    else number.float.map .float
  else number.float.map .float

end Lexeme
end VaultBatch.Json
