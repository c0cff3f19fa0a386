/-!
# Shortest decimal digits

A floating point number of 64 bits stands for `m * 2^q`, and every real number nearer to it than to
its neighbours rounds to it, the middle going to the even one. Of the decimals in this interval
one with the fewest digits is written, and of those the nearest. All comparisons are exact, on
naturals.

Numbers from `10^-5` up to `10^16` are written with a point, with at least one digit on either
side; others have a point after the first digit, if there are more, and an exponent with its sign.
-/

namespace VaultBatch.Shortest

/-- A positive number with the interval of numbers that round to it: `4 * m`, less `below` and
more `above`, in units of `2^(q - 2)`, ends included if `m` is even. -/
structure Interval where
  m : Nat
  q : Int
  below : Nat
  above : Nat

/-- How many values the fraction field has. -/
def fractionCount : Nat := 0x10000000000000

/-- The interval of a positive number given by its exponent field and its fraction field. -/
def interval (exponent fraction : Nat) : Interval :=
  if exponent = 0 then ⟨fraction, -1074, 2, 2⟩
  else ⟨fractionCount + fraction, (exponent : Int) - 1075,
    if fraction = 0 ∧ 1 < exponent then 1 else 2, 2⟩

namespace Interval

/-- Compares `a * 2^(q - 2)` with `b * 10^k`. -/
def compareScaled (i : Interval) (a b : Nat) (k : Int) : Ordering :=
  compare (a * Nat.pow 2 (i.q - 2).toNat * Nat.pow 10 (-k).toNat)
    (b * Nat.pow 10 k.toNat * Nat.pow 2 (2 - i.q).toNat)

/-- Whether `d * 10^k` lies in the interval. -/
def contains (i : Interval) (d : Nat) (k : Int) : Bool :=
  let low := i.compareScaled (4 * i.m - i.below) d k
  let high := i.compareScaled (4 * i.m + i.above) d k
  if i.m % 2 = 0 then low.isLE && high.isGE else low.isLT && high.isGT

/-- The number rounded down to a multiple of `10^k`, in units of it. -/
def floor (i : Interval) (k : Int) : Nat :=
  4 * i.m * Nat.pow 2 (i.q - 2).toNat * Nat.pow 10 (-k).toNat /
    (Nat.pow 10 k.toNat * Nat.pow 2 (2 - i.q).toNat)

/-- Whether `d + 1` units of `10^k` are nearer to the number than `d` are. -/
def roundsUp (i : Interval) (d : Nat) (k : Int) : Bool :=
  match i.compareScaled (8 * i.m) (2 * d + 1) k with
  | .lt => false
  | .eq => d % 2 = 1
  | .gt => true

/-- A multiple of `10^k` in the interval, the nearer one if there are two beside the number. -/
def onGrid (i : Interval) (k : Int) : Option Nat :=
  let d := i.floor k
  match i.contains d k, i.contains (d + 1) k with
  | true, true => some (if i.roundsUp d k then d + 1 else d)
  | true, false => some d
  | false, true => some (d + 1)
  | false, false => none

/-- The power of ten at or below the number, found from a guess that is not below it. -/
def magnitude (i : Interval) : Nat → Int → Int
  | 0, e => e
  | fuel + 1, e => if i.floor e = 0 then magnitude i fuel (e - 1) else e

/-- The shortest digits, on ever finer grids from the one of the leading digit on. -/
def shortest (i : Interval) : Nat → Int → Nat × Int
  | 0, k => (i.floor k, k)
  | fuel + 1, k =>
    match i.onGrid k with
    | some d => (d, k)
    | none => shortest i fuel (k - 1)

/-- Digits `d`, not ending in zero, and a power `k` such that `d * 10^k` is the shortest decimal
of the number. Only the coarsest grid can give a zero, when the number is rounded up to ten. -/
def digits (i : Interval) : Nat × Int :=
  let (d, k) := i.shortest 17 (i.magnitude 700 310)
  if d = 10 then (1, k + 1) else (d, k)

end Interval

/-- An exponent, which always has a sign. -/
def writeExponent (exponent : Int) : List Char :=
  (if exponent < 0 then '-' else '+') :: Nat.toDigits 10 exponent.natAbs

/-- Writes `d * 10^k`, where `d` is positive. -/
def render (d : Nat) (k : Int) : List Char :=
  let digits := Nat.toDigits 10 d
  let point : Int := digits.length + k
  if 0 ≤ k ∧ point ≤ 16 then digits ++ List.replicate k.toNat '0' ++ ['.', '0']
  else if 0 < point ∧ point ≤ 16 then
    digits.take point.toNat ++ '.' :: digits.drop point.toNat
  else if -5 < point ∧ point ≤ 0 then '0' :: '.' :: List.replicate (-point).toNat '0' ++ digits
  else
    let exponent := writeExponent (point - 1)
    match digits with
    | [digit] => digit :: 'e' :: exponent
    | digit :: more => digit :: '.' :: more ++ 'e' :: exponent
    | [] => []

/-- The decimal form of a finite floating point number. -/
def ofFloat (x : Float) : List Char :=
  let bits := x.toBits.toNat
  let exponent := bits / fractionCount % 0x800
  let fraction := bits % fractionCount
  let sign := if bits < 0x8000000000000000 then [] else ['-']
  if exponent = 0 ∧ fraction = 0 then sign ++ ['0', '.', '0']
  else
    let (d, k) := (interval exponent fraction).digits
    sign ++ render d k

end VaultBatch.Shortest
