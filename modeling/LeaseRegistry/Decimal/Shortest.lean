import LeaseRegistry.Decimal.Binary64

/-!
# The shortest numeral of a float

Of the decimal numbers that round to a float, those with the fewest digits, and of these the
nearest one. It is written positionally, however many zeros that takes.
-/

namespace LeaseRegistry.Decimal

/-- The numbers that round to a float, as multiples of a quarter of its unit; the ends belong to
them if `closed`. -/
structure Interval where
  low : Nat
  mid : Nat
  high : Nat
  /-- The exponent of the quarter unit. -/
  exponent : Int
  closed : Bool
  deriving DecidableEq, Repr

namespace Interval

/-- The interval of a float with a positive significand. Below a power of two floats are closer
together. -/
def ofMagnitude (significand : Nat) (exponent : Int) : Interval :=
  let tight := significand = Binary64.leadingBit ∧ Binary64.minExponent < exponent
  { low := 4 * significand - if tight then 1 else 2
    mid := 4 * significand
    high := 4 * significand + 2
    exponent := exponent - 2
    closed := significand % 2 = 0 }

/-- Compares `n` quarter units with `c` times a power of ten: both over a common denominator. -/
def scaled (i : Interval) (n c : Nat) (power : Int) : Nat × Nat :=
  let two : Nat × Nat :=
    if i.exponent < 0 then (1, 1 <<< i.exponent.natAbs) else (1 <<< i.exponent.toNat, 1)
  let ten : Nat × Nat :=
    if power < 0 then (1, powerOfTen power.natAbs) else (powerOfTen power.toNat, 1)
  (n * two.1 * ten.2, c * ten.1 * two.2)

/-- `c` times a power of ten rounds to the float. -/
def contains (i : Interval) (c : Nat) (power : Int) : Bool :=
  let (low, x) := i.scaled i.low c power
  let (high, _) := i.scaled i.high c power
  if i.closed then Nat.ble low x && Nat.ble x high else Nat.blt low x && Nat.blt x high

/-- The multiple of a power of ten that rounds to the float, if there is one; of two the nearer,
of two that are as near the even one. -/
def multiple? (i : Interval) (power : Int) : Option Nat :=
  let (x, unit) := i.scaled i.mid 1 power
  let floor := x / unit
  let nearest := roundDiv x unit
  let other := if nearest = floor then floor + 1 else floor
  if nearest ≠ 0 && i.contains nearest power then some nearest
  else if other ≠ 0 && i.contains other power then some other
  else none

/-- Tries one power of ten after the other, from the greatest one down. -/
def search (i : Interval) (power : Int) : Nat → Nat × Int
  | 0 => (0, 0)
  | steps + 1 =>
    match i.multiple? power with
    | some digits => (digits, power)
    | none => i.search (power - 1) steps

end Interval

/-- The digits and the power of ten of the shortest numeral for a magnitude that is not zero. Every
float is a multiple of the least power of ten that is tried. -/
def shortest (significand : Nat) (exponent : Int) : Nat × Int :=
  (Interval.ofMagnitude significand exponent).search 309 1400

def positional (digits : Nat) (power : Int) : String :=
  let cs := Nat.toDigits 10 digits
  if power < 0 then
    let places := power.natAbs
    let cs := List.replicate (places + 1 - cs.length) '0' ++ cs
    .ofList (cs.take (cs.length - places) ++ '.' :: cs.drop (cs.length - places))
  else .ofList (cs ++ List.replicate power.toNat '0')

/-- The text of the magnitude with these parts. -/
def magnitudeText (significand : Nat) (exponent : Int) : String :=
  if significand = 0 then "0"
  else
    let (digits, power) := shortest significand exponent
    positional digits power

def floatText (x : Float) : String :=
  if x.isNaN then "NaN"
  else
    let sign := if Binary64.isNegative x then "-" else ""
    if x.isInf then sign ++ "inf"
    else
      let (significand, exponent) := Binary64.magnitude x
      sign ++ magnitudeText significand exponent

example : magnitudeText 1 (-1) = "0.5" := by decide +kernel
example : magnitudeText (Binary64.leadingBit + 1) (-52) = "1.0000000000000002" := by decide +kernel
example : magnitudeText Binary64.leadingBit (-50) = "4" := by decide +kernel
example : (shortest 1 (-1074)) = (5, -324) := by decide +kernel

end LeaseRegistry.Decimal
