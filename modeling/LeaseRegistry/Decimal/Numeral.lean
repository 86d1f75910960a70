import LeaseRegistry.Decimal.Binary64

/-!
# Numerals

How numbers are written on a command line and in addresses: decimal digits with an optional sign,
and for floats a point, a power of ten, or the names of the values that are no numbers.
-/

namespace LeaseRegistry.Decimal

/-- The number that decimal digits spell. -/
def natOfDigits (cs : List Char) : Nat :=
  cs.foldl (fun n c => 10 * n + (c.toNat - '0'.toNat)) 0

/-- The number that decimal digits spell, of which there must be some. -/
def natOfDigits? (cs : List Char) : Option Nat :=
  if !cs.isEmpty && cs.all Char.isDigit then some (natOfDigits cs) else none

/-- A number, with a plus sign or without, below `limit`. -/
def number? (limit : Nat) (cs : List Char) : Option Nat :=
  let digits := match cs with
    | '+' :: cs => cs
    | cs => cs
  (natOfDigits? digits).filter fun n => Nat.blt n limit

/-- A number below `limit` in a notation for integers, in which zero may have a minus sign. -/
def integer? (limit : Nat) : List Char → Option Nat
  | '-' :: cs => (natOfDigits? cs).filter (· == 0)
  | cs => number? limit cs

/-- A sign, if there is one, and what follows it. -/
def splitSign : List Char → Bool × List Char
  | '-' :: cs => (true, cs)
  | '+' :: cs => (false, cs)
  | cs => (false, cs)

/-- A power of ten: nothing, or the letter `e` in either case and an integer. -/
def power? : List Char → Option Int
  | [] => some 0
  | c :: cs =>
    if c = 'e' ∨ c = 'E' then
      let (negative, digits) := splitSign cs
      (natOfDigits? digits).map fun n => if negative then -(n : Int) else n
    else none

/-- The digits and the power of ten of a decimal numeral without a sign. A point may stand before,
between or behind the digits. -/
def decimal? (cs : List Char) : Option (Nat × Int) :=
  let whole := cs.takeWhile Char.isDigit
  let (fraction, rest) := match cs.dropWhile Char.isDigit with
    | '.' :: cs => (cs.takeWhile Char.isDigit, cs.dropWhile Char.isDigit)
    | cs => ([], cs)
  if whole.isEmpty && fraction.isEmpty then none
  else (power? rest).map fun p => (natOfDigits (whole ++ fraction), p - fraction.length)

/-- The bits of the magnitude that a numeral for floats stands for, `none` for one that is no
number. -/
def floatMagnitude? (cs : List Char) : Option (Option Nat) :=
  let name := cs.map Char.toLower
  if name = "nan".toList then some none
  else if name = "inf".toList ∨ name = "infinity".toList then some (some Binary64.infinityBits)
  else (decimal? cs).map fun (digits, power) => some (Binary64.decimalBits digits power)

/-- The float that a numeral stands for. -/
def float? (cs : List Char) : Option Float :=
  let (negative, cs) := splitSign cs
  (floatMagnitude? cs).map fun
    | none => 0 / 0
    | some bits => Binary64.ofMagnitude negative bits

example : integer? 10 "-0".toList = some 0 := by decide +kernel
example : number? 10 "+7".toList = some 7 := by decide +kernel
example : decimal? ".5e-1".toList = some (5, -2) := by decide +kernel
example : decimal? "e5".toList = none := by decide +kernel

end LeaseRegistry.Decimal
