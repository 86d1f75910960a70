/-!
# Binary floating point in exact arithmetic

A finite float in double precision is a significand times a power of two. Here floats are taken
apart, and made from fractions and from decimal numerals, in natural numbers, so that nothing is
rounded but the result: to the nearest float, a half to the one with the even significand.
-/

namespace LeaseRegistry.Decimal

/-- `num / den` rounded to the nearest natural number, a half to the even one. -/
def roundDiv (num den : Nat) : Nat :=
  let q := num / den
  let r := num % den
  if den < 2 * r ∨ (2 * r = den ∧ q % 2 = 1) then q + 1 else q

def powerOfTen (n : Nat) : Nat := Nat.pow 10 n

namespace Binary64

/-- The bits of the fraction of a significand. -/
def fractionBits : Nat := 52

/-- The leading bit of a full significand, which is not stored. -/
def leadingBit : Nat := 1 <<< fractionBits

def signBit : Nat := 1 <<< 63

def exponentCount : Nat := 2048

def minExponent : Int := -1074

def infinityBits : Nat := 0x7FF0000000000000

/-- The significand and the exponent of the magnitude of a finite float. -/
def magnitude (x : Float) : Nat × Int :=
  let bits := x.toBits.toNat
  let exponent := (bits >>> fractionBits) % exponentCount
  let fraction := bits % leadingBit
  if exponent = 0 then (fraction, minExponent)
  else (fraction + leadingBit, minExponent + (exponent - 1 : Nat))

def isNegative (x : Float) : Bool := Nat.ble signBit x.toBits.toNat

/-- `num / den` in units of `2 ^ e`, rounded. -/
def inUnits (num den : Nat) (e : Int) : Nat :=
  if e < 0 then roundDiv (num <<< e.natAbs) den else roundDiv num (den <<< e.toNat)

/-- The exponent at which a positive fraction has a significand of full length, or the least one. -/
def exponentFor (num den : Nat) : Int :=
  let low : Int := (Nat.log2 num : Int) - Nat.log2 den - 53
  let full : Bool :=
    if low < 0 then Nat.ble (2 * leadingBit * den) (num <<< low.natAbs)
    else Nat.ble ((2 * leadingBit * den) <<< low.toNat) num
  max (if full then low + 1 else low) minExponent

/-- The bits of the float that is nearest to a fraction. Adding the significand to the exponent's
bits also carries where rounding makes it one bit longer. -/
def nearestBits (num den : Nat) : Nat :=
  if num = 0 then 0
  else
    let e := exponentFor num den
    min ((e - minExponent).toNat * leadingBit + inUnits num den e) infinityBits

/-- The float of a sign and the bits of a magnitude. -/
def ofMagnitude (negative : Bool) (bits : Nat) : Float :=
  .ofBits (bits + if negative then signBit else 0).toUInt64

/-- The bits of the float nearest to `digits` times a power of ten. Beyond the range of floats the
numbers are not computed. -/
def decimalBits (digits : Nat) (power : Int) : Nat :=
  let places := (Nat.toDigits 10 digits).length + power
  if digits = 0 ∨ places < -330 then 0
  else if 310 < places then infinityBits
  else if power < 0 then nearestBits digits (powerOfTen power.natAbs)
  else nearestBits (digits * powerOfTen power.toNat) 1

example : decimalBits 85 (-2) = 0x3FEB333333333333 := by decide +kernel
example : decimalBits 5 (-324) = 1 := by decide +kernel
example : decimalBits 179769313486231570 291 = 0x7FEFFFFFFFFFFFFF := by decide +kernel
example : decimalBits 1 309 = infinityBits := by decide +kernel

end Binary64

end LeaseRegistry.Decimal
