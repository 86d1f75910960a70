/-!
# Numbers of JSON texts

A number is kept as it is spelled: its sign, its integer part (which JSON writes without leading
zeros, so a natural number holds it), the digits after its point and its exponent. Integer fields
read `natural?`; `overflows` says which numbers are too large for a 64-bit binary float.
-/

namespace LeaseRegistry.Json

structure Number where
  negative : Bool
  whole : Nat
  /-- The digits after the point, which is written only if there are any. -/
  fraction : List (Fin 10)
  exponent : Option Int
  deriving DecidableEq, Repr

namespace Number

def ofNat (n : Nat) : Number := ⟨false, n, [], none⟩

def natural? (n : Number) : Option Nat :=
  if n.negative || !n.fraction.isEmpty || n.exponent.isSome then none else some n.whole

@[simp] theorem natural?_ofNat (n : Nat) : (ofNat n).natural? = some n := rfl

def digits (n : Nat) : List (Fin 10) :=
  (Nat.toDigits 10 n).map fun c => Fin.ofNat 10 (c.toNat - '0'.toNat)

/-- Reads on while the value fits in 64 bits; the digits that do not are left over. -/
def leading (acc : Nat) : List (Fin 10) → Nat × List (Fin 10)
  | [] => (acc, [])
  | d :: ds => if acc * 10 + d.val < UInt64.size then leading (acc * 10 + d.val) ds else (acc, d :: ds)

/-- The number as a 64-bit significand and a power of ten; digits beyond the significand count
only by their place. -/
def scientific (n : Number) : Nat × Int :=
  let whole := leading 0 (digits n.whole)
  let all := leading whole.1 n.fraction
  (all.1, whole.2.length - (n.fraction.length - all.2.length : Nat) + n.exponent.getD 0)

/-- The number is an integer of at most 64 bits, or is not: then it is read as a float, and no
float is large enough for it. -/
def overflows (n : Number) : Bool :=
  let (significand, power) := n.scientific
  significand ≠ 0 && power > 0 &&
    (power > 308 || (significand.toUInt64.toFloat * Float.ofScientific 1 false power.toNat).isInf)

/-- Divides by a power of ten, in steps that are floats themselves; `steps` of them are enough. -/
def divPower (x : Float) (power : Nat) : Nat → Float
  | 0 => 0
  | steps + 1 =>
    if power ≤ 308 then x / Float.ofScientific 1 false power
    else divPower (x / Float.ofScientific 1 false 308) (power - 308) steps

/-- The value in double precision: the significand times or over a power of ten. -/
def toFloat (n : Number) : Float :=
  let (significand, power) := n.scientific
  let x := significand.toUInt64.toFloat
  let x := if power < 0 then divPower x power.natAbs 3 else x * Float.ofScientific 1 false power.toNat
  if n.negative then -x else x

/-! ## Spelling -/

def digitByte (d : Fin 10) : UInt8 := 48 + d.val.toUInt8

def natBytes (n : Nat) : List UInt8 :=
  (Nat.toDigits 10 n).map fun c => c.toNat.toUInt8

def exponentBytes (e : Int) : List UInt8 :=
  if e < 0 then 0x65 :: 0x2D :: natBytes e.natAbs else 0x65 :: natBytes e.natAbs

/-- The literal: sign, integer part, point and digits, exponent. -/
def bytes (n : Number) : List UInt8 :=
  (if n.negative then [0x2D] else []) ++ natBytes n.whole ++
  (if n.fraction.isEmpty then [] else 0x2E :: n.fraction.map digitByte) ++
  (n.exponent.map exponentBytes).getD []

/-! ## Reading -/

def isDigit (b : UInt8) : Bool := 48 ≤ b && b ≤ 57

def digitOf (b : UInt8) : Fin 10 := Fin.ofNat 10 (b.toNat - 48)

def natOf (ds : List UInt8) : Nat :=
  ds.foldl (fun acc b => 10 * acc + (b.toNat - 48)) 0

def spanDigits (s : List UInt8) : List UInt8 × List UInt8 :=
  (s.takeWhile isDigit, s.dropWhile isDigit)

/-- The integer part: a single zero, or digits that start with another digit. -/
def readWhole : List UInt8 → Option (Nat × List UInt8)
  | 0x30 :: rest => some (0, rest)
  | s =>
    let (ds, rest) := spanDigits s
    if ds.isEmpty then none else some (natOf ds, rest)

def readFraction : List UInt8 → Option (List (Fin 10) × List UInt8)
  | 0x2E :: s =>
    let (ds, rest) := spanDigits s
    if ds.isEmpty then none else some (ds.map digitOf, rest)
  | s => some ([], s)

def readPower (negative : Bool) (s : List UInt8) : Option (Option Int × List UInt8) :=
  let (ds, rest) := spanDigits s
  if ds.isEmpty then none
  else some (some (if negative then -(natOf ds : Int) else natOf ds), rest)

def readExponent : List UInt8 → Option (Option Int × List UInt8)
  | 0x65 :: s | 0x45 :: s =>
    match s with
    | 0x2B :: s => readPower false s
    | 0x2D :: s => readPower true s
    | s => readPower false s
  | s => some (none, s)

def read (s : List UInt8) : Option (Number × List UInt8) := do
  let (negative, s) := match s with
    | 0x2D :: s => (true, s)
    | s => (false, s)
  let (whole, s) ← readWhole s
  let (fraction, s) ← readFraction s
  let (exponent, s) ← readExponent s
  return (⟨negative, whole, fraction, exponent⟩, s)

end Number

end LeaseRegistry.Json
