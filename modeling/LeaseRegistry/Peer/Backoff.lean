import LeaseRegistry.Decimal.Binary64
import LeaseRegistry.Lease

/-!
# Exponential backoff

The delay before the attempt after `n` failures is the initial delay times the factor to the power
`n - 1`, but no more than the longest delay. It is computed in double precision, as seconds, and
rounded to nanoseconds with ties to even. `Reconnect` keeps the failures of one connection and the
time before which it is not tried again.
-/

namespace LeaseRegistry

structure Backoff where
  initial : Millis
  longest : Millis
  factor : Float
  attempts : Option UInt32

namespace Backoff

/-- Half a second, doubling up to thirty seconds. -/
def standard (attempts : UInt32) : Backoff := ⟨500, 30000, 2, some attempts⟩

/-- A duration in seconds: the whole seconds plus the fraction. -/
def seconds (d : Millis) : Float :=
  (d / 1000).toUInt64.toFloat + (d % 1000 * 1000000).toUInt64.toFloat / 1000000000

/-- Multiplies `acc` by the power `n` of `a`, by repeated squaring. `n` has at most `bits` bits. -/
def mulPower (acc a : Float) : Nat → Nat → Float
  | 0, _ => acc
  | bits + 1, n =>
    let acc := if n % 2 = 1 then acc * a else acc
    if n / 2 = 0 then acc else mulPower acc (a * a) bits (n / 2)

def power (a : Float) (n : Int) : Float :=
  let p := mulPower 1 a 32 n.natAbs
  if n < 0 then 1 / p else p

/-- The smaller of two floats; a number if one of them is none. -/
def lesser (a b : Float) : Float :=
  if a.isNaN then b else if b.isNaN then a else if b < a then b else a

def nanoseconds (x : Float) : Nat :=
  let (significand, exponent) := Decimal.Binary64.magnitude x
  if exponent < 0 then Decimal.roundDiv (significand * 1000000000) (1 <<< exponent.natAbs)
  else (significand * 1000000000) <<< exponent.toNat

def exponent (attempt : UInt32) : Int :=
  (attempt - min attempt 1).toInt32.toInt

/-- The delay for an attempt in nanoseconds. There is none if the factor makes it negative. -/
def delay? (b : Backoff) (attempt : UInt32) : Option Nat :=
  let s := lesser (seconds b.initial * power b.factor (exponent attempt)) (seconds b.longest)
  if s < 0 then none else some (nanoseconds s)

/-- The delay for an attempt in whole milliseconds; none at all where `delay?` gives none. -/
def delayMillis (b : Backoff) (attempt : UInt32) : Millis :=
  (b.delay? attempt).getD 0 / 1000000

end Backoff

structure Reconnect where
  failures : UInt32
  nextAt : Option Time
  deriving DecidableEq, Repr

namespace Reconnect

def fresh : Reconnect := ⟨0, none⟩

/-- Counts a failure at `now` and delays the next attempt by what `delay` says for their number. -/
def schedule (r : Reconnect) (delay : UInt32 → Millis) (now : Time) : Reconnect :=
  ⟨r.failures + 1, some (now.after (delay (r.failures + 1)))⟩

def isDue (r : Reconnect) (now : Time) : Bool :=
  match r.nextAt with
  | none => true
  | some t => decide (t ≤ now)

end Reconnect

end LeaseRegistry
