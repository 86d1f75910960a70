/-!
# Hexadecimal text

Bytes as pairs of hexadecimal digits, the high digit first.
-/

namespace LeaseRegistry.Text.Hex

def digit (n : Nat) : Char := Char.ofNat (if n < 10 then 48 + n else 87 + n)

def value? (c : Char) : Option Nat :=
  if c.isDigit then some (c.toNat - 48)
  else if 'a' ≤ c && c ≤ 'f' then some (c.toNat - 87)
  else if 'A' ≤ c && c ≤ 'F' then some (c.toNat - 55)
  else none

def encode (bytes : List UInt8) : String :=
  .ofList (bytes.flatMap fun b => [digit (b.toNat / 16), digit (b.toNat % 16)])

def decodeChars? : List Char → Option (List UInt8)
  | [] => some []
  | a :: b :: cs => do return ((← value? a) * 16 + (← value? b)).toUInt8 :: (← decodeChars? cs)
  | [_] => none

def decode? (s : String) : Option (List UInt8) := decodeChars? s.toList

def digits (count n : Nat) : String :=
  .ofList ((List.range count).map fun i => digit ((n >>> (4 * (count - 1 - i))) % 16))

end LeaseRegistry.Text.Hex
