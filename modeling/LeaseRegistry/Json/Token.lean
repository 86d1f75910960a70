import LeaseRegistry.Json.Number

/-!
# Tokens of JSON texts

`Token.scan` cuts the bytes of a JSON text into tokens and `Token.bytes` spells a token compactly.
A string literal whose bytes are no Unicode text (invalid UTF-8, a lone surrogate escape) is a
token like any other: a reader may skip it, and only a reader that wants its text refuses it.
-/

namespace LeaseRegistry.Json

/-- The text of a string literal, or `none` when the literal spells no Unicode text. -/
abbrev Text := Option String

inductive Token where
  | openObject
  | closeObject
  | openArray
  | closeArray
  | colon
  | comma
  | null
  | bool (b : Bool)
  | number (n : Number)
  | string (s : Text)
  deriving DecidableEq, Repr

namespace Token

/-! ## Spelling -/

/-- The lower-case hexadecimal digit of a number below 16. -/
def hexByte (n : UInt8) : UInt8 :=
  if n < 10 then 48 + n else 87 + n

/-- A byte of a string literal: quote, backslash and control characters are escaped. -/
def escapeByte (b : UInt8) : List UInt8 :=
  if b = 0x22 then [0x5C, 0x22]
  else if b = 0x5C then [0x5C, 0x5C]
  else if b = 0x08 then [0x5C, 0x62]
  else if b = 0x0C then [0x5C, 0x66]
  else if b = 0x0A then [0x5C, 0x6E]
  else if b = 0x0D then [0x5C, 0x72]
  else if b = 0x09 then [0x5C, 0x74]
  else if b < 0x20 then [0x5C, 0x75, 0x30, 0x30, hexByte (b / 16), hexByte (b % 16)]
  else [b]

def quoted (content : List UInt8) : List UInt8 :=
  0x22 :: (content.flatMap escapeByte ++ [0x22])

/-- The literal of a text; the byte `FF`, which is in no text, spells `none`. -/
def stringBytes : Text → List UInt8
  | some s => quoted s.toUTF8.toList
  | none => quoted [0xFF]

def bytes : Token → List UInt8
  | openObject => [0x7B]
  | closeObject => [0x7D]
  | openArray => [0x5B]
  | closeArray => [0x5D]
  | colon => [0x3A]
  | comma => [0x2C]
  | null => [0x6E, 0x75, 0x6C, 0x6C]
  | bool true => [0x74, 0x72, 0x75, 0x65]
  | bool false => [0x66, 0x61, 0x6C, 0x73, 0x65]
  | number n => n.bytes
  | string s => stringBytes s

/-! ## Reading -/

def hexValue? (b : UInt8) : Option Nat :=
  if 48 ≤ b && b ≤ 57 then some (b.toNat - 48)
  else if 97 ≤ b && b ≤ 102 then some (b.toNat - 87)
  else if 65 ≤ b && b ≤ 70 then some (b.toNat - 55)
  else none

def hex4? (a b c d : UInt8) : Option Nat := do
  return (((← hexValue? a) * 16 + (← hexValue? b)) * 16 + (← hexValue? c)) * 16 + (← hexValue? d)

def escape? (b : UInt8) : Option UInt8 :=
  if b = 0x22 || b = 0x5C || b = 0x2F then some b
  else if b = 0x62 then some 0x08
  else if b = 0x66 then some 0x0C
  else if b = 0x6E then some 0x0A
  else if b = 0x72 then some 0x0D
  else if b = 0x74 then some 0x09
  else none

/-- What was read of a string literal: its bytes, last one first, or `none` once it spells no
Unicode text, and a high surrogate escape that waits for its low half. -/
structure Content where
  rev : Option (List UInt8)
  high : Option Nat

namespace Content

def empty : Content := ⟨some [], none⟩

/-- The content when no low surrogate follows: a waiting high one spells no text. -/
def settled (c : Content) : Option (List UInt8) :=
  match c.high with
  | none => c.rev
  | some _ => none

def pushByte (c : Content) (b : UInt8) : Content :=
  ⟨c.settled.map (b :: ·), none⟩

/-- The UTF-8 bytes of a code point, last byte first. -/
def scalarRev (n : Nat) : List UInt8 :=
  (Char.ofNat n).toString.toUTF8.toList.reverse

/-- Adds an escaped code unit. -/
def pushUnit (c : Content) (n : Nat) : Content :=
  if 0xD800 ≤ n && n ≤ 0xDBFF then ⟨c.settled, some n⟩
  else if 0xDC00 ≤ n && n ≤ 0xDFFF then
    match c.high with
    | some high =>
      ⟨c.rev.map (scalarRev (0x10000 + (high - 0xD800) * 0x400 + (n - 0xDC00)) ++ ·), none⟩
    | none => ⟨none, none⟩
  else ⟨c.settled.map (scalarRev n ++ ·), none⟩

def text (c : Content) : Text :=
  c.settled.bind fun bs => String.fromUTF8? ⟨bs.reverse.toArray⟩

end Content

/-- The rest of a string literal after its opening quote and the content `c`. -/
def readString (c : Content) : List UInt8 → Option (Text × List UInt8)
  | [] => none
  | b :: rest =>
    if b = 0x22 then some (c.text, rest)
    else if b = 0x5C then
      match rest with
      | [] => none
      | e :: rest =>
        if e = 0x75 then
          match rest with
          | d₁ :: d₂ :: d₃ :: d₄ :: rest =>
            match hex4? d₁ d₂ d₃ d₄ with
            | some n => readString (c.pushUnit n) rest
            | none => none
          | _ => none
        else
          match escape? e with
          | some e => readString (c.pushByte e) rest
          | none => none
    else if b < 0x20 then none
    else readString (c.pushByte b) rest

def isBlank (b : UInt8) : Bool :=
  b = 0x20 || b = 0x09 || b = 0x0A || b = 0x0D

def readOne (b : UInt8) (rest : List UInt8) : Option (Token × List UInt8) :=
  if b = 0x7B then some (openObject, rest)
  else if b = 0x7D then some (closeObject, rest)
  else if b = 0x5B then some (openArray, rest)
  else if b = 0x5D then some (closeArray, rest)
  else if b = 0x3A then some (colon, rest)
  else if b = 0x2C then some (comma, rest)
  else if b = 0x22 then (readString .empty rest).map fun (s, rest) => (string s, rest)
  else if b = 0x6E then
    match rest with
    | 0x75 :: 0x6C :: 0x6C :: rest => some (null, rest)
    | _ => none
  else if b = 0x74 then
    match rest with
    | 0x72 :: 0x75 :: 0x65 :: rest => some (bool true, rest)
    | _ => none
  else if b = 0x66 then
    match rest with
    | 0x61 :: 0x6C :: 0x73 :: 0x65 :: rest => some (bool false, rest)
    | _ => none
  else (Number.read (b :: rest)).map fun (n, rest) => (number n, rest)

/-- Reads tokens to the end of the text. Every token takes a byte at least, so the length of the
text is fuel enough. -/
def scanFrom : Nat → List Token → List UInt8 → Option (List Token)
  | _, tokens, [] => some tokens.reverse
  | 0, _, _ :: _ => none
  | fuel + 1, tokens, b :: rest =>
    if isBlank b then scanFrom fuel tokens rest
    else
      match readOne b rest with
      | none => none
      | some (t, rest) => scanFrom fuel (t :: tokens) rest

/-- The tokens of a text, blanks between them dropped. -/
def scan (s : List UInt8) : Option (List Token) :=
  scanFrom s.length [] s

/-! ## What a reader that keeps the whole text demands -/

/-- The token can be kept: its text is Unicode and its number is in range. -/
def keepable : Token → Bool
  | number n => !n.overflows
  | string s => s.isSome
  | _ => true

/-- The most arrays and objects open at once, `open_` being open already. -/
def maxOpen (open_ most : Nat) : List Token → Nat
  | [] => most
  | openObject :: ts | openArray :: ts => maxOpen (open_ + 1) (max most (open_ + 1)) ts
  | closeObject :: ts | closeArray :: ts => maxOpen (open_ - 1) most ts
  | _ :: ts => maxOpen open_ most ts

/-- Nesting at which a text that is kept whole is refused. -/
def depthLimit : Nat := 128

def allKeepable (ts : List Token) : Bool :=
  ts.all keepable && Nat.blt (maxOpen 0 0 ts) depthLimit

end Token

end LeaseRegistry.Json
