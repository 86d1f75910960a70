import LeaseRegistry.Text.Extender
import LeaseRegistry.Text.Unassigned

/-!
# Quoted text

A text between double quotes, as diagnostic messages show it. Quotes, backslashes and the usual
white space have short escapes; every other character that does not show by itself, or that
attaches to the one before it, is written by its number.
-/

namespace LeaseRegistry.Text

/-- The characters without a shape of their own, as inclusive ranges: controls, format characters,
separators other than the space, and private use. -/
def shapelessRanges : List (Nat × Nat) :=
  [(0x0, 0x1F), (0x7F, 0xA0), (0xAD, 0xAD), (0x600, 0x605), (0x61C, 0x61C), (0x6DD, 0x6DD),
   (0x70F, 0x70F), (0x890, 0x891), (0x8E2, 0x8E2), (0x1680, 0x1680), (0x180E, 0x180E),
   (0x2000, 0x200F), (0x2028, 0x202F), (0x205F, 0x2064), (0x2066, 0x206F), (0x3000, 0x3000),
   (0xE000, 0xF8FF), (0xFEFF, 0xFEFF), (0xFFF9, 0xFFFB), (0x110BD, 0x110BD), (0x110CD, 0x110CD),
   (0x13430, 0x1343F), (0x1BCA0, 0x1BCA3), (0x1D173, 0x1D17A), (0xE0001, 0xE0001),
   (0xE0020, 0xE007F), (0xF0000, 0xFFFFD), (0x100000, 0x10FFFD)]

/-- The letters that are displayed as nothing: they fill the place of one that is missing. -/
def fillerRanges : List (Nat × Nat) :=
  [(0x115F, 0x1160), (0x3164, 0x3164), (0xFFA0, 0xFFA0)]

def isShown (c : Char) : Bool :=
  !(inRanges shapelessRanges c.toNat || inRanges fillerRanges c.toNat || isUnassigned c
    || isExtender c)

/-- The characters that stand for `c` between double quotes. -/
def quotedChar (c : Char) : List Char :=
  match c with
  | '"' => ['\\', '"']
  | '\\' => ['\\', '\\']
  | '\n' => ['\\', 'n']
  | '\r' => ['\\', 'r']
  | '\t' => ['\\', 't']
  | '\x00' => ['\\', '0']
  | c =>
    if isShown c then [c]
    else ['\\', 'u', '\x7b'] ++ Nat.toDigits 16 c.toNat ++ ['\x7d']

def quoted (s : String) : String :=
  .ofList (['"'] ++ s.toList.flatMap quotedChar ++ ['"'])

example : quoted "a\"b\u00e9" = "\"a\\\"b\u00e9\"" := by decide +kernel
example : quoted "\n\x01\u0301" = "\"\\n\\u\x7b1\x7d\\u\x7b301\x7d\"" := by decide +kernel
example : quoted "\u0378\u3164\uac00" = "\"\\u\x7b378\x7d\\u\x7b3164\x7d\uac00\"" := by decide +kernel

end LeaseRegistry.Text
