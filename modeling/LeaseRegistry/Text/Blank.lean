/-!
# Blank and control characters

The Unicode property `White_Space` and the general category `Cc` as tables of code points, and
the trimming functions of addresses and identifiers. Texts are cut as lists of characters.
-/

namespace LeaseRegistry.Text

/-- The code points with the property `White_Space`, as inclusive ranges. -/
def blankRanges : List (Nat × Nat) :=
  [(0x09, 0x0D), (0x20, 0x20), (0x85, 0x85), (0xA0, 0xA0), (0x1680, 0x1680), (0x2000, 0x200A),
   (0x2028, 0x2029), (0x202F, 0x202F), (0x205F, 0x205F), (0x3000, 0x3000)]

/-- The code points of the category `Cc`, as inclusive ranges. -/
def controlRanges : List (Nat × Nat) :=
  [(0x00, 0x1F), (0x7F, 0x9F)]

/-- Membership of a code point in a list of inclusive ranges. -/
def inRanges (ranges : List (Nat × Nat)) (n : Nat) : Bool :=
  ranges.any fun r => Nat.ble r.1 n && Nat.ble n r.2

def isBlank (c : Char) : Bool :=
  inRanges blankRanges c.toNat

def isControl (c : Char) : Bool :=
  inRanges controlRanges c.toNat

def trimStart (p : Char → Bool) (cs : List Char) : List Char :=
  cs.dropWhile p

def trimEnd (p : Char → Bool) (cs : List Char) : List Char :=
  (cs.reverse.dropWhile p).reverse

def trim (p : Char → Bool) (cs : List Char) : List Char :=
  trimEnd p (trimStart p cs)

theorem dropWhile_eq_nil_of_all {p : Char → Bool} {cs : List Char} (h : cs.all p = true) :
    cs.dropWhile p = [] := by
  induction cs with
  | nil => rfl
  | cons c cs ih =>
    simp only [List.all_cons, Bool.and_eq_true] at h
    simp only [List.dropWhile_cons, h.1, ↓reduceIte, ih h.2]

theorem trimStart_append_of_all {p : Char → Bool} {cs ds : List Char} (h : ds.all p = true) :
    trimStart p (ds ++ cs) = trimStart p cs := by
  simp only [trimStart, List.dropWhile_append, dropWhile_eq_nil_of_all h, List.isEmpty_nil,
    ↓reduceIte]

theorem trimEnd_append_of_all {p : Char → Bool} {cs ds : List Char} (h : ds.all p = true) :
    trimEnd p (cs ++ ds) = trimEnd p cs := by
  have hd : ds.reverse.all p = true := by rw [List.all_reverse]; exact h
  simp only [trimEnd, List.reverse_append, List.dropWhile_append, dropWhile_eq_nil_of_all hd,
    List.isEmpty_nil, ↓reduceIte]

end LeaseRegistry.Text
