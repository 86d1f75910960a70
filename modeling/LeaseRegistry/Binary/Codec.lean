import LeaseRegistry.Data.SortedSet

/-!
# Binary codecs

A codec writes a value as bytes and reads it off the front of a byte string. Numbers are
little-endian with their full width, lengths have 64 bits, the constructor of a sum is a 32-bit
index. `Codec.Exact` is the law of a codec at a value: reading gives the value back and leaves what
follows it, and every proper part of its bytes from the start ends too early.
-/

namespace LeaseRegistry

/-- Why bytes are no value. -/
inductive DecodeError where
  | inputEnded
  | invalidUtf8
  | invalidBool
  /-- The tag of an optional value is neither 0 nor 1. -/
  | invalidTag
  /-- An index without a constructor, or a text the type does not admit. -/
  | invalidValue
  deriving DecidableEq, Repr

structure Codec (α : Type) where
  encode : α → List UInt8
  decode : List UInt8 → Except DecodeError (α × List UInt8)

namespace Codec

variable {α β : Type}

def Exact (c : Codec α) (a : α) : Prop :=
  (∀ s, c.decode (c.encode a ++ s) = .ok (a, s)) ∧
  (∀ p, p <+: c.encode a → p ≠ c.encode a → c.decode p = .error .inputEnded)

/-- Reads a value and ignores what follows it. -/
def decodeAll (c : Codec α) (s : List UInt8) : Except DecodeError α :=
  (c.decode s).map (·.1)

/-! ## Numbers -/

/-- The lowest `width` bytes of a number, least significant first. -/
def littleEndian : Nat → Nat → List UInt8
  | 0, _ => []
  | width + 1, n => n.toUInt8 :: littleEndian width (n / 256)

def readLittleEndian : Nat → List UInt8 → Except DecodeError (Nat × List UInt8)
  | 0, s => .ok (0, s)
  | _ + 1, [] => .error .inputEnded
  | width + 1, b :: s =>
    match readLittleEndian width s with
    | .ok (n, s) => .ok (b.toNat + 256 * n, s)
    | .error e => .error e

def word (width : Nat) (toNat : α → Nat) (ofNat : Nat → α) : Codec α where
  encode a := littleEndian width (toNat a)
  decode s :=
    match readLittleEndian width s with
    | .ok (n, s) => .ok (ofNat n, s)
    | .error e => .error e

def uint16 : Codec UInt16 := word 2 UInt16.toNat UInt16.ofNat

def uint32 : Codec UInt32 := word 4 UInt32.toNat UInt32.ofNat

def uint64 : Codec UInt64 := word 8 UInt64.toNat UInt64.ofNat

/-! ## Single bytes -/

def bool : Codec Bool where
  encode b := [if b then 1 else 0]
  decode
    | [] => .error .inputEnded
    | b :: s => if b = 0 then .ok (false, s) else if b = 1 then .ok (true, s) else .error .invalidBool

/-! ## Composition -/

def pair (c : Codec α) (d : Codec β) : Codec (α × β) where
  encode p := c.encode p.1 ++ d.encode p.2
  decode s :=
    match c.decode s with
    | .ok (a, s) =>
      match d.decode s with
      | .ok (b, s) => .ok ((a, b), s)
      | .error e => .error e
    | .error e => .error e

/-- A type in the form of another one that has a codec. -/
def via (c : Codec α) (read : α → β) (form : β → α) : Codec β where
  encode b := c.encode (form b)
  decode s :=
    match c.decode s with
    | .ok (a, s) => .ok (read a, s)
    | .error e => .error e

/-- As `via`, with a reading that may refuse. -/
def viaChecked (c : Codec α) (read : α → Option β) (form : β → α) : Codec β where
  encode b := c.encode (form b)
  decode s :=
    match c.decode s with
    | .ok (a, s) =>
      match read a with
      | some b => .ok (b, s)
      | none => .error .invalidValue
    | .error e => .error e

def unit : Codec Unit where
  encode _ := []
  decode s := .ok ((), s)

def option (c : Codec α) : Codec (Option α) where
  encode
    | none => [0]
    | some a => 1 :: c.encode a
  decode
    | [] => .error .inputEnded
    | b :: s =>
      if b = 0 then .ok (none, s)
      else if b = 1 then
        match c.decode s with
        | .ok (a, s) => .ok (some a, s)
        | .error e => .error e
      else .error .invalidTag

def decodeMany (c : Codec α) : Nat → List UInt8 → Except DecodeError (List α × List UInt8)
  | 0, s => .ok ([], s)
  | n + 1, s =>
    match c.decode s with
    | .ok (a, s) =>
      match decodeMany c n s with
      | .ok (as, s) => .ok (a :: as, s)
      | .error e => .error e
    | .error e => .error e

def list (c : Codec α) : Codec (List α) where
  encode as := uint64.encode as.length.toUInt64 ++ as.flatMap c.encode
  decode s :=
    match uint64.decode s with
    | .ok (n, s) => decodeMany c n.toNat s
    | .error e => .error e

/-- A set, written in ascending order and read in any. -/
def sortedSet [Ord α] [Std.TransOrd α] (c : Codec α) : Codec (SortedSet α) :=
  c.list.via .ofList SortedSet.toList

/-- A text as UTF-8 behind its length in bytes. -/
def string : Codec String where
  encode t := uint64.encode t.utf8ByteSize.toUInt64 ++ t.toUTF8.toList
  decode s :=
    match uint64.decode s with
    | .ok (n, s) =>
      if s.length < n.toNat then .error .inputEnded
      else
        match String.fromUTF8? ⟨(s.take n.toNat).toArray⟩ with
        | some t => .ok (t, s.drop n.toNat)
        | none => .error .invalidUtf8
    | .error e => .error e

/-- A sum: the index of the constructor, then what the constructor carries. -/
def sum (index : α → UInt32) (arm : UInt32 → Option (Codec α)) : Codec α where
  encode a := uint32.encode (index a) ++ ((arm (index a)).map fun c => c.encode a).getD []
  decode s :=
    match uint32.decode s with
    | .ok (i, s) =>
      match arm i with
      | some c => c.decode s
      | none => .error .invalidValue
    | .error e => .error e

end Codec

end LeaseRegistry
