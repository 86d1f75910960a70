import LeaseRegistry.Json.Value

/-!
# Reading structured data from JSON values

A structure is read from an object, whose members may come in any order and with others between
them, or from the array of its fields in declaration order. A field is looked up by name and may
occur once at most. `Reading` says whether the value was read directly or kept as a whole first,
which decides one spelling of constants.
-/

namespace LeaseRegistry.Json

/-- How a value reached its reader. -/
inductive Reading where
  /-- Read as the type it is read for. -/
  | direct
  /-- Part of a text that was kept as a whole. -/
  | kept
  deriving DecidableEq, Repr

/-- The named members of a structure with the fields `names`. Every key must be Unicode; an array
names its items by position and may stop early. -/
def fields? (names : List String) : Json → Option (List (String × Json))
  | .object members => members.mapM fun (k, v) => k.map (·, v)
  | .array items => if items.length ≤ names.length then some (names.zip items) else none
  | _ => none

/-- The value of a field, `some none` if it is left out and `none` if it is repeated. -/
def lookup? (name : String) (fields : List (String × Json)) : Option (Option Json) :=
  match fields.filter (·.1 == name) with
  | [] => some none
  | [(_, v)] => some (some v)
  | _ => none

def required {α : Type} (name : String) (read : Json → Option α) (fields : List (String × Json)) :
    Option α :=
  match lookup? name fields with
  | some (some v) => read v
  | _ => none

def defaulted {α : Type} (name : String) (default : α) (read : Json → Option α)
    (fields : List (String × Json)) : Option α :=
  match lookup? name fields with
  | some (some v) => read v
  | some none => some default
  | none => none

def toText? : Json → Option String
  | .string s => s
  | _ => none

def toBool? : Json → Option Bool
  | .bool b => some b
  | _ => none

def toNatBelow? (limit : Nat) : Json → Option Nat
  | .number n => n.natural?.filter fun k => Nat.blt k limit
  | _ => none

def toUInt16? (v : Json) : Option UInt16 :=
  (v.toNatBelow? UInt16.size).map Nat.toUInt16

def toUInt32? (v : Json) : Option UInt32 :=
  (v.toNatBelow? UInt32.size).map Nat.toUInt32

def toUInt64? (v : Json) : Option UInt64 :=
  (v.toNatBelow? UInt64.size).map Nat.toUInt64

/-- `null`, or a value that `read` reads. -/
def toNullable? {α : Type} (read : Json → Option α) : Json → Option (Option α)
  | .null => some none
  | v => (read v).map some

def toList? {α : Type} (read : Json → Option α) : Json → Option (List α)
  | .array items => items.mapM read
  | _ => none

/-- The name of a constant: its text, or an object with the name as its only key and nothing as
its value. Nothing is `null`, and in a kept text also the empty object. -/
def toName? (reading : Reading) : Json → Option String
  | .string s => s
  | .object [(some name, .null)] => some name
  | .object [(some name, .object [])] => if reading = .kept then some name else none
  | _ => none

/-- The tag and the content of a tagged message: the member `type` and the other members, or the
first item of an array and the others. -/
def tagged? : Json → Option (String × Json)
  | .object members =>
    match members.partition (·.1 == some "type") with
    | ([(_, .string (some tag))], content) => some (tag, .object content)
    | _ => none
  | .array (.string (some tag) :: content) => some (tag, .array content)
  | _ => none

/-- The content of a message without fields; other members are passed over, other items are
not. -/
def isBlankContent : Json → Bool
  | .object _ => true
  | .array items => items.isEmpty
  | _ => false

def nullable (s : Option String) : Json := (s.map text).getD .null

end LeaseRegistry.Json
