import LeaseRegistry.Json.Fields

/-!
# Reading scripts

Scripts are JSON objects whose members are looked up by name. A reader gives the value or a text
that says what is wrong with the script.
-/

namespace LeaseRegistry

namespace Script

abbrev Read := Except String

def get? (name : String) : Json → Option Json
  | .object ms => (ms.find? (·.1 == some name)).map (·.2)
  | _ => none

/-- A member that is there and not null. -/
def given? (name : String) (v : Json) : Option Json :=
  match get? name v with
  | some .null => none
  | o => o

def need (name : String) (v : Json) : Read Json :=
  match get? name v with
  | some x => .ok x
  | none => .error ("no " ++ name)

def from? {α : Type} (what : String) (o : Option α) : Read α :=
  match o with
  | some a => .ok a
  | none => .error ("bad " ++ what)

/-- A member, or `default` if it is not given. -/
def orDefault {α : Type} (read : String → Json → Read α) (name : String) (default : α) (v : Json) :
    Read α :=
  match given? name v with
  | some x => read name x
  | none => .ok default

def asText (what : String) (v : Json) : Read String := from? what v.toText?

def asBool (what : String) (v : Json) : Read Bool := from? what v.toBool?

def asNat (what : String) : Json → Read Nat
  | .number n => from? what n.natural?
  | _ => .error ("bad " ++ what)

def asList (what : String) : Json → Read (List Json)
  | .array vs => .ok vs
  | _ => .error ("bad " ++ what)

def asFloat (what : String) : Json → Read Float
  | .number n => .ok n.toFloat
  | _ => .error ("bad " ++ what)

def str (name : String) (v : Json) : Read String := do asText name (← need name v)

def strD : String → String → Json → Read String := orDefault asText

def nat (name : String) (v : Json) : Read Nat := do asNat name (← need name v)

def natD : String → Nat → Json → Read Nat := orDefault asNat

def u64 (name : String) (v : Json) : Read UInt64 := return (← nat name v).toUInt64

def u64D (name : String) (default : Nat) (v : Json) : Read UInt64 :=
  return (← natD name default v).toUInt64

def boolD : String → Bool → Json → Read Bool := orDefault asBool

def list (name : String) (v : Json) : Read (List Json) := do asList name (← need name v)

def listD (name : String) (v : Json) : Read (List Json) := orDefault asList name [] v

def floatD : String → Float → Json → Read Float := orDefault asFloat

end Script

end LeaseRegistry
