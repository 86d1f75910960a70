import LeaseRegistry.Text.Blank

/-!
# Server identifiers

A server id names one registry server of a cluster. It is a non-empty text of at most 128 bytes
without blank or control characters, and the type carries that: every `ServerId` is valid.
-/

namespace LeaseRegistry

inductive ServerIdError where
  | empty
  | tooLong
  | invalidCharacter
  deriving DecidableEq, Repr

/-- The longest server id, in bytes. -/
def ServerId.maxBytes : Nat := 128

def ServerIdError.message : ServerIdError → String
  | .empty => "Server ID cannot be empty"
  | .tooLong => "Server ID longer than 128 characters"
  | .invalidCharacter => "Server ID contains whitespace or control characters"

/-- The first rule a text breaks as a server id: emptiness, then length, then its characters. -/
def ServerId.fault? (text : String) : Option ServerIdError :=
  if text.isEmpty then some .empty
  else if text.utf8ByteSize > maxBytes then some .tooLong
  else if text.toList.any fun c => Text.isBlank c || Text.isControl c then some .invalidCharacter
  else none

structure ServerId where
  text : String
  valid : ServerId.fault? text = none

namespace ServerId

@[ext] theorem ext_text {a b : ServerId} (h : a.text = b.text) : a = b := by
  cases a; cases b; cases h; rfl

instance : DecidableEq ServerId := fun a b =>
  if h : a.text = b.text then isTrue (ext_text h) else isFalse fun e => h (congrArg text e)

instance : Repr ServerId where
  reprPrec a n := reprPrec a.text n

def ofText (text : String) : Except ServerIdError ServerId :=
  match h : fault? text with
  | none => .ok ⟨text, h⟩
  | some e => .error e

theorem ofText_text (a : ServerId) : ofText a.text = .ok a := by
  unfold ofText
  split
  · rfl
  · rename_i e h
    rw [a.valid] at h
    cases h

end ServerId

end LeaseRegistry
