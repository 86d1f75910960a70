import LeaseRegistry.ServerId

/-!
# Provenance of a write

Only a write made on this server is passed on to its peers. A write received from a peer is
applied and stops there, so every change travels one hop.
-/

namespace LeaseRegistry

inductive Source where
  /-- A client of this server, or the server's own policy. -/
  | here
  | replicated (origin : ServerId)
  deriving DecidableEq, Repr

namespace Source

def origin? : Source → Option ServerId
  | here => none
  | replicated origin => some origin

def isHere : Source → Bool
  | here => true
  | replicated _ => false

def fansOut (s : Source) : Bool := s.isHere

def label : Source → String
  | here => "local"
  | replicated origin => "replicated(" ++ origin.text ++ ")"

end Source

end LeaseRegistry
