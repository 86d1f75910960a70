import LeaseRegistry.Server.Activity

/-!
# Talks with peers

What is said to one peer in an announcement: the message, and after it the registration that the
reply may call for.
-/

namespace LeaseRegistry

structure Exchange where
  message : PeerMessage
  /-- What came of it, with the store of the caller then, once it is over. -/
  outcome : Option (CallResult × Store)

/-- The calls of one announcement to one peer. -/
abbrev Talk := List Exchange

namespace Talk

def opening (m : PeerMessage) : Talk := [⟨m, none⟩]

def pending? (t : Talk) : Option PeerMessage := (t.find? (·.outcome.isNone)).map (·.message)

def isOver (t : Talk) : Bool := t.pending?.isNone

/-- Ends the call that is under way. After the first one, the registration follows that its reply
calls for; after that one, nothing. -/
def hear (c : Coordinator) (result : CallResult) : Talk → Talk
  | [⟨m, none⟩] =>
    ⟨m, some (result, c.registry.store)⟩ :: (result.reply?.bind c.repair?).toList.map (⟨·, none⟩)
  | [first, ⟨m, none⟩] => [first, ⟨m, some (result, c.registry.store)⟩]
  | t => t

end Talk

end LeaseRegistry
