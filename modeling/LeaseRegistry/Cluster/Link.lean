import LeaseRegistry.Server.Activity

/-!
# Links between servers

A link carries the calls of one server to one peer, and can be told how to treat the next ones: to
hold them back, to fail or to answer in the peer's place.
-/

namespace LeaseRegistry

namespace Cluster

inductive Treatment where
  | relay
  | silence
  | failure (e : LinkError)
  | reply (r : PeerReply)
  deriving DecidableEq, Repr

/-- One line of a link's script: a delay, and what becomes of the call after it. -/
structure Cue where
  delay : Millis
  treatment : Treatment
  deriving DecidableEq, Repr

structure Link where
  /-- The server at the other end; a link without one acknowledges every call. -/
  target : Option Nat
  offline : Bool
  script : List Cue
  sent : List PeerMessage
  deriving DecidableEq, Repr

namespace Link

def towards (target : Option Nat) : Link := ⟨target, false, [], []⟩

/-- Makes a call: how long it takes, and what then becomes of it. The message counts as sent even
if the link is offline. -/
def call (l : Link) (m : PeerMessage) : Cue × Link :=
  let l := { l with sent := l.sent ++ [m] }
  if l.offline then (⟨0, .failure .closed⟩, l)
  else
    match l.script with
    | [] => (⟨0, .relay⟩, l)
    | cue :: script => (cue, { l with script })

end Link

/-- Puts an end to a call that takes longer than `limit`; an answer at the limit is still in time.
`none` is the end by the limit. -/
def Cue.within (limit : Millis) (cue : Cue) : Millis × Option Treatment :=
  match cue.treatment with
  | .silence => (limit, none)
  | treatment => if cue.delay ≤ limit then (cue.delay, some treatment) else (limit, none)

end Cluster

end LeaseRegistry
