import LeaseRegistry.Message.Replication
import LeaseRegistry.Registry
import LeaseRegistry.Text.Quoted

/-!
# Snapshots

A server that starts asks a peer for all its records and registers them as the peer's. A record
that is invalid, or not newer than the one stored here, is left out and does not affect the others.
-/

namespace LeaseRegistry

/-- A full copy of a registry: whose it is, and its records. -/
structure Snapshot where
  server : ServerId
  records : List Record
  deriving DecidableEq, Repr

namespace PeerReply

/-- How an instance reply is written in an error text. -/
def describeInstance (name : String) (id : InstanceId) : String :=
  name ++ " \x7b id: InstanceId(" ++ Text.quoted id.text ++ ") \x7d"

def unexpected (description : String) : LinkError :=
  .codec ("unexpected reply to snapshot request: " ++ description)

/-- The snapshot in a reply, or why there is none. -/
def snapshot? : PeerReply → Except LinkError Snapshot
  | snapshot server records => .ok ⟨server, records⟩
  | error reason => .error (.other reason)
  | ack => .error (unexpected "Ack")
  | unknownInstance id => .error (unexpected (describeInstance "UnknownInstance" id))
  | stale id => .error (unexpected (describeInstance "Stale" id))

end PeerReply

namespace Registry

/-- Registers records of a peer one after the other and counts those that took effect. -/
def adopt (g : Registry) (origin : ServerId) (now : Time) : List Record → Nat × Registry
  | [] => (0, g)
  | record :: records =>
    let (a, g) := g.register record (.replicated origin) now
    let (count, g) := g.adopt origin now records
    (count + a.isApplied.toNat, g)

end Registry

end LeaseRegistry
