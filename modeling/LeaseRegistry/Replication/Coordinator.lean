import LeaseRegistry.AccessGate
import LeaseRegistry.Peer.Backoff
import LeaseRegistry.Replication.Snapshot

/-!
# Replication

A coordinator is a registry that has peers. A request made on this server is handled by the
registry alone; if it took effect, one message announces it to every peer. A message that comes
from a peer is applied as that peer's write and goes no further, so what a peer is told never comes
back. A peer that lacks the instance, or holds another record of it than the message starts from,
says so and is then sent the whole record.
-/

namespace LeaseRegistry

/-- What peers are told about a request that took effect between two states of the store. The
deltas of an update start from the record it replaced. -/
def PeerMessage.announcing (old new : Store) : Request → Option PeerMessage
  | .register record _ => some (.register record)
  | .update record _ _ =>
    match old.record? record.id with
    | some previous =>
      some (.update record.id previous.version record.version (record.diff previous))
    | none => some (.register record)
  | .unregister id version _ => some (.unregister id version)
  | .statusUpdate id status _ => (new.version? id).map (.statusUpdate id status)
  | .renew id _ => some (.heartbeat id)

/-- What peers are told about a lease that was evicted. -/
def PeerMessage.evicting (lease : Lease) : PeerMessage :=
  .unregister lease.record.id lease.version

namespace PeerReply

def notReady : String := "registry not ready"

/-- The reply that tells a peer what became of its write. -/
def ofAnswer : Answer → PeerReply
  | .failed (.store (.unknownInstance id)) => unknownInstance id
  | .failed (.store (.baseMismatch id _ _)) => stale id
  | .failed e => error e.message
  | .changed _ | .renewed _ => ack

def missing? : PeerReply → Option InstanceId
  | unknownInstance id | stale id => some id
  | ack | snapshot .. | error _ => none

end PeerReply

structure Coordinator where
  id : ServerId
  registry : Registry
  gate : AccessGate
  /-- The instance that this server registered itself as, once it did. -/
  own : Option InstanceId
  peers : Nat
  patience : Millis
  /-- How often and with what delays a snapshot is asked for. -/
  retry : Backoff

namespace Coordinator

/-! ## Requests of this server -/

/-- Handles a request, with the message that announces it if it took effect here. -/
def perform (c : Coordinator) (now : Time) (r : Request) :
    Answer × Option PeerMessage × Coordinator :=
  let (a, registry) := c.registry.handle now r
  let message :=
    if a.isApplied && r.source.fansOut then
      PeerMessage.announcing c.registry.store registry.store r
    else none
  (a, message, { c with registry })

/-- The registration that a peer's reply calls for, if the instance is still stored. -/
def repair? (c : Coordinator) (reply : PeerReply) : Option PeerMessage :=
  reply.missing?.bind fun id => (c.registry.store.record? id).map .register

/-! ## Serving reads -/

def otherLeases (c : Coordinator) : Nat :=
  match c.own.bind c.registry.store.record? with
  | some _ => c.registry.store.size - 1
  | none => c.registry.store.size

def allowsAccess (c : Coordinator) (now : Time) : Bool :=
  c.gate.allows c.otherLeases now

/-- Says which instance is this server. The first one said stays. -/
def markOwn (c : Coordinator) (id : InstanceId) : Coordinator :=
  { c with own := c.own.or (some id) }

/-! ## Messages of peers -/

def receive (c : Coordinator) (now : Time) (origin : ServerId) (m : PeerMessage) :
    PeerReply × Coordinator :=
  let applied : Answer × Registry → PeerReply × Coordinator :=
    fun (a, registry) => (.ofAnswer a, { c with registry })
  match m with
  | .register record => applied (c.registry.register record (.replicated origin) now)
  | .update id base version deltas =>
    applied (c.registry.applyDeltas id base version deltas origin now)
  | .unregister id version => applied (c.registry.unregister id version)
  | .statusUpdate id status version =>
    applied (c.registry.write (·.statusUpdate id status version (.replicated origin) now))
  | .heartbeat id =>
    let (a, registry) := c.registry.renew id now
    (if a.isApplied then .ack else .unknownInstance id, { c with registry })
  | .fetchSnapshot =>
    (if c.allowsAccess now then .snapshot c.id c.registry.store.snapshot
      else .error PeerReply.notReady, c)

/-- Takes in the snapshot of a peer and counts the records that took effect. -/
def adopt (c : Coordinator) (now : Time) (s : Snapshot) : Nat × Coordinator :=
  let (count, registry) := c.registry.adopt s.server now s.records
  (count, { c with registry, gate := c.gate.recordSync count })

end Coordinator

end LeaseRegistry
