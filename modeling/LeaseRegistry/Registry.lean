import LeaseRegistry.Preservation
import LeaseRegistry.Store

/-!
# The registry of one server

The lease store together with the renewal counters, and the requests on it. A request that changes
the status gives it the version after the stored one.
-/

namespace LeaseRegistry

inductive LinkError where
  | connectionFailed (reason : String)
  | sendFailed (reason : String)
  | closed
  | timeout (ms : UInt64)
  | codec (reason : String)
  | other (reason : String)
  deriving DecidableEq, Repr

def LinkError.message : LinkError → String
  | connectionFailed reason => "Connection failed: " ++ reason
  | sendFailed reason => "Send failed: " ++ reason
  | closed => "Connection closed"
  | timeout ms => "Timed out after " ++ Nat.repr ms.toNat ++ "ms"
  | codec reason => "Codec error: " ++ reason
  | other reason => reason

inductive RegistryError where
  | store (e : StoreError)
  | unreachable (peer reason : String)
  | syncFailure (peers : UInt64)
  | link (e : LinkError)
  deriving DecidableEq, Repr

def RegistryError.message : RegistryError → String
  | store e => e.message
  | unreachable peer reason => "Peer " ++ peer ++ " unreachable: " ++ reason
  | syncFailure peers => "Could not sync from any of " ++ Nat.repr peers.toNat ++ " peer(s)"
  | link e => e.message

inductive Request where
  | register (record : Record) (source : Source)
  | update (record : Record) (deltas : List Delta) (source : Source)
  | unregister (id : InstanceId) (version : Version) (source : Source)
  | statusUpdate (id : InstanceId) (status : Status) (source : Source)
  | renew (id : InstanceId) (source : Source)
  deriving DecidableEq, Repr

def Request.source : Request → Source
  | register _ source | update _ _ source | unregister _ _ source | statusUpdate _ _ source
  | renew _ source => source

inductive Answer where
  | changed (c : Change)
  | renewed (b : Bool)
  | failed (e : RegistryError)
  deriving DecidableEq, Repr

def Answer.isApplied : Answer → Bool
  | changed c => c.isApplied
  | renewed b => b
  | failed _ => false

def Answer.ofStore : Except StoreError Change → Answer
  | .ok c => changed c
  | .error e => failed (.store e)

structure Registry where
  store : Store
  preservation : Preservation

namespace Registry

def start (settings : Preservation.Settings) (now : Time) : Registry :=
  ⟨.empty, .start settings now⟩

def write (g : Registry) (w : Store → Except StoreError Change × Store) : Answer × Registry :=
  let (r, store) := w g.store
  (.ofStore r, { g with store })

def register (g : Registry) (record : Record) (source : Source) (now : Time) : Answer × Registry :=
  g.write (·.register record source now)

def update (g : Registry) (record : Record) (source : Source) (now : Time) : Answer × Registry :=
  g.write (·.update record source now)

def unregister (g : Registry) (id : InstanceId) (version : Version) : Answer × Registry :=
  let (c, store) := g.store.unregister id version
  (.changed c, { g with store })

/-- Changes the status at the version after the stored one. -/
def statusUpdate (g : Registry) (id : InstanceId) (status : Status) (source : Source) (now : Time) :
    Answer × Registry :=
  match g.store.version? id with
  | none => (.failed (.store (.unknownInstance id)), g)
  | some version => g.write (·.statusUpdate id status (version + 1) source now)

def renew (g : Registry) (id : InstanceId) (now : Time) : Answer × Registry :=
  let (renewed, store) := g.store.renew id now
  let preservation := if renewed then g.preservation.record now else g.preservation
  (.renewed renewed, ⟨store, preservation⟩)

def applyDeltas (g : Registry) (id : InstanceId) (base version : Version) (deltas : List Delta)
    (origin : ServerId) (now : Time) : Answer × Registry :=
  g.write (·.updateWithDeltas id base version deltas (.replicated origin) now)

/-- Handles a request. The deltas of an update say what changed; the record alone counts. -/
def handle (g : Registry) (now : Time) : Request → Answer × Registry
  | .register record source => g.register record source now
  | .update record _ source => g.update record source now
  | .unregister id version _ => g.unregister id version
  | .statusUpdate id status source => g.statusUpdate id status source now
  | .renew id _ => g.renew id now

end Registry

end LeaseRegistry
