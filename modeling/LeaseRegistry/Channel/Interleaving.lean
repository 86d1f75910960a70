import LeaseRegistry.Channel.Operation
import LeaseRegistry.Eviction.Pass

/-!
# Interleaved channel operations

A script runs operations of several channels over one registry. An intrusion says what happens
around one call of the registry: steps that run once the call is made and before it is done, an
error that comes in place of the call, and steps that run before its answer arrives. The steps may
use every channel, also the one that is waiting. They may drop it too: from then on no step reaches
it, but what it has begun goes on to its end, and only then the channel is gone.
-/

namespace LeaseRegistry

namespace Channel

inductive Method where
  | register
  | update
  | unregister
  | renew
  deriving DecidableEq, Repr

def Call.method : Call → Method
  | .register _ | .revive _ => .register
  | .update _ _ => .update
  | .unregister _ _ => .unregister
  | .renew _ => .renew

inductive Act where
  | openChannel
  | frame (channel : Nat) (bytes : List UInt8)
  | message (channel : Nat) (m : ClientMessage)
  | connectionClosed (channel : Nat)
  | drop (channel : Nat)
  | reachable (channel : Nat) (b : Bool)
  | clock (now : Time)
  | evictionPass
  /-- A request behind the channels' back. -/
  | request (r : Request)
  | evictVersion (id : InstanceId) (version : Version)
  | look (id : InstanceId)
  /-- Arranges what happens around the next call of a method. -/
  | intrude (method : Method) (failure : Option RegistryError) (before after : List Act)

/-- What happens around one call of a method. -/
structure Intrusion where
  method : Method
  failure : Option RegistryError
  before : List Act
  after : List Act

mutual

/-- The intrusions in a step, which bound how deep steps can run within steps. -/
def Act.intrusions : Act → Nat
  | .intrude _ _ before after => Act.listIntrusions before + Act.listIntrusions after + 1
  | _ => 0

def Act.listIntrusions : List Act → Nat
  | [] => 0
  | a :: as => a.intrusions + Act.listIntrusions as

end

inductive Report where
  | nothing
  | result (r : Result)
  | outcome (o : EvictionOutcome)
  | answer (source : Source) (a : Answer)
  | evicted (lease : Option Lease)
  | record (r : Option Record)

inductive Place where
  | held (c : Channel)
  /-- The channel was dropped, but an operation on it still runs. -/
  | leaving (c : Channel)
  | empty

namespace Place

def channel? : Place → Option Channel
  | held c => some c
  | _ => none

/-- The channel that a running operation works on. -/
def operated? : Place → Option Channel
  | held c | leaving c => some c
  | empty => none

def map (f : Channel → Channel) : Place → Place
  | held c => held (f c)
  | leaving c => leaving (f c)
  | empty => empty

end Place

/-- The channels of a server with all that they share. -/
structure Office where
  registry : Registry
  now : Time
  desk : Desk
  /-- The channels in the order they were opened; a dropped one leaves its place empty. -/
  channels : List Place
  /-- The channels of the operations that are running, the last one begun first. -/
  running : List Nat
  intrusions : List Intrusion
  calls : List Request

namespace Office

def start (settings : Preservation.Settings) (delay : Millis) (now : Time) : Office where
  registry := .start settings now
  now := now
  desk := .empty delay
  channels := []
  running := []
  intrusions := []
  calls := []

def openChannel (o : Office) : Office :=
  let (c, desk) := Channel.openOn o.desk
  { o with desk, channels := o.channels ++ [.held c] }

def place (o : Office) (n : Nat) : Place := o.channels[n]?.getD .empty

def put (o : Office) (n : Nat) (c : Channel) (desk : Desk) : Office :=
  { o with channels := o.channels.modify n (·.map fun _ => c), desk }

/-- Drops a channel: at once, or as soon as no operation on it is running. -/
def drop (o : Office) (n : Nat) : Office :=
  match (o.place n).operated? with
  | none => o
  | some c =>
    if n ∈ o.running then { o with channels := o.channels.set n (.leaving c) }
    else { o with channels := o.channels.set n .empty, desk := c.drop o.desk }

def stored (o : Office) (id : InstanceId) : Option Version := o.registry.store.version? id

def takeIntrusion (m : Method) : List Intrusion → Option Intrusion × List Intrusion
  | [] => (none, [])
  | i :: is =>
    if i.method = m then (some i, is)
    else
      let (found, rest) := takeIntrusion m is
      (found, i :: rest)

def onChannel (o : Office) (n : Nat) (step : Channel → Desk → Channel × Desk) : Office :=
  match (o.place n).channel? with
  | none => o
  | some c =>
    let (c, desk) := step c o.desk
    o.put n c desk

def onOperated (o : Office) (n : Nat) (p : Phase)
    (step : Channel → Desk → Phase × Channel × Desk) : Phase × Office :=
  match (o.place n).operated? with
  | none => (p, o)
  | some c =>
    let (p, c, desk) := step c o.desk
    (p, o.put n c desk)

/-- Goes on with an operation until it is over or waits for the registry. -/
def settle (o : Office) (n : Nat) (p : Phase) : Phase × Office :=
  o.onOperated n p fun c d => Channel.settle o.now p c d

/-- Makes the call that an operation waits for, with the steps `acts` runs around it. -/
def call (acts : List Act → Office → Office) (o : Office) (n : Nat) (p : Phase) : Phase × Office :=
  match p with
  | .calling call =>
    let (found, intrusions) := takeIntrusion call.method o.intrusions
    let o := { o with intrusions, calls := o.calls ++ [call.request] }
    let o := acts ((found.map (·.before)).getD []) o
    let (a, o) : Answer × Office := match found.bind (·.failure) with
      | some e => (.failed e, o)
      | none =>
        let (a, registry) := o.registry.handle o.now call.request
        (a, { o with registry })
    let o := acts ((found.map (·.after)).getD []) o
    let (p, o) := o.onOperated n p fun c d => c.answered call a o.stored o.now d
    o.settle n p
  | p => (p, o)

def finish (o : Office) (n : Nat) : Office :=
  let o := { o with running := o.running.erase n }
  match o.place n with
  | .leaving _ => o.drop n
  | _ => o

def operate (o : Office) (n : Nat) (steps : Office → Phase × Office) : Report × Office :=
  match (o.place n).channel? with
  | none => (.result (.ok ()), o)
  | some _ =>
    let (p, o) := steps { o with running := n :: o.running }
    (.result p.result, o.finish n)

def message (acts : List Act → Office → Office) (o : Office) (n : Nat) (m : ClientMessage) :
    Report × Office :=
  o.operate n fun o =>
    let (p, o) := o.onOperated n (.finished (.ok ())) fun c d => c.begin m o.stored d
    let (p, o) := o.settle n p
    let (p, o) := o.call acts n p
    o.call acts n p

/-- Runs a step; `acts` runs the steps of intrusions. -/
def actWith (acts : List Act → Office → Office) (o : Office) : Act → Report × Office
  | .openChannel => (.nothing, o.openChannel)
  | .frame n bytes =>
    match ClientMessage.parse? bytes with
    | some m => o.message acts n m
    | none => o.operate n fun o => o.settle n (.failing .unexpectedFrame)
  | .message n m => o.message acts n m
  | .connectionClosed n => (.nothing, o.onChannel n fun c d => c.connectionClosed d o.now)
  | .drop n => (.nothing, o.drop n)
  | .reachable n b => (.nothing, o.onChannel n fun c d => ({ c with reachable := b }, d))
  | .clock now => (.nothing, { o with now })
  | .evictionPass =>
    let (outcome, store, preservation, queue) :=
      LeaseRegistry.evictionPass o.registry.store o.registry.preservation o.desk.queue o.now
    (.outcome outcome, { o with
      registry := ⟨store, preservation⟩
      desk := { o.desk with queue } })
  | .request r =>
    let (a, registry) := o.registry.handle o.now r
    (.answer r.source a, { o with registry })
  | .evictVersion id version =>
    let (lease, store) := o.registry.store.evictIfVersion id version o.now
    (.evicted lease, { o with registry := { o.registry with store } })
  | .look id => (.record (o.registry.store.record? id), o)
  | .intrude method failure before after =>
    (.nothing, { o with intrusions := o.intrusions ++ [⟨method, failure, before, after⟩] })

def forget (o : Office) : Office :=
  { o with calls := [], channels := o.channels.map (·.map fun c => { c with replies := [] }) }

/-- Runs steps with intrusions nested no deeper than `depth`. -/
def acts : Nat → List Act → Office → Office
  | 0, _, o => o
  | depth + 1, script, o => script.foldl (fun o a => (o.actWith (acts depth) a).2) o

/-- Runs one step of a script that has `depth` intrusions at most. -/
def act (depth : Nat) (o : Office) (a : Act) : Report × Office :=
  o.actWith (acts depth) a

end Office

end Channel

end LeaseRegistry
