import LeaseRegistry.Eviction.Queue
import LeaseRegistry.Message.Client
import LeaseRegistry.Registry

/-!
# Registration channels

A channel is the part of a connection that registers one instance. It is idle until a registration
is taken, and closed once the instance unregisters or the connection goes away. Channels of one
server share a `Desk`: the gauges that count them by state, and the eviction queue.
-/

namespace LeaseRegistry

namespace Channel

inductive State where
  | idle
  | registered
  | closed
  deriving DecidableEq, Repr

structure Gauges where
  idle : Int64
  registered : Int64
  closed : Int64
  deriving DecidableEq, Repr

namespace Gauges

def zero : Gauges := ⟨0, 0, 0⟩

def count (g : Gauges) : State → Int64
  | .idle => g.idle
  | .registered => g.registered
  | .closed => g.closed

def add (g : Gauges) (n : Int64) : State → Gauges
  | .idle => { g with idle := g.idle + n }
  | .registered => { g with registered := g.registered + n }
  | .closed => { g with closed := g.closed + n }

def enter (g : Gauges) (s : State) : Gauges := g.add 1 s

def leave (g : Gauges) (s : State) : Gauges := g.add (-1) s

def move (g : Gauges) (old new : State) : Gauges :=
  if old = new then g else (g.leave old).enter new

end Gauges

inductive Error where
  | alreadyRegistered
  | notRegistered
  | channelClosed
  | protocol (reason : String)
  | registry (e : RegistryError)
  deriving DecidableEq, Repr

namespace Error

def message : Error → String
  | alreadyRegistered => "Instance already registered on this connection"
  | notRegistered => "No instance registered on this connection"
  | channelClosed => "Channel closed"
  | protocol reason => "Protocol error: " ++ reason
  | registry e => e.message

/-- The client hears about every error but that its channel is closed. -/
def reply? : Error → Option ServerMessage
  | channelClosed => none
  | e => some (.error e.message)

def unexpectedFrame : Error := protocol "unexpected message: not a client message"

/-- A write that a newer version overtook. -/
def overtaken (what : String) (record : Record) : Error :=
  protocol (what ++ " of " ++ record.id.text ++ " v" ++ Nat.repr record.version.toNat ++
    " superseded by a newer version")

def otherInstance (id registered : InstanceId) : Error :=
  protocol ("update for " ++ id.text ++ " on a connection registered as " ++ registered.text)

end Error

abbrev Result := Except Error Unit

end Channel

structure Desk where
  gauges : Channel.Gauges
  queue : EvictionQueue
  deriving DecidableEq, Repr

namespace Desk

def empty (delay : Millis) : Desk := ⟨.zero, .empty delay⟩

def queueEviction (d : Desk) (record : Record) (now : Time) : Desk :=
  { d with queue := d.queue.add record .here now }

end Desk

structure Channel where
  state : Channel.State
  /-- The record that was last accepted. -/
  current : Option Record
  /-- The highest version that this channel has had accepted. -/
  version : Version
  reachable : Bool
  replies : List ServerMessage
  deriving DecidableEq, Repr

namespace Channel

def openOn (d : Desk) : Channel × Desk :=
  (⟨.idle, none, 0, true, []⟩, { d with gauges := d.gauges.enter .idle })

/-- The channel is gone and no longer counted. -/
def drop (c : Channel) (d : Desk) : Desk :=
  { d with gauges := d.gauges.leave c.state }

def moveTo (c : Channel) (d : Desk) (s : State) : Channel × Desk :=
  ({ c with state := s }, { d with gauges := d.gauges.move c.state s })

def reply (c : Channel) (m : ServerMessage) : Channel :=
  if c.reachable then { c with replies := c.replies ++ [m] } else c

/-- Makes an accepted record the channel's view. -/
def note (c : Channel) (record : Record) : Channel :=
  { c with current := some record, version := record.version }

/-- One past the highest version that the channel or the store has seen. -/
def nextVersion (c : Channel) (stored : Option Version) : Version :=
  max c.version (stored.getD 0) + 1

def registered? (c : Channel) : Except Error Record :=
  match c.state, c.current with
  | .idle, _ => .error .notRegistered
  | .closed, _ => .error .channelClosed
  | .registered, some record => .ok record
  | .registered, none => .error .notRegistered

/-- The connection is gone: the channel is closed, and an instance that was registered is queued
for eviction instead of being unregistered. -/
def connectionClosed (c : Channel) (d : Desk) (now : Time) : Channel × Desk :=
  let (closed, d) := c.moveTo d .closed
  match c.state, c.current with
  | .registered, some record => (closed, d.queueEviction record now)
  | _, _ => (closed, d)

end Channel

end LeaseRegistry
