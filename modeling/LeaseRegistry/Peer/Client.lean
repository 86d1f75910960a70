import LeaseRegistry.Message.Handshake
import LeaseRegistry.Message.Replication
import LeaseRegistry.Peer.Backoff
import LeaseRegistry.Registry

/-!
# The connection to a peer

A client holds at most one connection to its peer and makes one call at a time on it. A call
without a connection opens one, unless that failed too recently. The next attempt is put off before
an attempt is made and let go when it succeeds, and a connection is taken out of the client's hands
for a call and given back after a reply; so a call that is abandoned at any point leaves the client
without a connection and, if it was connecting, with the next attempt put off. `begin`, `connected`
and `exchanged` are the steps of a call between which it can be abandoned; `call` is a whole one.
-/

namespace LeaseRegistry

/-- The client's side of the connection to a peer, with connections of type `κ`. -/
structure PeerClient (κ : Type) where
  /-- The open connection, on which no reply is outstanding. -/
  held : Option κ
  /-- The id that the peer gave in its last handshake. -/
  remote : Option ServerId
  reconnect : Reconnect

namespace PeerClient

inductive Failure where
  /-- It is too early to try again, by this many milliseconds. -/
  | tooEarly (wait : UInt64)
  /-- The peer's first frame is no handshake. -/
  | noHandshake
  /-- The peer's handshake is not that of a server with an id. -/
  | wrongRole (role : Role)
  | unreadableReply
  /-- The connection could not be opened, or it failed. -/
  | link (e : LinkError)
  deriving DecidableEq, Repr

/-- The error for a failed call to the peer at `url`. -/
def Failure.error (url : String) : Failure → LinkError
  | tooEarly wait =>
    .connectionFailed (url ++ " unreachable, next attempt in " ++ Nat.repr wait.toNat ++ "ms")
  | noHandshake => .codec "expected handshake from peer"
  | wrongRole role =>
    .codec ("peer " ++ url ++ " answered with role " ++ role.title ++ " and no server id")
  | unreadableReply => .codec "unexpected message: not a reply"
  | link e => e

variable {κ : Type}

def fresh : PeerClient κ := ⟨none, none, .fresh⟩

/-- Where a call is. -/
inductive Phase (κ : Type) where
  | connecting
  | exchanging (connection : κ)
  | finished (result : Except Failure PeerReply)

def waitAt (c : PeerClient κ) (now : Time) : UInt64 := now.since (c.reconnect.nextAt.getD now)

def begin (delay : UInt32 → Millis) (now : Time) (c : PeerClient κ) : Phase κ × PeerClient κ :=
  match c.held with
  | some connection => (.exchanging connection, { c with held := none })
  | none =>
    if c.reconnect.isDue now then
      (.connecting, { c with reconnect := c.reconnect.schedule delay now })
    else (.finished (.error (.tooEarly (c.waitAt now))), c)

def connected (r : Except Failure (κ × ServerId)) (c : PeerClient κ) : Phase κ × PeerClient κ :=
  match r with
  | .ok (connection, id) =>
    (.exchanging connection, { c with remote := some id, reconnect := .fresh })
  | .error e => (.finished (.error e), c)

def exchanged (delay : UInt32 → Millis) (now : Time) (connection : κ)
    (r : Except Failure PeerReply) (c : PeerClient κ) : Phase κ × PeerClient κ :=
  match r with
  | .ok reply => (.finished (.ok reply), { c with held := some connection })
  | .error e =>
    (.finished (.error e), { c with reconnect := c.reconnect.schedule delay now })

/-! ## Frames -/

/-- The id in a peer's handshake. Its version does not matter. -/
def readHandshake (frame : List UInt8) : Except Failure ServerId :=
  match Handshake.parse? frame with
  | none => .error .noHandshake
  | some h =>
    match h.role, h.serverId with
    | .server, some id => .ok id
    | role, _ => .error (.wrongRole role)

def readReply (frame : List UInt8) : Except Failure PeerReply :=
  (PeerReply.decode frame).mapError fun _ => .unreadableReply

/-! ## Whole calls -/

structure Dialer (κ ω : Type) where
  dial : ω → Except LinkError κ × ω
  /-- Sends a frame on a connection and waits for the next data frame from the other side. -/
  ask : ω → κ → List UInt8 → Except LinkError (List UInt8) × ω

variable {ω : Type}

def connect (d : Dialer κ ω) (us : ServerId) (net : ω) : Except Failure (κ × ServerId) × ω :=
  match d.dial net with
  | (.error e, net) => (.error (.link e), net)
  | (.ok connection, net) =>
    let (frame, net) := d.ask net connection (Handshake.peer us).toJson.bytes
    (do
      let id ← readHandshake (← frame.mapError .link)
      return (connection, id), net)

def exchange (d : Dialer κ ω) (m : PeerMessage) (connection : κ) (net : ω) :
    Except Failure PeerReply × ω :=
  let (frame, net) := d.ask net connection m.encode
  (do readReply (← frame.mapError .link), net)

def call (d : Dialer κ ω) (us : ServerId) (delay : UInt32 → Millis) (now : Time) (m : PeerMessage)
    (c : PeerClient κ) (net : ω) : Except Failure PeerReply × PeerClient κ × ω :=
  let exchangeOn (connection : κ) (c : PeerClient κ) (net : ω) :
      Except Failure PeerReply × PeerClient κ × ω :=
    let (reply, net) := exchange d m connection net
    (reply, (c.exchanged delay now connection reply).2, net)
  match c.begin delay now with
  | (.finished r, c) => (r, c, net)
  | (.exchanging connection, c) => exchangeOn connection c net
  | (.connecting, c) =>
    let (r, net) := connect d us net
    match c.connected r with
    | (.exchanging connection, c) => exchangeOn connection c net
    | (.finished r, c) => (r, c, net)
    | (.connecting, c) => (.error (.link .closed), c, net)

end PeerClient

end LeaseRegistry
