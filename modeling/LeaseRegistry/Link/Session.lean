import LeaseRegistry.Channel.Operation
import LeaseRegistry.Message.Handshake
import LeaseRegistry.Message.Replication

/-!
# Sessions

The server's side of a connection. Both sides open with a handshake. The handshake of the other
side decides what the connection is for: a client gets a registration channel, a peer gets a reply
to every message. Every data frame after that is handled in order and by itself.
-/

namespace LeaseRegistry

inductive ServerFrame where
  | handshake (h : Handshake)
  | message (m : ServerMessage)
  | reply (r : PeerReply)
  deriving DecidableEq, Repr

def ServerFrame.bytes : ServerFrame → List UInt8
  | handshake h => h.toJson.bytes
  | message m => m.toJson.bytes
  | reply r => r.encode

/-- A registry as its connections see it. -/
structure Endpoint (ρ : Type) extends Channel.Backend ρ where
  /-- Applies the message of a peer at a time. -/
  receive : ρ → Time → ServerId → PeerMessage → PeerReply × ρ

inductive Session where
  | opening
  | client (c : Channel)
  | peer (origin : ServerId)
  | ended
  deriving DecidableEq, Repr

namespace Session

/-- What the server sends to a connection that is opened. -/
def greeting (id : ServerId) : ServerFrame := .handshake (.server id)

def handshakeExpected : ServerMessage := .error "expected handshake"

def unreadable : PeerReply := .error "unexpected message: not a peer message"

/-- What the first data frame makes of a connection. -/
def identify (frame : List UInt8) (d : Desk) : List ServerFrame × Session × Desk :=
  match (Handshake.parse? frame).filter (·.isValid) with
  | none => ([.message handshakeExpected], ended, d)
  | some h =>
    match h.role, h.serverId with
    | .client, _ =>
      let (c, d) := Channel.openOn d
      ([], client c, d)
    | .peer, some origin => ([], peer origin, d)
    | _, _ => ([], ended, d)

/-- Ends the connection of a channel, which then counts no more. -/
def leave (c : Channel) (d : Desk) (now : Time) : Desk :=
  let (c, d) := c.connectionClosed d now
  c.drop d

/-- Handles a frame of a client. The session is over once its channel is closed. -/
def feedChannel {ρ : Type} (e : Endpoint ρ) (now : Time) (frame : List UInt8) (c : Channel)
    (d : Desk) (g : ρ) : List ServerFrame × Session × Desk × ρ :=
  let (_, c, d, g) := { c with replies := [] }.runFrame e.toBackend now frame d g
  let out := c.replies.map .message
  if c.state = .closed then (out, ended, leave c d now, g) else (out, client c, d, g)

def answerPeer {ρ : Type} (e : Endpoint ρ) (now : Time) (origin : ServerId) (frame : List UInt8)
    (g : ρ) : PeerReply × ρ :=
  match PeerMessage.decode frame with
  | .ok m => e.receive g now origin m
  | .error _ => (unreadable, g)

def feed {ρ : Type} (e : Endpoint ρ) (now : Time) (s : Session) (frame : List UInt8) (d : Desk)
    (g : ρ) : List ServerFrame × Session × Desk × ρ :=
  match s with
  | opening =>
    let (out, s, d) := identify frame d
    (out, s, d, g)
  | client c => feedChannel e now frame c d g
  | peer origin =>
    let (reply, g) := answerPeer e now origin frame g
    ([.reply reply], peer origin, d, g)
  | ended => ([], ended, d, g)

/-- Handles the frames that a connection delivers, each at its time. -/
def feedAll {ρ : Type} (e : Endpoint ρ) (s : Session) (d : Desk) (g : ρ) :
    List (Time × List UInt8) → List ServerFrame × Session × Desk × ρ
  | [] => ([], s, d, g)
  | (now, frame) :: frames =>
    let (out, s, d, g) := s.feed e now frame d g
    let (rest, s, d, g) := feedAll e s d g frames
    (out ++ rest, s, d, g)

def disconnect (s : Session) (d : Desk) (now : Time) : Session × Desk :=
  match s with
  | client c => (ended, leave c d now)
  | opening | peer _ | ended => (ended, d)

/-- A whole connection: the frames it delivers and, at a time, its end. -/
def serve {ρ : Type} (e : Endpoint ρ) (frames : List (Time × List UInt8)) (last : Time) (d : Desk)
    (g : ρ) : List ServerFrame × Desk × ρ :=
  let (out, s, d, g) := feedAll e opening d g frames
  (out, (s.disconnect d last).2, g)

end Session

end LeaseRegistry
