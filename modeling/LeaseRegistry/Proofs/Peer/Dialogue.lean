import LeaseRegistry.Link.Session
import LeaseRegistry.Peer.Client
import LeaseRegistry.Proofs.Data.List
import LeaseRegistry.Proofs.Link.Frame

/-!
# A client of a peer and the peer

The client makes one call after the other over connections that deliver in order. Whatever happens
in between is a `Dialogue.Move`: the client or the server goes on by one item, the call is abandoned
wherever it waits, a connection breaks. The numbers that items carry are only there to say which
request an answer belongs to; no move depends on them.
-/

namespace LeaseRegistry

/-- An item on its way. A request has the number of its call, and the reply to it has that too. -/
structure Parcel where
  call : Option Nat
  item : WireItem

def Parcel.binary (call : Option Nat) (bytes : List UInt8) : Parcel := ⟨call, .ok (.binary bytes)⟩

/-- An answer of the server to a frame, with what the server was when it gave it. -/
structure Answered (ρ : Type) where
  call : Option Nat
  frame : List UInt8
  time : Time
  before : ρ
  reply : PeerReply

/-- What the server sends, as an answer to the frame that it has just taken. -/
def Answered.of? {ρ : Type} (call : Option Nat) (frame : List UInt8) (time : Time) (before : ρ) :
    ServerFrame → Option (Answered ρ)
  | .reply r => some ⟨call, frame, time, before, r⟩
  | .handshake _ | .message _ => none

/-! ## Connections -/

/-- A connection: the server's side of it, and what is on its way to the server (`up`) and to the
client (`down`), oldest first. -/
structure Wire where
  session : Session
  broken : Bool
  up : List Parcel
  down : List Parcel

namespace Wire

def accepted (server : ServerId) : Wire :=
  ⟨.opening, false, [], [.binary none (Session.greeting server).bytes]⟩

def sendUp (w : Wire) (p : Parcel) : Wire := if w.broken then w else { w with up := w.up ++ [p] }

def sendDown (w : Wire) (ps : List Parcel) : Wire :=
  if w.broken then w else { w with down := w.down ++ ps }

/-- Breaks: of what is on its way, only the first items arrive, and then an error. -/
def cut (w : Wire) (ups downs : Nat) (e : WireError) : Wire :=
  { w with
    broken := true
    up := w.up.take ups ++ [⟨none, .error e⟩]
    down := w.down.take downs ++ [⟨none, .error e⟩] }

variable {ρ : Type}

def handle (e : Endpoint ρ) (now : Time) (w : Wire) (d : Desk) (g : ρ) :
    List (Answered ρ) × Wire × Desk × ρ :=
  match w.up with
  | [] => ([], w, d, g)
  | ⟨call, item⟩ :: up =>
    let w := { w with up }
    match item.taken? with
    | none => ([], w, d, g)
    | some (.error _) =>
      let (session, d) := w.session.disconnect d now
      ([], { w with session }, d, g)
    | some (.ok frame) =>
      let (out, session, d, g') := w.session.feed e now frame d g
      let w : Wire := { w with session }
      (out.filterMap (Answered.of? call frame now g),
        w.sendDown (out.map fun (f : ServerFrame) => .binary call f.bytes), d, g')

/-- The server ends the connection. If it still waits for a handshake, it says so. -/
def hangUp (now : Time) (w : Wire) (d : Desk) : Wire × Desk :=
  let out : List ServerFrame :=
    match w.session with
    | .opening => [.message Session.handshakeExpected]
    | .client _ | .peer _ | .ended => []
  let (session, d) := w.session.disconnect d now
  let frames : List Parcel := out.map fun f => .binary none f.bytes
  let w : Wire := { w with session }
  (w.sendDown (frames ++ [⟨none, .ok .close⟩]), d)

end Wire

/-! ## Calls -/

/-- Where a call waits. Connections go by their numbers. -/
inductive CallStage where
  | dialing
  | greeting (wire : Nat)
  | greeted (wire : Nat)
  | asking (wire : Nat)
  | asked (wire : Nat)
  deriving DecidableEq, Repr

structure Call where
  number : Nat
  message : PeerMessage
  stage : CallStage

/-- What a call that was not abandoned came to. -/
structure CallEnd where
  number : Nat
  message : PeerMessage
  result : Except PeerClient.Failure PeerReply

structure Parties (ρ : Type) where
  client : ServerId
  server : ServerId
  endpoint : Endpoint ρ
  /-- The delay after so many failures. -/
  delay : UInt32 → Millis

/-- A client and a server with all connections that there have been, and what they have done. -/
structure Dialogue (ρ : Type) where
  client : PeerClient Nat
  call : Option Call
  begun : Nat
  ends : List CallEnd
  wires : List Wire
  desk : Desk
  registry : ρ
  answers : List (Answered ρ)

namespace Dialogue

variable {ρ : Type}

def start (desk : Desk) (registry : ρ) : Dialogue ρ :=
  ⟨.fresh, none, 0, [], [], desk, registry, []⟩

inductive Move (ρ : Type) where
  | begin (now : Time) (m : PeerMessage)
  | dialed (failure : Option LinkError)
  /-- What is to be sent is sent, or cannot be. -/
  | send (now : Time) (refusal : Option String)
  | read (now : Time)
  | abandon
  | handle (wire : Nat) (now : Time)
  | hangUp (wire : Nat) (now : Time)
  | cut (wire ups downs : Nat) (e : WireError)
  /-- A control frame is sent to the server or to the client. -/
  | control (wire : Nat) (toServer : Bool) (pong : Bool) (bytes : List UInt8)
  | elsewhere (desk : Desk) (registry : ρ)

def onWire (d : Dialogue ρ) (k : Nat) (f : Wire → Wire) : Dialogue ρ :=
  { d with wires := d.wires.modify k f }

def goOn (d : Dialogue ρ) (c : Call) : PeerClient.Phase Nat × PeerClient Nat → Dialogue ρ
  | (.connecting, client) => { d with client, call := some { c with stage := .dialing } }
  | (.exchanging k, client) => { d with client, call := some { c with stage := .asking k } }
  | (.finished result, client) =>
    { d with client, call := none, ends := d.ends ++ [⟨c.number, c.message, result⟩] }

section

variable (P : Parties ρ)

def begin (now : Time) (m : PeerMessage) (d : Dialogue ρ) : Dialogue ρ :=
  match d.call with
  | some _ => d
  | none =>
    { d with begun := d.begun + 1 }.goOn ⟨d.begun, m, .dialing⟩ (d.client.begin P.delay now)

def dialed (failure : Option LinkError) (d : Dialogue ρ) (c : Call) : Dialogue ρ :=
  match c.stage, failure with
  | .dialing, none =>
    { d with
      wires := d.wires ++ [.accepted P.server]
      call := some { c with stage := .greeting d.wires.length } }
  | .dialing, some e => d.goOn c (d.client.connected (.error (.link e)))
  | _, _ => d

def send (now : Time) (refusal : Option String) (d : Dialogue ρ) (c : Call) : Dialogue ρ :=
  match c.stage, refusal with
  | .greeting k, none =>
    { d.onWire k (·.sendUp (.binary none (Handshake.peer P.client).toJson.bytes)) with
      call := some { c with stage := .greeted k } }
  | .greeting _, some reason => d.goOn c (d.client.connected (.error (.link (.sendFailed reason))))
  | .asking k, none =>
    { d.onWire k (·.sendUp (.binary (some c.number) c.message.encode)) with
      call := some { c with stage := .asked k } }
  | .asking k, some reason =>
    d.goOn c (d.client.exchanged P.delay now k (.error (.link (.sendFailed reason))))
  | _, _ => d

/-- The next item of a connection, and the dialogue once it is taken. -/
def nextDown? (d : Dialogue ρ) (k : Nat) : Option (WireItem × Dialogue ρ) :=
  match d.wires[k]? with
  | some { down := p :: down, .. } => some (p.item, d.onWire k fun w => { w with down })
  | _ => none

def read (now : Time) (d : Dialogue ρ) (c : Call) : Dialogue ρ :=
  match c.stage with
  | .greeted k =>
    match d.nextDown? k with
    | none => d
    | some (item, d) =>
      match item.taken? with
      | none => d
      | some frame => d.goOn c (d.client.connected
          (((frame.mapError .link).bind PeerClient.readHandshake).map (k, ·)))
  | .asked k =>
    match d.nextDown? k with
    | none => d
    | some (item, d) =>
      match item.taken? with
      | none => d
      | some frame => d.goOn c (d.client.exchanged P.delay now k
          ((frame.mapError .link).bind PeerClient.readReply))
  | .dialing | .greeting _ | .asking _ => d

def handle (k : Nat) (now : Time) (d : Dialogue ρ) : Dialogue ρ :=
  match d.wires[k]? with
  | none => d
  | some w =>
    let (answers, w, desk, registry) := w.handle P.endpoint now d.desk d.registry
    { d with wires := d.wires.set k w, desk, registry, answers := d.answers ++ answers }

def hangUp (k : Nat) (now : Time) (d : Dialogue ρ) : Dialogue ρ :=
  match d.wires[k]? with
  | none => d
  | some w =>
    let (w, desk) := w.hangUp now d.desk
    { d with wires := d.wires.set k w, desk }

def control (k : Nat) (toServer pong : Bool) (bytes : List UInt8) (d : Dialogue ρ) : Dialogue ρ :=
  d.onWire k fun w =>
    let p : Parcel := ⟨none, .ok (if pong then .pong bytes else .ping bytes)⟩
    if toServer then w.sendUp p else w.sendDown [p]

/-- One move. A move that is not possible does nothing. -/
def step (d : Dialogue ρ) : Move ρ → Dialogue ρ
  | .begin now m => d.begin P now m
  | .dialed failure => (d.call.map (d.dialed P failure)).getD d
  | .send now refusal => (d.call.map (d.send P now refusal)).getD d
  | .read now => (d.call.map (d.read P now)).getD d
  | .abandon => { d with call := none }
  | .handle k now => d.handle P k now
  | .hangUp k now => d.hangUp k now
  | .cut k ups downs e => d.onWire k (·.cut ups downs e)
  | .control k toServer pong bytes => d.control k toServer pong bytes
  | .elsewhere desk registry => { d with desk, registry }

def run (d : Dialogue ρ) (moves : List (Move ρ)) : Dialogue ρ := moves.foldl (step P) d

end

/-! ## One connection -/

variable {d : Dialogue ρ} {k : Nat} {w : Wire}

theorem onWire_eq (hw : d.wires[k]? = some w) (f : Wire → Wire) :
    d.onWire k f = { d with wires := d.wires.set k (f w) } := by
  have hwires : d.wires.modify k f = d.wires.set k (f w) := by
    refine List.ext_getElem? fun j => ?_
    rw [List.getElem?_modify]
    by_cases hjk : k = j
    · subst hjk
      rw [getElem?_set_of_eq_some hw _, hw]
      simp
    · rw [List.getElem?_set_ne hjk]
      simp [hjk]
  rw [onWire, hwires]

/-- An item that the client takes comes first on the connection. -/
theorem nextDown?_eq_some {item : WireItem} {d' : Dialogue ρ}
    (h : d.nextDown? k = some (item, d')) :
    ∃ w p down, d.wires[k]? = some w ∧ w.down = p :: down ∧ p.item = item ∧
      d' = { d with wires := d.wires.set k { w with down } } := by
  unfold nextDown? at h
  split at h
  · rename_i session broken up p down hw
    cases h
    exact ⟨_, p, down, hw, rfl, rfl, onWire_eq hw _⟩
  · cases h

/-- What can come of it when the client takes the next item of its connection. -/
inductive Heard (P : Parties ρ) (now : Time) (d : Dialogue ρ) (c : Call) : Dialogue ρ → Prop where
  | nothing : Heard P now d c d
  | passed {k : Nat} {w : Wire} {p : Parcel} {down : List Parcel} (hw : d.wires[k]? = some w)
    (hdown : w.down = p :: down) (htaken : p.item.taken? = none) :
    Heard P now d c { d with wires := d.wires.set k { w with down } }
  | lost {k : Nat} {w : Wire} {p : Parcel} {down : List Parcel} {e : LinkError}
    (hw : d.wires[k]? = some w) (hdown : w.down = p :: down)
    (htaken : p.item.taken? = some (.error e)) {client : PeerClient Nat}
    (hheld : client.held = d.client.held) (failure : PeerClient.Failure) :
    Heard P now d c (({ d with wires := d.wires.set k { w with down } } : Dialogue ρ).goOn c
      (.finished (.error failure), client))
  /-- The frame is not the handshake of a server. -/
  | unmet {k : Nat} {w : Wire} {p : Parcel} {down : List Parcel} {frame : List UInt8}
    (hstage : c.stage = .greeted k) (hw : d.wires[k]? = some w) (hdown : w.down = p :: down)
    (htaken : p.item.taken? = some (.ok frame)) (failure : PeerClient.Failure) :
    Heard P now d c (({ d with wires := d.wires.set k { w with down } } : Dialogue ρ).goOn c
      (.finished (.error failure), d.client))
  | met {k : Nat} {w : Wire} {p : Parcel} {down : List Parcel} {frame : List UInt8}
    (hstage : c.stage = .greeted k) (hw : d.wires[k]? = some w) (hdown : w.down = p :: down)
    (htaken : p.item.taken? = some (.ok frame)) (id : ServerId) :
    Heard P now d c
      { d with
        wires := d.wires.set k { w with down }
        client := { d.client with remote := some id, reconnect := .fresh }
        call := some { c with stage := .asking k } }
  | replied {k : Nat} {w : Wire} {p : Parcel} {down : List Parcel} {frame : List UInt8}
    (hstage : c.stage = .asked k) (hw : d.wires[k]? = some w) (hdown : w.down = p :: down)
    (htaken : p.item.taken? = some (.ok frame)) :
    Heard P now d c (({ d with wires := d.wires.set k { w with down } } : Dialogue ρ).goOn c
      (d.client.exchanged P.delay now k (PeerClient.readReply frame)))

theorem heard_read (P : Parties ρ) (now : Time) (d : Dialogue ρ) (c : Call) :
    Heard P now d c (d.read P now c) := by
  unfold read
  cases hstage : c.stage with
  | dialing | greeting k | asking k => exact .nothing
  | greeted k =>
    dsimp only
    cases hnext : d.nextDown? k with
    | none => exact .nothing
    | some next =>
      obtain ⟨item, d'⟩ := next
      obtain ⟨w, p, down, hw, hdown, rfl, rfl⟩ := nextDown?_eq_some hnext
      dsimp only
      cases htaken : p.item.taken? with
      | none => exact .passed hw hdown htaken
      | some frame =>
        cases frame with
        | error e => exact .lost hw hdown htaken rfl _
        | ok frame =>
          dsimp only [Except.mapError, Except.bind]
          cases PeerClient.readHandshake frame with
          | error e => exact .unmet hstage hw hdown htaken e
          | ok id => exact .met hstage hw hdown htaken id
  | asked k =>
    dsimp only
    cases hnext : d.nextDown? k with
    | none => exact .nothing
    | some next =>
      obtain ⟨item, d'⟩ := next
      obtain ⟨w, p, down, hw, hdown, rfl, rfl⟩ := nextDown?_eq_some hnext
      dsimp only
      cases htaken : p.item.taken? with
      | none => exact .passed hw hdown htaken
      | some frame =>
        cases frame with
        | error e =>
          dsimp only [Except.mapError, Except.bind, PeerClient.exchanged]
          refine .lost hw hdown htaken ?_ _
          rfl
        | ok frame => exact .replied hstage hw hdown htaken

end Dialogue

end LeaseRegistry
