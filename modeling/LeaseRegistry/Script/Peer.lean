import LeaseRegistry.Link.Frame
import LeaseRegistry.Peer.Client
import LeaseRegistry.Replication.Snapshot
import LeaseRegistry.Script.Run
import LeaseRegistry.Script.Timing

/-!
# Scripts for the connection to a peer

A scripted peer answers the handshake and the requests of a client, on one connection after the
other. Where there is no network, no connection is ever opened and the peer sees nothing.
-/

namespace LeaseRegistry.Script

/-- What a scripted peer does when a frame arrives: it sends messages, or its stream fails. -/
abbrev Response := List WireItem

/-- A connection that a scripted peer accepts: what it answers to one frame after the other. -/
structure Acceptance where
  handshake : Response
  replies : List Response

structure Stage where
  network : Bool
  /-- The connections to come; `none` fails before it is open. -/
  connections : List (Option Acceptance)
  responses : List Response
  seen : List Json

namespace Stage

def url : String := "<url>"

/-- The reason why a connection cannot be opened or breaks. -/
def broken : LinkError := .connectionFailed (url ++ ": no connection")

def dial (s : Stage) : Except LinkError Unit × Stage :=
  if s.network then
    match s.connections with
    | some c :: rest =>
      (.ok (), { s with connections := rest, responses := c.handshake :: c.replies })
    | none :: rest => (.error broken, { s with connections := rest })
    | [] => (.error broken, s)
  else (.error broken, s)

def view (frame : List UInt8) : Json :=
  match Handshake.parse? frame with
  | some h => wire h.toJson
  | none =>
    match PeerMessage.decode frame with
    | .ok m => m.toJson
    | .error _ => .null

/-- After the last response every frame is answered with the end of the stream. -/
def ask (s : Stage) (_ : Unit) (frame : List UInt8) : Except LinkError (List UInt8) × Stage :=
  ((nextFrame (s.responses.headD [])).1,
    { s with responses := s.responses.drop 1, seen := s.seen ++ [view frame] })

def dialer : PeerClient.Dialer Unit Stage := ⟨dial, ask⟩

end Stage

def responseOf : Json → Read Response
  | .string (some "close") => .ok [.ok .close]
  | .string (some "abort") => .ok [.error (.failure "connection lost")]
  | v => do
    let bytes ← match given? "reply" v with
      | some r => pure (← asReply r).encode
      | none => bytesOf v
    let data : WireMessage :=
      if (← strD "as" "binary" v) = "text" then .text bytes else .binary bytes
    let ping := if ← boolD "ping" false v then [.ok (.ping [])] else []
    let big := if ← boolD "big" false v then
        [.ok (.binary (List.replicate (Handshake.maxMessageSize + 1) 0))]
      else []
    return ping ++ big ++ [.ok data]

def acceptanceOf (v : Json) : Read (Option Acceptance) := do
  match ← need "accept" v with
  | .string (some "drop") => return none
  | accept => return some ⟨← responseOf accept, ← (← listD "replies" v).mapM responseOf⟩

/-- The texts that come from the connection itself are not shown, apart from its regular end. -/
def failureJson : PeerClient.Failure → Json
  | .link .closed => linkErrorJson .closed
  | .link (.other reason) => linkErrorJson (.other reason)
  | .link e => kindJson e.kind
  | .unreadableReply => kindJson (PeerClient.Failure.error Stage.url .unreadableReply).kind
  | e => linkErrorJson (e.error Stage.url)

def snapshotResult : Except PeerClient.Failure PeerReply → Json
  | .error e => failureJson e
  | .ok r =>
    match r.snapshot? with
    | .ok s => sortedReplyJson (.snapshot s.server s.records)
    | .error e => linkErrorJson e

def replyResult : Except PeerClient.Failure PeerReply → Json
  | .error e => failureJson e
  | .ok r => sortedReplyJson r

/-- Runs a script for the connection to a peer, with a network or without. -/
def peerClient (network : Bool) (v : Json) : Read Json := do
  let us ← serverIdOf "our_id" v
  let b ← backoffOf v
  let stage : Stage := ⟨network, ← (← listD "server" v).mapM acceptanceOf, [], []⟩
  let row (r : Json) (c : PeerClient Unit) (s : Stage) : Json :=
    .record [("r", r), ("remote", opt ServerId.toJson c.remote), ("server_saw", .array s.seen)]
  let call (now : Time) (c : PeerClient Unit) (s : Stage) (m : PeerMessage)
      (result : Except PeerClient.Failure PeerReply → Json) :
      Json × Option (Time × PeerClient Unit × Stage) :=
    let connects := c.held.isNone && c.reconnect.isDue now
    if connects && (b.delay? (c.reconnect.failures + 1)).isNone then (.null, none)
    else
      let (r, c, s) := c.call Stage.dialer us b.delayMillis now m s
      (row (result r) c s, some (now, c, { s with seen := [] }))
  let (out, final) ← runSteps (fun (st : Option (Time × PeerClient Unit × Stage)) step => do
    match st with
    | none => return (.null, none)
    | some (now, c, s) =>
      match ← nameOf step with
      | "call" => return call now c s (← messageOf step) replyResult
      | "fetch" => return call now c s .fetchSnapshot snapshotResult
      | "advance" => return (row .null c s, some (now.after (← nat "ms" step), c, s))
      | name => .error ("peer step " ++ name))
    (some (← u64D "start" 0 v, .fresh, stage)) (← stepsOf v)
  return if final.isNone then noAnswer else .array out

end LeaseRegistry.Script
