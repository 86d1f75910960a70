import LeaseRegistry.Message.Handshake
import LeaseRegistry.Registry

/-!
# Frames of a connection

What the messages of a WebSocket stream amount to. Only binary and text messages of bounded size
are handed on. There are two readers: `nextFrame` waits for one frame, `readAll` hands on every
frame until the stream ends or nobody takes them any more.
-/

namespace LeaseRegistry

inductive WireMessage where
  | binary (data : List UInt8)
  | text (data : List UInt8)
  | ping (data : List UInt8)
  | pong (data : List UInt8)
  | close
  deriving DecidableEq, Repr

inductive WireError where
  | connectionClosed
  | alreadyClosed
  | failure (reason : String)
  deriving DecidableEq, Repr

abbrev WireItem := Except WireError WireMessage

inductive Frame where
  | data (bytes : List UInt8)
  /-- A control message, or one that is too large. -/
  | skip
  | close
  deriving DecidableEq, Repr

namespace Frame

/-- Data that is not too large. -/
def bounded (bytes : List UInt8) : Frame :=
  if bytes.length ≤ Handshake.maxMessageSize then data bytes else skip

def ofMessage : WireMessage → Frame
  | .binary bytes => bounded bytes
  | .text bytes => bounded bytes
  | .ping _ => skip
  | .pong _ => skip
  | .close => close

end Frame

/-- The next data frame of a stream, with the rest of the stream. -/
def nextFrame : List WireItem → Except LinkError (List UInt8) × List WireItem
  | [] => (.error .closed, [])
  | .ok m :: items =>
    match Frame.ofMessage m with
    | .data bytes => (.ok bytes, items)
    | .skip => nextFrame items
    | .close => (.error .closed, items)
  | .error .connectionClosed :: items => (.error .closed, items)
  | .error .alreadyClosed :: items => (.error .closed, items)
  | .error (.failure reason) :: items => (.error (.connectionFailed reason), items)

/-- The data frames that are handed on until the stream closes, fails or ends. The receiver is gone
after it has taken `life` frames, or never; the frame that nobody takes is the last one read. -/
def readAll : Option Nat → List WireItem → List (List UInt8)
  | _, [] => []
  | life, .ok m :: items =>
    match Frame.ofMessage m with
    | .data bytes =>
      match life with
      | none => bytes :: readAll none items
      | some 0 => []
      | some (n + 1) => bytes :: readAll (some n) items
    | .skip => readAll life items
    | .close => []
  | _, .error _ :: _ => []

/-- Calls `nextFrame` again and again, also after failures, `n` times at most and until more
results than the stream has items are there. -/
def frames : Nat → List WireItem → List (Except LinkError (List UInt8))
  | 0, _ => []
  | n + 1, items =>
    let (result, items) := nextFrame items
    result :: frames n items

/-- Where frames are sent: what was sent so far, and whether sending fails. -/
structure FrameSink where
  sent : List WireMessage
  /-- The reason why sending fails. -/
  refusal : Option String
  deriving DecidableEq, Repr

def FrameSink.sendBinary (s : FrameSink) (bytes : List UInt8) : Except LinkError Unit × FrameSink :=
  match s.refusal with
  | some reason => (.error (.sendFailed reason), s)
  | none => (.ok (), { s with sent := s.sent ++ [.binary bytes] })

end LeaseRegistry
