import LeaseRegistry.Link.Frame
import LeaseRegistry.Script.Report
import LeaseRegistry.Script.Value

/-!
# Scripts for frames

What the messages of a stream amount to, and what two readers make of a stream.
-/

namespace LeaseRegistry.Script

/-- Bytes in full if there are few of them, else their number and the first ones. -/
def dataJson (bytes : List UInt8) : Json :=
  if bytes.length ≤ 64 then .record [("hex", .text (Text.Hex.encode bytes))]
  else .record [("len", .nat bytes.length), ("head", .text (Text.Hex.encode (bytes.take 16)))]

def wireMessageOf (v : Json) : Read WireMessage := do
  match ← str "kind" v with
  | "binary" => return .binary (← bytesOf v)
  | "text" => return .text (← bytesOf v)
  | "ping" => return .ping (← bytesOf v)
  | "pong" => return .pong (← bytesOf v)
  | "close" => return .close
  | kind => .error ("frame kind " ++ kind)

def wireItemOf (v : Json) : Read WireItem := do
  match ← str "kind" v with
  | "err_connection_closed" => return .error .connectionClosed
  | "err_already_closed" => return .error .alreadyClosed
  | "err_utf8" => return .error (.failure "not Unicode")
  | "err_attack" => return .error (.failure "too many frames")
  | _ => return .ok (← wireMessageOf v)

def frame (v : Json) : Read Json := do
  match Frame.ofMessage (← wireMessageOf v) with
  | .data bytes => return dataJson bytes
  | .skip => return .text "skip"
  | .close => return .text "close"

def nextFrames (v : Json) : Read Json := do
  let items ← (← list "items" v).mapM wireItemOf
  return .array ((frames (items.length + 1) items).map fun
    | .ok bytes => dataJson bytes
    | .error e => kindJson e.kind)

def sendBinary (v : Json) : Read Json := do
  let refusal := if ← boolD "fail" false v then some "refused" else none
  let (r, sink) := FrameSink.sendBinary ⟨[], refusal⟩ (← bytesOf v)
  let sent := sink.sent.map fun
    | .binary bytes => Json.array [.bool true, dataJson bytes]
    | .text bytes => .array [.bool false, dataJson bytes]
    | _ => .null
  let result := match r with
    | .ok _ => Json.null
    | .error e => kindJson e.kind
  return .record [("r", result), ("sent", .array sent)]

end LeaseRegistry.Script
