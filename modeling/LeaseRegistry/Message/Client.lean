import LeaseRegistry.Instance.Json

/-!
# Messages between an instance and its server

Both directions carry JSON objects tagged by their `type`. A message is kept as a whole before
its content is read.
-/

namespace LeaseRegistry

inductive ClientMessage where
  | register (record : Record)
  | update (record : Record)
  | unregister
  | heartbeat
  deriving DecidableEq, Repr

inductive ServerMessage where
  | ack
  | error (reason : String)
  | heartbeat
  deriving DecidableEq, Repr

namespace ClientMessage

def kind : ClientMessage → String
  | register _ => "register"
  | update _ => "update"
  | unregister => "unregister"
  | heartbeat => "heartbeat"

def toJson (m : ClientMessage) : Json :=
  match m with
  | register r | update r => .record [("type", .text m.kind), ("instance", r.toJson)]
  | unregister | heartbeat => .record [("type", .text m.kind)]

def contentRecord? (content : Json) : Option Record := do
  Json.required "instance" (Record.ofJson? .kept) (← content.fields? ["instance"])

def ofJson? (v : Json) : Option ClientMessage := do
  let (tag, content) ← v.tagged?
  match tag with
  | "register" => (contentRecord? content).map register
  | "update" => (contentRecord? content).map update
  | "unregister" => if content.isBlankContent then some unregister else none
  | "heartbeat" => if content.isBlankContent then some heartbeat else none
  | _ => none

def parse? (s : List UInt8) : Option ClientMessage :=
  (Json.parseKept? s).bind ofJson?

end ClientMessage

namespace ServerMessage

def toJson : ServerMessage → Json
  | ack => .record [("type", .text "ack")]
  | error reason => .record [("type", .text "error"), ("reason", .text reason)]
  | heartbeat => .record [("type", .text "heartbeat")]

def ofJson? (v : Json) : Option ServerMessage := do
  let (tag, content) ← v.tagged?
  match tag with
  | "ack" => if content.isBlankContent then some ack else none
  | "error" => (Json.required "reason" Json.toText? (← content.fields? ["reason"])).map error
  | "heartbeat" => if content.isBlankContent then some heartbeat else none
  | _ => none

def parse? (s : List UInt8) : Option ServerMessage :=
  (Json.parseKept? s).bind ofJson?

end ServerMessage

end LeaseRegistry
