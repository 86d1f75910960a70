import LeaseRegistry.Instance.Json
import LeaseRegistry.Message.Replication

/-!
# Messages between servers as JSON

For logs and scripts, a message is an object whose only key names it and whose value holds its
fields; a message without fields is its name alone.
-/

namespace LeaseRegistry

def Json.variant? : Json → Option (String × Json)
  | .string (some name) => some (name, .null)
  | .object [(some name, body)] => some (name, body)
  | _ => none

def Json.field? {α : Type} (name : String) (read : Json → Option α) (body : Json) : Option α :=
  (body.fields? []).bind (Json.required name read)

namespace InstanceId

def toJson (id : InstanceId) : Json := .text id.text

def ofJson? (v : Json) : Option InstanceId := v.toText?.map (⟨·⟩)

end InstanceId

def InstanceId.field? (body : Json) : Option InstanceId := body.field? "id" InstanceId.ofJson?

namespace PeerMessage

def toJson : PeerMessage → Json
  | register record => .record [("Register", .record [("instance", record.toJson)])]
  | update id base version deltas =>
    .record [("Update", .record [("id", id.toJson), ("base_version", .nat base.toNat),
      ("version", .nat version.toNat), ("deltas", .array (deltas.map Delta.toJson))])]
  | unregister id version =>
    .record [("Unregister", .record [("id", id.toJson), ("version", .nat version.toNat)])]
  | statusUpdate id status version =>
    .record [("StatusUpdate", .record [("id", id.toJson), ("status", status.toJson),
      ("version", .nat version.toNat)])]
  | heartbeat id => .record [("Heartbeat", .record [("id", id.toJson)])]
  | fetchSnapshot => .text "FetchSnapshot"

def ofJson? (v : Json) : Option PeerMessage := do
  let (name, body) ← v.variant?
  let version := body.field? "version" Json.toUInt64?
  match name with
  | "Register" => return register (← body.field? "instance" (Record.ofJson? .direct))
  | "Update" =>
    return update (← InstanceId.field? body) (← body.field? "base_version" Json.toUInt64?)
      (← version) (← body.field? "deltas" (Json.toList? Delta.ofJson?))
  | "Unregister" => return unregister (← InstanceId.field? body) (← version)
  | "StatusUpdate" =>
    return statusUpdate (← InstanceId.field? body) (← body.field? "status" (Status.ofJson? .direct))
      (← version)
  | "Heartbeat" => return heartbeat (← InstanceId.field? body)
  | "FetchSnapshot" => return fetchSnapshot
  | _ => none

end PeerMessage

namespace PeerReply

def toJson : PeerReply → Json
  | ack => .text "Ack"
  | snapshot server records =>
    .record [("Snapshot", .record [("server_id", server.toJson),
      ("instances", .array (records.map Record.toJson))])]
  | unknownInstance id => .record [("UnknownInstance", .record [("id", id.toJson)])]
  | stale id => .record [("Stale", .record [("id", id.toJson)])]
  | error reason => .record [("Error", .record [("reason", .text reason)])]

def ofJson? (v : Json) : Option PeerReply := do
  let (name, body) ← v.variant?
  match name with
  | "Ack" => return ack
  | "Snapshot" =>
    return snapshot (← body.field? "server_id" ServerId.ofJson?)
      (← body.field? "instances" (Json.toList? (Record.ofJson? .direct)))
  | "UnknownInstance" => return unknownInstance (← InstanceId.field? body)
  | "Stale" => return stale (← InstanceId.field? body)
  | "Error" => return error (← body.field? "reason" Json.toText?)
  | _ => none

end PeerReply

end LeaseRegistry
