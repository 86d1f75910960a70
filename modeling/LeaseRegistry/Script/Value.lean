import LeaseRegistry.Message.PeerJson
import LeaseRegistry.Registry
import LeaseRegistry.Script.Reading
import LeaseRegistry.Text.Hex

/-!
# The values in scripts

Records, deltas, sources, requests, errors and bytes, as scripts name them.
-/

namespace LeaseRegistry.Script

def asRecord (v : Json) : Read Record := from? "record" (Record.ofJson? .direct v)

def recordOf (v : Json) : Read Record := do asRecord (← need "record" v)

def deltasOf (v : Json) : Read (List Delta) := do
  (← listD "deltas" v).mapM fun d => from? "delta" (Delta.ofJson? d)

def statusOf (v : Json) : Read Status := do
  from? "status" (Status.ofJson? .direct (← need "status" v))

def asServerId (v : Json) : Read ServerId := from? "server id" (ServerId.ofJson? v)

def serverIdOf (name : String) (v : Json) : Read ServerId := do asServerId (← need name v)

/-- A write without a source was made here. -/
def sourceOf (v : Json) : Read Source :=
  match given? "source" v with
  | some s => return .replicated (← asServerId s)
  | none => .ok .here

def idOf (v : Json) : Read InstanceId := return ⟨← str "id" v⟩

def messageOf (v : Json) : Read PeerMessage := do
  from? "message" (PeerMessage.ofJson? (← need "message" v))

def asReply (v : Json) : Read PeerReply := from? "reply" (PeerReply.ofJson? v)

/-- The bytes of a text, of hexadecimal digits, or of a unit that is repeated between two texts. -/
def bytesOf (v : Json) : Read (List UInt8) := do
  let utf8 (s : String) : List UInt8 := s.toUTF8.toList
  match given? "text" v, given? "hex" v, given? "repeat" v with
  | some t, _, _ => return utf8 (← asText "text" t)
  | _, some h, _ => from? "hex" (Text.Hex.decode? (← asText "hex" h))
  | _, _, some (.array [head, unit, count, tail]) =>
    let unit := utf8 (← asText "unit" unit)
    let units := List.replicate (← asNat "count" count) unit
    let rest := units.foldl (fun acc u => u ++ acc) (utf8 (← asText "tail" tail))
    return utf8 (← asText "head" head) ++ rest
  | _, _, _ => .error "no bytes"

def registryErrorOf (v : Json) : Read RegistryError := do
  match ← str "kind" v with
  | "UnknownInstance" => return .store (.unknownInstance (← idOf v))
  | "InvalidRecord" => return .store (.invalidRecord (← str "text" v))
  | "BaseMismatch" =>
    return .store (.baseMismatch (← idOf v) (← u64 "stored" v) (← u64 "base" v))
  | "ReplicationUnreachable" => return .unreachable (← str "peer" v) (← str "text" v)
  | "SyncFailure" => return .syncFailure (← u64 "peers" v)
  | "ConnectionFailed" => return .link (.connectionFailed (← str "text" v))
  | "SendFailed" => return .link (.sendFailed (← str "text" v))
  | "Closed" => return .link .closed
  | "Timeout" => return .link (.timeout (← u64 "ms" v))
  | "Codec" => return .link (.codec (← str "text" v))
  | "Other" => return .link (.other (← str "text" v))
  | kind => .error ("error kind " ++ kind)

/-- The request that a step named `step` makes. -/
def requestOf (step : String) (v : Json) : Read Request := do
  match step with
  | "register" => return .register (← recordOf v) (← sourceOf v)
  | "update" => return .update (← recordOf v) (← deltasOf v) (← sourceOf v)
  | "unregister" => return .unregister (← idOf v) (← u64 "version" v) (← sourceOf v)
  | "status_update" => return .statusUpdate (← idOf v) (← statusOf v) (← sourceOf v)
  | "renew" => return .renew (← idOf v) (← sourceOf v)
  | _ => .error ("step " ++ step)

def settingsOf (v : Json) : Read Preservation.Settings :=
  return ⟨← boolD "enabled" true v, ← floatD "threshold" Preservation.defaultThreshold v,
    ← natD "window_ms" 60000 v⟩

def preservationOf (v : Json) : Read Preservation.Settings :=
  settingsOf ((given? "preservation" v).getD (.object []))

end LeaseRegistry.Script
