import LeaseRegistry.Channel.Interleaving
import LeaseRegistry.Script.Report
import LeaseRegistry.Script.Run
import LeaseRegistry.Script.Value

/-!
# Scripts for channels

The steps act on the channels of an office, alone or around a call that a channel makes.
-/

namespace LeaseRegistry.Script

def channelErrorJson : Channel.Error → Json
  | .registry e => registryErrorJson e
  | e => errorJson (kind e) (cut e.message)
where
  kind : Channel.Error → String
    | .alreadyRegistered => "AlreadyRegistered"
    | .notRegistered => "NotRegistered"
    | .channelClosed => "ChannelClosed"
    | .protocol _ => "Protocol"
    | .registry e => e.kind

def serverMessageJson : ServerMessage → Json
  | .error reason => (ServerMessage.error (cut reason)).toJson
  | m => m.toJson

def methodOf (v : Json) : Read Channel.Method := do
  match ← str "call" v with
  | "register" => return .register
  | "update" => return .update
  | "unregister" => return .unregister
  | "renew" => return .renew
  | m => .error ("method " ++ m)

/-- Reads a step; `nested` reads the steps inside it. -/
def channelActWith (nested : Json → Read Channel.Act) (v : Json) : Read Channel.Act := do
  let n ← natD "ch" 0 v
  match ← nameOf v with
  | "open" => return .openChannel
  | "frame" => return .frame n (← bytesOf v)
  | "register" => return .message n (.register (← recordOf v))
  | "update" => return .message n (.update (← recordOf v))
  | "unregister" => return .message n .unregister
  | "heartbeat" => return .message n .heartbeat
  | "closed" => return .connectionClosed n
  | "drop" => return .drop n
  | "sink_fail" => return .reachable n (!(← boolD "on" true v))
  | "clock" => return .clock (← u64 "now" v)
  | "pass" => return .evictionPass
  | "store_register" => return .request (← requestOf "register" v)
  | "store_unregister" => return .request (← requestOf "unregister" v)
  | "store_status" => return .request (← requestOf "status_update" v)
  | "store_evict" => return .evictVersion (← idOf v) (← u64 "version" v)
  | "store_get" => return .look (← idOf v)
  | "hook" =>
    return .intrude (← methodOf v) (← (given? "fail" v).mapM registryErrorOf)
      (← (← listD "before" v).mapM nested) (← (← listD "after" v).mapM nested)
  | d => .error ("channel step " ++ d)

/-- Reads a step with steps nested inside it up to a depth. -/
def channelAct : Nat → Json → Read Channel.Act
  | 0, _ => .error "steps nested too deep"
  | depth + 1, v => channelActWith (channelAct depth) v

def channelReport : Channel.Report → Json
  | .nothing => .null
  | .result (.ok _) => .text "ok"
  | .result (.error e) => channelErrorJson e
  | .outcome o => outcomeJson o
  | .answer source a => answerJson source a
  | .evicted l => opt leaseRow l
  | .record r => opt recordWire r

def callRow : Request → Json
  | .register r s => .array [.text "register", .text r.id.text, u64Json r.version, .text s.label]
  | .update r ds s =>
    .array [.text "update", .text r.id.text, u64Json r.version, .text s.label,
      .array (ds.map fun d => wire d.toJson)]
  | .unregister id v s => .array [.text "unregister", .text id.text, u64Json v, .text s.label]
  | .statusUpdate id st s => .array [.text "status_update", .text id.text, st.toJson, .text s.label]
  | .renew id s => .array [.text "renew", .text id.text, .text s.label]

def channelRow (c : Channel) : Json :=
  let state := match c.state with
    | .idle => "Idle"
    | .registered => "Registered"
    | .closed => "Closed"
  .array [.text state, opt (fun r => .array [.text r.id.text, u64Json r.version]) c.current,
    .array (c.replies.map fun m => wire (serverMessageJson m))]

def gaugeJson (n : Int64) : Json := .number ⟨n < 0, n.toInt.natAbs, [], none⟩

def officeJson (r : Json) (o : Channel.Office) : Json :=
  let g := o.desk.gauges
  .record [("r", r), ("channels", .array (o.channels.map fun p => opt channelRow p.channel?)),
    ("metrics", .array ([g.idle, g.registered, g.closed].map gaugeJson)),
    ("calls", .array (o.calls.map callRow)), ("leases", leaseRows o.registry.store.leases),
    ("queue", queueRows o.desk.queue)]

/-- Runs a script for channels. Every answer comes with the state after its step, and with the
replies and calls of that step alone. -/
def channel (v : Json) : Read Json := do
  let script ← (← stepsOf v).mapM fun s => channelAct (Json.Token.maxOpen 0 0 v.tokens) s
  let o := Channel.Office.start (← preservationOf v) (← natD "delay_ms" 90000 v)
    (← u64D "start" 0 v)
  let o := (List.range (← natD "channels" 1 v)).foldl (fun o _ => o.openChannel) o
  let depth := Channel.Act.listIntrusions script
  let (out, _) := script.foldl (fun (out, o) a =>
    let (r, o) := Channel.Office.act depth o a
    (out ++ [officeJson (channelReport r) o], o.forget)) ([], o)
  return .array out

end LeaseRegistry.Script
