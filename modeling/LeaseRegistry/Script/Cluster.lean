import LeaseRegistry.Cluster.Act
import LeaseRegistry.Script.Report
import LeaseRegistry.Script.Run
import LeaseRegistry.Script.Value

/-!
# Scripts for clusters

The steps act on one server of a cluster each. Ids that servers generate for themselves differ from
run to run, so reports show an asterisk for the generated part.
-/

namespace LeaseRegistry.Script

/-! ## Generated ids -/

/-- A digit of a generated id: hexadecimal, in lower case. -/
def isTokenDigit (c : Char) : Bool := c.isDigit || ('a' ≤ c && c ≤ 'f')

/-- Shows an asterisk for the 32 digits of a generated id that follow a number sign. -/
def maskTokens : List Char → List Char
  | [] => []
  | c :: cs =>
    if c = '#' ∧ (cs.take 32).length = 32 ∧ (cs.take 32).all isTokenDigit
    then '#' :: '*' :: maskTokens (cs.drop 32)
    else c :: maskTokens cs
termination_by cs => cs.length
decreasing_by all_goals simp only [List.length_cons, List.length_drop]; omega

def maskText (s : String) : String := .ofList (maskTokens s.toList)

/-! ## Reading -/

def cueOf (v : Json) : Read Cluster.Cue := do
  let delay ← natD "delay_ms" 0 v
  if ← boolD "hang" false v then return ⟨delay, .silence⟩
  match given? "fail" v, given? "reply" v with
  | some e, _ =>
    match ← registryErrorOf e with
    | .link e => return ⟨delay, .failure e⟩
    | _ => .error "bad failure"
  | none, some r => return ⟨delay, .reply (← asReply r)⟩
  | none, none => return ⟨delay, .relay⟩

def clusterActOf (v : Json) : Read Cluster.Act := do
  match ← nameOf v with
  | "apply" => return .receive (← serverIdOf "origin" v) (← messageOf v)
  | "sync_up" | "node_sync_up" => return .syncUp
  | "fetch_snapshot" => return .fetchSnapshot (← natD "peer" 0 v)
  | "allow" => return .allowsAccess
  | "mark_own" => return .markOwn (← idOf v)
  | "latest_version" => return .version (← idOf v)
  | "get" => return .record (← idOf v)
  | "queue_add" => return .enqueue (← recordOf v) (← sourceOf v)
  | "renewal" => return .countRenewals (← natD "times" 1 v)
  | "evict" => return .evict
  | "evict_twice" => return .evictTwice
  | "self_register" => return .selfRegister
  | "self_registered" => return .selfRegistered
  | "own_evict" => return .evictOwn
  | "start_scheduler" => return .startEvictions
  | "start_renewals" => return .startRenewals
  | "info" => return .look
  | "advance" => return .wait (← nat "ms" v)
  | "offline" => return .offline (← natD "peer" 0 v) (← boolD "on" true v)
  | "script" => return .script (← natD "peer" 0 v) (← (← list "replies" v).mapM cueOf)
  | name => return .request (← requestOf name v)

/-- A limit on attempts: three if none is given, and without a limit if it is null. -/
def attemptsOf (v : Json) : Read (Option UInt32) :=
  match get? "attempts" v with
  | some .null => .ok none
  | some n => return some (← asNat "attempts" n).toUInt32
  | none => .ok (some 3)

def serverOf (start : Time) (peers : Nat) (advertised : String) (retry : Backoff) (v : Json) :
    Read Server := do
  return {
    coordinator := {
      id := ← serverIdOf "id" v
      registry := .start (← preservationOf v) start
      gate := .start start (← natD "wait_ms" 300000 v)
      own := none
      peers := peers
      patience := ← natD "timeout_ms" 200 v
      retry := retry }
    desk := .empty (← natD "delay_ms" 90000 v)
    evicting := false
    self := ⟨← strD "app" "registry" v, advertised, none⟩ }

def memberOf (start : Time) (v : Json) : Read Cluster.Member := do
  let links ← (← listD "peers" v).mapM fun
    | .string _ => pure (Cluster.Link.towards none)
    | n => return Cluster.Link.towards (some (← asNat "peer" n))
  let advertised ← strD "advertise" "ws://10.0.0.1:8761" v
  let server ← serverOf start links.length advertised ⟨1, 5, 2, ← attemptsOf v⟩ v
  return ⟨server, links, ← natD "interval_ms" 60000 v⟩

/-! ## Reports -/

def serverInfo (s : Server) (now : Time) : Json :=
  .record [("server_id", s.coordinator.id.toJson), ("peers", .nat s.coordinator.peers),
    ("now", u64Json now), ("anomalies", u64Json s.coordinator.registry.preservation.anomalies)]

def outcomeReport : Cluster.Outcome → Json
  | .answer source a => answerJson source a
  | .evicted (some o) => outcomeJson o
  | .evicted none => .text "skipped"
  | .synced n => .nat n
  | .registered (.ok r) => recordWire r
  | .registered (.error e) => registryErrorJson e
  | .snapshot (.ok s) => sortedReplyJson (.snapshot s.server s.records)
  | .snapshot (.error e) => linkErrorJson e
  | .nothing => .null

/-- The report on one of two eviction runs. -/
def runReport : Cluster.Outcome → Json
  | .evicted none => .null
  | o => outcomeReport o

def clusterReport : Cluster.Report → Json
  | .nothing => .null
  | .outcome o => outcomeReport o
  | .both first second => .array [runReport first, runReport second]
  | .reply r => sortedReplyJson r
  | .allowed b => .bool b
  | .version v => opt u64Json v
  | .record r => opt recordWire r
  | .size n => .nat n
  | .evicted l => opt leaseRow l
  | .server s now => serverInfo s now

/-- The messages of a step that evicts come in no fixed order, so they are sorted. -/
def sortsMessages : Cluster.Act → Bool
  | .evict | .evictTwice | .wait _ => true
  | _ => false

def clusterJson (sorted : Bool) (r : Json) (cl : Cluster) : Json :=
  let sent (l : Cluster.Link) : Json :=
    let ms := if sorted then sortById (fun m => m.instanceId?.getD ⟨""⟩) l.sent else l.sent
    .array (ms.map PeerMessage.toJson)
  .record [("r", r), ("now", u64Json cl.now), ("nodes", .array (cl.members.map fun m =>
    .record [("leases", leaseRows m.server.store.leases), ("queue", queueRows m.server.desk.queue),
      ("sent", .array (m.links.map sent))]))]

/-- Runs a script for a cluster. Every answer comes with the state after its step, and with the
messages of that step alone. -/
def cluster (v : Json) : Read Json := do
  let start ← u64D "start" 0 v
  let cl := Cluster.start start (← (← list "nodes" v).mapM (memberOf start))
  report (fun (cl : Cluster) s => do
    let a ← clusterActOf s
    let (r, cl) := cl.act (← natD "node" 0 s) a
    return (clusterJson (sortsMessages a) (clusterReport r) cl, cl.forget)) cl v

end LeaseRegistry.Script
