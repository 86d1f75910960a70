import LeaseRegistry.Link.Session
import LeaseRegistry.Script.Channel
import LeaseRegistry.Script.Cluster
import LeaseRegistry.Script.Frame
import LeaseRegistry.Script.Timing

/-!
# Scripts for whole servers

Servers that reach each other over a network, and connections that are opened to them. Where there
is no network, servers never reach each other, and a script that opens a connection has no answer.
-/

namespace LeaseRegistry.Script

/-- A connection to a server, with the frames that have come back and are not read yet. -/
structure Connection where
  name : String
  server : Nat
  session : Session
  unread : List ServerFrame

structure Site where
  cluster : Cluster
  connections : List Connection

/-- Server `n` of a cluster, as its connections see it. -/
def endpointOf (n : Nat) : Endpoint Cluster where
  handle cl _ r :=
    match cl.act n (.request r) with
    | (.outcome (.answer _ a), cl) => (a, cl)
    | (_, cl) => (.failed (.link .closed), cl)
  stored cl id := (cl.server? n).bind (·.store.version? id)
  receive cl _ origin m :=
    match cl.act n (.receive origin m) with
    | (.reply r, cl) => (r, cl)
    | (_, cl) => (.error "no server", cl)

namespace Site

/-- Lets a session of server `n` do a step on its desk. -/
def onDesk {α : Type} (cl : Cluster) (n : Nat) (default : α)
    (step : Desk → Cluster → α × Desk × Cluster) : α × Cluster :=
  match cl.server? n with
  | none => (default, cl)
  | some s =>
    let (a, desk, cl) := step s.desk cl
    (a, cl.onMember n fun m => { m with server := { m.server with desk } })

def find? (s : Site) (name : String) : Option Connection :=
  s.connections.find? (·.name = name)

def put (s : Site) (c : Connection) : Site :=
  { s with connections := s.connections.filter (·.name ≠ c.name) ++ [c] }

def connect (s : Site) (name : String) (n : Nat) : Option ServerFrame × Site :=
  (((s.cluster.server? n).map fun server => Session.greeting server.coordinator.id),
    s.put ⟨name, n, .opening, []⟩)

def send (s : Site) (c : Connection) (m : WireMessage) : Connection × Site :=
  match Frame.ofMessage m with
  | .data bytes =>
    let ((out, session), cluster) := onDesk s.cluster c.server ([], c.session) fun d cl =>
      let (out, session, d, cl) := c.session.feed (endpointOf c.server) cl.now bytes d cl
      ((out, session), d, cl)
    let c := { c with session, unread := c.unread ++ out }
    (c, { s with cluster }.put c)
  | .skip => (c, s)
  | .close =>
    let (session, cluster) := onDesk s.cluster c.server c.session fun d cl =>
      let (session, d) := c.session.disconnect d cl.now
      (session, d, cl)
    let c := { c with session }
    (c, { s with cluster }.put c)

def closeAll (s : Site) : Site :=
  s.connections.foldl (fun s c => (s.send c .close).2) s

end Site

/-! ## Reading and reports -/

/-- Where a server without another address is reached. -/
def ownAddress : String := "127.0.0.1:0"

def nodeOf (network : Bool) (start : Time) (v : Json) : Read Cluster.Member := do
  let links ← (← listD "peers" v).mapM fun
    | .string _ => pure { Cluster.Link.towards none with offline := true }
    | n => return { Cluster.Link.towards (some (← asNat "peer" n)) with offline := !network }
  return ⟨← serverOf start links.length (← strD "advertise" ownAddress v) ⟨0, 0, 2, some 2⟩ v, links,
    0⟩

def wireMessageIn (v : Json) : Read WireMessage := do
  let bytes ← match given? "message" v with
    | some _ => pure (← messageOf v).encode
    | none => bytesOf v
  match ← strD "as" "binary" v with
  | "text" => return .text bytes
  | "ping" => return .ping bytes
  | _ => return .binary bytes

def serverFrameJson : ServerFrame → Json
  | .handshake h => wire h.toJson
  | .message m => wire (serverMessageJson m)
  | .reply r => sortedReplyJson r

/-- Reads frames from a connection: one, none, or all until the server closes it. -/
def readBack (wait : String) (c : Connection) : Json × Connection :=
  let count := match wait with
    | "one" => 1
    | "none" => 0
    | _ => c.unread.length
  let got := c.unread.take count
  let c := { c with unread := c.unread.drop count }
  let closed := decide (c.session = .ended) && decide (got.length < count ∨ wait = "end")
  (.record [("got", .array (got.map serverFrameJson)), ("closed", .bool closed)], c)

/-- Hides the ports of a record, which the system chooses where no address is given. -/
def hidePorts (r : Record) : Json :=
  match r.toJson with
  | .object ms => .object (ms.map fun (k, v) => (k, if k = some "ports" then .text "*" else v))
  | v => v

def siteReport (advertised : Bool) : Cluster.Report → Json
  | .outcome (.registered (.ok r)) => if advertised then r.toJson else hidePorts r
  | r => clusterReport r

def siteStep (nodes : List Json) (s : Site) (v : Json) : Read (Json × Site) := do
  let n ← natD "node" 0 v
  let connection : Read Connection := do from? "connection" (s.find? (← str "conn" v))
  match ← nameOf v with
  | "open" =>
    let (greeting, s) := s.connect (← str "conn" v) n
    return (opt serverFrameJson greeting, s)
  | "send" =>
    let (c, s) := s.send (← connection) (← wireMessageIn v)
    let (r, c) := readBack (← strD "wait" "none" v) c
    return (r, s.put c)
  | "close" =>
    let (c, s) := s.send (← connection) .close
    return (.record [("got", .array (c.unread.map serverFrameJson))],
      { s with connections := s.connections.filter (·.name ≠ c.name) })
  | "raw" => return (.null, s)
  | _ =>
    let (r, cluster) := s.cluster.act n (← clusterActOf v)
    let advertised := (nodes[n]?.bind (given? "advertise")).isSome
    return (siteReport advertised r, { s with cluster })

def siteJson (r : Json) (cl : Cluster) : Json :=
  .record [("r", r), ("nodes", .array (cl.members.map fun m =>
    .record [("leases", leaseRows m.server.store.leases),
      ("queue", queueRows m.server.desk.queue)]))]

def dials (step : Json) : Bool :=
  match nameOf step with
  | .ok name => name = "open" || name = "raw"
  | .error _ => false

/-- Runs a script for whole servers, with a network between them or without. -/
def net (network : Bool) (v : Json) : Read Json := do
  let start ← u64D "start" 0 v
  let nodes ← list "nodes" v
  let steps ← stepsOf v
  if !network && steps.any dials then return noAnswer
  let site : Site := ⟨.start start (← nodes.mapM (nodeOf network start)), []⟩
  let (out, site) ← runSteps (fun s step => do
    let (r, s) ← siteStep nodes s step
    return (siteJson r s.cluster, s)) site steps
  let last := (nodes.zip site.closeAll.cluster.members).map fun (node, m) =>
    Json.array [m.server.coordinator.id.toJson, .nat m.server.coordinator.peers,
      (given? "advertise" node).getD .null, gaugeJson m.server.desk.gauges.registered]
  return .record [("steps", .array out), ("end", .array last)]

end LeaseRegistry.Script
