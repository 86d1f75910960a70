import LeaseRegistry.Cluster.Basic

/-!
# Steps of a cluster

One step starts an activity of a server and waits for its result, lets time pass,
changes a link, or reads the state of a server. Before the step ends, everything is done that is
due by then.
-/

namespace LeaseRegistry

namespace Cluster

/-- One step of a script, on one server. -/
inductive Act where
  | request (r : Request)
  | receive (origin : ServerId) (m : PeerMessage)
  | syncUp
  | fetchSnapshot (peer : Nat)
  | allowsAccess
  | markOwn (id : InstanceId)
  | version (id : InstanceId)
  | record (id : InstanceId)
  | enqueue (record : Record) (source : Source)
  | countRenewals (times : Nat)
  | evict
  /-- Two eviction runs, the second started while the first one waits. -/
  | evictTwice
  | selfRegister
  | selfRegistered
  | evictOwn
  | startEvictions
  | startRenewals
  | look
  | wait (ms : Millis)
  | offline (peer : Nat) (b : Bool)
  | script (peer : Nat) (cues : List Cue)

inductive Report where
  | nothing
  | outcome (o : Outcome)
  | both (first second : Outcome)
  | reply (r : PeerReply)
  | allowed (b : Bool)
  | version (v : Option Version)
  | record (r : Option Record)
  | size (n : Nat)
  | evicted (l : Option Lease)
  | server (s : Server) (now : Time)

/-- How many alarms a step waits for at most. -/
def maxEvents : Nat := 1000000000

/-- A text of 32 hexadecimal digits that stands for a number. -/
def token (n : Nat) : String :=
  let digits := Nat.toDigits 16 n
  .ofList (List.replicate (32 - digits.length) '0' ++ digits)

def begin (cl : Cluster) (n : Nat) (a : Activity Outcome) : Nat × Cluster :=
  (cl.fresh, go n (.ticket cl.fresh) a { cl with fresh := cl.fresh + 1 })

def result (cl : Cluster) (ticket : Nat) : Outcome :=
  ((cl.results.find? (·.1 = ticket)).map (·.2)).getD .nothing

def runOne (cl : Cluster) (n : Nat) (a : Activity Outcome) : Report × Cluster :=
  let (ticket, cl) := cl.begin n a
  let cl := cl.waitFor [ticket] maxEvents
  (.outcome (cl.result ticket), cl)

/-- Reads the state of a server and changes it. -/
def onServer (cl : Cluster) (n : Nat) (f : Server → Report × Server) : Report × Cluster :=
  match cl.server? n with
  | none => (.nothing, cl)
  | some s =>
    let (r, s) := f s
    (r, cl.putServer n s)

def perform (cl : Cluster) (n : Nat) : Act → Report × Cluster
  | .request r =>
    cl.runOne n ((Server.request r).andThen fun a => .done (.answer r.source a))
  | .receive origin m =>
    cl.onServer n fun s =>
      let (reply, coordinator) := s.coordinator.receive cl.now origin m
      (.reply reply, { s with coordinator })
  | .syncUp => cl.runOne n (Server.syncUp.andThen fun count => .done (.synced count))
  | .fetchSnapshot peer =>
    let finishing : CallResult → Activity Outcome
      | .replied reply => .done (.snapshot reply.snapshot?)
      | .failed e => .done (.snapshot (.error e))
      | .timedOut => .done .nothing
    let ticket := cl.fresh
    let cl := { cl with fresh := ticket + 1 }
    let cl := match cl.call n peer .fetchSnapshot none with
      | (.inl result, cl) => go n (.ticket ticket) (finishing result) cl
      | (.inr c, cl) => cl.await n (.ticket ticket) (.answer c finishing)
    let cl := cl.waitFor [ticket] maxEvents
    (.outcome (cl.result ticket), cl)
  | .allowsAccess => cl.onServer n fun s => (.allowed (s.coordinator.allowsAccess cl.now), s)
  | .markOwn id =>
    cl.onServer n fun s => (.nothing, { s with coordinator := s.coordinator.markOwn id })
  | .version id => cl.onServer n fun s => (.version (s.store.version? id), s)
  | .record id => cl.onServer n fun s => (.record (s.store.record? id), s)
  | .enqueue record source =>
    cl.onServer n fun s =>
      let queue := s.desk.queue.add record source cl.now
      (.size queue.size, { s with desk := { s.desk with queue } })
  | .countRenewals times =>
    cl.onServer n fun s => (.nothing, s.countRenewals times cl.now)
  | .evict => cl.runOne n eviction
  | .evictTwice =>
    let (first, cl) := cl.begin n eviction
    let (second, cl) := cl.begin n eviction
    let cl := cl.waitFor [first, second] maxEvents
    (.both (cl.result first) (cl.result second), cl)
  | .selfRegister =>
    let name := token cl.fresh
    { cl with fresh := cl.fresh + 1 }.runOne n <|
      (Server.selfRegister name).andThen fun r => .done (.registered r)
  | .selfRegistered => cl.onServer n fun s => (.version (s.self.record.map (·.version)), s)
  | .evictOwn =>
    cl.onServer n fun s =>
      let (lease, s) := s.evictOwn cl.now
      (.evicted lease, s)
  | .startEvictions =>
    match cl.members[n]? with
    | none => (.nothing, cl)
    | some m =>
      (.nothing, if m.evictionInterval = 0 then cl
        else cl.later n .evictions m.evictionInterval (.done .nothing))
  | .startRenewals =>
    match (cl.server? n).bind (·.self.record) with
    | none => (.nothing, cl)
    | some record =>
      let interval := record.lease.interval.toNat * 1000
      (.nothing, if interval = 0 then cl
        else cl.later n (.renewals record (cl.elapsed + interval)) interval (renewal record))
  | .look => cl.onServer n fun s => (.server s cl.now, s)
  | .wait ms => (.nothing, cl.waitUntil (cl.elapsed + ms) maxEvents)
  | .offline peer b => (.nothing, cl.onLink n peer fun l => { l with offline := b })
  | .script peer cues =>
    (.nothing, cl.onLink n peer fun l => { l with script := l.script ++ cues })

def act (cl : Cluster) (n : Nat) (a : Act) : Report × Cluster :=
  let (r, cl) := cl.perform n a
  (r, cl.waitUntil cl.elapsed maxEvents)

def forget (cl : Cluster) : Cluster :=
  { cl with
    results := []
    members := cl.members.map fun m =>
      { m with links := m.links.map fun l => { l with sent := [] } } }

end Cluster

end LeaseRegistry
