import LeaseRegistry.Cluster.Task

/-!
# A cluster in virtual time

Several servers with links between them. Time stands still while something can be done, and moves
on to the next alarm when nothing can. A task that is woken goes on with all it waits for, its
peers in their order, until it has to wait again. At one time the task of the step in hand goes
first, then the others in the order in which their alarms were set.
-/

namespace LeaseRegistry

structure Cluster.Member where
  server : Server
  links : List Cluster.Link
  evictionInterval : Millis

open Cluster

structure Cluster where
  startedAt : Time
  elapsed : Millis
  members : List Member
  tasks : List Task
  /-- The next number for an alarm, a ticket or a token; never 0. -/
  fresh : Nat
  results : List (Nat × Outcome)

namespace Cluster

def start (startedAt : Time) (members : List Member) : Cluster where
  startedAt := startedAt
  elapsed := 0
  members := members
  tasks := []
  fresh := 1
  results := []

def now (cl : Cluster) : Time := cl.startedAt.after cl.elapsed

def server? (cl : Cluster) (n : Nat) : Option Server := (cl.members[n]?).map (·.server)

def onMember (cl : Cluster) (n : Nat) (f : Member → Member) : Cluster :=
  { cl with members := cl.members.modify n f }

def putServer (cl : Cluster) (n : Nat) (server : Server) : Cluster :=
  cl.onMember n fun m => { m with server }

def onLink (cl : Cluster) (n peer : Nat) (f : Link → Link) : Cluster :=
  cl.onMember n fun m => { m with links := m.links.modify peer f }

def await (cl : Cluster) (server : Nat) (purpose : Purpose) (waiting : Waiting) : Cluster :=
  { cl with tasks := cl.tasks ++ [⟨server, purpose, waiting⟩] }

/-- Lets an activity begin or go on after a delay; without one, after all that is now under way. -/
def later (cl : Cluster) (server : Nat) (purpose : Purpose) (delay : Millis)
    (a : Activity Outcome) : Cluster :=
  { cl with fresh := cl.fresh + 1 }.await server purpose (.time ⟨cl.elapsed + delay, cl.fresh⟩ a)

/-! ## Calls -/

/-- What comes of a call that is over. A peer that is a server answers now. -/
def settle (cl : Cluster) (n peer : Nat) (m : PeerMessage) :
    Option Treatment → CallResult × Cluster
  | none | some .silence => (.timedOut, cl)
  | some (.failure e) => (.failed e, cl)
  | some (.reply r) => (.replied r, cl)
  | some .relay =>
    let target := ((cl.members[n]?).bind fun m => m.links[peer]?).bind (·.target)
    match cl.server? n, target.bind fun t => (cl.server? t).map (t, ·) with
    | some caller, some (t, s) =>
      let (reply, coordinator) := s.coordinator.receive cl.now caller.coordinator.id m
      (.replied reply, cl.putServer t { s with coordinator })
    | _, _ => (.replied .ack, cl)

/-- Makes a call: its result if it is over at once, else the call to wait for. Its delay sets an
alarm before its limit does. -/
def call (cl : Cluster) (n peer : Nat) (m : PeerMessage) (limit : Option Millis) :
    (CallResult ⊕ Call) × Cluster :=
  match (cl.members[n]?).bind fun m => m.links[peer]? with
  | none => (.inl (.failed .closed), cl)
  | some link =>
    let (cue, link) := link.call m
    let cl := cl.onLink n peer fun _ => link
    let limit := limit.getD cue.delay
    let (delay, treatment) := cue.within limit
    if delay = 0 then
      let (result, cl) := cl.settle n peer m treatment
      (.inl result, cl)
    else
      let alarms := [⟨cl.elapsed + cue.delay, cl.fresh⟩, ⟨cl.elapsed + limit, cl.fresh + 1⟩]
      let c : Call := ⟨peer, m, cl.elapsed + delay, treatment, alarms⟩
      (.inr (c.after cl.elapsed), { cl with fresh := cl.fresh + 2 })

/-- The result of a call that is over by now, or what is left to wait for. -/
def answered (cl : Cluster) (n : Nat) (c : Call) : (CallResult ⊕ Call) × Cluster :=
  if c.dueAt ≤ cl.elapsed then
    let (result, cl) := cl.settle n c.peer c.message c.treatment
    (.inl result, cl)
  else (.inr (c.after cl.elapsed), cl)

/-! ## Announcements -/

def patience (cl : Cluster) (n : Nat) : Millis :=
  ((cl.server? n).map (·.coordinator.patience)).getD 0

def hear (cl : Cluster) (n : Nat) (talk : Talk) (r : CallResult) : Talk :=
  match cl.server? n with
  | none => []
  | some s => talk.hear s.coordinator r

/-- Goes on with a talk after a call of it is over. -/
def follow (cl : Cluster) (n peer : Nat) (talk : Talk) (r : CallResult) : Leg × Cluster :=
  let talk := cl.hear n talk r
  match talk.pending? with
  | none => (⟨talk, none⟩, cl)
  | some m =>
    match cl.call n peer m (cl.patience n) with
    | (.inl r, cl) => (⟨cl.hear n talk r, none⟩, cl)
    | (.inr c, cl) => (⟨talk, some c⟩, cl)

def depart (n : Nat) (m : PeerMessage) (peer : Nat) (cl : Cluster) : Leg × Cluster :=
  match cl.call n peer m (cl.patience n) with
  | (.inl r, cl) => cl.follow n peer (.opening m) r
  | (.inr c, cl) => (⟨.opening m, some c⟩, cl)

/-- Goes on with the part of one peer as far as it can by now. -/
def proceed (n : Nat) (leg : Leg) (cl : Cluster) : Leg × Cluster :=
  match leg.call with
  | none => (leg, cl)
  | some c =>
    match cl.answered n c with
    | (.inl r, cl) => cl.follow n c.peer leg.talk r
    | (.inr c, cl) => (⟨leg.talk, some c⟩, cl)

/-- Deals with one peer after the other. -/
def each {α : Type} (f : α → Cluster → Leg × Cluster) : List α → Cluster → List Leg × Cluster
  | [], cl => ([], cl)
  | a :: as, cl =>
    let (leg, cl) := f a cl
    let (legs, cl) := each f as cl
    (leg :: legs, cl)

/-! ## Activities -/

def eviction : Activity Outcome := Server.evict.andThen fun o => .done (.evicted o)

def renewal (record : Record) : Activity Outcome :=
  (Server.renewOwn record).andThen fun _ => .done .nothing

/-- Deals with the end of an activity. A renewal whose time has passed follows before anything else
happens. -/
def finish (cl : Cluster) (n : Nat) (purpose : Purpose) (r : Outcome) : Cluster :=
  match purpose with
  | .ticket number => { cl with results := (number, r) :: cl.results }
  | .background => cl
  | .evictions =>
    let interval := ((cl.members[n]?).map (·.evictionInterval)).getD 0
    (cl.later n .background 0 eviction).later n .evictions interval (.done .nothing)
  | .renewals record dueAt =>
    let next := dueAt + record.lease.interval.toNat * 1000
    if next ≤ cl.elapsed then
      cl.await n (.renewals record next) (.time ⟨cl.elapsed, 0⟩ (renewal record))
    else cl.later n (.renewals record next) (next - cl.elapsed) (renewal record)

/-- Goes on with an activity until it is over or waits for something. -/
def go (n : Nat) (purpose : Purpose) : Activity Outcome → Cluster → Cluster
  | .done r, cl => cl.finish n purpose r
  | .look next, cl =>
    match cl.server? n with
    | none => cl
    | some s => go n purpose (next cl.now s) cl
  | .put s next, cl => go n purpose next (cl.putServer n s)
  | .announce m next, cl =>
    let peers := List.range (((cl.server? n).map (·.coordinator.peers)).getD 0)
    let (legs, cl) := each (depart n m) peers cl
    if legs.all (·.talk.isOver) then go n purpose next cl
    else cl.await n purpose (.peers legs next)
  | .fetch peer next, cl =>
    match cl.call n peer .fetchSnapshot (cl.patience n) with
    | (.inl result, cl) => go n purpose (next result) cl
    | (.inr c, cl) => cl.await n purpose (.answer c next)
  | .pause delay next, cl =>
    if delay = 0 then go n purpose next cl else cl.later n purpose delay next

def wake (cl : Cluster) (t : Task) : Cluster :=
  match t.waiting with
  | .peers legs next =>
    let (legs, cl) := each (proceed t.server) legs cl
    if legs.all (·.talk.isOver) then go t.server t.purpose next cl
    else cl.await t.server t.purpose (.peers legs next)
  | .answer c next =>
    match cl.answered t.server c with
    | (.inl result, cl) => go t.server t.purpose (next result) cl
    | (.inr c, cl) => cl.await t.server t.purpose (.answer c next)
  | .time _ next => go t.server t.purpose next cl

/-! ## Time -/

/-- Wakes the next task, if its alarm goes off no later than `limit`. -/
def next? (cl : Cluster) (limit : Option Millis) : Option Cluster := do
  let (t, tasks) ← Task.pick cl.tasks
  let alarm ← t.turn?
  if limit.all fun l => decide (alarm.time ≤ l) then
    some ({ cl with tasks, elapsed := max cl.elapsed alarm.time }.wake t)
  else none

/-- Wakes tasks until `limit`, `events` times at most, and lets that time come. -/
def waitUntil (limit : Millis) : Nat → Cluster → Cluster
  | 0, cl => cl
  | events + 1, cl =>
    match cl.next? (some limit) with
    | none => { cl with elapsed := max cl.elapsed limit }
    | some cl => cl.waitUntil limit events

/-- Wakes tasks, `events` times at most, until the results of all tickets are there. -/
def waitFor (tickets : List Nat) : Nat → Cluster → Cluster
  | 0, cl => cl
  | events + 1, cl =>
    if tickets.all fun t => cl.results.any (·.1 = t) then cl
    else
      match cl.next? none with
      | none => cl
      | some cl => cl.waitFor tickets events

end Cluster

end LeaseRegistry
