import LeaseRegistry.Cluster.Link
import LeaseRegistry.Server.Talk

/-!
# Tasks of a cluster

A task is an activity that waits: for the peers of its server, or for a time to come. Every call
and every pause sets alarms, and the earliest of them says whose turn it is. `pick` takes the task
out that is next.
-/

namespace LeaseRegistry

inductive Cluster.Outcome where
  | answer (source : Source) (a : Answer)
  | evicted (o : Option EvictionOutcome)
  | synced (count : Nat)
  | registered (r : Except RegistryError Record)
  | snapshot (r : Except LinkError Snapshot)
  | nothing

namespace Cluster

/-- What follows once an activity is over. -/
inductive Purpose where
  /-- Its result is kept under a number, for the step that waits for it. -/
  | ticket (number : Nat)
  | background
  /-- An eviction run starts, and the next one is due an interval later. -/
  | evictions
  /-- The renewal of the server's own lease that was due at a time is done; the next one follows. -/
  | renewals (record : Record) (dueAt : Millis)

/-- A moment at which a task is woken. Of two alarms at one time the lower stamp goes off first. -/
structure Alarm where
  time : Millis
  stamp : Nat
  deriving DecidableEq, Repr

namespace Alarm

def before (a b : Alarm) : Bool :=
  decide (a.time < b.time) || decide (a.time = b.time ∧ a.stamp < b.stamp)

def first? : List Alarm → Option Alarm
  | [] => none
  | a :: as =>
    match first? as with
    | none => some a
    | some b => some (if b.before a then b else a)

end Alarm

structure Call where
  peer : Nat
  message : PeerMessage
  dueAt : Millis
  /-- What becomes of it then; nothing if it has reached its limit. -/
  treatment : Option Treatment
  /-- The alarms of its delay and of its limit, so far as they have not gone off. -/
  alarms : List Alarm
  deriving DecidableEq, Repr

/-- Forgets the alarms that have gone off. -/
def Call.after (c : Call) (now : Millis) : Call :=
  { c with alarms := c.alarms.filter fun a => decide (now < a.time) }

/-- The part of one peer in an announcement. -/
structure Leg where
  talk : Talk
  call : Option Call

def Leg.alarms (l : Leg) : List Alarm := (l.call.map (·.alarms)).getD []

/-- What a task waits for before it goes on with `next`. -/
inductive Waiting where
  | peers (legs : List Leg) (next : Activity Outcome)
  | answer (call : Call) (next : CallResult → Activity Outcome)
  | time (alarm : Alarm) (next : Activity Outcome)

def Waiting.alarms : Waiting → List Alarm
  | peers legs _ => legs.flatMap Leg.alarms
  | answer call _ => call.alarms
  | time alarm _ => [alarm]

structure Task where
  server : Nat
  purpose : Purpose
  waiting : Waiting

namespace Task

/-- The moment at which a task is next woken. What a step waits for comes before everything else
of its time. -/
def turn? (t : Task) : Option Alarm :=
  (Alarm.first? t.waiting.alarms).map fun a =>
    match t.purpose with
    | .ticket _ => { a with stamp := 0 }
    | _ => a

def before (t u : Task) : Bool :=
  match t.turn?, u.turn? with
  | some a, some b => a.before b
  | some _, none => true
  | none, _ => false

/-- The task whose turn is first, and the others. -/
def pick : List Task → Option (Task × List Task)
  | [] => none
  | t :: ts =>
    match pick ts with
    | none => some (t, ts)
    | some (u, us) => some (if u.before t then (u, t :: us) else (t, ts))

end Task

end Cluster

end LeaseRegistry
