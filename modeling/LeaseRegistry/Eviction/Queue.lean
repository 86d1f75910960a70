import LeaseRegistry.Lease

/-!
# Delayed evictions

An instance whose connection goes away without unregistering is not removed at once: its record is
queued and becomes due after a delay.
-/

namespace LeaseRegistry

/-- An instance whose connection went away. -/
structure QueuedEviction where
  record : Record
  source : Source
  dueAt : Time
  deriving DecidableEq, Repr

namespace QueuedEviction

def isDue (now : Time) (e : QueuedEviction) : Bool := decide (e.dueAt ≤ now)

end QueuedEviction

/-- The queued evictions, oldest entry first. -/
structure EvictionQueue where
  delay : Millis
  entries : List QueuedEviction
  deriving DecidableEq, Repr

namespace EvictionQueue

def empty (delay : Millis) : EvictionQueue := ⟨delay, []⟩

/-- Queues a record at the end; it is due `delay` after `now`. -/
def add (q : EvictionQueue) (record : Record) (source : Source) (now : Time) : EvictionQueue :=
  { q with entries := q.entries ++ [⟨record, source, now.after q.delay⟩] }

def takeDue (q : EvictionQueue) (now : Time) : List QueuedEviction × EvictionQueue :=
  (q.entries.filter (·.isDue now), { q with entries := q.entries.filter fun e => !e.isDue now })

/-- Puts entries back at the front, with the times they had. -/
def requeue (q : EvictionQueue) (entries : List QueuedEviction) : EvictionQueue :=
  { q with entries := entries ++ q.entries }

def contains (q : EvictionQueue) (id : InstanceId) : Bool :=
  q.entries.any (·.record.id == id)

def size (q : EvictionQueue) : Nat := q.entries.length

end EvictionQueue

end LeaseRegistry
