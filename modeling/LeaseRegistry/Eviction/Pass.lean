import LeaseRegistry.Eviction.Queue
import LeaseRegistry.Preservation
import LeaseRegistry.Store

/-!
# The eviction pass

The candidates of a pass are the expired leases and the due entries of the queue. Each is checked
again when it is removed, so an instance that renewed or registered again in the meantime stays.
When self-preservation holds the pass back, nothing is removed and the due entries go back.
-/

namespace LeaseRegistry

inductive EvictionOutcome where
  | evicted (leases : List Lease)
  /-- Self-preservation held this many candidates back. -/
  | suppressed (candidates : Nat) (verdict : Preservation.Verdict)

def EvictionOutcome.leases : EvictionOutcome → List Lease
  | evicted leases => leases
  | suppressed .. => []

namespace Store

/-- Evicts one lease after the other, each with the store the ones before left, and lists those
that were evicted. -/
def evictEach {α : Type} (evict : Store → α → Option Lease × Store) (s : Store) :
    List α → List Lease × Store
  | [] => ([], s)
  | a :: as =>
    let (lease, s) := evict s a
    let (leases, s) := evictEach evict s as
    (lease.toList ++ leases, s)

def evictExpired (s : Store) (ids : List InstanceId) (now : Time) : List Lease × Store :=
  s.evictEach (fun s id => s.evictIfExpired id now) ids

/-- Evicts the instances of queue entries whose leases still hold the queued version. -/
def evictQueued (s : Store) (entries : List QueuedEviction) (now : Time) : List Lease × Store :=
  s.evictEach (fun s e => s.evictIfVersion e.record.id e.record.version now) entries

end Store

/-- A pass at `now` that visits the expired instances in the given order, with the store, the
renewal counters and the queue after it. -/
def evictionPassOver (expired : List InstanceId) (s : Store) (p : Preservation) (q : EvictionQueue)
    (now : Time) : EvictionOutcome × Store × Preservation × EvictionQueue :=
  let p := p.setExpected s.expectedRenewals
  let (due, pending) := q.takeDue now
  let candidates := expired.length + due.length
  if candidates = 0 then (.evicted [], s, p, pending)
  else
    let verdict := p.evaluate now
    if verdict.allowed then
      let (byExpiry, s) := s.evictExpired expired now
      let (byQueue, s) := s.evictQueued due now
      (.evicted (byExpiry ++ byQueue), s, p, pending)
    else (.suppressed candidates verdict, s, p.recordAnomaly, pending.requeue due)

/-- A pass that visits the expired instances in the order of their ids. -/
def evictionPass (s : Store) (p : Preservation) (q : EvictionQueue) (now : Time) :
    EvictionOutcome × Store × Preservation × EvictionQueue :=
  evictionPassOver (s.expired now) s p q now

end LeaseRegistry
