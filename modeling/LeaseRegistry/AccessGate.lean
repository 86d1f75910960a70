import LeaseRegistry.Lease

/-!
# The gate of registry reads

A server that starts empty and got no snapshot from any peer waits before it serves reads, so that
instances have time to register with it.
-/

namespace LeaseRegistry

structure AccessGate where
  startedAt : Time
  /-- How long to wait when nothing was synced. -/
  wait : Millis
  /-- The most records a snapshot brought in. -/
  synced : Nat
  deriving DecidableEq, Repr

namespace AccessGate

def start (startedAt : Time) (wait : Millis) : AccessGate := ⟨startedAt, wait, 0⟩

def recordSync (g : AccessGate) (count : Nat) : AccessGate :=
  { g with synced := max g.synced count }

/-- Reads are served after a sync, with a lease of an instance, or once the wait is over. -/
def allows (g : AccessGate) (leases : Nat) (now : Time) : Bool :=
  decide (0 < g.synced) || decide (0 < leases) ||
    decide (UInt64.ofNat g.wait ≤ g.startedAt.since now)

end AccessGate

end LeaseRegistry
