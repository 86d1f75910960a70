import LeaseRegistry.Instance.Record
import LeaseRegistry.Source

/-!
# Leases

A lease is a record with the timing that keeps it alive. Times are milliseconds in 64 bits, and
sums of them wrap around.
-/

namespace LeaseRegistry

abbrev Time := UInt64

/-- A length of time in milliseconds, of any size. -/
abbrev Millis := Nat

def Time.after (t : Time) (d : Millis) : Time := t + UInt64.ofNat d

/-- The time passed from `t` to `now`, nothing if `now` is earlier. -/
def Time.since (t now : Time) : UInt64 := if t ≤ now then now - t else 0

/-- The claim that an instance is alive, for as long as it is renewed. -/
structure Lease where
  record : Record
  source : Source
  registeredAt : Time
  /-- The latest registration, update or renewal. -/
  renewedAt : Time
  evictedAt : Option Time
  /-- How long the lease lasts after a renewal, in seconds. -/
  duration : UInt32
  deriving DecidableEq, Repr

namespace Lease

/-- The lease of a record that is registered at `now`. -/
def grant (record : Record) (source : Source) (now : Time) : Lease where
  record := record
  source := source
  registeredAt := now
  renewedAt := now
  evictedAt := none
  duration := record.lease.duration

def version (l : Lease) : Version := l.record.version

/-- The first time at which the lease counts as expired. -/
def expiresAt (l : Lease) : Time := l.renewedAt.after (l.duration.toNat * 1000)

def isExpired (l : Lease) (now : Time) : Bool :=
  l.evictedAt.isSome || decide (l.expiresAt ≤ now)

/-- A renewal never moves the time of the last one back. -/
def renew (l : Lease) (now : Time) : Lease :=
  { l with renewedAt := max l.renewedAt now }

/-- Takes a newer record in. A write counts as a renewal. -/
def replace (l : Lease) (record : Record) (source : Source) (now : Time) : Lease :=
  { l with record, source, duration := record.lease.duration }.renew now

def markEvicted (l : Lease) (now : Time) : Lease :=
  { l with evictedAt := some now }

end Lease

end LeaseRegistry
