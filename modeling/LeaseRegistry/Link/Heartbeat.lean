import LeaseRegistry.Lease

/-!
# Liveness of a connection

A connection is alive as long as something arrives often enough: it is dead once nothing arrived
in a given number of intervals in a row.
-/

namespace LeaseRegistry

inductive Liveness where
  | alive
  | dead
  deriving DecidableEq, Repr

structure HeartbeatMonitor where
  interval : Millis
  /-- The silent intervals in a row that make the connection dead. -/
  maxMisses : UInt32
  misses : UInt32
  heard : Bool
  deriving DecidableEq, Repr

namespace HeartbeatMonitor

def start (interval : Millis) (maxMisses : UInt32) : HeartbeatMonitor :=
  ⟨interval, maxMisses, 0, false⟩

def onFrame (m : HeartbeatMonitor) : HeartbeatMonitor := { m with heard := true }

def onTick (m : HeartbeatMonitor) : Liveness × HeartbeatMonitor :=
  let misses := if m.heard then 0 else m.misses + 1
  (if m.maxMisses ≤ misses then .dead else .alive, { m with misses, heard := false })

end HeartbeatMonitor

end LeaseRegistry
