import LeaseRegistry.Preservation

/-!
# The arguments of a server

The values that a server is started with, before they are checked.
-/

namespace LeaseRegistry

/-- Intervals and delays are in seconds, but `peerTimeout` is in milliseconds. -/
structure Arguments where
  /-- Without one, an id is made up. -/
  serverId : Option String
  listen : String
  advertise : Option String
  peers : List String
  appName : String
  /-- The fraction of the promised renewals below which eviction is held back. -/
  threshold : Float
  preservationOff : Bool
  evictionInterval : UInt64
  evictionDelay : UInt64
  /-- Seconds to hold back reads when no peer had anything to copy. -/
  syncWait : UInt64
  heartbeatInterval : UInt64
  heartbeatMisses : UInt32
  peerTimeout : UInt64
  peerRetries : UInt32
  verbose : Bool

namespace Arguments

def standard : Arguments where
  serverId := none
  listen := "0.0.0.0:8761"
  advertise := none
  peers := []
  appName := "registry"
  threshold := Preservation.defaultThreshold
  preservationOff := false
  evictionInterval := 60
  evictionDelay := 90
  syncWait := 300
  heartbeatInterval := 30
  heartbeatMisses := 3
  peerTimeout := 5000
  peerRetries := 3
  verbose := false

end Arguments

end LeaseRegistry
