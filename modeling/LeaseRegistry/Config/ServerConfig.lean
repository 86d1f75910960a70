import LeaseRegistry.Config.Address
import LeaseRegistry.Config.Arguments
import LeaseRegistry.Decimal.Shortest
import LeaseRegistry.Peer.Backoff
import LeaseRegistry.ServerId

/-!
# The configuration of a server

Checked arguments. Peer addresses are in their canonical form, and the server is not its own peer.
-/

namespace LeaseRegistry

inductive ConfigError where
  | invalidServerId (e : ServerIdError)
  | invalidThreshold (threshold : Float)
  | zero (option : String)

def ConfigError.message : ConfigError → String
  | invalidServerId e => "Invalid server id: " ++ e.message
  | invalidThreshold threshold =>
    "Renewal percent threshold must be in (0, 1], got " ++ Decimal.floatText threshold
  | zero option => option ++ " must be greater than zero"

structure ServerConfig where
  serverId : ServerId
  listen : String
  advertise : Option String
  peers : List String
  appName : String
  preservation : Preservation.Settings
  evictionInterval : Millis
  evictionDelay : Millis
  syncWait : Millis
  heartbeatInterval : Millis
  heartbeatMisses : UInt32
  peerTimeout : Millis
  /-- The delays between attempts to reach a peer, and how many there are for a snapshot. -/
  retry : Backoff

namespace ServerConfig

def advertised (c : ServerConfig) : String := c.advertise.getD c.listen

/-- The given id, or `fresh` if none is given. -/
def checkServerId (fresh : ServerId) (id : Option String) : Except ConfigError ServerId :=
  match id with
  | none => .ok fresh
  | some text => (ServerId.ofText text).mapError .invalidServerId

def checkThreshold (threshold : Float) : Except ConfigError Unit :=
  if threshold > 0 ∧ threshold ≤ 1 then .ok () else .error (.invalidThreshold threshold)

/-- The first of some named numbers that is zero is an error. -/
def checkPositive : List (String × Nat) → Except ConfigError Unit
  | [] => .ok ()
  | (option, n) :: rest => if n = 0 then .error (.zero option) else checkPositive rest

/-- Peer addresses in canonical form, without blank ones and the server's own. -/
def peersOf (advertise : Option String) (peers : List String) : List String :=
  ((peers.filter fun p => !Address.isBlank p).map Address.normalize).filter
    fun p => some p != advertise

def seconds (n : UInt64) : Millis := n.toNat * 1000

/-- Checks arguments: the id, then the threshold, then the numbers that must not be zero. -/
def ofArguments (fresh : ServerId) (a : Arguments) : Except ConfigError ServerConfig := do
  let serverId ← checkServerId fresh a.serverId
  checkThreshold a.threshold
  checkPositive [("eviction-interval-secs", a.evictionInterval.toNat),
    ("heartbeat-interval-secs", a.heartbeatInterval.toNat),
    ("peer-timeout-ms", a.peerTimeout.toNat), ("heartbeat-misses", a.heartbeatMisses.toNat),
    ("peer-retries", a.peerRetries.toNat)]
  let advertise := a.advertise.map Address.normalize
  return {
    serverId
    listen := a.listen
    advertise
    peers := peersOf advertise a.peers
    appName := a.appName
    preservation := { Preservation.Settings.standard with
      enabled := !a.preservationOff
      threshold := a.threshold }
    evictionInterval := seconds a.evictionInterval
    evictionDelay := seconds a.evictionDelay
    syncWait := seconds a.syncWait
    heartbeatInterval := seconds a.heartbeatInterval
    heartbeatMisses := a.heartbeatMisses
    peerTimeout := a.peerTimeout.toNat
    retry := .standard a.peerRetries }

end ServerConfig

end LeaseRegistry
