import LeaseRegistry.Data.SortedSet

/-!
# Instance records

What a service instance says about itself: its identity, the application it belongs to, where it
runs, the ports it serves on, its status and the lease terms it asks for, at one version.
`Record.fault?` says what makes a record unacceptable to the store.
-/

namespace LeaseRegistry

/-- A version number of a record. Arithmetic on versions wraps around at 64 bits. -/
abbrev Version := UInt64

theorem toNat_succ {v : Version} (h : v.toNat + 1 < UInt64.size) : (v + 1).toNat = v.toNat + 1 := by
  rw [UInt64.toNat_add]
  exact Nat.mod_eq_of_lt h

theorem lt_succ {v : Version} (h : v.toNat + 1 < UInt64.size) : v < v + 1 := by
  rw [UInt64.lt_iff_toNat_lt, toNat_succ h]
  exact Nat.lt_add_one _

structure InstanceId where
  text : String
  deriving DecidableEq, Repr

namespace InstanceId

/-- Ids in the order of their UTF-8 bytes. -/
def le (a b : InstanceId) : Bool := (compare a.text b.text).isLE

end InstanceId

inductive Status where
  | up
  | down
  | starting
  | outOfService
  | unknown
  deriving DecidableEq, Repr

structure ServicePort where
  name : String
  port : UInt16
  secure : Bool
  deriving DecidableEq, Repr

namespace ServicePort

/-- Ports are ordered by name, then number, then security. -/
instance : Ord ServicePort where
  compare := compareLex (compareOn name) (compareLex (compareOn port) (compareOn secure))

instance : Std.TransOrd ServicePort :=
  inferInstanceAs <| Std.TransCmp (compareLex _ _)

end ServicePort

structure NetworkAddress where
  ip : String
  hostName : Option String
  /-- Reachable from outside the data center. -/
  isPublic : Bool
  deriving DecidableEq, Repr

/-- The host name if it is known, else the IP address. -/
def NetworkAddress.nameOrIp (a : NetworkAddress) : String :=
  a.hostName.getD a.ip

structure DataCenter where
  name : String
  addresses : List NetworkAddress
  deriving DecidableEq, Repr

namespace DataCenter

def unnamed : DataCenter := ⟨"", []⟩

/-- The first public address, or else the first address. -/
def preferredAddress? (d : DataCenter) : Option NetworkAddress :=
  (d.addresses.find? (·.isPublic)).or d.addresses.head?

end DataCenter

/-- The lease an instance asks for at registration, in seconds. -/
structure LeaseTerms where
  /-- How long the lease lasts after a renewal. -/
  duration : UInt32
  interval : UInt32
  deriving DecidableEq, Repr

namespace LeaseTerms

def standard : LeaseTerms := ⟨90, 30⟩

/-- Renewals per minute under these terms. -/
def renewalsPerMinute (t : LeaseTerms) : Float :=
  if t.interval = 0 then 0 else 60 / t.interval.toUInt64.toFloat

end LeaseTerms

structure Record where
  id : InstanceId
  app : String
  vipAddress : Option String
  dataCenter : DataCenter
  ports : SortedSet ServicePort
  healthCheckUrls : SortedSet String
  status : Status
  lease : LeaseTerms
  version : Version
  deriving DecidableEq, Repr

/-- What makes a record unacceptable. -/
inductive RecordFault where
  | emptyId
  | noApp (id : InstanceId)
  | zeroDuration (id : InstanceId)
  | interval (id : InstanceId) (terms : LeaseTerms)
  deriving DecidableEq, Repr

def RecordFault.message : RecordFault → String
  | emptyId => "instance id is empty"
  | noApp id => "instance " ++ id.text ++ " has no app name"
  | zeroDuration id => "instance " ++ id.text ++ " declares a zero lease duration"
  | interval id terms =>
    "instance " ++ id.text ++ " renewal interval " ++ Nat.repr terms.interval.toNat ++
      "s must be between 1 and the lease duration " ++ Nat.repr terms.duration.toNat ++ "s"

namespace Record

/-- A record of `id` that declares nothing but its application. -/
def bare (id : InstanceId) (app : String) : Record where
  id := id
  app := app
  vipAddress := none
  dataCenter := .unnamed
  ports := ∅
  healthCheckUrls := ∅
  status := .unknown
  lease := .standard
  version := 0

/-- The first rule the record breaks: id, application, lease duration, renewal interval. -/
def fault? (r : Record) : Option RecordFault :=
  if r.id.text.isEmpty then some .emptyId
  else if r.app.isEmpty then some (.noApp r.id)
  else if r.lease.duration = 0 then some (.zeroDuration r.id)
  else if r.lease.interval = 0 ∨ r.lease.interval > r.lease.duration then
    some (.interval r.id r.lease)
  else none

def Valid (r : Record) : Prop := r.fault? = none

instance (r : Record) : Decidable r.Valid := inferInstanceAs (Decidable (_ = _))

def atVersion (r : Record) (version : Version) : Record := { r with version }

def withStatus (r : Record) (status : Status) : Record := { r with status }

@[simp] theorem id_atVersion (r : Record) (v : Version) : (r.atVersion v).id = r.id := rfl

@[simp] theorem version_atVersion (r : Record) (v : Version) : (r.atVersion v).version = v := rfl

@[simp] theorem fault?_atVersion (r : Record) (v : Version) : (r.atVersion v).fault? = r.fault? :=
  rfl

@[simp] theorem fault?_withStatus (r : Record) (s : Status) : (r.withStatus s).fault? = r.fault? :=
  rfl

inductive Edit where
  | app (app : String)
  | vipAddress (vip : String)
  | dataCenter (d : DataCenter)
  | addPort (p : ServicePort)
  | ports (ps : List ServicePort)
  | addHealthCheckUrl (url : String)
  | status (s : Status)
  | lease (t : LeaseTerms)
  | version (v : Version)

def edit (r : Record) : Edit → Record
  | .app app => { r with app }
  | .vipAddress vip => { r with vipAddress := some vip }
  | .dataCenter d => { r with dataCenter := d }
  | .addPort p => { r with ports := r.ports.insert p }
  | .ports ps => { r with ports := .ofList ps }
  | .addHealthCheckUrl url => { r with healthCheckUrls := r.healthCheckUrls.insert url }
  | .status s => r.withStatus s
  | .lease t => { r with lease := t }
  | .version v => r.atVersion v

end Record

end LeaseRegistry
