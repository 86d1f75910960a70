import LeaseRegistry.Instance.Delta
import LeaseRegistry.Lease

/-!
# The lease store

The current lease of every registered instance. A write names its version, and one that is not
newer than the stored version is dropped and answered `Change.superseded`. Every operation gives
its answer and the store after it; an operation that fails or is superseded leaves the store as it
was.
-/

namespace LeaseRegistry

inductive StoreError where
  | unknownInstance (id : InstanceId)
  | invalidRecord (reason : String)
  /-- Deltas that start from another version than the stored one. -/
  | baseMismatch (id : InstanceId) (stored base : Version)
  deriving DecidableEq, Repr

def StoreError.message : StoreError → String
  | unknownInstance id => "Unknown instance: " ++ id.text
  | invalidRecord reason => "Invalid instance record: " ++ reason
  | baseMismatch id stored base =>
    "Instance " ++ id.text ++ " is at v" ++ Nat.repr stored.toNat ++
      ", deltas were computed against v" ++ Nat.repr base.toNat

inductive Change where
  | added
  | modified
  | removed
  /-- It was too old, or had nothing to remove, and was dropped. -/
  | superseded
  deriving DecidableEq, Repr

def Change.isApplied : Change → Bool
  | superseded => false
  | _ => true

/-- The leases by instance, with their number kept beside them. -/
structure Store where
  slots : List (InstanceId × Lease)
  size : Nat
  deriving DecidableEq, Repr

namespace Store

def empty : Store := ⟨[], 0⟩

/-! ## Slots -/

def lookup (id : InstanceId) : List (InstanceId × Lease) → Option Lease
  | [] => none
  | (k, l) :: rest => if k = id then some l else lookup id rest

/-- Puts a lease into the slot of `id`, or into a new one at the end. -/
def assign (id : InstanceId) (lease : Lease) : List (InstanceId × Lease) → List (InstanceId × Lease)
  | [] => [(id, lease)]
  | (k, l) :: rest => if k = id then (id, lease) :: rest else (k, l) :: assign id lease rest

def erase (id : InstanceId) : List (InstanceId × Lease) → List (InstanceId × Lease)
  | [] => []
  | (k, l) :: rest => if k = id then rest else (k, l) :: erase id rest

def lease? (s : Store) (id : InstanceId) : Option Lease := lookup id s.slots

def create (s : Store) (id : InstanceId) (lease : Lease) : Store :=
  ⟨assign id lease s.slots, s.size + 1⟩

def replace (s : Store) (id : InstanceId) (lease : Lease) : Store :=
  { s with slots := assign id lease s.slots }

def remove (s : Store) (id : InstanceId) : Store :=
  ⟨erase id s.slots, s.size - 1⟩

/-! ## Writes -/

/-- Stores a record: a new lease, or a newer record in the lease there is. -/
def register (s : Store) (record : Record) (source : Source) (now : Time) :
    Except StoreError Change × Store :=
  match record.fault? with
  | some fault => (.error (.invalidRecord fault.message), s)
  | none =>
    match s.lease? record.id with
    | none => (.ok .added, s.create record.id (.grant record source now))
    | some lease =>
      if record.version ≤ lease.version then (.ok .superseded, s)
      else (.ok .modified, s.replace record.id (lease.replace record source now))

def update (s : Store) (record : Record) (source : Source) (now : Time) :
    Except StoreError Change × Store :=
  match record.fault? with
  | some fault => (.error (.invalidRecord fault.message), s)
  | none =>
    match s.lease? record.id with
    | none => (.error (.unknownInstance record.id), s)
    | some lease =>
      if record.version ≤ lease.version then (.ok .superseded, s)
      else (.ok .modified, s.replace record.id (lease.replace record source now))

/-- Stores the record that `deltas` make of the stored one, which must be at version `base`. -/
def updateWithDeltas (s : Store) (id : InstanceId) (base version : Version) (deltas : List Delta)
    (source : Source) (now : Time) : Except StoreError Change × Store :=
  match s.lease? id with
  | none => (.error (.unknownInstance id), s)
  | some lease =>
    if version ≤ lease.version then (.ok .superseded, s)
    else if lease.version ≠ base then (.error (.baseMismatch id lease.version base), s)
    else
      let next := lease.record.applyDeltas deltas version
      match next.fault? with
      | some fault => (.error (.invalidRecord fault.message), s)
      | none => (.ok .modified, s.replace id (lease.replace next source now))

/-- Changes the status alone, at a new version. -/
def statusUpdate (s : Store) (id : InstanceId) (status : Status) (version : Version)
    (source : Source) (now : Time) : Except StoreError Change × Store :=
  match s.lease? id with
  | none => (.error (.unknownInstance id), s)
  | some lease =>
    if version ≤ lease.version then (.ok .superseded, s)
    else
      let next := (lease.record.withStatus status).atVersion version
      (.ok .modified, s.replace id (lease.replace next source now))

/-- Removes the lease unless a newer version is stored. -/
def unregister (s : Store) (id : InstanceId) (version : Version) : Change × Store :=
  match s.lease? id with
  | none => (.superseded, s)
  | some lease => if version < lease.version then (.superseded, s) else (.removed, s.remove id)

/-- Renews the lease and says whether there is one. The version stays. -/
def renew (s : Store) (id : InstanceId) (now : Time) : Bool × Store :=
  match s.lease? id with
  | none => (false, s)
  | some lease => (true, s.replace id (lease.renew now))

/-! ## Eviction -/

/-- Removes the lease if `due` holds of it, and gives it with the time of its eviction. -/
def evictIf (s : Store) (id : InstanceId) (due : Lease → Bool) (now : Time) :
    Option Lease × Store :=
  match s.lease? id with
  | none => (none, s)
  | some lease => if due lease then (some (lease.markEvicted now), s.remove id) else (none, s)

def evictIfExpired (s : Store) (id : InstanceId) (now : Time) : Option Lease × Store :=
  s.evictIf id (·.isExpired now) now

/-- Evicts the lease if it still holds exactly `version`. -/
def evictIfVersion (s : Store) (id : InstanceId) (version : Version) (now : Time) :
    Option Lease × Store :=
  s.evictIf id (·.version == version) now

/-! ## Reading -/

def record? (s : Store) (id : InstanceId) : Option Record := (s.lease? id).map (·.record)

def version? (s : Store) (id : InstanceId) : Option Version := (s.lease? id).map (·.version)

/-- All leases, in the order of their ids. -/
def leases (s : Store) : List Lease :=
  (s.slots.mergeSort fun a b => a.1.le b.1).map (·.2)

def snapshot (s : Store) : List Record := s.leases.map (·.record)

/-- The ids of the expired leases, in order. -/
def expired (s : Store) (now : Time) : List InstanceId :=
  (s.leases.filter (·.isExpired now)).map (·.record.id)

/-- The renewals per minute that the registered instances promise together. -/
def expectedRenewals (s : Store) : Float :=
  s.leases.foldl (fun sum l => sum + l.record.lease.renewalsPerMinute) 0

def isEmpty (s : Store) : Bool := s.size == 0

end Store

end LeaseRegistry
