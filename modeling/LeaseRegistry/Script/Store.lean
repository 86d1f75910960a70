import LeaseRegistry.Script.Report
import LeaseRegistry.Script.Run
import LeaseRegistry.Script.Value

/-!
# Scripts for the store

The steps act on a registry with an eviction queue beside it, at the time of the script's clock.
-/

namespace LeaseRegistry.Script

/-- A registry with the queue beside it, and the entries that were taken out of the queue. -/
structure Bench where
  registry : Registry
  queue : EvictionQueue
  now : Time
  taken : List QueuedEviction

namespace Bench

def write (b : Bench) (source : Source) (w : Store → Except StoreError Change × Store) :
    Json × Bench :=
  let (a, registry) := b.registry.write w
  (answerJson source a, { b with registry })

def handle (b : Bench) (r : Request) : Json × Bench :=
  let (a, registry) := b.registry.handle b.now r
  (answerJson r.source a, { b with registry })

def withStore (b : Bench) (store : Store) : Bench :=
  { b with registry := { b.registry with store } }

def withPreservation (b : Bench) (preservation : Preservation) : Bench :=
  { b with registry := { b.registry with preservation } }

def read (b : Bench) (name : String) (v : Json) : Read Json := do
  let store := b.registry.store
  match name with
  | "get" => return opt recordWire (store.record? (← idOf v))
  | "lease" => return opt leaseRow (store.lease? (← idOf v))
  | "latest_version" | "reg_latest_version" => return opt u64Json (store.version? (← idOf v))
  | "snapshot" => return .array (store.snapshot.map recordWire)
  | "expired" => return .array ((store.expired b.now).map fun id => .text id.text)
  | "expected" => return floatJson store.expectedRenewals
  | "is_empty" => return .array [.bool store.isEmpty, .bool (b.queue.size == 0)]
  | "queue_contains" => return .bool (b.queue.contains (← idOf v))
  | "queue_delay" => return .nat b.queue.delay
  | "evaluate" => return verdictJson (b.registry.preservation.evaluate b.now)
  | "anomalies" => return u64Json b.registry.preservation.anomalies
  | "clock" => return u64Json b.now
  | _ => .error ("store step " ++ name)

def step (b : Bench) (v : Json) : Read (Json × Bench) := do
  let now ← u64D "now" b.now.toNat v
  let b := { b with now }
  let store := b.registry.store
  let name ← nameOf v
  match name with
  | "register" =>
    let (r, source) := (← recordOf v, ← sourceOf v)
    return b.write source (·.register r source now)
  | "update" =>
    let (r, source) := (← recordOf v, ← sourceOf v)
    return b.write source (·.update r source now)
  | "update_with_deltas" =>
    let (id, base, version) := (← idOf v, ← u64 "base" v, ← u64 "version" v)
    let (ds, source) := (← deltasOf v, ← sourceOf v)
    return b.write source (·.updateWithDeltas id base version ds source now)
  | "status_update" =>
    let (id, status, version) := (← idOf v, ← statusOf v, ← u64 "version" v)
    let source ← sourceOf v
    return b.write source (·.statusUpdate id status version source now)
  | "unregister" =>
    let (c, s) := store.unregister (← idOf v) (← u64 "version" v)
    return (changeJson (← sourceOf v) c, b.withStore s)
  | "renew" =>
    let (r, s) := store.renew (← idOf v) now
    return (.bool r, b.withStore s)
  | "evict_if_expired" =>
    let (l, s) := store.evictIfExpired (← idOf v) now
    return (opt leaseRow l, b.withStore s)
  | "evict_if_version" =>
    let (l, s) := store.evictIfVersion (← idOf v) (← u64 "version" v) now
    return (opt leaseRow l, b.withStore s)
  | "queue_add" =>
    let queue := b.queue.add (← recordOf v) (← sourceOf v) now
    return (.nat queue.size, { b with queue })
  | "queue_take" =>
    let (taken, queue) := b.queue.takeDue now
    return (.array (taken.map queueRow), { b with queue, taken })
  | "queue_requeue" =>
    let queue := b.queue.requeue b.taken
    return (.nat queue.size, { b with queue, taken := [] })
  | "renewal" =>
    let times := List.range (← natD "times" 1 v)
    return (.null, b.withPreservation
      (times.foldl (fun p _ => p.record now) b.registry.preservation))
  | "pass" =>
    let (o, store, preservation, queue) :=
      evictionPass store b.registry.preservation b.queue now
    return (outcomeJson o, { b with registry := ⟨store, preservation⟩, queue })
  | "reg_register" => return b.handle (← requestOf "register" v)
  | "reg_update" => return b.handle (← requestOf "update" v)
  | "reg_unregister" => return b.handle (← requestOf "unregister" v)
  | "reg_status_update" => return b.handle (← requestOf "status_update" v)
  | "reg_renew" => return b.handle (← requestOf "renew" v)
  | "reg_apply_deltas" =>
    let origin ← serverIdOf "origin" v
    let (a, registry) := b.registry.applyDeltas (← idOf v) (← u64 "base" v) (← u64 "version" v)
      (← deltasOf v) origin now
    return (answerJson (.replicated origin) a, { b with registry })
  | _ => return (← b.read name v, b)

end Bench

/-- Runs a script for the store. Every answer comes with the state after its step. -/
def store (v : Json) : Read Json := do
  let start ← u64D "start" 0 v
  let b : Bench :=
    ⟨.start (← preservationOf v) start, .empty (← natD "delay_ms" 90000 v), start, []⟩
  report (fun b s => do
    let (r, b) ← b.step s
    return (.record [("r", r), ("len", .nat b.registry.store.size),
      ("leases", leaseRows b.registry.store.leases), ("queue", queueRows b.queue)], b)) b v

end LeaseRegistry.Script
