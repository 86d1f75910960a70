import LeaseRegistry.AccessGate
import LeaseRegistry.Link.Heartbeat
import LeaseRegistry.Peer.Backoff
import LeaseRegistry.Script.Report
import LeaseRegistry.Script.Run
import LeaseRegistry.Script.Value

/-!
# Scripts for values that change with time

One lease, the renewal counters, the access gate, a clock, the liveness of a connection and its
reconnection.
-/

namespace LeaseRegistry.Script

def lease (v : Json) : Read Json := do
  let view (l : Lease) (r : Json) : Json × Lease :=
    (.record [("r", r), ("lease", leaseRow l), ("expires_at", u64Json l.expiresAt)], l)
  let l := Lease.grant (← recordOf v) (← sourceOf v) (← u64 "now" v)
  let (out, _) ← runSteps (fun (l : Lease) s => do
    let now ← u64 "now" s
    match ← nameOf s with
    | "renew" => return view (l.renew now) .null
    | "replace" => return view (l.replace (← recordOf s) (← sourceOf s) now) .null
    | "mark_evicted" => return view (l.markEvicted now) .null
    | "is_expired" => return view l (.bool (l.isExpired now))
    | name => .error ("lease step " ++ name)) l (← stepsOf v)
  return .array ((view l .null).1 :: out)

def preservation (v : Json) : Read Json := do
  let p := Preservation.start (← settingsOf v) (← u64D "start" 0 v)
  report (fun (p : Preservation) s => do
    match ← nameOf s with
    | "renewal" =>
      let now ← u64 "now" s
      return (.null, (List.range (← natD "times" 1 s)).foldl (fun p _ => p.record now) p)
    | "observed" => return (floatJson (p.observed (← u64 "now" s)), p)
    | "set_expected" =>
      let p := p.setExpected (← floatD "value" 0 s)
      return (floatJson p.expected, p)
    | "evaluate" => return (verdictJson (p.evaluate (← u64 "now" s)), p)
    | "anomaly" =>
      let p := p.recordAnomaly
      return (u64Json p.anomalies, p)
    | "config" =>
      return (.array [.bool p.settings.enabled, floatJson p.settings.threshold,
        .nat p.settings.window], p)
    | name => .error ("preservation step " ++ name)) p v

def gate (v : Json) : Read Json := do
  let g := AccessGate.start (← u64D "start" 0 v) (← natD "wait_ms" 300000 v)
  report (fun (g : AccessGate) s => do
    match ← nameOf s with
    | "sync" =>
      let g := g.recordSync (← nat "count" s)
      return (.nat g.synced, g)
    | "allow" => return (.bool (g.allows (← nat "local" s) (← u64 "now" s)), g)
    | name => .error ("gate step " ++ name)) g v

def clock (v : Json) : Read Json := do
  let start ← u64D "start" 0 v
  let (out, _) ← runSteps (fun (t : Time) s => do
    let t ← match ← nameOf s with
      | "advance_us" => pure (t.after ((← nat "by" s) / 1000))
      | "set" => u64 "to" s
      | name => .error ("clock step " ++ name)
    return (u64Json t, t)) start (← stepsOf v)
  return .array (u64Json start :: out)

/-- The steps are letters: `f` for a frame, any other for the end of an interval. -/
def monitor (v : Json) : Read Json := do
  let m := HeartbeatMonitor.start (← natD "interval_ms" 30000 v) (← nat "max_misses" v).toUInt32
  let row (name : String) (m : HeartbeatMonitor) : Json :=
    .array [.text name, .nat m.misses.toNat]
  let (out, _) := (← str "steps" v).toList.foldl (fun (out, m) c =>
    if c == 'f' then
      let m := m.onFrame
      (out ++ [row "frame" m], m)
    else
      match m.onTick with
      | (.alive, m) => (out ++ [row "Alive" m], m)
      | (.dead, m) => (out ++ [row "Dead" m], m)) ([], m)
  return .record [("interval_ms", .nat m.interval), ("steps", .array out)]

def backoffOf (v : Json) : Read Backoff :=
  return ⟨← natD "initial_ms" 500 v, ← natD "max_ms" 30000 v, ← floatD "factor" 2 v, none⟩

/-- A negative delay leaves no answer. -/
def noAnswer : Json := kindJson "panic"

def backoff (v : Json) : Read Json := do
  let b ← backoffOf v
  let attempts ← (← list "attempts" v).mapM fun n => return (← asNat "attempt" n).toUInt32
  return ((attempts.mapM b.delay?).map fun delays => .array (delays.map .nat)).getD noAnswer

def reconnect (v : Json) : Read Json := do
  let b ← backoffOf v
  let view (r : Reconnect) (x : Json) : Json × Option Reconnect :=
    (.record [("r", x), ("attempts", .nat r.failures.toNat), ("next", opt u64Json r.nextAt)], some r)
  let (out, r) ← runSteps (fun (r : Option Reconnect) s => do
    match r with
    | none => return (.null, none)
    | some r =>
      match ← nameOf s with
      | "fail" =>
        if (b.delay? (r.failures + 1)).isNone then return (.null, none)
        return view (r.schedule b.delayMillis (← u64 "now" s)) .null
      | "reset" => return view .fresh .null
      | "should" => return view r (.bool (r.isDue (← u64 "now" s)))
      | name => .error ("reconnect step " ++ name)) (some .fresh) (← stepsOf v)
  return if r.isNone then noAnswer else .array out

end LeaseRegistry.Script
