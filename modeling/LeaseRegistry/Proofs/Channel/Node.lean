import LeaseRegistry.Eviction.Pass
import LeaseRegistry.Proofs.Channel.Write

/-!
# A node and its chronicle

A `Node` is one server with its channels, on which whole operations, ends of connections, clock
steps and eviction passes come one after the other. A `Chronicle` goes along with a node and writes
down what its channels asked of the registry, what they queued, and which leases the queue took. It
changes nothing: `Chronicle.node_run`.
-/

namespace LeaseRegistry

structure Node where
  registry : Registry
  desk : Desk
  now : Time
  channels : List Channel

namespace Node

inductive Act where
  | connect
  | message (channel : Nat) (m : ClientMessage)
  | disconnect (channel : Nat)
  | clock (now : Time)
  | evict

def start (settings : Preservation.Settings) (delay : Millis) (now : Time) : Node :=
  ⟨.start settings now, .empty delay, now, []⟩

def act (n : Node) : Act → Node
  | .connect =>
    let (c, desk) := Channel.openOn n.desk
    { n with desk, channels := n.channels ++ [c] }
  | .message i m =>
    match n.channels[i]? with
    | none => n
    | some c =>
      let (_, c, desk, registry) := c.run .alone n.now m n.desk n.registry
      { n with registry, desk, channels := n.channels.set i c }
  | .disconnect i =>
    match n.channels[i]? with
    | none => n
    | some c =>
      let (c, desk) := c.connectionClosed n.desk n.now
      { n with desk, channels := n.channels.set i c }
  | .clock now => { n with now }
  | .evict =>
    let (_, store, preservation, queue) :=
      evictionPass n.registry.store n.registry.preservation n.desk.queue n.now
    { n with registry := ⟨store, preservation⟩, desk := { n.desk with queue } }

def run (n : Node) (acts : List Act) : Node := acts.foldl act n

end Node

/-! ## What is written down -/

namespace Channel

section

variable {ρ σ : Type} {b : Backend ρ} {b' : Backend σ} {f : ρ → σ}

theorem askOnce_map
    (hh : ∀ g now r, b'.handle (f g) now r = ((b.handle g now r).1, f (b.handle g now r).2))
    (hs : ∀ g, b'.stored (f g) = b.stored g) (now : Time) (p : Phase) (c : Channel) (d : Desk)
    (g : ρ) :
    askOnce b' now (p, c, d, f g) =
      ((askOnce b now (p, c, d, g)).1, (askOnce b now (p, c, d, g)).2.1,
        (askOnce b now (p, c, d, g)).2.2.1, f (askOnce b now (p, c, d, g)).2.2.2) := by
  cases p with
  | calling call => simp only [askOnce, hh, hs]
  | taken call => rfl
  | noted record => rfl
  | replying reply result => rfl
  | finished result => rfl

/-- An operation does not see what a registry keeps besides. -/
theorem run_map
    (hh : ∀ g now r, b'.handle (f g) now r = ((b.handle g now r).1, f (b.handle g now r).2))
    (hs : ∀ g, b'.stored (f g) = b.stored g) (now : Time) (m : ClientMessage) (c : Channel)
    (d : Desk) (g : ρ) :
    c.run b' now m d (f g) =
      ((c.run b now m d g).1, (c.run b now m d g).2.1, (c.run b now m d g).2.2.1,
        f (c.run b now m d g).2.2.2) := by
  simp only [run, hs, askOnce_map hh hs]

end

theorem run_logged (now : Time) (m : ClientMessage) (c : Channel) (d : Desk) (g : Registry)
    (log : List Asked) :
    c.run .alone now m d g =
      ((c.run .logged now m d (g, log)).1, (c.run .logged now m d (g, log)).2.1,
        (c.run .logged now m d (g, log)).2.2.1, (c.run .logged now m d (g, log)).2.2.2.1) :=
  run_map (b := .logged) (f := Prod.fst) (fun _ _ _ => rfl) (fun _ => rfl) now m c d (g, log)

def asks (c : Channel) (now : Time) (m : ClientMessage) (d : Desk) (g : Registry) : List Asked :=
  (c.run .logged now m d (g, [])).2.2.2.2

/-- The record that is queued when the connection goes away. -/
def left? (c : Channel) : Option Record :=
  match c.state, c.current with
  | .registered, some record => some record
  | _, _ => none

theorem left?_eq_some {c : Channel} {record : Record} :
    c.left? = some record ↔ c.state = .registered ∧ c.current = some record := by
  unfold left?
  cases c.state <;> cases c.current <;> simp

theorem queue_connectionClosed (c : Channel) (d : Desk) (now : Time) :
    (c.connectionClosed d now).2.queue = match c.left? with
      | some r => d.queue.add r .here now
      | none => d.queue := by
  simp only [connectionClosed, moveTo, left?]
  cases c.state <;> cases c.current <;> rfl

end Channel

inductive Event where
  | asked (channel : Nat) (m : ClientMessage) (asked : Asked)
  /-- The connection of a channel went away, and its record was queued. -/
  | queued (channel : Nat) (record : Record)
  /-- A pass removed a lease because of an entry that the channel had queued. -/
  | taken (channel : Nat) (entry : QueuedEviction) (lease : Lease)
  deriving DecidableEq

/-- A queue entry and the channel that queued it. -/
abbrev Tagged := Nat × QueuedEviction

/-- The leases that due entries take, each from the store that the ones before left. -/
def takings (now : Time) (s : Store) : List Tagged → List Event
  | [] => []
  | (i, e) :: rest =>
    let (lease, s) := s.evictIfVersion e.record.id e.record.version now
    lease.toList.map (.taken i e) ++ takings now s rest

structure Chronicle where
  node : Node
  /-- The queue, each entry with the channel that queued it. -/
  queue : List Tagged
  events : List Event

namespace Chronicle

def start (settings : Preservation.Settings) (delay : Millis) (now : Time) : Chronicle :=
  ⟨.start settings delay now, [], []⟩

def act (h : Chronicle) (a : Node.Act) : Chronicle :=
  let n := h.node
  match a with
  | .message i m =>
    let asks := match n.channels[i]? with
      | none => []
      | some c => c.asks n.now m n.desk n.registry
    ⟨n.act a, h.queue, (asks.map (.asked i m)).reverse ++ h.events⟩
  | .disconnect i =>
    match n.channels[i]?.bind Channel.left? with
    | none => ⟨n.act a, h.queue, h.events⟩
    | some record =>
      ⟨n.act a, h.queue ++ [(i, ⟨record, .here, n.now.after n.desk.queue.delay⟩)],
        .queued i record :: h.events⟩
  | .evict =>
    let due := h.queue.filter (·.2.isDue n.now)
    let pending := h.queue.filter fun e => !e.2.isDue n.now
    let s := n.registry.store
    match (evictionPass s n.registry.preservation n.desk.queue n.now).1 with
    | .suppressed .. => ⟨n.act a, due ++ pending, h.events⟩
    | .evicted _ =>
      let (_, s) := s.evictExpired (s.expired n.now) n.now
      ⟨n.act a, pending, (takings n.now s due).reverse ++ h.events⟩
  | .connect | .clock _ => ⟨n.act a, h.queue, h.events⟩

def run (h : Chronicle) (acts : List Node.Act) : Chronicle := acts.foldl act h

theorem node_act (h : Chronicle) (a : Node.Act) : (h.act a).node = h.node.act a := by
  cases a with
  | message i m => rfl
  | disconnect i =>
    simp only [act]
    split <;> rfl
  | evict =>
    simp only [act]
    split <;> rfl
  | connect => rfl
  | clock now => rfl

theorem node_run (h : Chronicle) (acts : List Node.Act) : (h.run acts).node = h.node.run acts := by
  induction acts generalizing h with
  | nil => rfl
  | cons a acts ih =>
    rw [run, Node.run, List.foldl_cons, List.foldl_cons, ← node_act]
    exact ih (h.act a)

end Chronicle

end LeaseRegistry
