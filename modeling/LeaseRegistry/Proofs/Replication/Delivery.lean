import LeaseRegistry.Proofs.Eviction.Pass
import LeaseRegistry.Proofs.Replication.Slot
import LeaseRegistry.Server.Run

/-!
# Two servers, one sending

A `Pair` is a server with one of its peers, the receiver, which hears of nothing but the calls of
the sender. In a `Round` the sender makes one operation of its own; each call to the receiver that
this gives rise to arrives or is lost, as the round says. The sender may have other peers, which
answer as they like.

`Server.operate` says what an operation makes of the sender and which messages it gives rise to, and
`Pair.round_eq` that a round is just that with the messages going through `Receiver.exchange` one
after the other: the other peers do not matter.
-/

namespace LeaseRegistry

/-- What becomes of one call. -/
inductive Fate where
  /-- It arrives at this time of the receiver's clock and is answered. -/
  | arrives (now : Time)
  | lost (e : Option LinkError)

/-- The receiving server in the course of a round. -/
structure Receiver where
  coordinator : Coordinator
  calls : Nat
  replies : List PeerReply

namespace Receiver

def call (origin : ServerId) (fate : Nat → Fate) (m : PeerMessage) (r : Receiver) :
    CallResult × Receiver :=
  match fate r.calls with
  | .arrives now =>
    let (reply, coordinator) := r.coordinator.receive now origin m
    (.replied reply, ⟨coordinator, r.calls + 1, r.replies ++ [reply]⟩)
  | .lost e => (e.elim .timedOut .failed, { r with calls := r.calls + 1 })

/-- A message of the server `origin`, whose coordinator is `c`, and the repair that it may need. -/
def exchange (origin : ServerId) (fate : Nat → Fate) (c : Coordinator) (r : Receiver)
    (m : PeerMessage) : Receiver :=
  let (result, r) := r.call origin fate m
  match result.reply?.bind c.repair? with
  | none => r
  | some repair => (r.call origin fate repair).2

/-- The receiver as a peer. Call number `n` is over at the time `ends n` of the caller's clock. -/
def link (origin : ServerId) (fate : Nat → Fate) (ends : Nat → Time) : Peers Receiver where
  call r _ _ m :=
    let (result, next) := r.call origin fate m
    (result, ends r.calls, next)

theorem deliver_link (origin : ServerId) (fate : Nat → Fate) (ends : Nat → Time) (c : Coordinator)
    (m : PeerMessage) (r : Receiver) (now : Time) (peer : Nat) :
    ((link origin fate ends).deliver c m r now peer).2 = r.exchange origin fate c m := by
  simp only [Peers.deliver, link, exchange]
  cases (r.call origin fate m).1.reply?.bind c.repair? <;> rfl

end Receiver

namespace Peers

variable {α β : Type}

/-- Peer number `k` is `p`, and the others are `q`. -/
def among (k : Nat) (p : Peers α) (q : Peers β) : Peers (α × β) where
  call env now peer m :=
    if peer = k then
      let (result, now, a) := p.call env.1 now peer m
      (result, now, (a, env.2))
    else
      let (result, now, b) := q.call env.2 now peer m
      (result, now, (env.1, b))

variable {k : Nat} {p : Peers α} {q : Peers β} (c : Coordinator) (m : PeerMessage)

theorem deliver_among_self (env : α × β) (now : Time) :
    ((among k p q).deliver c m env now k).2.1 = (p.deliver c m env.1 now k).2 := by
  simp only [deliver, among, ↓reduceIte]
  cases (p.call env.1 now k m).1.reply?.bind c.repair? <;> rfl

theorem deliver_among_of_ne {peer : Nat} (h : peer ≠ k) (env : α × β) (now : Time) :
    ((among k p q).deliver c m env now peer).2.1 = env.1 := by
  simp only [deliver, among, if_neg h]
  cases (q.call env.2 now peer m).1.reply?.bind c.repair? <;> rfl

theorem deliverAll_among_of_notMem {peers : List Nat} (h : k ∉ peers) (env : α × β) (now : Time) :
    ((among k p q).deliverAll c m env now peers).2.1 = env.1 := by
  induction peers generalizing env with
  | nil => rfl
  | cons peer peers ih =>
    simp only [List.mem_cons, not_or] at h
    simp only [deliverAll]
    rw [ih h.2, deliver_among_of_ne c m (Ne.symm h.1)]

theorem deliverAll_among {peers : List Nat} (hd : peers.Nodup) (h : k ∈ peers) (env : α × β)
    (now : Time) :
    ((among k p q).deliverAll c m env now peers).2.1 = (p.deliver c m env.1 now k).2 := by
  induction peers generalizing env with
  | nil => cases h
  | cons peer peers ih =>
    rw [List.nodup_cons] at hd
    simp only [deliverAll]
    by_cases hk : peer = k
    · subst hk
      rw [deliverAll_among_of_notMem c m hd.1, deliver_among_self]
    · rw [ih hd.2 ((List.mem_cons.mp h).resolve_left (Ne.symm hk)), deliver_among_of_ne c m hk]

end Peers

/-! ## Rounds -/

inductive Operation where
  | request (r : Request) (isHere : r.source = .here)
  | evict
  | enqueue (record : Record) (source : Source)

def Operation.activity : Operation → Activity Unit
  | request r _ => (Server.request r).andThen fun _ => .done ()
  | evict => Server.evict.andThen fun _ => .done ()
  | enqueue record source => .look fun now s =>
    .put { s with desk := { s.desk with queue := s.desk.queue.add record source now } } (.done ())

namespace Server

/-- The server after an operation, and what it tells its peers. -/
def operate (s : Server) (now : Time) : Operation → Server × List PeerMessage
  | .request r _ =>
    let (_, message, coordinator) := s.coordinator.perform now r
    ({ s with coordinator }, message.toList)
  | .evict =>
    if s.evicting then (s, [])
    else
      let (outcome, s) := s.evictionPass now
      ({ s with evicting := false }, outcome.leases.map .evicting)
  | .enqueue record source =>
    ({ s with desk := { s.desk with queue := s.desk.queue.add record source now } }, [])

variable (s : Server) (now : Time) (o : Operation)

@[simp] theorem id_operate : (s.operate now o).1.coordinator.id = s.coordinator.id := by
  cases o with
  | request r h => rfl
  | evict =>
    simp only [operate]
    split <;> rfl
  | enqueue record source => rfl

@[simp] theorem peers_operate : (s.operate now o).1.coordinator.peers = s.coordinator.peers := by
  cases o with
  | request r h => rfl
  | evict =>
    simp only [operate]
    split <;> rfl
  | enqueue record source => rfl

end Server

structure Round where
  operation : Operation
  now : Time
  fate : Nat → Fate
  ends : Nat → Time

structure Pair (ε : Type) where
  sender : Server
  receiver : Coordinator
  replies : List PeerReply
  others : ε

namespace Pair

variable {ε : Type} (k : Nat) (q : Peers ε)

/-- The receiver is peer number `k` of the sender, and `q` are the others. -/
def round (p : Pair ε) (r : Round) : Pair ε :=
  let link := Receiver.link p.sender.coordinator.id r.fate r.ends
  let (_, _, sender, receiver, others) :=
    r.operation.activity.run (.among k link q) r.now p.sender (⟨p.receiver, 0, []⟩, p.others)
  ⟨sender, receiver.coordinator, p.replies ++ receiver.replies, others⟩

def run (p : Pair ε) (rounds : List Round) : Pair ε := rounds.foldl (round k q) p

def start (sender : Server) (receiver : Coordinator) (others : ε) : Pair ε :=
  ⟨sender, receiver, [], others⟩

/-- The receiver after the messages of a round. -/
def heard (p : Pair ε) (r : Round) : Receiver :=
  let (sender, messages) := p.sender.operate r.now r.operation
  messages.foldl (Receiver.exchange p.sender.coordinator.id r.fate sender.coordinator)
    ⟨p.receiver, 0, []⟩

variable {k q}

theorem run_announceAll {α : Type} (origin : ServerId) (fate : Nat → Fate) (ends : Nat → Time)
    {s : Server} (hk : k < s.coordinator.peers) (ms : List PeerMessage) (next : Activity α)
    (now : Time) (receiver : Receiver) (others : ε) :
    ∃ now' others', (Activity.announceAll ms next).run
        (.among k (Receiver.link origin fate ends) q) now s (receiver, others) =
      next.run (.among k (Receiver.link origin fate ends) q) now' s
        (ms.foldl (Receiver.exchange origin fate s.coordinator) receiver, others') := by
  induction ms generalizing now receiver others with
  | nil => exact ⟨now, others, rfl⟩
  | cons m ms ih =>
    have hfirst := Peers.deliverAll_among (p := Receiver.link origin fate ends) (q := q)
      s.coordinator m List.nodup_range (List.mem_range.mpr hk) (receiver, others) now
    rw [Receiver.deliver_link] at hfirst
    simp only [Activity.announceAll, List.foldr_cons, Activity.run, List.foldl_cons]
    rw [← hfirst]
    exact ih ..

theorem andThen_announceAll {α β : Type} (ms : List PeerMessage) (next : Activity α)
    (f : α → Activity β) :
    (Activity.announceAll ms next).andThen f = Activity.announceAll ms (next.andThen f) := by
  induction ms with
  | nil => rfl
  | cons m ms ih => exact congrArg (Activity.announce m) ih

/-- The messages of a round pass through the receiver one after the other, whatever the other
peers do. -/
theorem round_eq (p : Pair ε) (r : Round) (hk : k < p.sender.coordinator.peers) :
    ∃ others, p.round k q r =
      ⟨(p.sender.operate r.now r.operation).1, (p.heard r).coordinator,
        p.replies ++ (p.heard r).replies, others⟩ := by
  obtain ⟨operation, now, fate, ends⟩ := r
  cases operation with
  | request r h =>
    simp only [round, heard, Operation.activity, Server.request, Server.operate, Activity.andThen,
      Activity.run]
    cases hm : (p.sender.coordinator.perform now r).2.1 with
    | none => exact ⟨p.others, by simp [Activity.announceAny, Activity.andThen, Activity.run]⟩
    | some m =>
      obtain ⟨now', others', h⟩ := run_announceAll (q := q) p.sender.coordinator.id fate ends
        (s := { p.sender with coordinator := (p.sender.coordinator.perform now r).2.2 }) hk [m]
        (.done ()) now ⟨p.receiver, 0, []⟩ p.others
      refine ⟨others', ?_⟩
      simp only [Activity.announceAll, List.foldr_cons, List.foldr_nil] at h
      simp only [Activity.announceAny, Activity.andThen, h]
      rfl
  | evict =>
    simp only [round, heard, Operation.activity, Server.evict, Server.operate, Activity.andThen,
      Activity.run]
    split
    · exact ⟨p.others, by simp [Activity.andThen, Activity.run]⟩
    · simp only [Activity.andThen, Activity.run, andThen_announceAll]
      obtain ⟨now', others', h⟩ := run_announceAll (q := q) p.sender.coordinator.id fate ends
        (s := { (p.sender.evictionPass now).2 with evicting := true }) hk
        ((p.sender.evictionPass now).1.leases.map .evicting)
        (.look fun _ s => .put { s with evicting := false } (.done ())) now ⟨p.receiver, 0, []⟩
        p.others
      refine ⟨others', ?_⟩
      rw [h]
      rfl
  | enqueue record source =>
    refine ⟨p.others, ?_⟩
    simp [round, heard, Operation.activity, Activity.run, Server.operate]

theorem id_round (p : Pair ε) (r : Round) (hk : k < p.sender.coordinator.peers) :
    (p.round k q r).sender.coordinator.id = p.sender.coordinator.id := by
  obtain ⟨others, h⟩ := p.round_eq (q := q) r hk
  rw [h, Server.id_operate]

theorem peers_round (p : Pair ε) (r : Round) (hk : k < p.sender.coordinator.peers) :
    (p.round k q r).sender.coordinator.peers = p.sender.coordinator.peers := by
  obtain ⟨others, h⟩ := p.round_eq (q := q) r hk
  rw [h, Server.peers_operate]

end Pair

/-! ## Rounds on fresh servers -/

/-- A coordinator to which nothing has been registered. -/
def Coordinator.fresh (id : ServerId) (peers : Nat) : Coordinator where
  id := id
  registry := .start ⟨false, Preservation.defaultThreshold, 60000⟩ 0
  gate := .start 0 300000
  own := none
  peers := peers
  patience := 200
  retry := .standard 3

def Server.fresh (id : ServerId) (peers : Nat) : Server :=
  ⟨.fresh id peers, .empty 90000, false, ⟨"registry", "10.0.0.1:8761", none⟩⟩

/-- Peers that never answer. -/
def Peers.silent : Peers Unit := ⟨fun _ now _ _ => (.timedOut, now, ())⟩

namespace Round

/-- The calls arrive as soon as they are made. -/
def arriving (now : Time) (operation : Operation) : Round :=
  ⟨operation, now, fun _ => .arrives now, fun _ => now⟩

/-- The calls are never answered. -/
def losing (now : Time) (operation : Operation) : Round :=
  ⟨operation, now, fun _ => .lost none, fun _ => now⟩

end Round

end LeaseRegistry
