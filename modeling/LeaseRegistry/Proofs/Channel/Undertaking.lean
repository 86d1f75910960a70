import LeaseRegistry.Proofs.Channel.Underway

/-!
# An operation and the loss of its connection

An `Undertaking` is one operation with its channel and all that it works on. The operation's steps,
losses of the connection and anything else that leaves the channel alone come in any order
(`Undertaking.Move`). A closed channel stays closed, and each step queues at most one record, as one
of this server (`Undertaking.Tidy.step`). What was queued stays in the queue as long as nothing is
taken out of it (`Undertaking.entries_run`).
-/

namespace LeaseRegistry

open Channel

/-- The entries at the end of a queue that came to those of an earlier one. -/
def Desk.entriesSince (old new : Desk) : List QueuedEviction :=
  new.queue.entries.drop old.queue.entries.length

namespace Desk

@[simp] theorem entriesSince_self (d : Desk) : d.entriesSince d = [] := List.drop_length

@[simp] theorem entriesSince_queueEviction (d : Desk) (r : Record) (now : Time) :
    d.entriesSince (d.queueEviction r now) = [⟨r, .here, now.after d.queue.delay⟩] :=
  List.drop_left

end Desk

namespace Channel

/-- The call of which the channel has not seen the end. -/
def Stage.openCall? : Stage → Option Call
  | .next (.calling call) | .answered call _ | .next (.taken call) => some call
  | .next _ => none

/-- The record that the registry has just taken. -/
def Stage.taken? : Stage → Option Record
  | .answered call a => (accepted? (call.request, a)).map (·.record)
  | .next _ => none

def Call.isRegistration : Call → Bool
  | register _ => true
  | _ => false

def Call.isUnregistration : Call → Bool
  | unregister _ _ => true
  | _ => false

end Channel

def ClientMessage.isRegistration : ClientMessage → Bool
  | register _ => true
  | _ => false

/-- An operation on a channel, with all that it works on. -/
structure Undertaking (ρ : Type) where
  stage : Stage
  channel : Channel
  desk : Desk
  host : ρ
  /-- The record that the registry took from the operation. -/
  taken : Option Record
  /-- What the channel has queued for eviction since the operation began. -/
  queued : List QueuedEviction
  /-- Where the operation was when the connection went away. -/
  lost : Option Stage

namespace Undertaking

variable {ρ : Type}

inductive Move (ρ : Type) where
  | proceed (now : Time)
  | disconnect (now : Time)
  | reachable (b : Bool)
  /-- Whatever else happens at the server, on other channels too. -/
  | elsewhere (change : Desk × ρ → Desk × ρ)

def begin (b : Backend ρ) (m : ClientMessage) (c : Channel) (d : Desk) (g : ρ) : Undertaking ρ :=
  let (p, channel, desk) := c.begin m (b.stored g) d
  ⟨.next p, channel, desk, g, none, [], none⟩

def step (b : Backend ρ) (u : Undertaking ρ) : Move ρ → Undertaking ρ
  | .proceed now =>
    let (stage, channel, desk, host) := u.stage.proceed b now u.channel u.desk u.host
    { u with
      stage, channel, desk, host
      taken := u.taken.or stage.taken?
      queued := u.queued ++ u.desk.entriesSince desk }
  | .disconnect now =>
    let (channel, desk) := u.channel.connectionClosed u.desk now
    { u with
      channel, desk
      queued := u.queued ++ u.desk.entriesSince desk
      lost := u.lost.or (some u.stage) }
  | .reachable b => { u with channel := { u.channel with reachable := b } }
  | .elsewhere change =>
    let (desk, host) := change (u.desk, u.host)
    { u with desk, host }

def run (b : Backend ρ) (u : Undertaking ρ) (moves : List (Move ρ)) : Undertaking ρ :=
  moves.foldl (step b) u

/-- Nothing is taken out of the queue. -/
def Move.KeepsEntries : Move ρ → Prop
  | .elsewhere change => ∀ x, x.1.queue.entries ⊆ (change x).1.queue.entries
  | _ => True

end Undertaking

/-! ## What a step of the operation keeps -/

/-- Nothing is queued, or one record of this server. -/
inductive Desk.Queues (d d' : Desk) : Prop where
  | nothing (h : d'.queue = d.queue)
  | record (r : Record) (now : Time) (h : d'.queue = d.queue.add r .here now)

namespace Desk

variable {d d' : Desk}

theorem Queues.entries (h : d.Queues d') :
    d'.queue.entries = d.queue.entries ++ d.entriesSince d' := by
  cases h with
  | nothing h => rw [entriesSince, h, List.drop_length, List.append_nil]
  | record r now h => simp only [entriesSince, h, EvictionQueue.add, List.drop_left]

theorem Queues.here (h : d.Queues d') : ∀ q ∈ d.entriesSince d', q.source = .here := by
  intro q hq
  cases h with
  | nothing h =>
    rw [entriesSince, h, List.drop_length] at hq
    cases hq
  | record r now h =>
    simp only [entriesSince, h, EvictionQueue.add, List.drop_left, List.mem_singleton] at hq
    rw [hq]

end Desk

namespace Channel

variable {c : Channel} {d : Desk} {call : Call} {a : Answer} {record r : Record} {now : Time}
  {stored : InstanceId → Option Version}

/-- A closed channel stays closed, and nothing is queued or one record of this server. -/
structure Orderly (c : Channel) (d : Desk) (c' : Channel) (d' : Desk) : Prop where
  closed : c.state = .closed → c'.state = .closed
  queues : d.Queues d'

theorem Orderly.refl (c : Channel) (d : Desk) : Orderly c d c d := ⟨id, .nothing rfl⟩

theorem orderly_giveUp (c : Channel) (d : Desk) : Orderly c d (c.giveUp d).1 (c.giveUp d).2 := by
  unfold giveUp
  split
  · rename_i hregistered
    refine ⟨fun hclosed => ?_, .nothing rfl⟩
    cases hregistered.symm.trans hclosed
  · exact .refl c d

theorem orderly_advance (now : Time) (c : Channel) (d : Desk) (p : Phase) :
    Orderly c d (advance now c d p).2.1 (advance now c d p).2.2 := by
  cases p with
  | calling call => exact .refl c d
  | taken call => cases call <;> exact ⟨id, .nothing rfl⟩
  | noted record =>
    simp only [advance]
    split
    · exact ⟨id, .record record now rfl⟩
    · exact .refl c d
  | replying reply result =>
    cases reply with
    | none => exact .refl c d
    | some m => exact ⟨fun h => (core_reply c m).2.2.trans h, .nothing rfl⟩
  | finished result => exact .refl c d

theorem orderly_connectionClosed (c : Channel) (d : Desk) (now : Time) :
    Orderly c d (c.connectionClosed d now).1 (c.connectionClosed d now).2 := by
  refine ⟨fun _ => congrArg Channel.state (connectionClosed_fst c d now), ?_⟩
  have hqueue := queue_connectionClosed c d now
  cases hleft : c.left? with
  | none =>
    rw [hleft] at hqueue
    exact .nothing hqueue
  | some r =>
    rw [hleft] at hqueue
    exact .record r now hqueue

/-! ### The answer of the registry -/

theorem record?_of_taken? (h : (Stage.answered call a).taken? = some r) :
    call.record? = some r := by
  obtain ⟨w, hw, rfl⟩ := Option.map_eq_some_iff.mp h
  cases call with
  | register record => exact congrArg some (record_of_accepted hw).symm
  | update record deltas => exact congrArg some (record_of_accepted_update hw).symm
  | revive record => exact congrArg some (record_of_accepted hw).symm
  | unregister record version => cases hw
  | renew record => cases hw

theorem answered_revive (h : rejection? "registration" record a = none) :
    answered (.revive record) a stored now c d = (.taken (.revive record), c, d) := by
  cases a with
  | changed change => cases change <;> first | rfl | cases h
  | renewed b => rfl
  | failed e => cases h

theorem answered_of_taken? (h : (Stage.answered call a).taken? = some r) :
    c.answered call a stored now d = (.taken call, c, d) := by
  obtain ⟨w, hw, -⟩ := Option.map_eq_some_iff.mp h
  have hr : ∀ what record, rejection? what record a = none := by
    intro what record
    refine Option.eq_none_iff_forall_ne_some.mpr fun e he => ?_
    rw [accepted?_of_not_applied _ (isApplied_of_rejection he)] at hw
    cases hw
  cases call with
  | register record => exact answered_register (hr _ _)
  | update record deltas => exact answered_update (hr _ _)
  | revive record => exact answered_revive (hr _ _)
  | unregister record version => cases hw
  | renew record => cases hw

/-- What an answer makes of an operation: the write is taken, a lost lease is registered again, or
the operation ends. -/
inductive Heard (c : Channel) (d : Desk) (call : Call) : Phase × Channel × Desk → Prop where
  | taken : Heard c d call (.taken call, c, d)
  | again {record next : Record} (h : call = .renew record) :
    Heard c d call (.calling (.revive next), c, d)
  | ended {p : Phase} {c' : Channel} {d' : Desk} (settled : (Stage.next p).openCall? = none)
      (orderly : Orderly c d c' d') : Heard c d call (p, c', d')

theorem Heard.orderly {res : Phase × Channel × Desk} (h : Heard c d call res) :
    Orderly c d res.2.1 res.2.2 := by
  cases h with
  | taken => exact .refl c d
  | again => exact .refl c d
  | ended settled orderly => exact orderly

theorem heard_answered (call : Call) (a : Answer) (stored : InstanceId → Option Version)
    (now : Time) (c : Channel) (d : Desk) : Heard c d call (c.answered call a stored now d) := by
  have hfailing : ∀ e, Heard c d call (.failing e, c, d) := fun _ => .ended rfl (.refl c d)
  have hfinished : ∀ result, Heard c d call (.finished result, c, d) :=
    fun _ => .ended rfl (.refl c d)
  cases call with
  | register record =>
    cases hr : rejection? "registration" record a with
    | some e =>
      rw [answered_register_rejected hr]
      exact .ended rfl (orderly_giveUp c d)
    | none =>
      rw [answered_register hr]
      exact .taken
  | update record deltas =>
    cases hr : rejection? "update" record a with
    | some e =>
      rw [answered_update_rejected hr]
      exact hfailing e
    | none =>
      rw [answered_update hr]
      exact .taken
  | unregister record version =>
    cases a with
    | failed e => exact .ended rfl ⟨id, .record record now rfl⟩
    | changed change => exact .taken
    | renewed found => exact .taken
  | renew record =>
    cases a with
    | failed e => exact hfinished _
    | changed change => exact hfinished _
    | renewed found => cases found with
      | true => exact hfinished _
      | false => exact .again rfl
  | revive record =>
    cases hr : rejection? "registration" record a with
    | some e => cases a with
      | failed e => exact hfinished _
      | renewed found => cases hr
      | changed change => cases change with
        | superseded => exact hfinished _
        | added => cases hr
        | modified => cases hr
        | removed => cases hr
    | none =>
      rw [answered_revive hr]
      exact .taken

theorem orderly_proceed {ρ : Type} (b : Backend ρ) (now : Time) (c : Channel) (d : Desk) (g : ρ)
    (stage : Stage) :
    Orderly c d (stage.proceed b now c d g).2.1 (stage.proceed b now c d g).2.2.1 := by
  cases stage with
  | answered call a => exact (heard_answered call a (b.stored g) now c d).orderly
  | next p => cases p with
    | calling call => exact .refl c d
    | taken call => exact orderly_advance now c d (.taken call)
    | noted record => exact orderly_advance now c d (.noted record)
    | replying reply result => exact orderly_advance now c d (.replying reply result)
    | finished result => exact orderly_advance now c d (.finished result)

/-- What a channel queues as its connection goes away. -/
theorem records_connectionClosed (c : Channel) (d : Desk) (now : Time) :
    (d.entriesSince (c.connectionClosed d now).2).map (·.record) = c.left?.toList := by
  rw [Desk.entriesSince, queue_connectionClosed]
  cases c.left? with
  | none => simp only [List.drop_length, List.map_nil, Option.toList_none]
  | some r =>
    simp only [EvictionQueue.add, List.drop_left, List.map_cons, List.map_nil, Option.toList_some]

end Channel

namespace Undertaking

variable {ρ : Type} {b : Backend ρ} {u : Undertaking ρ}

/-- A channel whose connection went away is closed, and all that it queued is of this server. -/
structure Tidy (u : Undertaking ρ) : Prop where
  closed : u.lost ≠ none → u.channel.state = .closed
  here : ∀ q ∈ u.queued, q.source = .here

theorem Tidy.lost_eq_none (h : u.Tidy) (hopen : u.channel.state ≠ .closed) : u.lost = none :=
  Classical.byContradiction fun hlost => hopen (h.closed hlost)

theorem Tidy.step (h : u.Tidy) (a : Move ρ) : (u.step b a).Tidy := by
  cases a with
  | proceed now =>
    have horderly := orderly_proceed b now u.channel u.desk u.host u.stage
    exact ⟨fun hlost => horderly.closed (h.closed hlost),
      List.forall_mem_append.mpr ⟨h.here, horderly.queues.here⟩⟩
  | disconnect now =>
    have horderly := orderly_connectionClosed u.channel u.desk now
    exact ⟨fun _ => congrArg Channel.state (connectionClosed_fst u.channel u.desk now),
      List.forall_mem_append.mpr ⟨h.here, horderly.queues.here⟩⟩
  | reachable b => exact ⟨h.closed, h.here⟩
  | elsewhere change => exact ⟨h.closed, h.here⟩

theorem tidy_begin (m : ClientMessage) (c : Channel) (d : Desk) (g : ρ) : (begin b m c d g).Tidy :=
  ⟨fun h => absurd rfl h, nofun⟩

theorem entries_step {a : Move ρ} (ha : a.KeepsEntries)
    (h : u.queued ⊆ u.desk.queue.entries) :
    (u.step b a).queued ⊆ (u.step b a).desk.queue.entries := by
  have hqueues : ∀ {d : Desk}, u.desk.Queues d →
      u.queued ++ u.desk.entriesSince d ⊆ d.queue.entries := by
    intro d hd
    rw [hd.entries]
    exact List.append_subset.mpr
      ⟨List.subset_append_of_subset_left _ h, List.subset_append_right ..⟩
  cases a with
  | proceed now => exact hqueues (orderly_proceed ..).queues
  | disconnect now => exact hqueues (orderly_connectionClosed ..).queues
  | reachable b => exact h
  | elsewhere change => exact List.Subset.trans h (ha (u.desk, u.host))

/-- What the channel queued during the operation stands in the queue, if nothing is taken out of it
meanwhile. -/
theorem entries_run {moves : List (Move ρ)} (hmoves : ∀ a ∈ moves, a.KeepsEntries)
    (h : u.queued ⊆ u.desk.queue.entries) :
    (u.run b moves).queued ⊆ (u.run b moves).desk.queue.entries := by
  induction moves generalizing u with
  | nil => exact h
  | cons a moves ih =>
    obtain ⟨ha, hmoves⟩ := List.forall_mem_cons.mp hmoves
    exact ih hmoves (entries_step ha h)

end Undertaking

end LeaseRegistry
