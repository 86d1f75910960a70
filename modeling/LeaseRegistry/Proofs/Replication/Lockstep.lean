import LeaseRegistry.Proofs.Instance.Difference
import LeaseRegistry.Proofs.Replication.Delivery

/-!
# Lockstep

A receiver that starts empty and gets every message of one sender holds the sender's records, each
as that server's write. `Slot.follows_handle` is the step of one request on one slot,
`Lockstep.round` the step of a whole operation, and `Lockstep.run` the induction on the rounds.
-/

namespace LeaseRegistry

/-- `m` is what a peer makes of the lease `l` of the server `origin`. The times agree too once it
is known that the two servers read the same clock. -/
structure Lease.Follows (origin : ServerId) (synced : Prop) (l m : Lease) : Prop where
  record : m.record = l.record
  source : m.source = .replicated origin
  duration : m.duration = l.duration
  times : synced → m.registeredAt = l.registeredAt ∧ m.renewedAt = l.renewedAt

namespace Lease.Follows

variable {origin : ServerId} {synced : Prop} {l m : Lease}

theorem version (h : l.Follows origin synced m) : m.version = l.version :=
  congrArg Record.version h.record

theorem grant (record : Record) (source : Source) {now there : Time} (hs : synced → there = now) :
    (Lease.grant record source now).Follows origin synced
      (.grant record (.replicated origin) there) :=
  ⟨rfl, rfl, rfl, fun hp => ⟨hs hp, hs hp⟩⟩

theorem renew (h : l.Follows origin synced m) {now there : Time} (hs : synced → there = now) :
    (l.renew now).Follows origin synced (m.renew there) := by
  refine ⟨h.record, h.source, h.duration, fun hp => ⟨(h.times hp).1, ?_⟩⟩
  simp only [Lease.renew, (h.times hp).2, hs hp]

theorem replace (h : l.Follows origin synced m) (record : Record) (source : Source)
    {now there : Time} (hs : synced → there = now) :
    (l.replace record source now).Follows origin synced
      (m.replace record (.replicated origin) there) := by
  refine ⟨rfl, rfl, rfl, fun hp => ⟨(h.times hp).1, ?_⟩⟩
  simp only [Lease.replace, Lease.renew, (h.times hp).2, hs hp]

end Lease.Follows

namespace Slot

/-- What a peer makes of a slot of the server `origin`. -/
def Follows (origin : ServerId) (synced : Prop) : Slot → Slot → Prop :=
  Option.Rel (Lease.Follows origin synced)

variable {origin : ServerId} {synced : Prop} {a b : Slot} {now there : Time}

theorem Follows.record? (h : Follows origin synced a b) : b.record? = a.record? := by
  cases h with
  | none => rfl
  | some h => exact congrArg some h.record

/-- A request that sends nothing leaves the slot alone. -/
theorem handle_of_silent {r : Request} (h : a.message? now r = none) :
    (Slot.handle now r a).2 = a := by
  have he := effect_handle now r a
  rw [h] at he
  generalize Slot.handle now r a = res at he ⊢
  cases he with
  | refused => rfl

/-- The message of a request is acknowledged, and the receiver does with it what the sender did. -/
theorem Follows.handle {r : Request} (h : Follows origin synced a b)
    (hid : ∀ l ∈ a, l.record.id = r.id) (hs : synced → there = now) {m : PeerMessage}
    (hm : a.message? now r = some m) :
    (receive origin there m b).1 = .ack ∧
      Follows origin synced (Slot.handle now r a).2 (receive origin there m b).2 := by
  have he := effect_handle now r a
  rw [hm] at he
  generalize Slot.handle now r a = res at he ⊢
  cases he with
  | @added record source valid =>
    cases h with
    | none =>
      simp only [receive, register_of_valid valid, write]
      exact ⟨rfl, .some (.grant record source hs)⟩
  | @registered record source l valid newer =>
    cases h with
    | @some _ m h =>
      have hn : ¬record.version ≤ m.version := by
        rw [h.version, UInt64.not_le]
        exact newer
      simp only [receive, register_of_valid valid, write, if_neg hn]
      exact ⟨rfl, .some (h.replace record source hs)⟩
  | @updated record deltas source l valid newer =>
    cases h with
    | @some _ m h =>
      have hn : ¬record.version ≤ m.version := by
        rw [h.version, UInt64.not_le]
        exact newer
      have hnext : m.record.applyDeltas (record.diff l.record) record.version = record := by
        rw [h.record, Record.applyDeltas_diff _ _ (hid l rfl).symm]
      have hbase : ¬m.version ≠ l.version := not_not_intro h.version
      simp only [receive, updateWithDeltas, if_neg hn, if_neg hbase, hnext,
        show record.fault? = none from valid]
      exact ⟨rfl, .some (h.replace record source hs)⟩
  | @removed id version source l notOlder =>
    cases h with
    | @some _ m h =>
      have hn : ¬version < m.version := by
        rw [h.version, UInt64.not_lt]
        exact notOlder
      simp only [receive, unregister, if_neg hn]
      exact ⟨rfl, .none⟩
  | @restated id status source l newer =>
    cases h with
    | @some _ m h =>
      have hn : ¬l.version + 1 ≤ m.version := by
        rw [h.version, UInt64.not_le]
        exact newer
      simp only [receive, statusUpdate, if_neg hn, h.record]
      exact ⟨rfl, .some (h.replace _ source hs)⟩
  | @renewed id source l =>
    cases h with
    | @some _ m h => exact ⟨rfl, .some (h.renew hs)⟩

end Slot

/-! ## Two stores -/

/-- The receiver's store `b` follows the sender's store `a`. -/
structure Lockstep (origin : ServerId) (synced : InstanceId → Prop) (a b : Store) : Prop where
  sender : a.WellFormed
  receiver : b.WellFormed
  follows : ∀ id, Slot.Follows origin (synced id) (a.lease? id) (b.lease? id)

namespace Lockstep

variable {origin : ServerId} {synced : InstanceId → Prop} {a b : Store}

theorem empty : Lockstep origin synced .empty .empty :=
  ⟨Store.wellFormed_empty, Store.wellFormed_empty, fun _ => .none⟩

theorem record? (h : Lockstep origin synced a b) (id : InstanceId) : b.record? id = a.record? id :=
  (h.follows id).record?

/-- One message on the receiver's store. -/
theorem receive {c : Coordinator} {id : InstanceId} {slot : Slot} {m : PeerMessage} {there : Time}
    (h : Lockstep origin synced a c.store) (hm : m.instanceId? = some id)
    (hkeep : ∀ l ∈ slot, l.record.id = id)
    (hf : Slot.Follows origin (synced id) slot
      (Slot.receive origin there m (c.store.lease? id)).2) :
    Lockstep origin synced (a.put id slot) (c.receive there origin m).2.store := by
  have hs := congrArg Prod.snd (c.receive_eq_onSlot there origin hm)
  simp only at hs
  rw [hs]
  refine ⟨h.sender.put hkeep, h.receiver.onSlot (Slot.KeepsId.receive hm origin there),
    fun k => ?_⟩
  rw [Store.lease?_put h.sender, Store.lease?_onSlot h.receiver]
  split
  · subst k
    exact hf
  · exact h.follows k

end Lockstep

/-! ## Whole rounds -/

def Round.Delivered (r : Round) : Prop := ∀ n, ∃ there, r.fate n = .arrives there

/-- The receiver's clock shows the sender's time when the first call arrives. -/
def Round.SameClock (r : Round) : Prop := ∀ there, r.fate 0 = .arrives there → there = r.now

/-- The instance that an operation on one instance is about. -/
def Operation.id? : Operation → Option InstanceId
  | request r _ => some r.id
  | evict | enqueue .. => none

namespace Receiver

variable {origin : ServerId} {fate : Nat → Fate} {c : Coordinator} {r : Receiver} {m : PeerMessage}
  {there : Time}

theorem exchange_of_ack (hf : fate r.calls = .arrives there)
    (ha : (r.coordinator.receive there origin m).1 = .ack) :
    r.exchange origin fate c m =
      ⟨(r.coordinator.receive there origin m).2, r.calls + 1, r.replies ++ [.ack]⟩ := by
  simp only [exchange, call, hf, ha]
  rfl

/-- Told that a lease was evicted, a receiver that holds no newer one lets it go. -/
theorem exchange_evicting (origin : ServerId) (c : Coordinator)
    (hf : fate r.calls = .arrives there) (l : Lease)
    (hle : ∀ m, r.coordinator.store.lease? l.record.id = some m → m.version ≤ l.version) :
    let r' := r.exchange origin fate c (.evicting l)
    r'.coordinator.store = r.coordinator.store.put l.record.id none ∧
      r'.replies = r.replies ++ [.ack] := by
  have heq := r.coordinator.receive_eq_onSlot there origin
    (show (PeerMessage.evicting l).instanceId? = some l.record.id from rfl)
  have hslot : Slot.receive origin there (.evicting l)
      (r.coordinator.store.lease? l.record.id) = (.ack, none) := by
    cases hm : r.coordinator.store.lease? l.record.id with
    | none => rfl
    | some m =>
      have hn : ¬l.version < m.version := UInt64.not_lt.mpr (hle m hm)
      simp only [PeerMessage.evicting, Slot.receive, Slot.unregister, if_neg hn]
      rfl
  rw [Store.onSlot, hslot] at heq
  simp only [Prod.mk.injEq] at heq
  simp only [exchange_of_ack hf heq.1]
  exact ⟨heq.2, trivial⟩

/-- Told so of several leases, it lets go of them all. -/
theorem foldl_exchange_evicting (origin : ServerId) (c : Coordinator)
    (hf : ∀ n, ∃ there, fate n = .arrives there) (ls : List Lease)
    (hwf : r.coordinator.store.WellFormed) (hack : ∀ reply ∈ r.replies, reply = .ack)
    (hle : ∀ l ∈ ls, ∀ m, r.coordinator.store.lease? l.record.id = some m →
      m.version ≤ l.version) :
    let r' := (ls.map .evicting).foldl (exchange origin fate c) r
    r'.coordinator.store.WellFormed ∧ (∀ reply ∈ r'.replies, reply = .ack) ∧
      ∀ id, r'.coordinator.store.lease? id =
        if ∃ l ∈ ls, l.record.id = id then none else r.coordinator.store.lease? id := by
  induction ls generalizing r with
  | nil => exact ⟨hwf, hack, by simp⟩
  | cons l ls ih =>
    obtain ⟨there, ht⟩ := hf r.calls
    obtain ⟨hstore, hreplies⟩ := exchange_evicting origin c ht l
      (hle l List.mem_cons_self)
    have hlease : ∀ id, (r.exchange origin fate c (.evicting l)).coordinator.store.lease? id =
        if id = l.record.id then none else r.coordinator.store.lease? id := by
      intro id
      rw [hstore, Store.lease?_put hwf]
    obtain ⟨hwf', hack', hlease'⟩ := ih (r := r.exchange origin fate c (.evicting l))
      (by rw [hstore]; exact hwf.put fun _ h => by cases h)
      (by
        intro reply h
        rw [hreplies, List.mem_append, List.mem_singleton] at h
        exact h.elim (hack reply) id)
      (by
        intro l' hl' m hm
        rw [hlease] at hm
        split at hm
        · cases hm
        · exact hle l' (List.mem_cons_of_mem _ hl') m hm)
    refine ⟨hwf', hack', fun id => ?_⟩
    rw [List.map_cons, List.foldl_cons, hlease', hlease]
    by_cases h1 : ∃ l' ∈ ls, l'.record.id = id
    · have h2 : ∃ l' ∈ l :: ls, l'.record.id = id := by
        obtain ⟨l', hl', he⟩ := h1
        exact ⟨l', List.mem_cons_of_mem _ hl', he⟩
      rw [if_pos h1, if_pos h2]
    · rw [if_neg h1]
      by_cases h2 : id = l.record.id
      · rw [if_pos h2, if_pos ⟨l, List.mem_cons_self, h2.symm⟩]
      · rw [if_neg h2, if_neg]
        rintro ⟨l', hl', he⟩
        rcases List.mem_cons.mp hl' with rfl | hl'
        · exact h2 he.symm
        · exact h1 ⟨l', hl', he⟩

end Receiver

namespace Lockstep

variable {origin : ServerId} {synced : InstanceId → Prop} {ε : Type}

/-- A request, with its message if it has one. -/
theorem request {c : Coordinator} (receiver : Receiver) {now there : Time} {fate : Nat → Fate}
    {r : Request} (h : Lockstep origin synced c.store receiver.coordinator.store)
    (hsource : r.source = .here) (hf : fate receiver.calls = .arrives there)
    (hs : synced r.id → there = now) (hack : ∀ reply ∈ receiver.replies, reply = .ack) :
    let c' := (c.perform now r).2.2
    let receiver' :=
      (c.perform now r).2.1.toList.foldl (Receiver.exchange origin fate c') receiver
    Lockstep origin synced c'.store receiver'.coordinator.store ∧
      ∀ reply ∈ receiver'.replies, reply = .ack := by
  have hkeep : ∀ l ∈ c.store.lease? r.id, l.record.id = r.id := fun _ hl =>
    h.sender.id_of_lease? hl
  have hnew := Slot.KeepsId.handle now r _ hkeep
  have hstore := c.perform_store now r
  have hmessage := c.perform_message now r h.sender
  rw [hsource, if_pos (show Source.here.fansOut = true from rfl)] at hmessage
  cases hm : Slot.message? now r (c.store.lease? r.id) with
  | none =>
    rw [Slot.handle_of_silent hm, Store.put_lease?] at hstore
    simp only [hmessage, hm, hstore, Option.toList_none, List.foldl_nil]
    exact ⟨h, hack⟩
  | some m =>
    obtain ⟨hreply, hfollows⟩ := (h.follows r.id).handle hkeep hs hm
    have hid := Slot.instanceId?_of_message? hm
    have heq := receiver.coordinator.receive_eq_onSlot there origin hid
    have hreply' : (receiver.coordinator.receive there origin m).1 = .ack :=
      (congrArg Prod.fst heq).trans hreply
    simp only [hmessage, hm, hstore, Option.toList_some, List.foldl_cons, List.foldl_nil,
      Receiver.exchange_of_ack hf hreply']
    refine ⟨h.receive hid hnew hfollows, fun reply hr => ?_⟩
    rw [List.mem_append, List.mem_singleton] at hr
    exact hr.elim (hack reply) id

theorem evict {a a' : Store} {ls : List Lease} (receiver : Receiver) {c : Coordinator}
    {now : Time} {fate : Nat → Fate} (h : Lockstep origin synced a receiver.coordinator.store)
    (he : Evicts now a ls a') (hf : ∀ n, ∃ there, fate n = .arrives there)
    (hack : ∀ reply ∈ receiver.replies, reply = .ack) :
    let receiver' := (ls.map .evicting).foldl (Receiver.exchange origin fate c) receiver
    Lockstep origin synced a' receiver'.coordinator.store ∧
      ∀ reply ∈ receiver'.replies, reply = .ack := by
  obtain ⟨hwf, hack', hlease⟩ := Receiver.foldl_exchange_evicting origin c hf ls h.receiver
    hack (by
      intro l hl m hm
      obtain ⟨l', hl', rfl⟩ := he.held l hl
      have hfollows := h.follows (l'.markEvicted now).record.id
      rw [hl', hm] at hfollows
      cases hfollows with
      | some hfollows => exact UInt64.le_of_eq hfollows.version)
  refine ⟨⟨he.wellFormed, hwf, fun id => ?_⟩, hack'⟩
  rw [hlease]
  split
  · rename_i hex
    obtain ⟨l, hl, rfl⟩ := hex
    rw [he.gone l hl]
    exact .none
  · rename_i hex
    rw [he.kept id fun l hl hid => hex ⟨l, hl, hid⟩]
    exact h.follows id

variable {k : Nat} {q : Peers ε}

theorem round {p : Pair ε} {r : Round} (hk : k < p.sender.coordinator.peers)
    (h : Lockstep p.sender.coordinator.id synced p.sender.store p.receiver.store)
    (hd : r.Delivered)
    (hs : ∀ id, synced id → r.operation.id? = some id → r.SameClock)
    (hack : ∀ reply ∈ p.replies, reply = .ack) :
    let p' := p.round k q r
    Lockstep p.sender.coordinator.id synced p'.sender.store p'.receiver.store ∧
      ∀ reply ∈ p'.replies, reply = .ack := by
  obtain ⟨others, heq⟩ := p.round_eq (q := q) r hk
  suffices hheard : Lockstep p.sender.coordinator.id synced
      (p.sender.operate r.now r.operation).1.store (p.heard r).coordinator.store ∧
        ∀ reply ∈ (p.heard r).replies, reply = .ack by
    rw [heq]
    refine ⟨hheard.1, fun reply hr => ?_⟩
    exact (List.mem_append.mp hr).elim (hack reply) (hheard.2 reply)
  have hnone : ∀ reply ∈ ([] : List PeerReply), reply = .ack := by simp
  obtain ⟨operation, now, fate, ends⟩ := r
  cases operation with
  | request r hsource =>
    obtain ⟨there, ht⟩ := hd 0
    exact h.request ⟨p.receiver, 0, []⟩ hsource ht
      (fun hp => hs r.id hp rfl there ht) hnone
  | evict =>
    simp only [Pair.heard, Server.operate]
    split
    · exact ⟨h, hnone⟩
    · exact h.evict ⟨p.receiver, 0, []⟩ (evicts_evictionPass h.sender _ _ now) hd hnone
  | enqueue record source => exact ⟨h, hnone⟩

theorem run {p : Pair ε} {rounds : List Round} (hk : k < p.sender.coordinator.peers)
    (h : Lockstep p.sender.coordinator.id synced p.sender.store p.receiver.store)
    (hd : ∀ r ∈ rounds, r.Delivered)
    (hs : ∀ r ∈ rounds, ∀ id, synced id → r.operation.id? = some id → r.SameClock)
    (hack : ∀ reply ∈ p.replies, reply = .ack) :
    let p' := p.run k q rounds
    Lockstep p.sender.coordinator.id synced p'.sender.store p'.receiver.store ∧
      ∀ reply ∈ p'.replies, reply = .ack := by
  induction rounds generalizing p with
  | nil => exact ⟨h, hack⟩
  | cons r rounds ih =>
    obtain ⟨h', hack'⟩ := h.round (q := q) hk (hd r List.mem_cons_self) (hs r List.mem_cons_self)
      hack
    rw [← Pair.id_round (q := q) p r hk] at h' ⊢
    exact ih (by rwa [Pair.peers_round p r hk]) h'
      (fun r' hr' => hd r' (List.mem_cons_of_mem _ hr'))
      (fun r' hr' => hs r' (List.mem_cons_of_mem _ hr')) hack'

end Lockstep

/-- As long as every call arrives, a receiver that started empty holds the sender's records, as
writes of the sender, and it always acknowledged. Where the two servers read the same clock at
every request on an instance, the times of its leases agree too. -/
theorem Pair.receiver_mirrors_sender {ε : Type} {k : Nat} (q : Peers ε) (sender : Server)
    (receiver : Coordinator) (others : ε) (rounds : List Round)
    (hk : k < sender.coordinator.peers) (hsender : sender.store = .empty)
    (hreceiver : receiver.store = .empty) (hd : ∀ r ∈ rounds, r.Delivered) :
    let p := (Pair.start sender receiver others).run k q rounds
    (∀ id, p.receiver.store.record? id = p.sender.store.record? id) ∧
    (∀ id m, p.receiver.store.lease? id = some m →
      m.source = .replicated sender.coordinator.id) ∧
    (∀ reply ∈ p.replies, reply = .ack) ∧
    ∀ id l m, p.sender.store.lease? id = some l → p.receiver.store.lease? id = some m →
      m.duration = l.duration ∧
        ((∀ r ∈ rounds, r.operation.id? = some id → r.SameClock) →
          m.registeredAt = l.registeredAt ∧ m.renewedAt = l.renewedAt) := by
  have hstart : Lockstep sender.coordinator.id
      (fun id => ∀ r ∈ rounds, r.operation.id? = some id → r.SameClock) sender.store
      receiver.store := by
    rw [hsender, hreceiver]
    exact .empty
  obtain ⟨h, hack⟩ := hstart.run (p := Pair.start sender receiver others) (q := q) hk hd
    (fun r hr id hs hid => hs r hr hid) (fun reply hr => by cases hr)
  refine ⟨h.record?, fun id m hm => ?_, hack, fun id l m hl hm => ?_⟩
  · have hf := h.follows id
    rw [hm] at hf
    generalize Store.lease? _ id = slot at hf
    cases hf with
    | some hf => exact hf.source
  · have hf := h.follows id
    rw [hl, hm] at hf
    cases hf with
    | some hf => exact ⟨hf.duration, hf.times⟩

/-- A registration and a renewal reach the only peer. -/
theorem Pair.receiver_mirrors_sender_renewed :
    let record := Record.bare ⟨"web"⟩ "shop"
    let rounds := [Round.arriving 5 (.request (.register record .here) rfl),
      Round.arriving 9 (.request (.renew record.id .here) rfl)]
    let p := (Pair.start (.fresh ⟨"a", by decide⟩ 1) (.fresh ⟨"b", by decide⟩ 1) ()).run 0 .silent
      rounds
    (∀ id, p.receiver.store.record? id = p.sender.store.record? id) ∧
      p.sender.store.record? record.id = some record ∧
      ∀ l m, p.sender.store.lease? record.id = some l →
        p.receiver.store.lease? record.id = some m → m.renewedAt = l.renewedAt := by
  intro record rounds p
  have hd : ∀ r ∈ rounds, r.Delivered := by
    intro r hr n
    simp only [rounds, List.mem_cons, List.not_mem_nil, or_false] at hr
    rcases hr with rfl | rfl
    · exact ⟨5, rfl⟩
    · exact ⟨9, rfl⟩
  have hs : ∀ r ∈ rounds, r.SameClock := by
    intro r hr there h
    simp only [rounds, List.mem_cons, List.not_mem_nil, or_false] at hr
    rcases hr with rfl | rfl <;> cases h <;> rfl
  obtain ⟨hrecord, -, -, htimes⟩ := Pair.receiver_mirrors_sender .silent
    (.fresh ⟨"a", by decide⟩ 1) (.fresh ⟨"b", by decide⟩ 1) () rounds Nat.zero_lt_one rfl rfl hd
  refine ⟨hrecord, by decide +kernel, fun l m hl hm => ?_⟩
  exact ((htimes record.id l m hl hm).2 fun r hr _ => hs r hr).2

end LeaseRegistry
