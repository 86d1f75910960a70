import LeaseRegistry.Proofs.Channel.Host
import LeaseRegistry.Proofs.Replication.Lockstep
import LeaseRegistry.Proofs.Replication.Loss

/-!
# A server, one of its channels and one of its peers

A `Station` is a server with one channel, and with one peer, the receiver, that hears every call.
Operations on the channel and eviction runs come one after the other, each with all the calls that
it gives rise to; anything else may happen in between as long as it leaves the instance in question
alone (`Station.Step`). What the receiver holds of the instance follows what the server holds of it
through all of this, whatever the two hold of others (`Station.linked_operate`,
`Station.linked_evict`).
-/

namespace LeaseRegistry

/-! ## One instance at the receiver -/

namespace Receiver

variable {origin : ServerId} {fate : Nat → Fate} {c : Coordinator} {receiver : Receiver}
  {id : InstanceId}

/-- Whatever request is made, the receiver still follows the sender in what concerns an instance, if
it did so before. -/
theorem follows_perform (hall : ∀ n, ∃ there, fate n = .arrives there)
    (hc : c.store.WellFormed) (hr : receiver.coordinator.store.WellFormed)
    (h : Slot.Follows origin False (c.store.lease? id) (receiver.coordinator.store.lease? id))
    (now : Time) {r : Request} (hsource : r.source = .here) :
    let c' := (c.perform now r).2.2
    let receiver' := (c.perform now r).2.1.toList.foldl (exchange origin fate c') receiver
    c'.store.WellFormed ∧ receiver'.coordinator.store.WellFormed ∧
      Slot.Follows origin False (c'.store.lease? id)
        (receiver'.coordinator.store.lease? id) := by
  have hkeep : ∀ l ∈ c.store.lease? r.id, l.record.id = r.id := fun _ hl => hc.id_of_lease? hl
  have hwf := Coordinator.wellFormed_perform hc now r
  have hlease := Coordinator.lease?_perform hc now r id
  have hmessage := c.perform_message now r hc
  rw [hsource, if_pos (show Source.here.fansOut = true from rfl)] at hmessage
  cases hm : Slot.message? now r (c.store.lease? r.id) with
  | none =>
    have hsame : (c.perform now r).2.2.store.lease? id = c.store.lease? id := by
      rw [hlease, Slot.handle_of_silent hm]
      split
      · rename_i hid
        rw [hid]
      · rfl
    simp only [hmessage, hm, Option.toList_none, List.foldl_nil, hsame]
    exact ⟨hwf, hr, h⟩
  | some m =>
    have hid := Slot.instanceId?_of_message? hm
    simp only [hmessage, hm, Option.toList_some, List.foldl_cons, List.foldl_nil]
    obtain ⟨hwf', hexchange⟩ := exchange_spec origin fate hid hwf hr
    refine ⟨hwf, hwf', ?_⟩
    by_cases hr' : id = r.id
    · subst hr'
      obtain ⟨there, ht⟩ := hall receiver.calls
      obtain ⟨hreply, hfollows⟩ := h.handle hkeep False.elim hm
      have hack : (receiver.coordinator.receive there origin m).1 = .ack := by
        rw [Coordinator.reply_receive _ _ _ hid, hreply]
      rw [hlease, if_pos rfl, exchange_of_ack ht hack]
      simp only [Coordinator.lease?_receive hr there origin hid, if_true]
      exact hfollows
    · rw [hlease, if_neg hr', hexchange, if_neg hr']
      exact h

/-- Told that leases were evicted, the receiver lets go of those of the instance. -/
theorem lease?_foldl_evicting (hall : ∀ n, ∃ there, fate n = .arrives there)
    (hc : c.store.WellFormed) (ls : List Lease) (hr : receiver.coordinator.store.WellFormed)
    (hle : ∀ l ∈ ls, l.record.id = id →
      ∀ m, receiver.coordinator.store.lease? id = some m → m.version ≤ l.version) :
    let receiver' := (ls.map .evicting).foldl (exchange origin fate c) receiver
    receiver'.coordinator.store.WellFormed ∧
      receiver'.coordinator.store.lease? id =
        if ∃ l ∈ ls, l.record.id = id then none else receiver.coordinator.store.lease? id := by
  induction ls generalizing receiver with
  | nil => exact ⟨hr, by simp⟩
  | cons l ls ih =>
    have hid : (PeerMessage.evicting l).instanceId? = some l.record.id := rfl
    obtain ⟨hwf, hexchange⟩ := exchange_spec origin fate hid hc hr
    obtain ⟨there, ht⟩ := hall receiver.calls
    by_cases hl : l.record.id = id
    · subst hl
      obtain ⟨hstore, -⟩ := exchange_evicting origin c ht l (hle l List.mem_cons_self rfl)
      have hgone : (receiver.exchange origin fate c (.evicting l)).coordinator.store.lease?
          l.record.id = none := by
        rw [hstore, Store.lease?_put hr, if_pos rfl]
      obtain ⟨hwf', hrest⟩ := ih hwf fun l' _ _ m hm => by
        rw [hgone] at hm
        cases hm
      refine ⟨hwf', ?_⟩
      rw [List.map_cons, List.foldl_cons, hrest, hgone, ite_self,
        if_pos ⟨l, List.mem_cons_self, rfl⟩]
    · have hkept : (receiver.exchange origin fate c (.evicting l)).coordinator.store.lease? id =
          receiver.coordinator.store.lease? id := by
        rw [hexchange, if_neg (Ne.symm hl)]
      obtain ⟨hwf', hrest⟩ := ih hwf fun l' hl' hid' m hm =>
        hle l' (List.mem_cons_of_mem _ hl') hid' m (hkept ▸ hm)
      refine ⟨hwf', ?_⟩
      simp only [List.map_cons, List.foldl_cons, hrest, hkept, List.mem_cons, exists_eq_or_imp, hl,
        false_or]

/-- So it follows the sender when that makes an eviction pass. -/
theorem follows_evicting (receiver : Receiver) (hall : ∀ n, ∃ there, fate n = .arrives there)
    (hc : c.store.WellFormed) (hr : receiver.coordinator.store.WellFormed) {a a' : Store}
    {ls : List Lease} {now : Time} (he : Evicts now a ls a')
    (h : Slot.Follows origin False (a.lease? id) (receiver.coordinator.store.lease? id)) :
    let receiver' := (ls.map .evicting).foldl (exchange origin fate c) receiver
    receiver'.coordinator.store.WellFormed ∧
      Slot.Follows origin False (a'.lease? id)
        (receiver'.coordinator.store.lease? id) := by
  have hle : ∀ l ∈ ls, l.record.id = id →
      ∀ m, receiver.coordinator.store.lease? id = some m → m.version ≤ l.version := by
    intro l hl hid m hm
    obtain ⟨l', hl', rfl⟩ := he.held l hl
    rw [hid] at hl'
    rw [hl', hm] at h
    cases h with
    | some h => exact UInt64.le_of_eq h.version
  obtain ⟨hwf, hlease⟩ := lease?_foldl_evicting hall hc ls hr hle
  refine ⟨hwf, ?_⟩
  rw [hlease]
  split
  · rename_i hex
    obtain ⟨l, hl, rfl⟩ := hex
    rw [he.gone l hl]
    exact .none
  · rename_i hex
    rw [he.kept id fun l hl hid => hex ⟨l, hl, hid⟩]
    exact h

end Receiver

/-! ## What the receiver hears -/

section

variable {ε : Type} {k : Nat} {q : Peers ε} (origin : ServerId) (fate : Nat → Fate)
  (ends : Nat → Time) {s : Server} (hk : k < s.coordinator.peers) (receiver : Receiver) (others : ε)
  (now : Time)
include hk

/-- The message of a request goes through the receiver, whatever the other peers do. -/
theorem Channel.Host.handle_telling_among (r : Request) :
    ∃ others', ((telling (.among k (Receiver.link origin fate ends) q)).handle
        (s, receiver, others) now r).2 =
      ({ s with coordinator := (s.coordinator.perform now r).2.2 },
        (s.coordinator.perform now r).2.1.toList.foldl
          (Receiver.exchange origin fate (s.coordinator.perform now r).2.2) receiver, others') := by
  have hpeers : k < (s.coordinator.perform now r).2.2.peers := hk
  simp only [telling, Server.run_request]
  generalize s.coordinator.perform now r = res at hpeers ⊢
  obtain ⟨a, message, c⟩ := res
  cases message with
  | none => exact ⟨others, rfl⟩
  | some m =>
    have hheard := Peers.deliverAll_among (p := Receiver.link origin fate ends) (q := q) c m
      List.nodup_range (List.mem_range.mpr hpeers) (receiver, others) now
    rw [Receiver.deliver_link] at hheard
    simp only [Option.toList_some, List.foldl_cons, List.foldl_nil, ← hheard]
    exact ⟨_, rfl⟩

/-- So do the messages about the leases that an eviction run evicted. -/
theorem Server.run_evict (hidle : s.evicting = false) :
    ∃ now' others', evict.run (.among k (Receiver.link origin fate ends) q) now s
        (receiver, others) =
      (some (s.evictionPass now).1, now', { (s.evictionPass now).2 with evicting := false },
        ((s.evictionPass now).1.leases.map .evicting).foldl
          (Receiver.exchange origin fate (s.evictionPass now).2.coordinator) receiver,
        others') := by
  obtain ⟨now', others', hrun⟩ := Pair.run_announceAll (q := q) origin fate ends
    (s := { (s.evictionPass now).2 with evicting := true }) hk
    ((s.evictionPass now).1.leases.map .evicting)
    (.look fun _ s' => .put { s' with evicting := false } (.done (some (s.evictionPass now).1)))
    now receiver others
  refine ⟨now', others', ?_⟩
  simp only [evict, Activity.run, hidle, Bool.false_eq_true, ↓reduceIte]
  rw [hrun]
  rfl

end

/-! ## Stations -/

structure Station (ε : Type) where
  server : Server
  channel : Channel
  receiver : Coordinator
  others : ε

/-- How long calls take. -/
structure Latency where
  arrives : Nat → Time
  ends : Nat → Time

namespace Station

variable {ε : Type}

def fate (l : Latency) (n : Nat) : Fate := .arrives (l.arrives n)

section

variable (k : Nat) (q : Peers ε) (s : Station ε)

/-- The receiver, which is peer number `k` of the server, and the others. -/
def peers (l : Latency) : Peers (Receiver × ε) :=
  .among k (Receiver.link s.server.coordinator.id (fate l) l.ends) q

def operate (x : Channel.Inbound) (now : Time) (l : Latency) : Station ε :=
  let (_, channel, desk, server, receiver, others) :=
    s.channel.operate (Channel.Host.telling (s.peers k q l)).toBackend now x s.server.desk
      (s.server, ⟨s.receiver, 0, []⟩, s.others)
  ⟨{ server with desk }, channel, receiver.coordinator, others⟩

def disconnect (now : Time) : Station ε :=
  let (channel, desk) := s.channel.connectionClosed s.server.desk now
  { s with server := { s.server with desk }, channel }

def evict (now : Time) (l : Latency) : Option EvictionOutcome × Station ε :=
  let (outcome, _, server, receiver, others) :=
    Server.evict.run (s.peers k q l) now s.server (⟨s.receiver, 0, []⟩, s.others)
  (outcome, ⟨server, s.channel, receiver.coordinator, others⟩)

end

/-- Whatever happened between `s` and `s'`, such as operations on other channels or messages of
other peers, it had nothing to do with the instance or the channel. -/
structure LeavesAlone (id : InstanceId) (s s' : Station ε) : Prop where
  channel : s'.channel =
    { s.channel with reachable := s'.channel.reachable, replies := s'.channel.replies }
  identity : s'.server.coordinator.id = s.server.coordinator.id
  peers : s'.server.coordinator.peers = s.server.coordinator.peers
  wellFormed : s.server.store.WellFormed → s'.server.store.WellFormed
  wellFormedThere : s.receiver.store.WellFormed → s'.receiver.store.WellFormed
  lease : s'.server.store.lease? id = s.server.store.lease? id
  leaseThere : s'.receiver.store.lease? id = s.receiver.store.lease? id
  entries : ∀ e, e.record.id = id →
    (e ∈ s'.server.desk.queue.entries ↔ e ∈ s.server.desk.queue.entries)

/-- What happens while the instance is neither unregistered nor written by anyone but the channel,
and the connection of the channel stays as it is. -/
inductive Step (k : Nat) (q : Peers ε) (id : InstanceId) (s : Station ε) : Station ε → Prop where
  | operate (x : Channel.Inbound) (now : Time) (l : Latency)
      (stays : x.message? ≠ some .unregister) : Step k q id s (s.operate k q x now l)
  | evict (now : Time) (l : Latency) : Step k q id s (s.evict k q now l).2
  | aside {s' : Station ε} (alone : s.LeavesAlone id s') : Step k q id s s'

end Station

/-! ## The receiver follows -/

/-- What peer number `k`, the receiver, holds of the instance follows what the server holds. -/
structure Server.Linked (k : Nat) (id : InstanceId) (s : Server) (receiver : Coordinator) :
    Prop where
  wellFormed : s.store.WellFormed
  wellFormedThere : receiver.store.WellFormed
  known : k < s.coordinator.peers
  follows : Slot.Follows s.coordinator.id False (s.store.lease? id) (receiver.store.lease? id)

namespace Station

variable {ε : Type} {k : Nat} {q : Peers ε} {id : InstanceId} {s s' : Station ε}

theorem arrives_fate (l : Latency) (n : Nat) : ∃ there, fate l n = .arrives there := ⟨_, rfl⟩

/-- Each call of the operation preserves what the receiver is to the server. -/
theorem linked_operate (h : s.server.Linked k id s.receiver) (x : Channel.Inbound) (now : Time)
    (l : Latency) :
    let s' := s.operate k q x now l
    s'.server.Linked k id s'.receiver := by
  let P (g : Server × Receiver × ε) : Prop :=
    g.1.Linked k id g.2.1.coordinator ∧ g.1.coordinator.id = s.server.coordinator.id
  have hcall : ∀ g (call : Channel.Call), P g →
      P ((Channel.Host.telling (s.peers k q l)).handle g now call.request).2 := by
    rintro ⟨server, receiver, others⟩ call ⟨⟨hs, hr, hk, hfollows⟩, hid⟩
    have hsource : call.request.source = .here := by cases call <;> rfl
    obtain ⟨others', heq⟩ := Channel.Host.handle_telling_among (q := q) s.server.coordinator.id
      (fate l) l.ends hk receiver others now call.request
    rw [hid] at hfollows
    obtain ⟨hs', hr', hfollows'⟩ :=
      Receiver.follows_perform (arrives_fate l) hs hr hfollows now hsource
    rw [← hid] at hfollows'
    rw [peers, heq]
    exact ⟨⟨hs', hr', hk, hid ▸ hfollows'⟩, hid⟩
  obtain ⟨⟨hs, hr, hk, hfollows⟩, -⟩ := Channel.operate_preserves (P := P)
    (g := (s.server, ⟨s.receiver, 0, []⟩, s.others)) hcall x s.channel s.server.desk ⟨h, rfl⟩
  exact ⟨hs, hr, hk, hfollows⟩

/-- An eviction run does nothing while another one is going on. Otherwise it makes a pass, and the
receiver hears of the evicted leases. -/
theorem evict_cases (hk : k < s.server.coordinator.peers) (now : Time) (l : Latency) :
    s.evict k q now l = (none, s) ∨
      ∃ others, s.evict k q now l = (some (s.server.evictionPass now).1,
        ⟨{ (s.server.evictionPass now).2 with evicting := false }, s.channel,
          (((s.server.evictionPass now).1.leases.map .evicting).foldl
            (Receiver.exchange s.server.coordinator.id (fate l)
              (s.server.evictionPass now).2.coordinator) ⟨s.receiver, 0, []⟩).coordinator,
          others⟩) := by
  cases hidle : s.server.evicting with
  | true =>
    refine .inl ?_
    simp only [evict, Server.evict, Activity.run, hidle, ↓reduceIte]
  | false =>
    obtain ⟨now', others', hrun⟩ := Server.run_evict (q := q) s.server.coordinator.id (fate l)
      l.ends hk ⟨s.receiver, 0, []⟩ s.others now hidle
    refine .inr ⟨others', ?_⟩
    rw [evict, peers, hrun]

theorem linked_evict (h : s.server.Linked k id s.receiver) (now : Time) (l : Latency) :
    let s' := (s.evict k q now l).2
    s'.server.Linked k id s'.receiver := by
  rcases evict_cases (q := q) h.known now l with heq | ⟨others, heq⟩
  · rw [heq]
    exact h
  · have he := evicts_evictionPass h.wellFormed s.server.coordinator.registry.preservation
      s.server.desk.queue now
    obtain ⟨hr, hfollows⟩ := Receiver.follows_evicting ⟨s.receiver, 0, []⟩ (arrives_fate l)
      (c := (s.server.evictionPass now).2.coordinator) he.wellFormed h.wellFormedThere he h.follows
    rw [heq]
    exact ⟨he.wellFormed, hr, h.known, hfollows⟩

theorem LeavesAlone.linked (ha : s.LeavesAlone id s') (h : s.server.Linked k id s.receiver) :
    s'.server.Linked k id s'.receiver := by
  refine ⟨ha.wellFormed h.wellFormed, ha.wellFormedThere h.wellFormedThere, ha.peers ▸ h.known, ?_⟩
  rw [ha.lease, ha.leaseThere, ha.identity]
  exact h.follows

end Station

end LeaseRegistry
