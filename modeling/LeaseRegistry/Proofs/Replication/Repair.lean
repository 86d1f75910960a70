import LeaseRegistry.Proofs.Replication.Lockstep
import LeaseRegistry.Proofs.Replication.Loss

/-!
# Repairs

An update tells a peer only what changed. A peer that lacks the instance, or holds another record of
it than the update starts from, says so and is sent the whole record. Whichever way it goes, once
the calls have arrived the receiver holds the sender's new record, unless what it held was no older
(`Slot.record?_exchange_update`, `Slot.exchange_update_of_newer`). `Pair.update_repairs` is the same
for a whole round.
-/

namespace LeaseRegistry

/-- The message about an update that replaces the record of a lease. -/
def PeerMessage.updating (l : Lease) (record : Record) : PeerMessage :=
  .update record.id l.version record.version (record.diff l.record)

/-- What an update of the record `previous` starts from at a receiver that it brings up to date: no
record, the same one, or an older one at another version. -/
inductive Slot.Behind (previous next : Record) : Slot → Prop where
  | absent : Behind previous next none
  | same {x : Lease} (h : x.record = previous) : Behind previous next (some x)
  | other {x : Lease} (older : x.version < next.version) (differs : x.version ≠ previous.version) :
    Behind previous next (some x)

namespace Slot

variable {origin : ServerId} {first second now : Time} {l : Lease} {record : Record} {b : Slot}

/-- An update that takes effect replaces an older record. -/
theorem updated_of_applied {deltas : List Delta} {source : Source} {a : Slot}
    (h : (handle now (.update record deltas source) a).1.isApplied = true) :
    ∃ l, a = some l ∧ record.Valid ∧ l.version < record.version ∧
      (handle now (.update record deltas source) a).2 = some (l.replace record source now) ∧
      message? now (.update record deltas source) a = some (.updating l record) := by
  have he := effect_handle now (.update record deltas source) a
  generalize message? now (.update record deltas source) a = message at he ⊢
  generalize handle now (.update record deltas source) a = res at he h ⊢
  cases he with
  | refused hn => exact absurd h (by rw [hn]; exact Bool.false_ne_true)
  | @updated _ _ _ l valid newer => exact ⟨l, rfl, valid, newer, rfl, rfl⟩

/-- A record that is valid and newer than what is stored is stored. -/
theorem record?_register (valid : record.Valid) (hnewer : ∀ x ∈ b, x.version < record.version)
    (source : Source) : (register record source now b).2.record? = some record := by
  rw [register_of_valid valid]
  cases b with
  | none => rfl
  | some x =>
    have hn : ¬record.version ≤ x.version := UInt64.not_le.mpr (hnewer x rfl)
    simp only [write, if_neg hn]
    rfl

/-! ## The ways of an update -/

theorem receive_update_of_same (hnewer : l.version < record.version) (valid : record.Valid)
    (hid : record.id = l.record.id) {x : Lease} (h : x.record = l.record) :
    receive origin now (.updating l record) (some x) =
      (.ack, some (x.replace record (.replicated origin) now)) := by
  have hversion : x.version = l.version := congrArg Record.version h
  have hn : ¬record.version ≤ x.version := by
    rw [hversion]
    exact UInt64.not_le.mpr hnewer
  have hnext : x.record.applyDeltas (record.diff l.record) record.version = record := by
    rw [h, Record.applyDeltas_diff _ _ hid]
  simp only [PeerMessage.updating, receive, updateWithDeltas, if_neg hn,
    if_neg (not_not_intro hversion), hnext, show record.fault? = none from valid]
  rfl

/-- An older record at another version is no base for the update. -/
theorem receive_update_of_other {x : Lease} (older : x.version < record.version)
    (differs : x.version ≠ l.version) :
    receive origin now (.updating l record) (some x) = (.stale record.id, some x) := by
  simp only [PeerMessage.updating, receive, updateWithDeltas, if_neg (UInt64.not_le.mpr older),
    if_pos differs]
  rfl

theorem receive_update_of_newer {x : Lease} (h : record.version ≤ x.version) :
    receive origin now (.updating l record) (some x) = (.ack, some x) := by
  simp only [PeerMessage.updating, receive, updateWithDeltas, if_pos h]
  rfl

/-- Whatever of these the receiver starts from, it ends with the sender's record. -/
theorem record?_exchange_update (hnewer : l.version < record.version) (valid : record.Valid)
    (hid : record.id = l.record.id) (hb : Behind l.record record b) :
    (exchange origin (.arrives first) (.arrives second) (some record) (.updating l record)
      b).record? = some record := by
  cases hb with
  | absent =>
    have hcall : call origin (.arrives first) (.updating l record) none =
        (some (.unknownInstance record.id), none) := rfl
    simp only [exchange, hcall]
    exact record?_register valid (fun x hx => by cases hx) (.replicated origin)
  | @same x h =>
    have hcall : call origin (.arrives first) (.updating l record) (some x) =
        (some .ack, some (x.replace record (.replicated origin) first)) := by
      rw [call, receive_update_of_same hnewer valid hid h]
    simp only [exchange, hcall]
    rfl
  | @other x older differs =>
    have hcall : call origin (.arrives first) (.updating l record) (some x) =
        (some (.stale record.id), some x) := by
      rw [call, receive_update_of_other older differs]
    simp only [exchange, hcall]
    refine record?_register valid (fun y hy => ?_) (.replicated origin)
    cases hy
    exact older

theorem exchange_update_of_newer {x : Lease} (record? : Option Record)
    (h : record.version ≤ x.version) (second : Fate) :
    exchange origin (.arrives first) second record? (.updating l record) (some x) = some x := by
  have hcall : call origin (.arrives first) (.updating l record) (some x) =
      (some .ack, some x) := by
    rw [call, receive_update_of_newer h]
  simp only [exchange, hcall]
  rfl

end Slot

namespace Pair

variable {ε : Type} {k : Nat} {p : Pair ε} {record : Record} {deltas : List Delta} {now : Time}

/-- An update that takes effect leaves its record at the sender, and the receiver deals with one
message about it. -/
theorem lease?_heard_update (hp : p.Linked k)
    (happlied : (p.sender.coordinator.perform now (.update record deltas .here)).1.isApplied = true)
    (fate : Nat → Fate) (ends : Nat → Time) :
    ∃ l, p.sender.store.lease? record.id = some l ∧ record.Valid ∧ l.version < record.version ∧
      (p.sender.operate now (.request (.update record deltas .here) rfl)).1.store.record?
        record.id = some record ∧
      ∀ id, (p.heard ⟨.request (.update record deltas .here) rfl, now, fate,
          ends⟩).coordinator.store.lease? id =
        if id = record.id then Slot.exchange p.sender.coordinator.id (fate 0) (fate 1)
          (some record) (.updating l record) (p.receiver.store.lease? record.id)
        else p.receiver.store.lease? id := by
  let request : Request := .update record deltas .here
  let c := (p.sender.coordinator.perform now request).2.2
  rw [p.sender.coordinator.perform_answer] at happlied
  obtain ⟨l, hl, valid, hnewer, hslot, hmessage⟩ := Slot.updated_of_applied happlied
  have hsent : (p.sender.coordinator.perform now request).2.1 = some (.updating l record) :=
    (p.sender.coordinator.perform_message now request hp.sender).trans hmessage
  have hnext : c.store.record? record.id = some record := by
    have hlease := Coordinator.lease?_perform hp.sender now request record.id
    rw [if_pos (show record.id = request.id from rfl)] at hlease
    rw [Store.record?_eq, hlease]
    exact congrArg Slot.record? hslot
  have hheard : (p.heard ⟨.request request rfl, now, fate, ends⟩).coordinator =
      ((Receiver.mk p.receiver 0 []).exchange p.sender.coordinator.id fate c
        (.updating l record)).coordinator := by
    simp only [heard, Server.operate, hsent, Option.toList_some, List.foldl_cons, List.foldl_nil]
    rfl
  obtain ⟨-, hexchange⟩ := Receiver.exchange_spec (r := ⟨p.receiver, 0, []⟩)
    p.sender.coordinator.id fate (show (PeerMessage.updating l record).instanceId? = _ from rfl)
    (Coordinator.wellFormed_perform hp.sender now request) hp.receiver
  refine ⟨l, hl, valid, hnewer, hnext, fun id => ?_⟩
  rw [hheard, hexchange, hnext]

/-- An update that takes effect replaces an older record of the sender. Once it and the repair that
the receiver asks for have arrived, a receiver that was behind holds the new record, and one that
held a record no older keeps its lease as it was. No other lease of the receiver changes. -/
theorem update_repairs (hp : p.Linked k) (q : Peers ε) {r : Round}
    (hr : r.operation = .request (.update record deltas .here) rfl) (hd : r.Delivered)
    (happlied : (p.sender.coordinator.perform r.now
      (.update record deltas .here)).1.isApplied = true) :
    ∃ previous, p.sender.store.record? record.id = some previous ∧
      previous.version < record.version ∧
      let p' := p.round k q r
      p'.sender.store.record? record.id = some record ∧
      (Slot.Behind previous record (p.receiver.store.lease? record.id) →
        p'.receiver.store.record? record.id = some record) ∧
      (∀ held, p.receiver.store.record? record.id = some held → record.version ≤ held.version →
        p'.receiver.store.lease? record.id = p.receiver.store.lease? record.id) ∧
      ∀ id, id ≠ record.id → p'.receiver.store.lease? id = p.receiver.store.lease? id := by
  obtain ⟨operation, now, fate, ends⟩ := r
  cases hr
  obtain ⟨l, hl, valid, hnewer, hsender, hreceiver⟩ := lease?_heard_update hp happlied fate ends
  have hid : record.id = l.record.id := (hp.sender.id_of_lease? hl).symm
  obtain ⟨first, hfirst⟩ : ∃ there, fate 0 = .arrives there := hd 0
  obtain ⟨second, hsecond⟩ : ∃ there, fate 1 = .arrives there := hd 1
  have hself := hreceiver record.id
  rw [if_pos rfl, hfirst, hsecond] at hself
  obtain ⟨others, hround⟩ :=
    p.round_eq (q := q) ⟨.request (.update record deltas .here) rfl, now, fate, ends⟩ hp.peer
  refine ⟨l.record, congrArg Slot.record? hl, hnewer, ?_⟩
  rw [hround]
  refine ⟨hsender, fun hbehind => ?_, fun held hheld hnotNewer => ?_, fun id hother => ?_⟩
  · have hrecord : Slot.record? ((p.heard ⟨.request (.update record deltas .here) rfl, now, fate,
        ends⟩).coordinator.store.lease? record.id) = some record := by
      rw [hself]
      exact Slot.record?_exchange_update hnewer valid hid hbehind
    exact hrecord
  · obtain ⟨x, hx, rfl⟩ := Option.map_eq_some_iff.mp hheld
    rw [hx, Slot.exchange_update_of_newer (some record) hnotNewer (.arrives second)] at hself
    exact hself.trans hx.symm
  · exact (hreceiver id).trans (if_neg hother)

/-- The receiver holds another record than the update starts from, and asks for the whole one. -/
theorem update_repairs_stale :
    let web := Record.bare ⟨"web"⟩ "shop"
    let sender := ((Server.fresh ⟨"a", by decide⟩ 1).operate 5
      (.request (.register (web.atVersion 2) .here) rfl)).1
    let receiver := ((Coordinator.fresh ⟨"b", by decide⟩ 1).perform 5
      (.register (web.atVersion 1) .here)).2.2
    let record := { web.atVersion 3 with app := "store" }
    let p' := (Pair.mk sender receiver [] ()).round 0 .silent
      (.arriving 6 (.request (.update record [] .here) rfl))
    p'.replies = [.stale ⟨"web"⟩, .ack] ∧ p'.receiver.store.record? ⟨"web"⟩ = some record := by
  intro web sender receiver record p'
  have hfresh : ∀ id, (Coordinator.fresh id 1).store.WellFormed := fun _ =>
    Store.wellFormed_empty
  have hlinked : (Pair.mk sender receiver [] ()).Linked 0 :=
    ⟨Nat.zero_lt_one, Server.wellFormed_operate (s := .fresh _ 1) (hfresh _) 5 _,
      Coordinator.wellFormed_perform (hfresh ⟨"b", by decide⟩) 5
        (.register (web.atVersion 1) .here)⟩
  obtain ⟨previous, hprevious, -, -, hbehind, -, -⟩ := update_repairs hlinked .silent
    (r := .arriving 6 (.request (.update record [] .here) rfl)) rfl (fun _ => ⟨6, rfl⟩)
    (by decide +kernel)
  have hheld : sender.store.record? ⟨"web"⟩ = some (web.atVersion 2) := by decide +kernel
  obtain rfl := Option.some.inj (hheld.symm.trans hprevious)
  have hlease : receiver.store.lease? ⟨"web"⟩ = some (.grant (web.atVersion 1) .here 5) := by
    decide +kernel
  refine ⟨by decide +kernel, hbehind ?_⟩
  change Slot.Behind _ _ (receiver.store.lease? ⟨"web"⟩)
  rw [hlease]
  exact .other (by decide) (by decide)

end Pair

end LeaseRegistry
