import LeaseRegistry.Eviction.Pass
import LeaseRegistry.Proofs.Replication.Slot
import LeaseRegistry.Proofs.Store.Mutation

/-!
# How high versions get

A write puts in no other version than it names, and nothing else raises a version
(`Store.UpTo.mutate`). A write is superseded exactly if the version it names is not past the stored
one, so what counts is whether there are versions left to name.
-/

namespace LeaseRegistry

variable {n : Nat}

def Mutation.version? : Mutation → Option Version
  | register record _ | update record _ => some record.version
  | updateWithDeltas _ _ version _ _ | statusUpdate _ _ version _ => some version
  | unregister .. | renew _ | evictIfExpired _ | evictIfVersion .. => none

theorem Mutation.version_of_entry? {m : Mutation} {now : Time} {previous : Record} {e : Entry}
    (h : m.entry? now previous = some e) : m.version? = some e.version := by
  cases m <;> cases h <;> rfl

namespace Slot

/-- A mutation leaves no other version behind than the slot had or the mutation writes. -/
theorem Step.version_le {now : Time} {m : Mutation} {slot : Slot} {res : Response × Slot}
    (h : Step now m slot res) (hslot : ∀ l ∈ slot, l.version.toNat ≤ n)
    (hm : ∀ v ∈ m.version?, v.toNat ≤ n) : ∀ l ∈ res.2, l.version.toNat ≤ n := by
  cases h with
  | refused => exact hslot
  | added =>
    rintro _ ⟨⟩
    exact hm _ rfl
  | wrote entry =>
    rintro _ ⟨⟩
    exact hm _ (Mutation.version_of_entry? entry)
  | @renewed id l =>
    rintro _ ⟨⟩
    exact hslot l rfl
  | removed | expired | matched => nofun

/-- Only the stored version has a write superseded. -/
theorem write_superseded_iff {absent : Except StoreError Change × Slot} {record : Record}
    {source : Source} {now : Time} {slot : Slot} (habsent : absent.1 ≠ .ok .superseded) :
    .ofStore (write absent record source now slot).1 = Answer.changed .superseded ↔
      (∀ e, .ofStore (write absent record source now slot).1 ≠ Answer.failed e) ∧
        ∃ v, slot.version? = some v ∧ record.version ≤ v := by
  cases slot with
  | none =>
    obtain ⟨answer, left⟩ := absent
    cases answer <;> simp_all [write, version?, Answer.ofStore]
  | some l =>
    simp only [write]
    split <;> simp_all [version?, Answer.ofStore]

end Slot

namespace Store

variable {s : Store} {id : InstanceId}

/-- No version in the store is past `n`. -/
def UpTo (n : Nat) (s : Store) : Prop := ∀ p ∈ s.slots, p.2.version.toNat ≤ n

theorem upTo_empty (n : Nat) : UpTo n .empty := fun _ hp => absurd hp List.not_mem_nil

theorem UpTo.mono {m : Nat} (h : s.UpTo n) (hle : n ≤ m) : s.UpTo m :=
  fun p hp => Nat.le_trans (h p hp) hle

theorem UpTo.lease? (h : s.UpTo n) : ∀ l ∈ s.lease? id, l.version.toNat ≤ n :=
  fun _ hl => h _ (mem_of_lookup hl)

theorem UpTo.version? (h : s.UpTo n) {v : Version} (hv : s.version? id = some v) :
    v.toNat ≤ n := by
  obtain ⟨l, hl, rfl⟩ := Option.map_eq_some_iff.mp hv
  exact h.lease? l hl

theorem UpTo.record? (h : s.UpTo n) {r : Record} (hr : s.record? id = some r) :
    r.version.toNat ≤ n := by
  obtain ⟨l, hl, rfl⟩ := Option.map_eq_some_iff.mp hr
  exact h.lease? l hl

theorem UpTo.put (h : s.UpTo n) {slot : Slot} (hslot : ∀ l ∈ slot, l.version.toNat ≤ n) :
    (s.put id slot).UpTo n := by
  have hassign : ∀ l ∈ slot, ∀ p ∈ assign id l s.slots, p.2.version.toNat ≤ n := by
    intro l hl p hp
    rcases mem_assign hp with rfl | hp
    · exact hslot l hl
    · exact h p hp
  unfold Store.put
  split
  case h_1 => exact h
  case h_2 | h_3 => exact hassign _ rfl
  case h_4 => exact fun p hp => h p ((erase_sublist id s.slots).subset hp)

theorem UpTo.mutate (h : s.UpTo n) (now : Time) {m : Mutation}
    (hm : ∀ v ∈ m.version?, v.toNat ≤ n) : (s.mutate now m).2.UpTo n := by
  rw [mutate_eq_onSlot]
  exact h.put ((Slot.step_mutate now m _).version_le h.lease? hm)

theorem UpTo.mutate_of_none (h : s.UpTo n) (now : Time) {m : Mutation}
    (hm : m.version? = none) : (s.mutate now m).2.UpTo n := by
  refine h.mutate now fun v hv => ?_
  rw [hm] at hv
  cases hv

theorem UpTo.evictEach {α : Type} {evict : Store → α → Option Lease × Store}
    (hevict : ∀ (s : Store) (a : α), s.UpTo n → (evict s a).2.UpTo n) (h : s.UpTo n)
    (as : List α) : (s.evictEach evict as).2.UpTo n := by
  induction as generalizing s with
  | nil => exact h
  | cons a as ih => exact ih (hevict s a h)

theorem UpTo.evictionPass (h : s.UpTo n) (p : Preservation) (q : EvictionQueue) (now : Time) :
    (LeaseRegistry.evictionPass s p q now).2.1.UpTo n := by
  have hexpired : ∀ (s : Store) (id : InstanceId), s.UpTo n → (s.evictIfExpired id now).2.UpTo n :=
    fun s id h => h.mutate_of_none now (m := .evictIfExpired id) rfl
  have hqueued : ∀ (s : Store) (e : QueuedEviction), s.UpTo n →
      (s.evictIfVersion e.record.id e.record.version now).2.UpTo n :=
    fun s e h => h.mutate_of_none now (m := .evictIfVersion e.record.id e.record.version) rfl
  unfold LeaseRegistry.evictionPass evictionPassOver
  simp only
  split
  · exact h
  · split
    · exact (h.evictEach hexpired _).evictEach hqueued _
    · exact h

end Store

/-! ## Requests -/

/-- The version of a write that a request names. -/
def Request.named? : Request → Option Version
  | register record _ | update record _ _ => some record.version
  | unregister .. | statusUpdate .. | renew .. => none

/-- The version that a request writes into a store. -/
def Request.version? (s : Store) : Request → Option Version
  | statusUpdate id _ _ => (s.version? id).map (· + 1)
  | r => r.named?

def PeerMessage.version? : PeerMessage → Option Version
  | register record => some record.version
  | update _ _ version _ | statusUpdate _ _ version => some version
  | unregister .. | heartbeat _ | fetchSnapshot => none

theorem Request.version?_of_named (r : Request) (s : Store) {w : Version}
    (h : r.named? = some w) : r.version? s = some w := by
  cases r <;> first | exact h | cases h

/-- One more is never more than that, since it may also be zero. -/
theorem toNat_succ_le (v : Version) : (v + 1).toNat ≤ v.toNat + 1 := by
  rw [UInt64.toNat_add]
  exact Nat.mod_le _ _

/-- One past what is stored, or past `v` if nothing is. -/
theorem Store.UpTo.succ_le {s : Store} (h : s.UpTo n) {id : InstanceId} {v : Version}
    (hv : v.toNat ≤ n) : ((s.version? id).getD v + 1).toNat ≤ n + 1 := by
  refine Nat.le_trans (toNat_succ_le _) (Nat.succ_le_succ ?_)
  cases hs : s.version? id with
  | none => exact hv
  | some stored => exact h.version? hs

/-- A status update is at most one past what is stored. -/
theorem Store.UpTo.requested {s : Store} (h : s.UpTo n) {r : Request}
    (hr : ∀ v ∈ r.named?, v.toNat ≤ n + 1) : ∀ v ∈ r.version? s, v.toNat ≤ n + 1 := by
  cases r with
  | register | update | unregister | renew => exact hr
  | statusUpdate id status source =>
    intro v hv
    obtain ⟨stored, hstored, rfl⟩ := Option.map_eq_some_iff.mp hv
    exact Nat.le_trans (toNat_succ_le stored) (Nat.succ_le_succ (h.version? hstored))

namespace Registry

variable {g : Registry}

theorem upTo_handle (h : g.store.UpTo n) (now : Time) {r : Request}
    (hr : ∀ v ∈ r.version? g.store, v.toNat ≤ n) : (g.handle now r).2.store.UpTo n := by
  cases r with
  | register record source => exact h.mutate now (m := .register record source) hr
  | update record deltas source => exact h.mutate now (m := .update record source) hr
  | unregister id version source => exact h.mutate_of_none now (m := .unregister id version) rfl
  | statusUpdate id status source =>
    simp only [handle, statusUpdate]
    cases hv : g.store.version? id with
    | none => exact h
    | some version =>
      refine h.mutate now (m := .statusUpdate id status (version + 1) source) fun v hmem => hr v ?_
      rwa [Request.version?, hv]
  | renew id source => exact h.mutate_of_none now (m := .renew id) rfl

theorem upTo_adopt (h : g.store.UpTo n) (origin : ServerId) (now : Time) {records : List Record}
    (hrecords : ∀ r ∈ records, r.version.toNat ≤ n) :
    (g.adopt origin now records).2.store.UpTo n := by
  induction records generalizing g with
  | nil => exact h
  | cons record records ih =>
    have hfirst := h.mutate now (m := .register record (.replicated origin)) fun v hv => by
      cases hv
      exact hrecords record List.mem_cons_self
    exact ih (g := (g.register record (.replicated origin) now).2) hfirst fun r hr =>
      hrecords r (List.mem_cons_of_mem _ hr)

/-- A write is superseded exactly if its version is not past the one that is stored, and nothing
else is wrong with it. -/
theorem superseded_iff {now : Time} {r : Request} {w : Version}
    (hr : r.version? g.store = some w) :
    (g.handle now r).1 = .changed .superseded ↔
      (∀ e, (g.handle now r).1 ≠ .failed e) ∧ ∃ v, g.store.version? r.id = some v ∧ w ≤ v := by
  have hanswer : (g.handle now r).1 = (Slot.handle now r (g.store.lease? r.id)).1 :=
    congrArg Prod.fst (g.handle_eq_onSlot now r)
  rw [hanswer, Store.version?_eq]
  cases r with
  | register record source =>
    cases hr
    by_cases hv : record.Valid
    · simp only [Slot.handle, Slot.register_of_valid hv]
      exact Slot.write_superseded_iff (by rintro ⟨⟩)
    · obtain ⟨e, he⟩ := Slot.register_of_not_valid hv source now (g.store.lease? record.id)
      simp [Slot.handle, Request.id, he, Answer.ofStore]
  | update record deltas source =>
    cases hr
    by_cases hv : record.Valid
    · simp only [Slot.handle, Slot.update_of_valid hv]
      exact Slot.write_superseded_iff (by rintro ⟨⟩)
    · obtain ⟨e, he⟩ := Slot.update_of_not_valid hv source now (g.store.lease? record.id)
      simp [Slot.handle, Request.id, he, Answer.ofStore]
  | statusUpdate id status source =>
    obtain ⟨v, hv, rfl⟩ := Option.map_eq_some_iff.mp hr
    obtain ⟨l, hl, rfl⟩ := Option.map_eq_some_iff.mp hv
    simp only [Slot.handle, Request.id, hl, Slot.version?, Option.map_some, Slot.statusUpdate]
    split <;> simp_all [Answer.ofStore]
  | unregister | renew => cases hr

theorem not_superseded {now : Time} {r : Request} {w : Version}
    (hr : r.version? g.store = some w) (newer : ∀ v, g.store.version? r.id = some v → v < w) :
    (g.handle now r).1 ≠ .changed .superseded := by
  intro h
  obtain ⟨-, v, hv, hle⟩ := (superseded_iff hr).mp h
  exact UInt64.not_le.mpr (newer v hv) hle

end Registry

namespace Coordinator

variable {c : Coordinator}

theorem upTo_receive (h : c.registry.store.UpTo n) (now : Time) (origin : ServerId)
    {m : PeerMessage} (hm : ∀ v ∈ m.version?, v.toNat ≤ n) :
    (c.receive now origin m).2.registry.store.UpTo n := by
  cases m with
  | register record => exact h.mutate now (m := .register record (.replicated origin)) hm
  | update id base version deltas =>
    exact h.mutate now (m := .updateWithDeltas id base version deltas (.replicated origin)) hm
  | unregister id version => exact h.mutate_of_none now (m := .unregister id version) rfl
  | statusUpdate id status version =>
    exact h.mutate now (m := .statusUpdate id status version (.replicated origin)) hm
  | heartbeat id => exact h.mutate_of_none now (m := .renew id) rfl
  | fetchSnapshot => exact h

end Coordinator

end LeaseRegistry
