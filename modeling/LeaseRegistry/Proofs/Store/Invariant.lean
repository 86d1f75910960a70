import LeaseRegistry.Proofs.Store.Listing
import LeaseRegistry.Proofs.Store.Mutation

/-!
# What holds of every store

`Store.Sound` is what every mutation preserves: the store is well-formed and its leases are sound.
A delta update is validated only after it was applied and a status update is never validated, and
still no invalid record gets into a store (`Store.invariant_after_run`).
-/

namespace LeaseRegistry

structure Lease.Sound (l : Lease) : Prop where
  valid : l.record.Valid
  duration : l.duration = l.record.lease.duration
  notEvicted : l.evictedAt = none
  ordered : l.registeredAt ≤ l.renewedAt

namespace Lease

theorem renewedAt_renew (l : Lease) (now : Time) :
    (l.renew now).renewedAt = if l.renewedAt ≤ now then now else l.renewedAt := rfl

/-- A renewal takes a lease to the later of two times. -/
theorem le_renewedAt_renew (l : Lease) (now : Time) :
    l.renewedAt ≤ (l.renew now).renewedAt ∧ now ≤ (l.renew now).renewedAt := by
  rw [renewedAt_renew]
  split
  · exact ⟨‹_›, UInt64.le_refl now⟩
  · exact ⟨UInt64.le_refl _, UInt64.le_of_lt (UInt64.not_le.mp ‹_›)⟩

namespace Sound

variable {l : Lease}

theorem grant {record : Record} (h : record.Valid) (source : Source) (now : Time) :
    (Lease.grant record source now).Sound :=
  ⟨h, rfl, rfl, UInt64.le_refl now⟩

theorem renew (h : l.Sound) (now : Time) : (l.renew now).Sound :=
  ⟨h.valid, h.duration, h.notEvicted, UInt64.le_trans h.ordered (l.le_renewedAt_renew now).1⟩

theorem replace (h : l.Sound) {record : Record} (hv : record.Valid) (source : Source)
    (now : Time) : (l.replace record source now).Sound :=
  ⟨hv, rfl, h.notEvicted, UInt64.le_trans h.ordered (l.le_renewedAt_renew now).1⟩

end Sound

end Lease

/-- The lease in the slot, if there is one, is sound. -/
def Slot.Sound (slot : Slot) : Prop := ∀ l ∈ slot, l.Sound

theorem Slot.Sound.mutate {slot : Slot} (h : slot.Sound) (now : Time) (m : Mutation) :
    Slot.Sound (slot.mutate now m).2 := by
  have hstep := Slot.step_mutate now m slot
  generalize slot.mutate now m = res at hstep ⊢
  cases hstep with
  | refused => exact h
  | added valid =>
    rintro l ⟨⟩
    exact .grant valid ..
  | @wrote _ l e entry valid newer =>
    have hl := h l rfl
    rintro m ⟨⟩
    exact hl.replace (valid hl.valid) ..
  | @renewed _ l =>
    rintro m ⟨⟩
    exact (h l rfl).renew now
  | removed | expired | matched =>
    intro l hl
    cases hl

namespace Store

structure Sound (s : Store) : Prop where
  wellFormed : s.WellFormed
  leases : ∀ id, Slot.Sound (s.lease? id)

theorem sound_empty : Sound .empty :=
  ⟨wellFormed_empty, fun _ l hl => by cases hl⟩

theorem Sound.mutate {s : Store} (h : s.Sound) (now : Time) (m : Mutation) :
    (s.mutate now m).2.Sound := by
  refine ⟨h.wellFormed.mutate now m, fun id => ?_⟩
  rw [lease?_mutate h.wellFormed]
  split
  · exact (h.leases m.id).mutate now m
  · exact h.leases id

theorem Sound.run {s : Store} (h : s.Sound) (ms : List (Time × Mutation)) :
    (s.run ms).2.Sound := by
  induction ms generalizing s with
  | nil => exact h
  | cons p ms ih => exact ih (h.mutate p.1 p.2)

/-- Whatever mutations were made of an empty store, each lease is in the slot of its record's own
id, holds a valid record for as long as the record says, is not evicted, and was not renewed before
it was registered. The size is the number of leases, and the listings give each id once. -/
theorem invariant_after_run (ms : List (Time × Mutation)) :
    let s := (Store.empty.run ms).2
    (∀ id l, s.lease? id = some l →
      l.record.id = id ∧ l.record.Valid ∧ l.duration = l.record.lease.duration ∧
        l.evictedAt = none ∧ l.registeredAt ≤ l.renewedAt) ∧
    (∀ l, l ∈ s.leases ↔ s.lease? l.record.id = some l) ∧
    s.size = s.leases.length ∧
    (s.leases.map (·.record.id)).Nodup ∧
    (s.snapshot.map (·.id)).Nodup ∧
    ∀ now, (s.expired now).Nodup ∧ ∀ id, id ∈ s.expired now ↔
      (s.lease? id).isSome ∧ (s.evictIfExpired id now).2.lease? id = none := by
  intro s
  have h : s.Sound := sound_empty.run ms
  have hs := h.wellFormed
  refine ⟨fun id l hl => ?_, fun l => hs.mem_leases_iff, hs.length_leases.symm,
    hs.nodup_ids_leases, hs.nodup_ids_snapshot, fun now => ?_⟩
  · have hsound := h.leases id l hl
    exact ⟨hs.id_of_lease? hl, hsound.valid, hsound.duration, hsound.notEvicted, hsound.ordered⟩
  · exact ⟨hs.nodup_expired now, fun id => hs.mem_expired_iff_evicted⟩

end Store

end LeaseRegistry
