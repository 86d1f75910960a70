import LeaseRegistry.Proofs.Store.Slot

/-!
# Listings of a store

What `Store.leases`, `Store.snapshot` and `Store.expired` list of a well-formed store, in terms of
`Store.lease?`: every lease, every record, every id of an expired lease, and no id twice.
-/

namespace LeaseRegistry

namespace Store

variable {s : Store} {id : InstanceId}

theorem WellFormed.mem_slots_iff (hs : s.WellFormed) {l : Lease} :
    (id, l) ∈ s.slots ↔ s.lease? id = some l := by
  refine ⟨fun h => ?_, mem_of_lookup⟩
  have hd := hs.distinct
  rw [lease?]
  generalize s.slots = slots at h hd
  induction slots with
  | nil => cases h
  | cons p rest ih =>
    obtain ⟨k, m⟩ := p
    rw [List.map_cons, List.nodup_cons] at hd
    rcases List.mem_cons.mp h with heq | hmem
    · cases heq
      exact if_pos rfl
    · have hne : k ≠ id := by
        rintro rfl
        exact hd.1 (List.mem_map.mpr ⟨_, hmem, rfl⟩)
      rw [lookup, if_neg hne]
      exact ih hmem hd.2

theorem leases_perm (s : Store) : s.leases.Perm (s.slots.map (·.2)) :=
  (List.mergeSort_perm _ _).map _

theorem WellFormed.mem_leases_iff (hs : s.WellFormed) {l : Lease} :
    l ∈ s.leases ↔ s.lease? l.record.id = some l := by
  rw [s.leases_perm.mem_iff, List.mem_map]
  constructor
  · rintro ⟨⟨k, m⟩, hmem, rfl⟩
    have hkey : m.record.id = k := hs.keyed _ hmem
    rw [hkey]
    exact hs.mem_slots_iff.mp hmem
  · intro h
    exact ⟨_, hs.mem_slots_iff.mpr h, rfl⟩

theorem WellFormed.length_leases (hs : s.WellFormed) : s.leases.length = s.size := by
  rw [s.leases_perm.length_eq, List.length_map, hs.counted]

theorem WellFormed.nodup_ids_leases (hs : s.WellFormed) : (s.leases.map (·.record.id)).Nodup := by
  have hkeys : (s.slots.map (·.2)).map (·.record.id) = s.slots.map (·.1) := by
    rw [List.map_map]
    exact List.map_congr_left hs.keyed
  rw [(s.leases_perm.map _).nodup_iff, hkeys]
  exact hs.distinct

theorem WellFormed.mem_snapshot_iff (hs : s.WellFormed) {r : Record} :
    r ∈ s.snapshot ↔ s.record? r.id = some r := by
  simp only [snapshot, List.mem_map, hs.mem_leases_iff, record?, Option.map_eq_some_iff]
  constructor
  · rintro ⟨l, hl, rfl⟩
    exact ⟨l, hl, rfl⟩
  · rintro ⟨l, hl, rfl⟩
    exact ⟨l, hl, rfl⟩

theorem WellFormed.id_of_record? (hs : s.WellFormed) {r : Record} (h : s.record? id = some r) :
    r.id = id := by
  obtain ⟨l, hl, rfl⟩ := Option.map_eq_some_iff.mp h
  exact hs.id_of_lease? hl

theorem WellFormed.nodup_ids_snapshot (hs : s.WellFormed) : (s.snapshot.map (·.id)).Nodup := by
  rw [snapshot, List.map_map]
  exact hs.nodup_ids_leases

theorem WellFormed.mem_expired_iff (hs : s.WellFormed) {now : Time} :
    id ∈ s.expired now ↔ ∃ l, s.lease? id = some l ∧ l.isExpired now = true := by
  simp only [expired, List.mem_map, List.mem_filter, hs.mem_leases_iff]
  constructor
  · rintro ⟨l, ⟨hl, hdue⟩, rfl⟩
    exact ⟨l, hl, hdue⟩
  · rintro ⟨l, hl, hdue⟩
    have hid := hs.id_of_lease? hl
    exact ⟨l, ⟨hid ▸ hl, hdue⟩, hid⟩

theorem WellFormed.nodup_expired (hs : s.WellFormed) (now : Time) : (s.expired now).Nodup :=
  hs.nodup_ids_leases.sublist (List.filter_sublist.map _)

/-- The listed ids are those whose leases an eviction of expired leases would remove. -/
theorem WellFormed.mem_expired_iff_evicted (hs : s.WellFormed) {now : Time} :
    id ∈ s.expired now ↔ (s.lease? id).isSome ∧ (s.evictIfExpired id now).2.lease? id = none := by
  rw [hs.mem_expired_iff, evictIfExpired, evictIf_eq_onSlot, lease?_onSlot hs, if_pos rfl]
  cases hl : s.lease? id with
  | none => simp
  | some l => cases hdue : l.isExpired now <;> simp [Slot.evictIf, hdue]

end Store

end LeaseRegistry
