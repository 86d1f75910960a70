import LeaseRegistry.Store

/-!
# One slot at a time

Every operation of the store reads and changes the lease of one instance only. A `Slot` is that
lease or its absence, the functions in `Slot` are the operations as they look from there, and
`Store.onSlot` runs such a function on a store. The lemmas `…_eq_onSlot` say that each operation is
its slot function; with `lease?_onSlot` and `WellFormed.onSlot` nothing else has to be known about
the list of slots.
-/

namespace LeaseRegistry

/-- What the store holds for one instance. -/
abbrev Slot := Option Lease

/-- A slot function of `id` leaves no lease of another instance behind. -/
def Slot.KeepsId {α : Type} (id : InstanceId) (f : Slot → α × Slot) : Prop :=
  ∀ slot : Slot, (∀ l ∈ slot, l.record.id = id) → ∀ l ∈ (f slot).2, l.record.id = id

namespace Store

variable {s : Store} {id k : InstanceId} {slots : List (InstanceId × Lease)}

/-! ## The list of slots -/

theorem lookup_assign (id k : InstanceId) (l : Lease) (slots : List (InstanceId × Lease)) :
    lookup k (assign id l slots) = if k = id then some l else lookup k slots := by
  induction slots with
  | nil => simp [assign, lookup, eq_comm]
  | cons p rest ih =>
    obtain ⟨j, m⟩ := p
    by_cases h1 : j = id <;> by_cases h2 : j = k <;> by_cases h3 : k = id <;>
      simp_all [assign, lookup]

theorem assign_of_lookup {l : Lease} (h : lookup id slots = some l) :
    assign id l slots = slots := by
  induction slots with
  | nil => cases h
  | cons p rest ih =>
    obtain ⟨j, m⟩ := p
    by_cases hj : j = id
    · simp_all [assign, lookup]
    · simp only [lookup, if_neg hj] at h
      simp [assign, hj, ih h]

theorem mem_keys_iff : id ∈ slots.map (·.1) ↔ (lookup id slots).isSome := by
  induction slots with
  | nil => simp [lookup]
  | cons p rest ih =>
    obtain ⟨j, m⟩ := p
    by_cases hj : j = id
    · simp [lookup, hj]
    · simp only [List.map_cons, List.mem_cons, lookup, if_neg hj, ← ih]
      simp [Ne.symm hj]

theorem mem_of_lookup {l : Lease} (h : lookup id slots = some l) : (id, l) ∈ slots := by
  induction slots with
  | nil => cases h
  | cons p rest ih =>
    obtain ⟨j, m⟩ := p
    by_cases hj : j = id
    · simp only [lookup, if_pos hj, Option.some.injEq] at h
      simp [hj, h]
    · simp only [lookup, if_neg hj] at h
      exact List.mem_cons_of_mem _ (ih h)

theorem lookup_erase (hd : (slots.map (·.1)).Nodup) (id k : InstanceId) :
    lookup k (erase id slots) = if k = id then none else lookup k slots := by
  induction slots with
  | nil => simp [erase, lookup]
  | cons p rest ih =>
    obtain ⟨j, m⟩ := p
    simp only [List.map_cons, List.nodup_cons, mem_keys_iff] at hd
    by_cases h1 : j = id <;> by_cases h2 : j = k <;> by_cases h3 : k = id <;>
      simp_all [erase, lookup]

theorem keys_assign (id : InstanceId) (l : Lease) (slots : List (InstanceId × Lease)) :
    (assign id l slots).map (·.1) =
      if (lookup id slots).isSome then slots.map (·.1) else slots.map (·.1) ++ [id] := by
  induction slots with
  | nil => rfl
  | cons p rest ih =>
    obtain ⟨j, m⟩ := p
    by_cases hj : j = id
    · simp [assign, lookup, hj]
    · simp only [assign, lookup, if_neg hj, List.map_cons, ih]
      split <;> rfl

theorem mem_assign {l : Lease} {p : InstanceId × Lease} (h : p ∈ assign id l slots) :
    p = (id, l) ∨ p ∈ slots := by
  induction slots with
  | nil => simpa [assign] using h
  | cons q rest ih =>
    obtain ⟨j, m⟩ := q
    by_cases hj : j = id
    · simp only [assign, if_pos hj, List.mem_cons] at h
      exact h.imp_right (List.mem_cons_of_mem _)
    · simp only [assign, if_neg hj, List.mem_cons] at h
      rcases h with rfl | h
      · exact .inr List.mem_cons_self
      · exact (ih h).imp_right (List.mem_cons_of_mem _)

theorem erase_sublist (id : InstanceId) (slots : List (InstanceId × Lease)) :
    (erase id slots).Sublist slots := by
  induction slots with
  | nil => exact List.Sublist.slnil
  | cons p rest ih =>
    obtain ⟨j, m⟩ := p
    by_cases hj : j = id
    · simp [erase, hj]
    · simpa [erase, hj] using ih

theorem length_assign (id : InstanceId) (l : Lease) (slots : List (InstanceId × Lease)) :
    (assign id l slots).length = slots.length + if (lookup id slots).isSome then 0 else 1 := by
  have h := congrArg List.length (keys_assign id l slots)
  rw [List.length_map] at h
  rw [h]
  split <;> simp

theorem length_erase (h : (lookup id slots).isSome) :
    (erase id slots).length = slots.length - 1 := by
  induction slots with
  | nil => cases h
  | cons p rest ih =>
    obtain ⟨j, m⟩ := p
    by_cases hj : j = id
    · simp [erase, hj]
    · simp only [lookup, if_neg hj] at h
      have hpos : 0 < rest.length := by
        cases rest with
        | nil => cases h
        | cons => simp
      simp only [erase, if_neg hj, List.length_cons, ih h]
      omega

/-! ## Well-formed stores -/

/-- No instance has two slots, every lease stands in the slot of its own record, and the leases
are counted. -/
structure WellFormed (s : Store) : Prop where
  distinct : (s.slots.map (·.1)).Nodup
  keyed : ∀ p ∈ s.slots, p.2.record.id = p.1
  counted : s.size = s.slots.length

theorem wellFormed_empty : WellFormed empty := ⟨List.nodup_nil, by simp [empty], rfl⟩

theorem WellFormed.id_of_lease? (h : s.WellFormed) {l : Lease} (hl : s.lease? id = some l) :
    l.record.id = id :=
  h.keyed _ (mem_of_lookup hl)

def put (s : Store) (id : InstanceId) (slot : Slot) : Store :=
  match s.lease? id, slot with
  | none, none => s
  | none, some l => s.create id l
  | some _, some l => s.replace id l
  | some _, none => s.remove id

@[simp] theorem put_lease? (s : Store) (id : InstanceId) : s.put id (s.lease? id) = s := by
  cases h : s.lease? id with
  | none => simp [put, h]
  | some l => simp [put, h, replace, assign_of_lookup h]

theorem lease?_put_of_some (s : Store) (id k : InstanceId) (l : Lease) :
    (s.put id (some l)).lease? k = if k = id then some l else s.lease? k := by
  cases h : s.lease? id <;> simp only [put, h] <;> exact lookup_assign ..

theorem lease?_put (h : s.WellFormed) (id k : InstanceId) (slot : Slot) :
    (s.put id slot).lease? k = if k = id then slot else s.lease? k := by
  cases slot with
  | some l => exact s.lease?_put_of_some id k l
  | none =>
    cases hs : s.lease? id with
    | none => by_cases hk : k = id <;> simp [put, hs, hk]
    | some l =>
      simp only [put, hs]
      exact lookup_erase h.distinct ..

theorem lease?_put_some (s : Store) (id : InstanceId) (l : Lease) :
    (s.put id (some l)).lease? id = some l :=
  (s.lease?_put_of_some id id l).trans (if_pos rfl)

theorem WellFormed.put (h : s.WellFormed) {slot : Slot} (hid : ∀ l ∈ slot, l.record.id = id) :
    (s.put id slot).WellFormed := by
  cases hs : s.lease? id <;> cases slot <;> simp only [Store.put, hs]
  case none.none => exact h
  case none.some l =>
    refine ⟨?_, fun p hp => ?_, ?_⟩
    · have hn : id ∉ s.slots.map (·.1) := by
        rw [mem_keys_iff]
        simp [show lookup id s.slots = none from hs]
      rw [create, keys_assign, show lookup id s.slots = none from hs]
      exact List.nodup_append.mpr ⟨h.distinct, by simp, by
        rintro a ha b hb rfl
        exact hn (List.mem_singleton.mp hb ▸ ha)⟩
    · rcases mem_assign hp with rfl | hp
      · exact hid l rfl
      · exact h.keyed p hp
    · rw [create, length_assign, show lookup id s.slots = none from hs, h.counted]
      rfl
  case some.none m =>
    refine ⟨h.distinct.sublist ((erase_sublist id s.slots).map _),
      fun p hp => h.keyed p ((erase_sublist id s.slots).subset hp), ?_⟩
    rw [remove, length_erase (by simp [show lookup id s.slots = some m from hs]), h.counted]
  case some.some m l =>
    refine ⟨?_, fun p hp => ?_, ?_⟩
    · rw [Store.replace, keys_assign, show lookup id s.slots = some m from hs]
      exact h.distinct
    · rcases mem_assign hp with rfl | hp
      · exact hid l rfl
      · exact h.keyed p hp
    · rw [Store.replace, length_assign, show lookup id s.slots = some m from hs, h.counted]
      rfl

def onSlot {α : Type} (s : Store) (id : InstanceId) (f : Slot → α × Slot) : α × Store :=
  ((f (s.lease? id)).1, s.put id (f (s.lease? id)).2)

theorem lease?_onSlot {α : Type} (h : s.WellFormed) (id k : InstanceId) (f : Slot → α × Slot) :
    (s.onSlot id f).2.lease? k = if k = id then (f (s.lease? id)).2 else s.lease? k :=
  lease?_put h id k _

theorem WellFormed.onSlot {α : Type} (h : s.WellFormed) {f : Slot → α × Slot}
    (hf : Slot.KeepsId id f) : (s.onSlot id f).2.WellFormed :=
  h.put (hf _ fun _ hl => h.id_of_lease? hl)

end Store

/-! ## The operations on a slot -/

namespace Slot

def version? (slot : Slot) : Option Version := slot.map (·.version)

def record? (slot : Slot) : Option Record := slot.map (·.record)

/-- Puts a record into the slot if it is newer; `absent` is the outcome without a lease. -/
def write (absent : Except StoreError Change × Slot) (record : Record) (source : Source)
    (now : Time) : Slot → Except StoreError Change × Slot
  | none => absent
  | some lease =>
    if record.version ≤ lease.version then (.ok .superseded, some lease)
    else (.ok .modified, some (lease.replace record source now))

def register (record : Record) (source : Source) (now : Time) (slot : Slot) :
    Except StoreError Change × Slot :=
  match record.fault? with
  | some fault => (.error (.invalidRecord fault.message), slot)
  | none => write (.ok .added, some (.grant record source now)) record source now slot

def update (record : Record) (source : Source) (now : Time) (slot : Slot) :
    Except StoreError Change × Slot :=
  match record.fault? with
  | some fault => (.error (.invalidRecord fault.message), slot)
  | none => write (.error (.unknownInstance record.id), none) record source now slot

def updateWithDeltas (id : InstanceId) (base version : Version) (deltas : List Delta)
    (source : Source) (now : Time) : Slot → Except StoreError Change × Slot
  | none => (.error (.unknownInstance id), none)
  | some lease =>
    if version ≤ lease.version then (.ok .superseded, some lease)
    else if lease.version ≠ base then (.error (.baseMismatch id lease.version base), some lease)
    else
      let next := lease.record.applyDeltas deltas version
      match next.fault? with
      | some fault => (.error (.invalidRecord fault.message), some lease)
      | none => (.ok .modified, some (lease.replace next source now))

def statusUpdate (id : InstanceId) (status : Status) (version : Version) (source : Source)
    (now : Time) : Slot → Except StoreError Change × Slot
  | none => (.error (.unknownInstance id), none)
  | some lease =>
    if version ≤ lease.version then (.ok .superseded, some lease)
    else
      let next := (lease.record.withStatus status).atVersion version
      (.ok .modified, some (lease.replace next source now))

def unregister (version : Version) : Slot → Change × Slot
  | none => (.superseded, none)
  | some lease => if version < lease.version then (.superseded, some lease) else (.removed, none)

def renew (now : Time) : Slot → Bool × Slot
  | none => (false, none)
  | some lease => (true, some (lease.renew now))

def evictIf (due : Lease → Bool) (now : Time) : Slot → Option Lease × Slot
  | none => (none, none)
  | some lease => if due lease then (some (lease.markEvicted now), none) else (none, some lease)

theorem register_of_valid {record : Record} (h : record.Valid) (source : Source) (now : Time)
    (slot : Slot) : register record source now slot =
      write (.ok .added, some (.grant record source now)) record source now slot := by
  simp only [register, show record.fault? = none from h]

theorem register_of_not_valid {record : Record} (h : ¬record.Valid) (source : Source) (now : Time)
    (slot : Slot) :
    ∃ reason, register record source now slot = (.error (.invalidRecord reason), slot) := by
  obtain ⟨fault, hf⟩ := Option.ne_none_iff_exists'.mp h
  exact ⟨fault.message, by simp only [register, hf]⟩

theorem update_of_valid {record : Record} (h : record.Valid) (source : Source) (now : Time)
    (slot : Slot) : update record source now slot =
      write (.error (.unknownInstance record.id), none) record source now slot := by
  simp only [update, show record.fault? = none from h]

theorem update_of_not_valid {record : Record} (h : ¬record.Valid) (source : Source) (now : Time)
    (slot : Slot) :
    ∃ reason, update record source now slot = (.error (.invalidRecord reason), slot) := by
  obtain ⟨fault, hf⟩ := Option.ne_none_iff_exists'.mp h
  exact ⟨fault.message, by simp only [update, hf]⟩

theorem KeepsId.write {id : InstanceId} {absent : Except StoreError Change × Slot}
    {record : Record} (source : Source) (now : Time) (habs : ∀ l ∈ absent.2, l.record.id = id)
    (hid : record.id = id) : KeepsId id (write absent record source now) := by
  intro slot h l hl
  cases slot with
  | none => exact habs l hl
  | some m =>
    simp only [Slot.write] at hl
    split at hl
    · exact h l hl
    · cases hl
      exact hid

theorem KeepsId.register (record : Record) (source : Source) (now : Time) :
    KeepsId record.id (register record source now) := by
  intro slot h l hl
  unfold Slot.register at hl
  split at hl
  · exact h l hl
  · refine KeepsId.write source now (fun m hm => ?_) rfl slot h l hl
    cases hm
    rfl

theorem KeepsId.update (record : Record) (source : Source) (now : Time) :
    KeepsId record.id (update record source now) := by
  intro slot h l hl
  unfold Slot.update at hl
  split at hl
  · exact h l hl
  · exact KeepsId.write source now (fun m hm => by cases hm) rfl slot h l hl

theorem KeepsId.updateWithDeltas (id : InstanceId) (base version : Version) (deltas : List Delta)
    (source : Source) (now : Time) :
    KeepsId id (updateWithDeltas id base version deltas source now) := by
  intro slot h l hl
  cases slot with
  | none => cases hl
  | some m =>
    simp only [Slot.updateWithDeltas] at hl
    split at hl
    · exact h l hl
    · split at hl
      · exact h l hl
      · split at hl
        · exact h l hl
        · cases hl
          exact (Record.id_applyDeltas ..).trans (h m rfl)

theorem KeepsId.statusUpdate (id : InstanceId) (status : Status) (version : Version)
    (source : Source) (now : Time) :
    KeepsId id (statusUpdate id status version source now) := by
  intro slot h l hl
  cases slot with
  | none => cases hl
  | some m =>
    simp only [Slot.statusUpdate] at hl
    split at hl
    · exact h l hl
    · cases hl
      exact h m rfl

theorem KeepsId.unregister (id : InstanceId) (version : Version) :
    KeepsId id (unregister version) := by
  intro slot h l hl
  cases slot with
  | none => cases hl
  | some m =>
    simp only [Slot.unregister] at hl
    split at hl
    · exact h l hl
    · cases hl

theorem KeepsId.renew (id : InstanceId) (now : Time) : KeepsId id (renew now) := by
  intro slot h l hl
  cases slot with
  | none => cases hl
  | some m =>
    cases hl
    exact h m rfl

theorem KeepsId.evictIf (id : InstanceId) (due : Lease → Bool) (now : Time) :
    KeepsId id (evictIf due now) := by
  intro slot h l hl
  cases slot with
  | none => cases hl
  | some m =>
    simp only [Slot.evictIf] at hl
    split at hl
    · cases hl
    · exact h l hl

end Slot

namespace Store

variable {s : Store} {id : InstanceId}

theorem onSlot_of_absent {α : Type} {f : Slot → α × Slot} (h : s.lease? id = none) :
    s.onSlot id f = ((f none).1, s.put id (f none).2) := by
  rw [onSlot, h]

theorem onSlot_of_lease {α : Type} {f : Slot → α × Slot} {l : Lease} (h : s.lease? id = some l) :
    s.onSlot id f = ((f (some l)).1, s.put id (f (some l)).2) := by
  rw [onSlot, h]

/-- Putting back what a slot held changes nothing. -/
theorem put_of_eq {slot : Slot} (h : s.lease? id = slot) : s.put id slot = s := by
  rw [← h, put_lease?]

theorem put_none_of_lease {l : Lease} (h : s.lease? id = some l) : s.put id none = s.remove id := by
  simp only [put, h]

theorem put_some_of_lease {l m : Lease} (h : s.lease? id = some l) :
    s.put id (some m) = s.replace id m := by
  simp only [put, h]

theorem put_some_of_absent {m : Lease} (h : s.lease? id = none) :
    s.put id (some m) = s.create id m := by
  simp only [put, h]

theorem register_eq_onSlot (s : Store) (record : Record) (source : Source) (now : Time) :
    s.register record source now = s.onSlot record.id (Slot.register record source now) := by
  unfold register Slot.register
  cases hf : record.fault? with
  | some fault => simp [onSlot]
  | none =>
    cases hl : s.lease? record.id with
    | none => rw [onSlot_of_absent hl, Slot.write, put_some_of_absent hl]
    | some l =>
      rw [onSlot_of_lease hl]
      simp only [Slot.write]
      split
      · rw [put_of_eq hl]
      · rw [put_some_of_lease hl]

theorem update_eq_onSlot (s : Store) (record : Record) (source : Source) (now : Time) :
    s.update record source now = s.onSlot record.id (Slot.update record source now) := by
  unfold update Slot.update
  cases hf : record.fault? with
  | some fault => simp [onSlot]
  | none =>
    cases hl : s.lease? record.id with
    | none => rw [onSlot_of_absent hl, Slot.write, put_of_eq hl]
    | some l =>
      rw [onSlot_of_lease hl]
      simp only [Slot.write]
      split
      · rw [put_of_eq hl]
      · rw [put_some_of_lease hl]

theorem updateWithDeltas_eq_onSlot (s : Store) (id : InstanceId) (base version : Version)
    (deltas : List Delta) (source : Source) (now : Time) :
    s.updateWithDeltas id base version deltas source now =
      s.onSlot id (Slot.updateWithDeltas id base version deltas source now) := by
  unfold updateWithDeltas
  cases hl : s.lease? id with
  | none => rw [onSlot_of_absent hl, Slot.updateWithDeltas, put_of_eq hl]
  | some l =>
    rw [onSlot_of_lease hl]
    simp only [Slot.updateWithDeltas]
    split
    · rw [put_of_eq hl]
    · split
      · rw [put_of_eq hl]
      · cases hf : (l.record.applyDeltas deltas version).fault? with
        | some fault => simp only [put_of_eq hl]
        | none => simp only [put_some_of_lease hl]

theorem statusUpdate_eq_onSlot (s : Store) (id : InstanceId) (status : Status) (version : Version)
    (source : Source) (now : Time) :
    s.statusUpdate id status version source now =
      s.onSlot id (Slot.statusUpdate id status version source now) := by
  unfold statusUpdate
  cases hl : s.lease? id with
  | none => rw [onSlot_of_absent hl, Slot.statusUpdate, put_of_eq hl]
  | some l =>
    rw [onSlot_of_lease hl]
    simp only [Slot.statusUpdate]
    split
    · rw [put_of_eq hl]
    · rw [put_some_of_lease hl]

theorem unregister_eq_onSlot (s : Store) (id : InstanceId) (version : Version) :
    s.unregister id version = s.onSlot id (Slot.unregister version) := by
  unfold unregister
  cases hl : s.lease? id with
  | none => rw [onSlot_of_absent hl, Slot.unregister, put_of_eq hl]
  | some l =>
    rw [onSlot_of_lease hl]
    simp only [Slot.unregister]
    split
    · rw [put_of_eq hl]
    · rw [put_none_of_lease hl]

theorem renew_eq_onSlot (s : Store) (id : InstanceId) (now : Time) :
    s.renew id now = s.onSlot id (Slot.renew now) := by
  unfold renew
  cases hl : s.lease? id with
  | none => rw [onSlot_of_absent hl, Slot.renew, put_of_eq hl]
  | some l => rw [onSlot_of_lease hl, Slot.renew, put_some_of_lease hl]

theorem evictIf_eq_onSlot (s : Store) (id : InstanceId) (due : Lease → Bool) (now : Time) :
    s.evictIf id due now = s.onSlot id (Slot.evictIf due now) := by
  unfold evictIf
  cases hl : s.lease? id with
  | none => rw [onSlot_of_absent hl, Slot.evictIf, put_of_eq hl]
  | some l =>
    rw [onSlot_of_lease hl]
    simp only [Slot.evictIf]
    split
    · rw [put_none_of_lease hl]
    · rw [put_of_eq hl]

end Store

end LeaseRegistry
