import LeaseRegistry.Proofs.Store.Slot
import LeaseRegistry.Replication.Coordinator

/-!
# What a snapshot makes of a store

The records of a snapshot are registered one after the other. Those that are invalid or not newer
than what is there by then take no effect, and the store is what the others make of it
(`Registry.adopt_eq`). An instance that some of them are about ends up with the last of these, in
the lease it had or in a new one (`Store.lease?_registerAll_effective`).
-/

namespace LeaseRegistry

theorem Lease.renew_renewedAt (l : Lease) : l.renew l.renewedAt = l := by
  have hmax : max l.renewedAt l.renewedAt = l.renewedAt := if_pos (UInt64.le_refl _)
  simp only [renew, hmax]

theorem Lease.renew_renew (l : Lease) (now : Time) : (l.renew now).renew now = l.renew now := by
  have hmax : max (max l.renewedAt now) now = max l.renewedAt now := by
    show (if (if l.renewedAt ≤ now then now else l.renewedAt) ≤ now then now else _) = _
    by_cases h : l.renewedAt ≤ now
    · simp only [h, UInt64.le_refl, if_true]
      exact (if_pos h).symm
    · simp only [h, if_false]
  simp only [renew, hmax]

namespace Slot

/-- The lease that holds a record once it was written into a slot. -/
def written (record : Record) (source : Source) (now : Time) : Slot → Lease
  | none => .grant record source now
  | some lease => lease.replace record source now

theorem written_written (first second : Record) (source : Source) (now : Time) (slot : Slot) :
    written second source now (some (written first source now slot)) =
      written second source now slot := by
  cases slot with
  | none =>
    exact Lease.renew_renewedAt ⟨second, source, now, now, none, second.lease.duration⟩
  | some l =>
    exact Lease.renew_renew { l with record := second, source, duration := second.lease.duration }
      now

/-- Version `v` is newer than what is in the slot. -/
def OlderThan (slot : Slot) (v : Version) : Prop := ∀ w ∈ slot.version?, w < v

instance (slot : Slot) (v : Version) : Decidable (slot.OlderThan v) :=
  inferInstanceAs (Decidable (∀ w ∈ slot.version?, w < v))

theorem olderThan_written {record : Record} {source : Source} {now : Time} {slot : Slot}
    {v : Version} : OlderThan (some (written record source now slot)) v ↔ record.version < v := by
  have hversion : (written record source now slot).version = record.version := by
    cases slot <;> rfl
  simp only [OlderThan, version?, Option.map_some, Option.mem_def, Option.some.injEq, forall_eq',
    hversion]

theorem OlderThan.mono {slot : Slot} {v w : Version} (h : slot.OlderThan v) (hvw : v < w) :
    slot.OlderThan w := fun u hu => UInt64.lt_trans (h u hu) hvw

theorem register_of_newer {record : Record} (hvalid : record.Valid) {slot : Slot}
    (hnewer : slot.OlderThan record.version) (source : Source) (now : Time) :
    ∃ change : Change, change.isApplied = true ∧
      register record source now slot = (.ok change, some (written record source now slot)) := by
  rw [register_of_valid hvalid]
  cases slot with
  | none => exact ⟨.added, rfl, rfl⟩
  | some l =>
    have hold : ¬record.version ≤ l.version := UInt64.not_le.mpr (hnewer l.version rfl)
    exact ⟨.modified, rfl, if_neg hold⟩

theorem register_of_not_newer {record : Record} {slot : Slot}
    (h : ¬(record.Valid ∧ slot.OlderThan record.version)) (source : Source) (now : Time) :
    (Answer.ofStore (register record source now slot).1).isApplied = false ∧
      (register record source now slot).2 = slot := by
  by_cases hvalid : record.Valid
  · rw [register_of_valid hvalid]
    cases slot with
    | none => exact absurd ⟨hvalid, nofun⟩ h
    | some l =>
      have hold : record.version ≤ l.version := by
        refine UInt64.not_lt.mp fun hlt => h ⟨hvalid, fun w hw => ?_⟩
        obtain rfl : l.version = w := Option.some.inj hw
        exact hlt
      simp only [write, if_pos hold]
      exact ⟨rfl, trivial⟩
  · obtain ⟨reason, hr⟩ := register_of_not_valid hvalid source now slot
    rw [hr]
    exact ⟨rfl, rfl⟩

end Slot

namespace Store

variable {s s' : Store} {origin : ServerId} {now : Time} {before rs : List Record}

/-- A record that comes after those in `before` takes effect: it is valid, and newer than the stored
record of its instance and than every valid one that came before. -/
def Takes (s : Store) (before : List Record) (record : Record) : Prop :=
  record.Valid ∧ Slot.OlderThan (s.lease? record.id) record.version ∧
    ∀ r ∈ before, r.Valid → r.id = record.id → r.version < record.version

instance (s : Store) (before : List Record) (record : Record) :
    Decidable (s.Takes before record) :=
  inferInstanceAs (Decidable (_ ∧ _ ∧ ∀ r ∈ before, r.Valid → r.id = record.id → _))

/-- Those of the records `rs`, which come after `before`, that take effect. -/
def effective (s : Store) (before : List Record) : List Record → List Record
  | [] => []
  | r :: rs =>
    (if s.Takes before r then [r] else []) ++ s.effective (before ++ [r]) rs

def registerAll (s : Store) (origin : ServerId) (now : Time) (rs : List Record) : Store :=
  rs.foldl (fun s r => (s.register r (.replicated origin) now).2) s

/-- Exactly the versions that are newer than what was stored and what came in before are newer than
what is stored now. -/
def Absorbed (s : Store) (before : List Record) (s' : Store) : Prop :=
  ∀ (id : InstanceId) (v : Version), Slot.OlderThan (s'.lease? id) v ↔
    Slot.OlderThan (s.lease? id) v ∧ ∀ r ∈ before, r.Valid → r.id = id → r.version < v

theorem absorbed_nil (s : Store) : s.Absorbed [] s := fun _ _ =>
  ⟨fun h => ⟨h, nofun⟩, And.left⟩

theorem Absorbed.takes_iff (h : s.Absorbed before s') (record : Record) :
    s.Takes before record ↔ record.Valid ∧ Slot.OlderThan (s'.lease? record.id) record.version := by
  rw [h record.id record.version]
  rfl

theorem register_of_newer {record : Record} (hvalid : record.Valid)
    (hnewer : Slot.OlderThan (s.lease? record.id) record.version) (source : Source) (now : Time) :
    (∃ change : Change, change.isApplied = true ∧
      (s.register record source now).1 = .ok change) ∧
    ∀ id, (s.register record source now).2.lease? id =
      if id = record.id then some (Slot.written record source now (s.lease? id))
      else s.lease? id := by
  obtain ⟨change, happlied, hslot⟩ := Slot.register_of_newer hvalid hnewer source now
  rw [register_eq_onSlot, onSlot, hslot]
  refine ⟨⟨change, happlied, rfl⟩, fun id => ?_⟩
  rw [lease?_put_of_some]
  by_cases hid : id = record.id
  · rw [if_pos hid, if_pos hid, hid]
  · rw [if_neg hid, if_neg hid]

theorem register_of_not_newer {record : Record}
    (h : ¬(record.Valid ∧ Slot.OlderThan (s.lease? record.id) record.version)) (source : Source)
    (now : Time) :
    (Answer.ofStore (s.register record source now).1).isApplied = false ∧
      (s.register record source now).2 = s := by
  obtain ⟨hrefused, hsame⟩ := Slot.register_of_not_newer h source now
  rw [register_eq_onSlot, onSlot]
  exact ⟨hrefused, by rw [hsame, put_lease?]⟩

theorem Absorbed.register (h : s.Absorbed before s') (record : Record) (source : Source)
    (now : Time) : s.Absorbed (before ++ [record]) (s'.register record source now).2 := by
  intro id v
  simp only [List.forall_mem_append, List.forall_mem_singleton, ← and_assoc]
  rw [← h id v]
  by_cases hnewer : record.Valid ∧ Slot.OlderThan (s'.lease? record.id) record.version
  · rw [(register_of_newer hnewer.1 hnewer.2 source now).2 id]
    by_cases hid : id = record.id
    · subst hid
      rw [if_pos rfl, Slot.olderThan_written]
      exact ⟨fun hlt => ⟨hnewer.2.mono hlt, fun _ _ => hlt⟩, fun ⟨_, hlt⟩ => hlt hnewer.1 rfl⟩
    · rw [if_neg hid]
      exact ⟨fun hv => ⟨hv, fun _ he => absurd he.symm hid⟩, And.left⟩
  · rw [(register_of_not_newer hnewer source now).2]
    refine ⟨fun hv => ⟨hv, ?_⟩, And.left⟩
    rintro hvalid rfl
    -- what kept the record out is at least as new as it is, and older than `v`
    refine UInt64.not_le.mp fun hle => hnewer ⟨hvalid, fun w hw => ?_⟩
    exact UInt64.lt_of_lt_of_le (hv w hw) hle

/-- An instance ends up with the last record of it that takes effect. -/
theorem lease?_registerAll_effective (h : s.Absorbed before s') (rs : List Record)
    (id : InstanceId) :
    (s'.registerAll origin now (s.effective before rs)).lease? id =
      match ((s.effective before rs).filter (·.id = id)).getLast? with
      | none => s'.lease? id
      | some r => some (Slot.written r (.replicated origin) now (s'.lease? id)) := by
  induction rs generalizing before s' with
  | nil => rfl
  | cons r rs ih =>
    have hrest := ih (h.register r (.replicated origin) now)
    rw [effective]
    by_cases htakes : s.Takes before r
    · obtain ⟨hvalid, hnewer⟩ := (h.takes_iff r).mp htakes
      have hlease := (register_of_newer hvalid hnewer (.replicated origin) now).2 id
      rw [if_pos htakes, List.singleton_append]
      show (registerAll _ origin now (s.effective (before ++ [r]) rs)).lease? id = _
      rw [hrest, hlease]
      by_cases hid : id = r.id
      · rw [List.filter_cons_of_pos (by simp [hid]), List.getLast?_cons, if_pos hid]
        cases ((s.effective (before ++ [r]) rs).filter (·.id = id)).getLast? with
        | none => rfl
        | some last => simp only [Option.getD_some, Slot.written_written]
      · rw [List.filter_cons_of_neg (by simpa using Ne.symm hid), if_neg hid]
    · have hnot := mt (h.takes_iff r).mpr htakes
      rw [(register_of_not_newer hnot (.replicated origin) now).2] at hrest
      rw [if_neg htakes, List.nil_append, hrest]

/-- What the records `rs` of a server make of the store `s`. -/
structure Adopted (s : Store) (origin : ServerId) (now : Time) (rs : List Record) (count : Nat)
    (s' : Store) : Prop where
  /-- They are registered as that server's. -/
  registered : s' = s.registerAll origin now rs
  /-- The others might just as well not be there. -/
  skipped : s' = s.registerAll origin now (s.effective [] rs)
  counted : count = (s.effective [] rs).length
  leases : ∀ id, s'.lease? id =
    match ((s.effective [] rs).filter (·.id = id)).getLast? with
    | none => s.lease? id
    | some r => some (Slot.written r (.replicated origin) now (s.lease? id))

end Store

/-- A record that is invalid or not newer is not registered. -/
theorem Registry.register_of_not_newer {g : Registry} {record : Record}
    (h : ¬(record.Valid ∧ Slot.OlderThan (g.store.lease? record.id) record.version))
    (source : Source) (now : Time) :
    (g.register record source now).1.isApplied = false ∧ (g.register record source now).2 = g := by
  obtain ⟨hrefused, hsame⟩ := Store.register_of_not_newer h source now
  refine ⟨hrefused, ?_⟩
  show { g with store := (g.store.register record source now).2 } = g
  rw [hsame]

/-- Of the records of a snapshot those that take effect are counted, and the store is what they make
of it. -/
theorem Registry.adopt_eq {s : Store} {g : Registry} {before : List Record}
    (h : s.Absorbed before g.store) (origin : ServerId) (now : Time) (rs : List Record) :
    g.adopt origin now rs = ((s.effective before rs).length,
      { g with store := g.store.registerAll origin now (s.effective before rs) }) := by
  induction rs generalizing g before with
  | nil => rfl
  | cons r rs ih =>
    have hrest := ih (g := (g.register r (.replicated origin) now).2)
      (h.register r (.replicated origin) now)
    rw [adopt, Store.effective]
    by_cases htakes : s.Takes before r
    · obtain ⟨hvalid, hnewer⟩ := (h.takes_iff r).mp htakes
      obtain ⟨⟨change, happlied, hchange⟩, -⟩ :=
        Store.register_of_newer hvalid hnewer (.replicated origin) now
      have hanswer : (g.register r (.replicated origin) now).1.isApplied = true := by
        show (Answer.ofStore (g.store.register r (.replicated origin) now).1).isApplied = true
        rw [hchange]
        exact happlied
      simp only [hrest, hanswer, if_pos htakes]
      rw [List.singleton_append, List.length_cons]
      rfl
    · have hnot := mt (h.takes_iff r).mpr htakes
      obtain ⟨hrefused, hsame⟩ := register_of_not_newer hnot (.replicated origin) now
      rw [hsame] at hrest
      simp only [hsame, hrest, hrefused, if_neg htakes]
      rw [List.nil_append]
      rfl

theorem Registry.store_adopt (g : Registry) (origin : ServerId) (now : Time) (rs : List Record) :
    (g.adopt origin now rs).2.store = g.store.registerAll origin now rs := by
  induction rs generalizing g with
  | nil => rfl
  | cons r rs ih => exact ih (g.register r (.replicated origin) now).2

theorem Registry.adopted (g : Registry) (origin : ServerId) (now : Time) (rs : List Record) :
    g.store.Adopted origin now rs (g.adopt origin now rs).1 (g.adopt origin now rs).2.store := by
  have hadopt := adopt_eq (Store.absorbed_nil g.store) origin now rs
  refine ⟨g.store_adopt origin now rs, ?_, ?_, fun id => ?_⟩
  · rw [hadopt]
  · rw [hadopt]
  · rw [hadopt]
    exact Store.lease?_registerAll_effective (Store.absorbed_nil g.store) rs id

end LeaseRegistry
