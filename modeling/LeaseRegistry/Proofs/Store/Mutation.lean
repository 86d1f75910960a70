import LeaseRegistry.Proofs.Store.Slot

/-!
# Mutations

A `Mutation` is an operation that may change the store, and `Store.run` makes any number of them,
each at a time of its own. `Slot.Step` lists everything that a mutation can come to on the slot of
its instance; `Slot.step_mutate` says that the list is complete, and what holds of all runs is
proved from it alone.
-/

namespace LeaseRegistry

inductive Mutation where
  | register (record : Record) (source : Source)
  | update (record : Record) (source : Source)
  | updateWithDeltas (id : InstanceId) (base version : Version) (deltas : List Delta)
      (source : Source)
  | statusUpdate (id : InstanceId) (status : Status) (version : Version) (source : Source)
  | unregister (id : InstanceId) (version : Version)
  | renew (id : InstanceId)
  | evictIfExpired (id : InstanceId)
  | evictIfVersion (id : InstanceId) (version : Version)
  deriving DecidableEq, Repr

inductive Response where
  | changed (r : Except StoreError Change)
  | renewed (b : Bool)
  | evicted (l : Option Lease)

/-- The mutation was superseded, failed, or found nothing to do. -/
def Response.Refused : Response → Prop
  | changed (.ok c) => c = .superseded
  | changed (.error _) => True
  | renewed b => b = false
  | evicted l => l = none

/-- What a write puts into a lease: a record, on whose behalf, and when. -/
structure Entry where
  record : Record
  source : Source
  time : Time
  deriving DecidableEq, Repr

def Entry.version (e : Entry) : Version := e.record.version

namespace Mutation

def id : Mutation → InstanceId
  | register record _ | update record _ => record.id
  | updateWithDeltas id .. | statusUpdate id .. | unregister id _ | renew id | evictIfExpired id
  | evictIfVersion id _ => id

/-- What the mutation puts into a lease that holds `previous`, if it is a write: the record that it
brings, or `previous` with its deltas or its status. -/
def entry? (now : Time) (previous : Record) : Mutation → Option Entry
  | register record source | update record source => some ⟨record, source, now⟩
  | updateWithDeltas _ _ version deltas source =>
    some ⟨previous.applyDeltas deltas version, source, now⟩
  | statusUpdate _ status version source =>
    some ⟨(previous.withStatus status).atVersion version, source, now⟩
  | unregister .. | renew _ | evictIfExpired _ | evictIfVersion .. => none

end Mutation

/-! ## One mutation -/

namespace Slot

/-- What a mutation makes of the slot of its instance. -/
def mutate (now : Time) (m : Mutation) (slot : Slot) : Response × Slot :=
  match m with
  | .register record source => (register record source now slot).map .changed (·)
  | .update record source => (update record source now slot).map .changed (·)
  | .updateWithDeltas id base version deltas source =>
    (updateWithDeltas id base version deltas source now slot).map .changed (·)
  | .statusUpdate id status version source =>
    (statusUpdate id status version source now slot).map .changed (·)
  | .unregister _ version => (unregister version slot).map (.changed <| .ok ·) (·)
  | .renew _ => (renew now slot).map .renewed (·)
  | .evictIfExpired _ => (evictIf (·.isExpired now) now slot).map .evicted (·)
  | .evictIfVersion _ version => (evictIf (·.version == version) now slot).map .evicted (·)

/-- What a mutation can come to: its answer and the slot after it. Either nothing happens or it
takes effect in one of these ways. -/
inductive Step (now : Time) : Mutation → Slot → Response × Slot → Prop where
  | refused {m : Mutation} {slot : Slot} {r : Response} (h : r.Refused) : Step now m slot (r, slot)
  | added {record : Record} {source : Source} (valid : record.Valid) :
    Step now (.register record source) none
      (.changed (.ok .added), some (.grant record source now))
  | wrote {m : Mutation} {l : Lease} {e : Entry} (entry : m.entry? now l.record = some e)
      (valid : l.record.Valid → e.record.Valid) (newer : l.version < e.version) :
    Step now m (some l) (.changed (.ok .modified), some (l.replace e.record e.source now))
  | renewed {id : InstanceId} {l : Lease} :
    Step now (.renew id) (some l) (.renewed true, some (l.renew now))
  | removed {id : InstanceId} {version : Version} {l : Lease} (notOlder : l.version ≤ version) :
    Step now (.unregister id version) (some l) (.changed (.ok .removed), none)
  | expired {id : InstanceId} {l : Lease} (due : l.isExpired now = true) :
    Step now (.evictIfExpired id) (some l) (.evicted (some (l.markEvicted now)), none)
  | matched {id : InstanceId} {l : Lease} :
    Step now (.evictIfVersion id l.version) (some l) (.evicted (some (l.markEvicted now)), none)

theorem step_write {now : Time} {m : Mutation} {record : Record} {source : Source} {l : Lease}
    (absent : Except StoreError Change × Slot) (valid : record.Valid)
    (hm : m.entry? now l.record = some ⟨record, source, now⟩) :
    Step now m (some l) ((write absent record source now (some l)).map .changed (·)) := by
  simp only [write]
  split
  · exact .refused rfl
  · exact .wrote hm (fun _ => valid) (UInt64.not_le.mp ‹_›)

theorem step_mutate (now : Time) (m : Mutation) (slot : Slot) :
    Step now m slot (mutate now m slot) := by
  cases m with
  | register record source =>
    simp only [mutate]
    by_cases hv : record.Valid
    · rw [register_of_valid hv]
      cases slot with
      | none => exact .added hv
      | some l => exact step_write _ hv rfl
    · obtain ⟨reason, he⟩ := register_of_not_valid hv source now slot
      rw [he]
      exact .refused trivial
  | update record source =>
    simp only [mutate]
    by_cases hv : record.Valid
    · rw [update_of_valid hv]
      cases slot with
      | none => exact .refused trivial
      | some l => exact step_write _ hv rfl
    · obtain ⟨reason, he⟩ := update_of_not_valid hv source now slot
      rw [he]
      exact .refused trivial
  | updateWithDeltas id base version deltas source =>
    cases slot with
    | none => exact .refused trivial
    | some l =>
      simp only [mutate, updateWithDeltas]
      split
      · exact .refused rfl
      · rename_i hnewer
        split
        · exact .refused trivial
        · split
          · exact .refused trivial
          · rename_i hvalid
            exact .wrote (e := ⟨l.record.applyDeltas deltas version, source, now⟩) rfl
              (fun _ => hvalid) (UInt64.not_le.mp hnewer)
  | statusUpdate id status version source =>
    cases slot with
    | none => exact .refused trivial
    | some l =>
      simp only [mutate, statusUpdate]
      split
      · exact .refused rfl
      · rename_i hnewer
        -- Neither the status nor the version is checked, so a valid record stays valid.
        exact .wrote (e := ⟨(l.record.withStatus status).atVersion version, source, now⟩) rfl
          (fun hvalid => hvalid) (UInt64.not_le.mp hnewer)
  | unregister id version =>
    cases slot with
    | none => exact .refused rfl
    | some l =>
      simp only [mutate, unregister]
      split
      · exact .refused rfl
      · exact .removed (UInt64.not_lt.mp ‹_›)
  | renew id =>
    cases slot with
    | none => exact .refused rfl
    | some l => exact .renewed
  | evictIfExpired id =>
    cases slot with
    | none => exact .refused rfl
    | some l =>
      simp only [mutate, evictIf]
      split
      · exact .expired ‹_›
      · exact .refused rfl
  | evictIfVersion id version =>
    cases slot with
    | none => exact .refused rfl
    | some l =>
      simp only [mutate, evictIf]
      split
      · rename_i hversion
        rw [beq_iff_eq] at hversion
        subst hversion
        exact .matched
      · exact .refused rfl

theorem KeepsId.mutate (now : Time) (m : Mutation) : KeepsId m.id (mutate now m) := by
  cases m with
  | register record source => exact KeepsId.register record source now
  | update record source => exact KeepsId.update record source now
  | updateWithDeltas id base version deltas source =>
    exact KeepsId.updateWithDeltas id base version deltas source now
  | statusUpdate id status version source => exact KeepsId.statusUpdate id status version source now
  | unregister id version => exact KeepsId.unregister id version
  | renew id => exact KeepsId.renew id now
  | evictIfExpired id => exact KeepsId.evictIf id _ now
  | evictIfVersion id version => exact KeepsId.evictIf id _ now

end Slot

/-! ## Runs -/

structure Transaction where
  time : Time
  mutation : Mutation
  response : Response

namespace Store

def mutate (s : Store) (now : Time) : Mutation → Response × Store
  | .register record source => (s.register record source now).map .changed (·)
  | .update record source => (s.update record source now).map .changed (·)
  | .updateWithDeltas id base version deltas source =>
    (s.updateWithDeltas id base version deltas source now).map .changed (·)
  | .statusUpdate id status version source =>
    (s.statusUpdate id status version source now).map .changed (·)
  | .unregister id version => (s.unregister id version).map (.changed <| .ok ·) (·)
  | .renew id => (s.renew id now).map .renewed (·)
  | .evictIfExpired id => (s.evictIfExpired id now).map .evicted (·)
  | .evictIfVersion id version => (s.evictIfVersion id version now).map .evicted (·)

def run (s : Store) : List (Time × Mutation) → List Transaction × Store
  | [] => ([], s)
  | (now, m) :: rest =>
    let (r, s) := s.mutate now m
    let (ts, s) := s.run rest
    (⟨now, m, r⟩ :: ts, s)

theorem mutate_eq_onSlot (s : Store) (now : Time) (m : Mutation) :
    s.mutate now m = s.onSlot m.id (Slot.mutate now m) := by
  cases m with
  | register record source =>
    simp only [mutate, register_eq_onSlot]
    rfl
  | update record source =>
    simp only [mutate, update_eq_onSlot]
    rfl
  | updateWithDeltas id base version deltas source =>
    simp only [mutate, updateWithDeltas_eq_onSlot]
    rfl
  | statusUpdate id status version source =>
    simp only [mutate, statusUpdate_eq_onSlot]
    rfl
  | unregister id version =>
    simp only [mutate, unregister_eq_onSlot]
    rfl
  | renew id =>
    simp only [mutate, renew_eq_onSlot]
    rfl
  | evictIfExpired id =>
    simp only [mutate, evictIfExpired, evictIf_eq_onSlot]
    rfl
  | evictIfVersion id version =>
    simp only [mutate, evictIfVersion, evictIf_eq_onSlot]
    rfl

theorem lease?_mutate {s : Store} (hs : s.WellFormed) (now : Time) (m : Mutation)
    (k : InstanceId) :
    (s.mutate now m).2.lease? k =
      if k = m.id then (Slot.mutate now m (s.lease? m.id)).2 else s.lease? k := by
  rw [mutate_eq_onSlot]
  exact lease?_onSlot hs m.id k _

theorem WellFormed.mutate {s : Store} (hs : s.WellFormed) (now : Time) (m : Mutation) :
    (s.mutate now m).2.WellFormed := by
  rw [mutate_eq_onSlot]
  exact hs.onSlot (Slot.KeepsId.mutate now m)

end Store

end LeaseRegistry
