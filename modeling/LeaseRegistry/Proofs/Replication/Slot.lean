import LeaseRegistry.Proofs.Store.Slot
import LeaseRegistry.Replication.Coordinator

/-!
# Requests and messages on one slot

A request of this server and a message of a peer each concern one instance. `Slot.handle` and
`Slot.receive` say what they make of its slot and what they answer, and `Slot.message?` which
message a request gives rise to. The registry and the coordinator do just that
(`handle_eq_onSlot`, `perform_message`, `receive_eq_onSlot`). `Slot.Effect` lists everything that a
request can come to.
-/

namespace LeaseRegistry

def Request.id : Request → InstanceId
  | register record _ | update record _ _ => record.id
  | unregister id _ _ | statusUpdate id _ _ | renew id _ => id

namespace Slot

/-- What a request makes of the slot of its instance. -/
def handle (now : Time) (r : Request) (slot : Slot) : Answer × Slot :=
  match r with
  | .register record source =>
    (.ofStore (register record source now slot).1, (register record source now slot).2)
  | .update record _ source =>
    (.ofStore (update record source now slot).1, (update record source now slot).2)
  | .unregister _ version _ => (.changed (unregister version slot).1, (unregister version slot).2)
  | .statusUpdate id status source =>
    match slot.version? with
    | none => (.failed (.store (.unknownInstance id)), slot)
    | some version =>
      (.ofStore (statusUpdate id status (version + 1) source now slot).1,
        (statusUpdate id status (version + 1) source now slot).2)
  | .renew _ _ => (.renewed (renew now slot).1, (renew now slot).2)

/-- What peers are told about a request that took effect on a slot. -/
def announcing (old new : Slot) : Request → Option PeerMessage
  | .register record _ => some (.register record)
  | .update record _ _ =>
    match old.record? with
    | some previous =>
      some (.update record.id previous.version record.version (record.diff previous))
    | none => some (.register record)
  | .unregister id version _ => some (.unregister id version)
  | .statusUpdate id status _ => new.version?.map (.statusUpdate id status)
  | .renew id _ => some (.heartbeat id)

def message? (now : Time) (r : Request) (slot : Slot) : Option PeerMessage :=
  if (handle now r slot).1.isApplied then announcing slot (handle now r slot).2 r else none

/-- What a request on a slot can come to: its answer, the slot after it, and what peers are told.
Either nothing happens or it takes effect in one of these ways. -/
inductive Effect (now : Time) : Request → Slot → Answer × Slot → Option PeerMessage → Prop where
  | refused {r : Request} {slot : Slot} {answer : Answer} (h : answer.isApplied = false) :
    Effect now r slot (answer, slot) none
  | added {record : Record} {source : Source} (valid : record.Valid) :
    Effect now (.register record source) none
      (.changed .added, some (.grant record source now)) (some (.register record))
  | registered {record : Record} {source : Source} {l : Lease} (valid : record.Valid)
      (newer : l.version < record.version) :
    Effect now (.register record source) (some l)
      (.changed .modified, some (l.replace record source now)) (some (.register record))
  | updated {record : Record} {deltas : List Delta} {source : Source} {l : Lease}
      (valid : record.Valid) (newer : l.version < record.version) :
    Effect now (.update record deltas source) (some l)
      (.changed .modified, some (l.replace record source now))
      (some (.update record.id l.version record.version (record.diff l.record)))
  | removed {id : InstanceId} {version : Version} {source : Source} {l : Lease}
      (notOlder : l.version ≤ version) :
    Effect now (.unregister id version source) (some l) (.changed .removed, none)
      (some (.unregister id version))
  | restated {id : InstanceId} {status : Status} {source : Source} {l : Lease}
      (newer : l.version < l.version + 1) :
    Effect now (.statusUpdate id status source) (some l)
      (.changed .modified, some (l.replace
        ((l.record.withStatus status).atVersion (l.version + 1)) source now))
      (some (.statusUpdate id status (l.version + 1)))
  | renewed {id : InstanceId} {source : Source} {l : Lease} :
    Effect now (.renew id source) (some l) (.renewed true, some (l.renew now))
      (some (.heartbeat id))

theorem effect_handle (now : Time) (r : Request) (slot : Slot) :
    Effect now r slot (handle now r slot) (message? now r slot) := by
  obtain ⟨res, h⟩ : ∃ res, handle now r slot = res := ⟨_, rfl⟩
  rw [message?, h]
  cases r with
  | register record source =>
    simp only [handle] at h
    by_cases hv : record.Valid
    · rw [register_of_valid hv] at h
      cases slot with
      | none =>
        subst h
        exact .added hv
      | some l =>
        simp only [write] at h
        split at h <;> subst h
        · exact .refused rfl
        · exact .registered hv (UInt64.not_le.mp ‹_›)
    · obtain ⟨e, he⟩ := register_of_not_valid hv source now slot
      rw [he] at h
      subst h
      exact .refused rfl
  | update record deltas source =>
    simp only [handle] at h
    by_cases hv : record.Valid
    · rw [update_of_valid hv] at h
      cases slot with
      | none =>
        subst h
        exact .refused rfl
      | some l =>
        simp only [write] at h
        split at h <;> subst h
        · exact .refused rfl
        · exact .updated hv (UInt64.not_le.mp ‹_›)
    · obtain ⟨e, he⟩ := update_of_not_valid hv source now slot
      rw [he] at h
      subst h
      exact .refused rfl
  | unregister id version source =>
    cases slot with
    | none =>
      subst h
      exact .refused rfl
    | some l =>
      simp only [handle, unregister] at h
      split at h <;> subst h
      · exact .refused rfl
      · exact .removed (UInt64.not_lt.mp ‹_›)
  | statusUpdate id status source =>
    cases slot with
    | none =>
      subst h
      exact .refused rfl
    | some l =>
      simp only [handle, version?, Option.map_some, statusUpdate] at h
      split at h <;> subst h
      · exact .refused rfl
      · exact .restated (UInt64.not_le.mp ‹_›)
  | renew id source =>
    cases slot with
    | none =>
      subst h
      exact .refused rfl
    | some l =>
      subst h
      exact .renewed

theorem instanceId?_of_message? {now : Time} {r : Request} {slot : Slot} {m : PeerMessage}
    (h : message? now r slot = some m) : m.instanceId? = some r.id := by
  have he := effect_handle now r slot
  rw [h] at he
  generalize handle now r slot = res at he
  cases he <;> rfl

/-- What the message of the peer `origin` makes of the slot of its instance. -/
def receive (origin : ServerId) (now : Time) (m : PeerMessage) (slot : Slot) : PeerReply × Slot :=
  match m with
  | .register record =>
    let (a, slot) := register record (.replicated origin) now slot
    (.ofAnswer (.ofStore a), slot)
  | .update id base version deltas =>
    let (a, slot) := updateWithDeltas id base version deltas (.replicated origin) now slot
    (.ofAnswer (.ofStore a), slot)
  | .unregister _ version =>
    let (c, slot) := unregister version slot
    (.ofAnswer (.changed c), slot)
  | .statusUpdate id status version =>
    let (a, slot) := statusUpdate id status version (.replicated origin) now slot
    (.ofAnswer (.ofStore a), slot)
  | .heartbeat id =>
    let (renewed, slot) := renew now slot
    (if renewed then .ack else .unknownInstance id, slot)
  | .fetchSnapshot => (.ack, slot)

theorem KeepsId.handle (now : Time) (r : Request) : KeepsId r.id (handle now r) := by
  intro slot h l hl
  cases r with
  | register record source => exact KeepsId.register record source now slot h l hl
  | update record deltas source => exact KeepsId.update record source now slot h l hl
  | unregister id version source => exact KeepsId.unregister id version slot h l hl
  | statusUpdate id status source =>
    simp only [Slot.handle] at hl
    split at hl
    · exact h l hl
    · exact KeepsId.statusUpdate id status _ source now slot h l hl
  | renew id source => exact KeepsId.renew id now slot h l hl

theorem KeepsId.receive {id : InstanceId} {m : PeerMessage} (hm : m.instanceId? = some id)
    (origin : ServerId) (now : Time) : KeepsId id (receive origin now m) := by
  intro slot h l hl
  cases m with
  | register record =>
    cases hm
    exact KeepsId.register record _ now slot h l hl
  | update i base version deltas =>
    cases hm
    exact KeepsId.updateWithDeltas _ base version deltas _ now slot h l hl
  | unregister i version =>
    cases hm
    exact KeepsId.unregister _ version slot h l hl
  | statusUpdate i status version =>
    cases hm
    exact KeepsId.statusUpdate _ status version _ now slot h l hl
  | heartbeat i =>
    cases hm
    exact KeepsId.renew _ now slot h l hl
  | fetchSnapshot => cases hm

end Slot

theorem Store.version?_eq (s : Store) (id : InstanceId) :
    s.version? id = Slot.version? (s.lease? id) := rfl

theorem Store.record?_eq (s : Store) (id : InstanceId) :
    s.record? id = Slot.record? (s.lease? id) := rfl

theorem Registry.handle_eq_onSlot (g : Registry) (now : Time) (r : Request) :
    ((g.handle now r).1, (g.handle now r).2.store) = g.store.onSlot r.id (Slot.handle now r) := by
  cases r with
  | register record source =>
    simp only [handle, register, write, Store.register_eq_onSlot]
    rfl
  | update record deltas source =>
    simp only [handle, update, write, Store.update_eq_onSlot]
    rfl
  | unregister id version source =>
    simp only [handle, unregister, Store.unregister_eq_onSlot]
    rfl
  | statusUpdate id status source =>
    simp only [handle, statusUpdate, Store.version?_eq, Store.onSlot, Slot.handle, Request.id]
    cases hv : Slot.version? (g.store.lease? id) with
    | none => simp only [Store.put_lease?]
    | some version =>
      simp only [write, Store.statusUpdate_eq_onSlot]
      rfl
  | renew id source =>
    simp only [handle, renew, Store.renew_eq_onSlot]
    rfl

namespace Coordinator

def store (c : Coordinator) : Store := c.registry.store

theorem perform_store (c : Coordinator) (now : Time) (r : Request) :
    (c.perform now r).2.2.store = c.store.put r.id (Slot.handle now r (c.store.lease? r.id)).2 :=
  congrArg Prod.snd (c.registry.handle_eq_onSlot now r)

theorem perform_answer (c : Coordinator) (now : Time) (r : Request) :
    (c.perform now r).1 = (Slot.handle now r (c.store.lease? r.id)).1 :=
  congrArg Prod.fst (c.registry.handle_eq_onSlot now r)

theorem perform_message (c : Coordinator) (now : Time) (r : Request) (hs : c.store.WellFormed) :
    (c.perform now r).2.1 =
      if r.source.fansOut then Slot.message? now r (c.store.lease? r.id) else none := by
  have hstore := c.perform_store now r
  have hanswer := c.perform_answer now r
  have hnew : (c.perform now r).2.2.store.lease? r.id =
      (Slot.handle now r (c.store.lease? r.id)).2 := by
    rw [hstore, Store.lease?_put hs, if_pos rfl]
  rw [Slot.message?, ← hanswer, ← hnew]
  cases hf : r.source.fansOut
  · simp [perform, hf]
  · simp only [perform, hf, Bool.and_true]
    cases r <;> rfl

theorem wellFormed_perform {c : Coordinator} (hs : c.store.WellFormed) (now : Time) (r : Request) :
    (c.perform now r).2.2.store.WellFormed := by
  rw [perform_store]
  exact hs.put (Slot.KeepsId.handle now r _ fun _ hl => hs.id_of_lease? hl)

theorem lease?_perform {c : Coordinator} (hs : c.store.WellFormed) (now : Time) (r : Request)
    (k : InstanceId) :
    (c.perform now r).2.2.store.lease? k =
      if k = r.id then (Slot.handle now r (c.store.lease? r.id)).2 else c.store.lease? k := by
  rw [perform_store, Store.lease?_put hs]

theorem receive_eq_onSlot (c : Coordinator) (now : Time) (origin : ServerId) {m : PeerMessage}
    {id : InstanceId} (hm : m.instanceId? = some id) :
    ((c.receive now origin m).1, (c.receive now origin m).2.store) =
      c.store.onSlot id (Slot.receive origin now m) := by
  cases m with
  | register record =>
    cases hm
    simp only [receive, Registry.register, Registry.write, Store.register_eq_onSlot]
    rfl
  | update i base version deltas =>
    cases hm
    simp only [receive, Registry.applyDeltas, Registry.write, Store.updateWithDeltas_eq_onSlot]
    rfl
  | unregister i version =>
    cases hm
    simp only [receive, Registry.unregister, Store.unregister_eq_onSlot]
    rfl
  | statusUpdate i status version =>
    cases hm
    simp only [receive, Registry.write, Store.statusUpdate_eq_onSlot]
    rfl
  | heartbeat i =>
    cases hm
    simp only [receive, Registry.renew, Store.renew_eq_onSlot]
    rfl
  | fetchSnapshot => cases hm

theorem store_receive (c : Coordinator) (now : Time) (origin : ServerId) {m : PeerMessage}
    {id : InstanceId} (hm : m.instanceId? = some id) :
    (c.receive now origin m).2.store =
      c.store.put id (Slot.receive origin now m (c.store.lease? id)).2 :=
  congrArg Prod.snd (c.receive_eq_onSlot now origin hm)

theorem reply_receive (c : Coordinator) (now : Time) (origin : ServerId) {m : PeerMessage}
    {id : InstanceId} (hm : m.instanceId? = some id) :
    (c.receive now origin m).1 = (Slot.receive origin now m (c.store.lease? id)).1 :=
  congrArg Prod.fst (c.receive_eq_onSlot now origin hm)

theorem wellFormed_receive {c : Coordinator} (hs : c.store.WellFormed) (now : Time)
    (origin : ServerId) {m : PeerMessage} {id : InstanceId} (hm : m.instanceId? = some id) :
    (c.receive now origin m).2.store.WellFormed := by
  rw [store_receive c now origin hm]
  exact hs.put (Slot.KeepsId.receive hm origin now _ fun _ hl => hs.id_of_lease? hl)

theorem lease?_receive {c : Coordinator} (hs : c.store.WellFormed) (now : Time)
    (origin : ServerId) {m : PeerMessage} {id : InstanceId} (hm : m.instanceId? = some id)
    (k : InstanceId) :
    (c.receive now origin m).2.store.lease? k =
      if k = id then (Slot.receive origin now m (c.store.lease? id)).2 else c.store.lease? k := by
  rw [store_receive c now origin hm, Store.lease?_put hs]

end Coordinator

end LeaseRegistry
