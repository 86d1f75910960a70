import LeaseRegistry.Proofs.Replication.FanOut
import LeaseRegistry.Proofs.Server.Task

/-!
# A server as an instance of its own registry

What the requests of a server to its own coordinator come to (`Performs`), and with that each
stretch of its registration and the one stretch of a renewal, from one wait for the peers to the
next. The lemmas `advance_…` say what the peers are told next and which server is left behind.
-/

namespace LeaseRegistry

namespace Server

open Activity

/-! ## Single requests -/

def performed (s : Server) (now : Time) (r : Request) : Server :=
  { s with coordinator := (s.coordinator.perform now r).2.2 }

/-- What a request of this server comes to: its answer, what the peers are told, and the slot of its
instance. -/
structure Performs (s : Server) (now : Time) (r : Request) (a : Answer) (m : Option PeerMessage)
    (slot : Slot) : Prop where
  answer : (s.coordinator.perform now r).1 = a
  message : (s.coordinator.perform now r).2.1 = m
  leases : ∀ k, (s.performed now r).store.lease? k = if k = r.id then slot else s.store.lease? k

variable {s : Server} {now : Time} {α : Type}

theorem wellFormed_performed (hs : s.store.WellFormed) (now : Time) (r : Request) :
    (s.performed now r).store.WellFormed :=
  Coordinator.wellFormed_perform (c := s.coordinator) hs now r

theorem performs (hs : s.store.WellFormed) (now : Time) {r : Request} (here : r.source = .here) :
    Performs s now r (Slot.handle now r (s.store.lease? r.id)).1
      (Slot.message? now r (s.store.lease? r.id)) (Slot.handle now r (s.store.lease? r.id)).2 where
  answer := s.coordinator.perform_answer now r
  message := by
    rw [s.coordinator.perform_message now r hs, here]
    rfl
  leases := Coordinator.lease?_perform (c := s.coordinator) hs now r

theorem performs_register (hs : s.store.WellFormed) (now : Time) {record : Record}
    (hvalid : record.Valid) (habsent : s.store.lease? record.id = none) :
    Performs s now (.register record .here) (.changed .added) (some (.register record))
      (some (.grant record .here now)) := by
  have h := performs hs now (r := .register record .here) rfl
  have hslot : Slot.register record .here now none =
      (.ok .added, some (.grant record .here now)) := Slot.register_of_valid hvalid ..
  simp only [Slot.message?, Slot.handle, Request.id, habsent, hslot] at h
  exact h

theorem performs_statusUpdate (hs : s.store.WellFormed) (now : Time) {id : InstanceId} {l : Lease}
    (hl : s.store.lease? id = some l) (hv : l.version < l.version + 1) (status : Status) :
    Performs s now (.statusUpdate id status .here) (.changed .modified)
      (some (.statusUpdate id status (l.version + 1)))
      (some (l.replace ((l.record.withStatus status).atVersion (l.version + 1)) .here now)) := by
  have h := performs hs now (r := .statusUpdate id status .here) rfl
  have hslot : Slot.statusUpdate id status (l.version + 1) .here now (some l) =
      (.ok .modified,
        some (l.replace ((l.record.withStatus status).atVersion (l.version + 1)) .here now)) :=
    if_neg (UInt64.not_le.mpr hv)
  simp only [Slot.message?, Slot.handle, Request.id, hl, Slot.version?, Option.map_some, hslot] at h
  exact h

theorem performs_statusUpdate_of_absent (hs : s.store.WellFormed) (now : Time) {id : InstanceId}
    (habsent : s.store.lease? id = none) (status : Status) :
    Performs s now (.statusUpdate id status .here) (.failed (.store (.unknownInstance id))) none
      none := by
  have h := performs hs now (r := .statusUpdate id status .here) rfl
  simp only [Slot.message?, Slot.handle, Request.id, habsent] at h
  exact h

theorem performs_renew (hs : s.store.WellFormed) (now : Time) {id : InstanceId} {l : Lease}
    (hl : s.store.lease? id = some l) :
    Performs s now (.renew id .here) (.renewed true) (some (.heartbeat id))
      (some (l.renew now)) := by
  have h := performs hs now (r := .renew id .here) rfl
  simp only [Slot.message?, Slot.handle, Request.id, hl] at h
  exact h

theorem performs_renew_of_absent (hs : s.store.WellFormed) (now : Time) {id : InstanceId}
    (habsent : s.store.lease? id = none) :
    Performs s now (.renew id .here) (.renewed false) none none := by
  have h := performs hs now (r := .renew id .here) rfl
  simp only [Slot.message?, Slot.handle, Request.id, habsent] at h
  exact h

theorem Performs.eq_of_changed {r : Request} {a : Answer} {m : Option PeerMessage} {slot : Slot}
    (h : Performs s now r a m slot) {k : InstanceId}
    (hk : (s.performed now r).store.lease? k ≠ s.store.lease? k) : k = r.id :=
  Classical.not_not.mp fun hne => hk ((h.leases k).trans (if_neg hne))

theorem Performs.advance_of_told {r : Request} {a : Answer} {m : PeerMessage} {slot : Slot}
    (h : Performs s now r a (some m) slot) (f : Answer → Activity α) :
    ((request r).andThen f).advance now s = (announce m (f a), s.performed now r) := by
  obtain ⟨rfl, hm, -⟩ := h
  simp only [request, andThen, advance, hm, announceAny]
  rfl

theorem Performs.advance_of_untold {r : Request} {a : Answer} {slot : Slot}
    (h : Performs s now r a none slot) (f : Answer → Activity α) :
    ((request r).andThen f).advance now s = (f a).advance now (s.performed now r) := by
  obtain ⟨rfl, hm, -⟩ := h
  simp only [request, andThen, advance, hm, announceAny]
  rfl

/-! ## The parts of a registration -/

/-- The record that a registration begins with: starting, at the version after none. -/
def firstRecord (s : Server) (token : String) : Record := (s.self.draft token).atVersion 1

/-- What is left of a registration once the peers know that the server is up. -/
def conclude (record : Record) : Activity (Except RegistryError Record) :=
  look fun _ s =>
    let record := (s.store.record? record.id).getD (record.withStatus .up)
    put { s with self := { s.self with record := some record } } (done (.ok record))

/-- What is left of a registration once the peers know that the server is starting. -/
def markUp (record : Record) : Activity (Except RegistryError Record) :=
  look fun _ s =>
    put { s with coordinator := s.coordinator.markOwn record.id } <|
      (request (.statusUpdate record.id .up .here)).andThen fun
        | .failed e => done (.error e)
        | _ => conclude record

def markedOwn (s : Server) (id : InstanceId) : Server :=
  { s with coordinator := s.coordinator.markOwn id }

def registered (r : Except RegistryError Record) : Activity Cluster.Outcome := done (.registered r)

theorem andThen_andThen {β γ : Type} (a : Activity α) (f : α → Activity β) (g : β → Activity γ) :
    (a.andThen f).andThen g = a.andThen fun x => (f x).andThen g := by
  induction a with
  | done x => rfl
  | look next ih => exact congrArg look (funext fun now => funext fun s => ih now s)
  | put s next ih => exact congrArg (put s) ih
  | announce m next ih => exact congrArg (announce m) ih
  | fetch peer next ih => exact congrArg (fetch peer) (funext ih)
  | pause d next ih => exact congrArg (pause d) ih

variable {record : Record} {token : String}

theorem advance_selfRegister_of_record (h : s.self.record = some record) :
    (Task.selfRegister token).activity.advance now s = (done (.registered (.ok record)), s) := by
  simp only [Task.activity, selfRegister, andThen, advance, h]

theorem advance_selfRegister (hs : s.store.WellFormed) (now : Time) (h : s.self.record = none)
    (hvalid : (s.firstRecord token).Valid)
    (habsent : s.store.lease? (s.firstRecord token).id = none) :
    (Task.selfRegister token).activity.advance now s =
      (announce (.register (s.firstRecord token))
        ((markUp (s.firstRecord token)).andThen registered),
        s.performed now (.register (s.firstRecord token) .here)) := by
  have hfirst : (s.self.draft token).atVersion
      ((s.store.version? (s.self.draft token).id).getD 0 + 1) = s.firstRecord token := by
    have hnone : s.store.version? (s.self.draft token).id = none := by
      rw [Store.version?_eq, show s.store.lease? (s.self.draft token).id = none from habsent]
      rfl
    rw [hnone]
    rfl
  simp only [Task.activity, selfRegister, andThen, advance, h]
  rw [hfirst, andThen_andThen, (performs_register hs now hvalid habsent).advance_of_told]
  rfl

theorem advance_markUp_of_absent (hs : s.store.WellFormed)
    (habsent : s.store.lease? record.id = none) :
    ((markUp record).andThen registered).advance now s =
      (done (.registered (.error (.store (.unknownInstance record.id)))),
        (s.markedOwn record.id).performed now (.statusUpdate record.id .up .here)) := by
  have hperforms := performs_statusUpdate_of_absent (s := s.markedOwn record.id) hs now habsent .up
  simp only [markUp, andThen, advance]
  rw [andThen_andThen]
  exact hperforms.advance_of_untold _

theorem advance_markUp (hs : s.store.WellFormed) {l : Lease}
    (hl : s.store.lease? record.id = some l) (hv : l.version < l.version + 1) :
    ((markUp record).andThen registered).advance now s =
      (announce (.statusUpdate record.id .up (l.version + 1))
        ((conclude record).andThen registered),
        (s.markedOwn record.id).performed now (.statusUpdate record.id .up .here)) := by
  have hperforms := performs_statusUpdate (s := s.markedOwn record.id) hs now hl hv .up
  simp only [markUp, andThen, advance]
  rw [andThen_andThen]
  exact hperforms.advance_of_told _

theorem advance_conclude :
    ((conclude record).andThen registered).advance now s =
      (done (.registered (.ok ((s.store.record? record.id).getD (record.withStatus .up)))),
        { s with self := { s.self with
          record := some ((s.store.record? record.id).getD (record.withStatus .up)) } }) := rfl

/-! ## Renewals -/

/-- A renewal has nothing left to do but to wait for the peers. -/
def Told (a : Activity Cluster.Outcome) : Prop :=
  a = done .nothing ∨ ∃ m, a = announce m (done .nothing)

/-- The lease of the server is there, renewed by now, and at a new version if it was gone. -/
structure Renews (s : Server) (now : Time) (record : Record) (s' : Server) : Prop where
  lease : ∃ l, s'.store.lease? record.id = some l ∧ now ≤ l.renewedAt ∧
    (s.store.lease? record.id = none → record.version < l.version)
  others : ∀ k, s'.store.lease? k ≠ s.store.lease? k → k = record.id

theorem advance_renewOwn (hs : s.store.WellFormed) (hvalid : record.Valid)
    (hv : record.version < record.version + 1) (now : Time) :
    Told ((Task.renewOwn record).activity.advance now s).1 ∧
      Renews s now record ((Task.renewOwn record).activity.advance now s).2 := by
  simp only [Task.activity, Cluster.renewal, renewOwn]
  rw [andThen_andThen]
  cases hl : s.store.lease? record.id with
  | some l =>
    have hperforms := performs_renew hs now hl
    rw [hperforms.advance_of_told]
    refine ⟨.inr ⟨_, rfl⟩, ⟨l.renew now, ?_, (l.le_renewedAt_renew now).2, fun hnone => ?_⟩,
      fun k => hperforms.eq_of_changed⟩
    · exact (hperforms.leases _).trans (if_pos rfl)
    · cases hl.symm.trans hnone
  | none =>
    have hperforms := performs_renew_of_absent hs now hl
    have hs' := wellFormed_performed hs now (.renew record.id .here)
    have hl' := (hperforms.leases record.id).trans (if_pos rfl)
    have hvalid' : (record.atVersion (record.version + 1)).Valid := hvalid
    have hagain := performs_register hs' now hvalid' hl'
    rw [hperforms.advance_of_untold]
    simp only [andThen, advance]
    rw [Store.version?_eq, hl', andThen_andThen,
      show (Slot.version? none).getD record.version = record.version from rfl,
      hagain.advance_of_told]
    refine ⟨.inr ⟨_, rfl⟩, ⟨.grant (record.atVersion (record.version + 1)) .here now, ?_,
      UInt64.le_refl now, fun _ => hv⟩, fun k hk => ?_⟩
    · exact (hagain.leases _).trans (if_pos rfl)
    · refine Classical.not_not.mp fun hne => hk ?_
      exact ((hagain.leases k).trans (if_neg hne)).trans ((hperforms.leases k).trans (if_neg hne))

end Server

end LeaseRegistry
