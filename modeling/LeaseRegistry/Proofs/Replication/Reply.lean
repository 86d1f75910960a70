import LeaseRegistry.Link.Session
import LeaseRegistry.Proofs.Replication.Slot

/-!
# Replies to peers

What a peer learns from a reply is what became of its message: `Slot.received` lists everything that
a message can come to on the slot of its instance, and `Coordinator.Answered` says when each reply
is given and what it means for the registry. A reply other than an acknowledgement leaves all as it
was. A session of a peer replies to every frame once and in order (`Session.feedAll_peer`).
-/

namespace LeaseRegistry

/-- The instance that must have a lease if the message is to be applied. -/
def PeerMessage.needs? : PeerMessage → Option InstanceId
  | update id _ _ _ | statusUpdate id _ _ | heartbeat id => some id
  | register _ | unregister _ _ | fetchSnapshot => none

theorem PeerMessage.instanceId?_of_needs? {m : PeerMessage} {id : InstanceId}
    (h : m.needs? = some id) : m.instanceId? = some id := by
  cases m <;> cases h <;> rfl

/-- The reply to a message that would store an invalid record. -/
def PeerReply.invalid (fault : RecordFault) : PeerReply :=
  .error (StoreError.invalidRecord fault.message).message

namespace Slot

variable {origin : ServerId} {now : Time} {m : PeerMessage} {slot : Slot} {id : InstanceId}
  {record : Record} {base version : Version} {deltas : List Delta} {l : Lease} {fault : RecordFault}

/-- What a message of the peer `origin` can come to: the reply and the slot after it. -/
inductive Received (origin : ServerId) (now : Time) :
    PeerMessage → Slot → PeerReply × Slot → Prop where
  | unknown {m : PeerMessage} {id : InstanceId} (needs : m.needs? = some id) :
    Received origin now m none (.unknownInstance id, none)
  | stale {id : InstanceId} {base version : Version} {deltas : List Delta} {l : Lease}
      (newer : l.version < version) (differs : l.version ≠ base) :
    Received origin now (.update id base version deltas) (some l) (.stale id, some l)
  | invalid {record : Record} {slot : Slot} {fault : RecordFault} (h : record.fault? = some fault) :
    Received origin now (.register record) slot (.invalid fault, slot)
  | spoiled {id : InstanceId} {version : Version} {deltas : List Delta} {l : Lease}
      {fault : RecordFault} (newer : l.version < version)
      (h : (l.record.applyDeltas deltas version).fault? = some fault) :
    Received origin now (.update id l.version version deltas) (some l) (.invalid fault, some l)
  | ignored {m : PeerMessage} {slot : Slot} : Received origin now m slot (.ack, slot)
  | written {m : PeerMessage} {slot : Slot} {l' : Lease} (source : l'.source = .replicated origin)
      (newer : ∀ l ∈ slot, l.version < l'.version) : Received origin now m slot (.ack, some l')
  | removed {id : InstanceId} {version : Version} {l : Lease} (notOlder : l.version ≤ version) :
    Received origin now (.unregister id version) (some l) (.ack, none)
  | renewed {id : InstanceId} {l : Lease} :
    Received origin now (.heartbeat id) (some l) (.ack, some (l.renew now))

theorem received (origin : ServerId) (now : Time) (hm : m ≠ .fetchSnapshot) (slot : Slot) :
    Received origin now m slot (receive origin now m slot) := by
  cases m with
  | register record =>
    cases hf : record.fault? with
    | some fault =>
      simp only [receive, register, hf]
      exact .invalid hf
    | none =>
      simp only [receive, register_of_valid hf]
      cases slot with
      | none => exact .written rfl fun l hl => by cases hl
      | some l =>
        simp only [write]
        split
        · exact .ignored
        · refine .written rfl fun l' hl' => ?_
          cases hl'
          exact UInt64.not_le.mp ‹_›
  | update id base version deltas =>
    cases slot with
    | none => exact .unknown rfl
    | some l =>
      simp only [receive, updateWithDeltas]
      split
      · exact .ignored
      · have hnewer : l.version < version := UInt64.not_le.mp ‹_›
        by_cases hbase : l.version = base
        · subst hbase
          simp only [ne_eq, not_true_eq_false, if_false]
          split
          · exact .spoiled hnewer ‹_›
          · refine .written rfl fun l' hl' => ?_
            cases hl'
            exact hnewer
        · simp only [ne_eq, hbase, not_false_eq_true, if_true]
          exact .stale hnewer hbase
  | unregister id version =>
    cases slot with
    | none => exact .ignored
    | some l =>
      simp only [receive, unregister]
      split
      · exact .ignored
      · exact .removed (UInt64.not_lt.mp ‹_›)
  | statusUpdate id status version =>
    cases slot with
    | none => exact .unknown rfl
    | some l =>
      simp only [receive, statusUpdate]
      split
      · exact .ignored
      · refine .written rfl fun l' hl' => ?_
        cases hl'
        exact UInt64.not_le.mp ‹_›
  | heartbeat id =>
    cases slot with
    | none => exact .unknown rfl
    | some l => exact .renewed
  | fetchSnapshot => exact absurd rfl hm

/-! ### When each reply is given -/

section

variable (origin now) (hm : m ≠ .fetchSnapshot) (slot)
include hm

theorem receive_unknown_iff : (receive origin now m slot).1 = .unknownInstance id ↔
    m.needs? = some id ∧ slot = none := by
  constructor
  · intro h
    have hreceived := received origin now hm slot
    generalize receive origin now m slot = res at hreceived h
    cases hreceived <;> cases h
    exact ⟨‹_›, rfl⟩
  · rintro ⟨hneeds, rfl⟩
    cases m <;> cases hneeds <;> rfl

theorem receive_stale_iff : (receive origin now m slot).1 = .stale id ↔
    ∃ base version deltas l, m = .update id base version deltas ∧ slot = some l ∧
      l.version < version ∧ l.version ≠ base := by
  constructor
  · intro h
    have hreceived := received origin now hm slot
    generalize receive origin now m slot = res at hreceived h
    cases hreceived <;> cases h
    exact ⟨_, _, _, _, rfl, rfl, ‹_›, ‹_›⟩
  · rintro ⟨base, version, deltas, l, rfl, rfl, newer, differs⟩
    simp only [receive, updateWithDeltas, if_neg (UInt64.not_le.mpr newer), if_pos differs]
    rfl

theorem receive_error_iff {reason : String} : (receive origin now m slot).1 = .error reason ↔
    ∃ fault, .error reason = PeerReply.invalid fault ∧
      ((∃ record, m = .register record ∧ record.fault? = some fault) ∨
        ∃ id version deltas l, m = .update id l.version version deltas ∧ slot = some l ∧
          l.version < version ∧ (l.record.applyDeltas deltas version).fault? = some fault) := by
  constructor
  · intro h
    have hreceived := received origin now hm slot
    generalize receive origin now m slot = res at hreceived h
    cases hreceived with
    | invalid hf => exact ⟨_, h.symm, .inl ⟨_, rfl, hf⟩⟩
    | spoiled newer hf => exact ⟨_, h.symm, .inr ⟨_, _, _, _, rfl, rfl, newer, hf⟩⟩
    | unknown => cases h
    | stale => cases h
    | ignored => cases h
    | written => cases h
    | removed => cases h
    | renewed => cases h
  · rintro ⟨fault, hreason, ⟨record, rfl, hf⟩ | ⟨id, version, deltas, l, rfl, rfl, newer, hf⟩⟩
    · simp only [receive, register, hf]
      exact hreason.symm
    · simp only [receive, updateWithDeltas, if_neg (UInt64.not_le.mpr newer),
        if_neg (not_not_intro rfl), hf]
      exact hreason.symm

theorem receive_otherwise : (receive origin now m slot).1 = .ack ∨
    (∃ id, (receive origin now m slot).1 = .unknownInstance id) ∨
    (∃ id, (receive origin now m slot).1 = .stale id) ∨
    ∃ reason, (receive origin now m slot).1 = .error reason := by
  have hreceived := received origin now hm slot
  generalize receive origin now m slot = res at hreceived
  cases hreceived with
  | unknown => exact .inr (.inl ⟨_, rfl⟩)
  | stale => exact .inr (.inr (.inl ⟨_, rfl⟩))
  | invalid => exact .inr (.inr (.inr ⟨_, rfl⟩))
  | spoiled => exact .inr (.inr (.inr ⟨_, rfl⟩))
  | ignored => exact .inl rfl
  | written => exact .inl rfl
  | removed => exact .inl rfl
  | renewed => exact .inl rfl

end

theorem receive_of_not_ack (h : (receive origin now m slot).1 ≠ .ack) :
    (receive origin now m slot).2 = slot := by
  by_cases hm : m = .fetchSnapshot
  · subst hm
    rfl
  · have hreceived := received origin now hm slot
    generalize receive origin now m slot = res at hreceived h ⊢
    cases hreceived with
    | unknown => rfl
    | stale => rfl
    | invalid => rfl
    | spoiled => rfl
    | ignored => exact absurd rfl h
    | written => exact absurd rfl h
    | removed => exact absurd rfl h
    | renewed => exact absurd rfl h

end Slot

namespace Coordinator

/-- What the reply `res.1` to a message of the peer `origin` says about it, and what the message
makes of the coordinator. -/
structure Answered (c : Coordinator) (now : Time) (origin : ServerId) (m : PeerMessage)
    (res : PeerReply × Coordinator) : Prop where
  /-- The instance has no lease, and the message needs one. -/
  unknown : ∀ id, res.1 = .unknownInstance id ↔ m.needs? = some id ∧ c.store.lease? id = none
  /-- The changes are newer than the stored record but were not made on it. -/
  stale : ∀ id, res.1 = .stale id ↔ ∃ base version deltas l,
    m = .update id base version deltas ∧ c.store.lease? id = some l ∧ l.version < version ∧
      l.version ≠ base
  /-- The record of the message, or the one that its changes lead to, is not valid. -/
  error : ∀ reason, res.1 = .error reason ↔ ∃ fault, .error reason = PeerReply.invalid fault ∧
    ((∃ record, m = .register record ∧ record.fault? = some fault) ∨
      ∃ id version deltas l, m = .update id l.version version deltas ∧
        c.store.lease? id = some l ∧ l.version < version ∧
        (l.record.applyDeltas deltas version).fault? = some fault)
  otherwise : res.1 = .ack ∨ (∃ id, res.1 = .unknownInstance id) ∨ (∃ id, res.1 = .stale id) ∨
    ∃ reason, res.1 = .error reason
  unchanged : res.1 ≠ .ack → res.2 = c
  /-- A lease is written by the peer at a newer version, or renewed, or as it was. -/
  leases : ∀ id l, res.2.store.lease? id = some l →
    (m.instanceId? = some id ∧ l.source = .replicated origin ∧
      ∀ before, c.store.lease? id = some before → before.version < l.version) ∨
    (m = .heartbeat id ∧ ∃ before, c.store.lease? id = some before ∧ l = before.renew now) ∨
    c.store.lease? id = some l
  others : ∀ id, m.instanceId? ≠ some id → res.2.store.lease? id = c.store.lease? id

/-- A message that is not acknowledged leaves the registry alone. -/
theorem receive_of_not_ack (c : Coordinator) (now : Time) (origin : ServerId) {m : PeerMessage}
    (h : (c.receive now origin m).1 ≠ .ack) : (c.receive now origin m).2 = c := by
  have hstore : ∀ {id}, m.instanceId? = some id →
      (c.receive now origin m).2.store = c.store := by
    intro id hid
    rw [c.reply_receive now origin hid] at h
    rw [c.store_receive now origin hid, Slot.receive_of_not_ack h, Store.put_lease?]
  have hsame : ∀ {g : Registry}, g.store = c.store → g.preservation = c.registry.preservation →
      ({ c with registry := g } : Coordinator) = c := by
    rintro ⟨store, preservation⟩ rfl rfl
    rfl
  cases m with
  | register record => exact hsame (hstore rfl) rfl
  | update id base version deltas => exact hsame (hstore rfl) rfl
  | unregister id version => exact hsame (hstore rfl) rfl
  | statusUpdate id status version => exact hsame (hstore rfl) rfl
  | heartbeat id =>
    have hmissing : ¬(c.registry.store.renew id now).1 = true := fun hfound => h (if_pos hfound)
    exact hsame (hstore rfl) (if_neg hmissing)
  | fetchSnapshot => rfl

theorem answered (c : Coordinator) (hc : c.store.WellFormed) (now : Time) (origin : ServerId)
    {m : PeerMessage} (hm : m ≠ .fetchSnapshot) :
    Answered c now origin m (c.receive now origin m) := by
  obtain ⟨id, hid⟩ : ∃ id, m.instanceId? = some id := by
    cases m with
    | fetchSnapshot => exact absurd rfl hm
    | _ => exact ⟨_, rfl⟩
  have hlease := lease?_receive hc now origin hid
  refine ⟨fun i => ?_, fun i => ?_, fun reason => ?_, ?_, c.receive_of_not_ack now origin,
    fun i l hl => ?_, fun i hi => ?_⟩
  · rw [c.reply_receive now origin hid, Slot.receive_unknown_iff origin now _ hm]
    refine and_congr_right fun hneeds => ?_
    rw [Option.some.inj (hid.symm.trans (PeerMessage.instanceId?_of_needs? hneeds))]
  · rw [c.reply_receive now origin hid, Slot.receive_stale_iff origin now _ hm]
    constructor <;> rintro ⟨base, version, deltas, l, rfl, hl⟩ <;> cases hid <;>
      exact ⟨base, version, deltas, l, rfl, hl⟩
  · rw [c.reply_receive now origin hid, Slot.receive_error_iff origin now _ hm]
    refine exists_congr fun fault => and_congr_right fun _ => or_congr_right ?_
    constructor <;> rintro ⟨i, version, deltas, l, rfl, hl⟩ <;> cases hid <;>
      exact ⟨_, version, deltas, l, rfl, hl⟩
  · rw [c.reply_receive now origin hid]
    exact Slot.receive_otherwise origin now _ hm
  · rw [hlease] at hl
    split at hl
    · subst i
      have hreceived := Slot.received origin now hm (c.store.lease? id)
      generalize Slot.receive origin now m (c.store.lease? id) = res at hreceived hl
      generalize c.store.lease? id = slot at hreceived hl ⊢
      cases hreceived with
      | unknown => cases hl
      | stale => exact .inr (.inr hl)
      | invalid => exact .inr (.inr hl)
      | spoiled => exact .inr (.inr hl)
      | ignored => exact .inr (.inr hl)
      | written source newer =>
        cases hl
        exact .inl ⟨hid, source, newer⟩
      | removed => cases hl
      | @renewed i before =>
        cases hl
        cases hid
        exact .inr (.inl ⟨rfl, before, rfl, rfl⟩)
    · exact .inr (.inr hl)
  · rw [hlease, if_neg]
    rintro rfl
    exact hi hid

theorem wellFormed_receive_any {c : Coordinator} (hc : c.store.WellFormed) (now : Time)
    (origin : ServerId) (m : PeerMessage) : (c.receive now origin m).2.store.WellFormed := by
  cases hm : m.instanceId? with
  | some id => exact wellFormed_receive hc now origin hm
  | none =>
    cases m <;> cases hm
    exact hc

end Coordinator

/-! ## Sessions of peers -/

/-- The frames of the peer `origin`, each at its time, and the one reply to each: what it says about
the message that the frame holds, if it holds one. -/
inductive Conversed (origin : ServerId) :
    Coordinator → List (Time × List UInt8) → List PeerReply → Coordinator → Prop where
  | nil {c : Coordinator} : Conversed origin c [] [] c
  | read {c c' c'' : Coordinator} {now : Time} {frame : List UInt8}
      {frames : List (Time × List UInt8)} {m : PeerMessage} {reply : PeerReply}
      {replies : List PeerReply} (readable : PeerMessage.decode frame = .ok m)
      (received : c.receive now origin m = (reply, c'))
      (answered : m ≠ .fetchSnapshot → c.Answered now origin m (reply, c'))
      (asked : m = .fetchSnapshot → c' = c) (rest : Conversed origin c' frames replies c'') :
    Conversed origin c ((now, frame) :: frames) (reply :: replies) c''
  | unreadable {c c' : Coordinator} {now : Time} {frame : List UInt8}
      {frames : List (Time × List UInt8)} {replies : List PeerReply}
      (unreadable : ∀ m, PeerMessage.decode frame ≠ .ok m)
      (rest : Conversed origin c frames replies c') :
    Conversed origin c ((now, frame) :: frames) (Session.unreadable :: replies) c'

theorem Conversed.length_eq {origin : ServerId} {c c' : Coordinator}
    {frames : List (Time × List UInt8)} {replies : List PeerReply}
    (h : Conversed origin c frames replies c') :
    replies.length = frames.length := by
  induction h with
  | nil => rfl
  | read readable received answered asked rest ih => exact congrArg Nat.succ ih
  | unreadable unreadable rest ih => exact congrArg Nat.succ ih

section

variable {ρ : Type} {e : Endpoint ρ} {coordinator : ρ → Coordinator}

/-- The messages of peers go to the coordinator that is part of the state. -/
def Endpoint.Serves (e : Endpoint ρ) (coordinator : ρ → Coordinator) : Prop :=
  ∀ g now origin m, (coordinator g).receive now origin m =
    ((e.receive g now origin m).1, coordinator (e.receive g now origin m).2)

/-- A session of a peer sends one reply to each frame and nothing else, and goes on. -/
theorem Session.feedAll_peer (he : e.Serves coordinator) (origin : ServerId) (d : Desk) {g : ρ}
    (hg : (coordinator g).store.WellFormed) (frames : List (Time × List UInt8)) :
    ∃ replies g', feedAll e (.peer origin) d g frames =
        (replies.map .reply, .peer origin, d, g') ∧
      Conversed origin (coordinator g) frames replies (coordinator g') := by
  induction frames generalizing g with
  | nil => exact ⟨[], g, rfl, .nil⟩
  | cons first frames ih =>
    obtain ⟨now, frame⟩ := first
    cases hdecode : PeerMessage.decode frame with
    | error error =>
      obtain ⟨replies, g', hfeed, hrest⟩ := ih hg
      refine ⟨unreadable :: replies, g', ?_, .unreadable (fun m hm => ?_) hrest⟩
      · simp only [feedAll, feed, answerPeer, hdecode, hfeed]
        rfl
      · cases hdecode.symm.trans hm
    | ok m =>
      have hreceive := he g now origin m
      have hwellFormed := Coordinator.wellFormed_receive_any hg now origin m
      rw [hreceive] at hwellFormed
      obtain ⟨replies, g', hfeed, hrest⟩ := ih hwellFormed
      refine ⟨(e.receive g now origin m).1 :: replies, g', ?_, ?_⟩
      · simp only [feedAll, feed, answerPeer, hdecode, hfeed]
        rfl
      · refine .read hdecode hreceive (fun hm => ?_) (fun hm => ?_) hrest
        · have hanswered := (coordinator g).answered hg now origin hm
          rw [hreceive] at hanswered
          exact hanswered
        · subst hm
          exact (congrArg Prod.snd hreceive).symm

/-- What a peer is told. The reply to a message says exactly what became of it, a snapshot is served
without changing anything, and a session of the peer replies once to every frame, in order. -/
theorem Session.replies_tell (he : e.Serves coordinator) (origin : ServerId) (d : Desk) {g : ρ}
    (hg : (coordinator g).store.WellFormed) :
    let c := coordinator g
    (∀ now m, m ≠ .fetchSnapshot → c.Answered now origin m (c.receive now origin m)) ∧
      (∀ now, (c.receive now origin .fetchSnapshot).2 = c) ∧
      ∀ frames, ∃ replies g', feedAll e (.peer origin) d g frames =
          (replies.map .reply, .peer origin, d, g') ∧
        Conversed origin c frames replies (coordinator g') ∧ replies.length = frames.length := by
  refine ⟨fun now m hm => Coordinator.answered _ hg now origin hm, fun now => rfl, fun frames => ?_⟩
  obtain ⟨replies, g', hfeed, hconversed⟩ := feedAll_peer he origin d hg frames
  exact ⟨replies, g', hfeed, hconversed, hconversed.length_eq⟩

end

/-- A frame that holds no message is answered, and so is a heartbeat without a lease. -/
theorem Session.replies_tell_unknown :
    let e : Endpoint Coordinator := ⟨⟨fun c now r => ((c.perform now r).1, (c.perform now r).2.2),
      fun c id => c.store.version? id⟩, fun c now origin m => c.receive now origin m⟩
    let c : Coordinator := ⟨⟨"b", by decide⟩, .start .standard 0, .start 0 300000, none, 1, 200,
      .standard 3⟩
    let origin : ServerId := ⟨"a", by decide⟩
    (c.receive 5 origin (.heartbeat ⟨"web"⟩)).1 = .unknownInstance ⟨"web"⟩ ∧
      (c.receive 5 origin (.heartbeat ⟨"web"⟩)).2 = c ∧
      ∀ frame, (feedAll e (.peer origin) (.empty 90000) c
        [(5, frame), (6, (PeerMessage.heartbeat ⟨"web"⟩).encode)]).1.length = 2 := by
  intro e c origin
  have he : e.Serves id := fun _ _ _ _ => rfl
  have hc : c.store.WellFormed := Store.wellFormed_empty
  obtain ⟨htold, -, hsession⟩ := replies_tell he origin (.empty 90000) hc
  have hanswered := htold 5 (.heartbeat ⟨"web"⟩) nofun
  have hunknown : (c.receive 5 origin (.heartbeat ⟨"web"⟩)).1 = .unknownInstance ⟨"web"⟩ :=
    (hanswered.unknown ⟨"web"⟩).mpr ⟨rfl, rfl⟩
  refine ⟨hunknown, hanswered.unchanged (by rw [id, hunknown]; nofun), fun frame => ?_⟩
  obtain ⟨replies, g', hfeed, -, hlength⟩ :=
    hsession [(5, frame), (6, (PeerMessage.heartbeat ⟨"web"⟩).encode)]
  rw [hfeed, List.length_map, hlength]
  rfl

end LeaseRegistry
