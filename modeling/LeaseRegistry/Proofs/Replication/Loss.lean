import LeaseRegistry.Proofs.Instance.Difference
import LeaseRegistry.Proofs.Replication.Delivery

/-!
# Lost messages

The version is all that a receiver compares, so two servers can only stay together if no version
stands for two records. `Slot.agree_exchange_iff` says for one request on one slot, whatever becomes
of its messages, when the two servers still agree after it: the new record must not reuse a version
of the receiver, and a status update must not meet an older record than the one it was made on.
`Pair.agrees_always_iff` is the same for any run.
-/

namespace LeaseRegistry

namespace Slot

/-- Where both slots hold the same version, they hold the same record. -/
def Agree (a b : Slot) : Prop :=
  ∀ l ∈ a, ∀ m ∈ b, m.version = l.version → m.record = l.record

theorem agree_none_left (b : Slot) : Agree none b := fun _ h => by cases h

theorem agree_none_right (a : Slot) : Agree a none := fun _ _ _ h => by cases h

theorem agree_some {l m : Lease} :
    Agree (some l) (some m) ↔ (m.version = l.version → m.record = l.record) := by
  simp [Agree]

/-- What one call makes of the receiver's slot, and the reply if there is one. -/
def call (origin : ServerId) (fate : Fate) (m : PeerMessage) (slot : Slot) :
    Option PeerReply × Slot :=
  match fate with
  | .arrives now => ((receive origin now m slot).1, (receive origin now m slot).2)
  | .lost _ => (none, slot)

/-- What a message makes of it, with the repair that the reply may call for. `record?` is what the
sender holds, `first` and `second` are the fates of the two calls. -/
def exchange (origin : ServerId) (first second : Fate) (record? : Option Record) (m : PeerMessage)
    (slot : Slot) : Slot :=
  match (call origin first m slot).1.bind PeerReply.missing?, record? with
  | some _, some record =>
    (call origin second (.register record) (call origin first m slot).2).2
  | _, _ => (call origin first m slot).2

theorem missing?_register (origin : ServerId) (now : Time) (record : Record) (slot : Slot) :
    (receive origin now (.register record) slot).1.missing? = none := by
  simp only [receive]
  by_cases hv : record.Valid
  · rw [register_of_valid hv]
    cases slot with
    | none => rfl
    | some l =>
      simp only [write]
      split <;> rfl
  · obtain ⟨reason, he⟩ := register_of_not_valid hv (.replicated origin) now slot
    rw [he]
    rfl

/-- A reply asks for no other instance than the message was about. -/
theorem missing?_receive {id : InstanceId} {m : PeerMessage} (hm : m.instanceId? = some id)
    (origin : ServerId) (now : Time) (slot : Slot) :
    (receive origin now m slot).1.missing? = none ∨
      (receive origin now m slot).1.missing? = some id := by
  cases m with
  | register record => exact .inl (missing?_register origin now record slot)
  | update i base version deltas =>
    cases hm
    cases slot with
    | none => exact .inr rfl
    | some l =>
      simp only [receive, updateWithDeltas]
      split
      · exact .inl rfl
      · split
        · exact .inr rfl
        · split <;> exact .inl rfl
  | unregister i version => exact .inl rfl
  | statusUpdate i status version =>
    cases hm
    cases slot with
    | none => exact .inr rfl
    | some l =>
      simp only [receive, statusUpdate]
      split <;> exact .inl rfl
  | heartbeat i =>
    cases hm
    cases slot with
    | none => exact .inr rfl
    | some l => exact .inl rfl
  | fetchSnapshot => cases hm

theorem missing?_call {id : InstanceId} {m : PeerMessage} (hm : m.instanceId? = some id)
    (origin : ServerId) (fate : Fate) (slot : Slot) :
    (call origin fate m slot).1.bind PeerReply.missing? = none ∨
      (call origin fate m slot).1.bind PeerReply.missing? = some id := by
  cases fate with
  | arrives now => exact missing?_receive hm origin now slot
  | lost e => exact .inl rfl

end Slot

/-! ## One request on one slot -/

namespace Slot

variable {origin : ServerId} {a b : Slot} {now : Time} {first second : Fate} {m : PeerMessage}

/-- A status update that arrives turns an older record of the receiver's slot `b` into the record
of the sender's slot `a`. -/
def Restates (first : Fate) (m : PeerMessage) (a b : Slot) : Prop :=
  ∀ id status version there, m = .statusUpdate id status version → first = .arrives there →
    ∀ l ∈ a, ∀ x ∈ b, x.version < version →
      (x.record.withStatus status).atVersion version = l.record

theorem restates_of_ne (hm : ∀ id status version, m ≠ .statusUpdate id status version) :
    Restates first m a b :=
  fun id status version _ he => absurd he (hm id status version)

theorem restates_lost (e : Option LinkError) : Restates (.lost e) m a b :=
  fun _ _ _ _ _ hf => by cases hf

theorem restates_none_right : Restates first m a none :=
  fun _ _ _ _ _ _ _ _ _ hx => by cases hx

/-- A registration of the sender's record never undoes an agreement, nor does it make one. -/
theorem agree_register_iff (l : Lease) (source : Source) (there : Time) (b : Slot) :
    Agree (some l) (register l.record source there b).2 ↔ Agree (some l) b := by
  by_cases hv : l.record.Valid
  · rw [register_of_valid hv]
    cases b with
    | none =>
      refine iff_of_true ?_ (agree_none_right _)
      exact agree_some.mpr fun _ => rfl
    | some x =>
      simp only [write]
      split
      · rfl
      · rename_i hn
        refine iff_of_true (agree_some.mpr fun _ => rfl) (agree_some.mpr fun he => ?_)
        exact absurd (UInt64.le_of_eq he.symm) hn
  · obtain ⟨reason, he⟩ := register_of_not_valid hv source there b
    rw [he]

theorem agree_call_register_iff (l : Lease) (fate : Fate) (b : Slot) :
    Agree (some l) (call origin fate (.register l.record) b).2 ↔ Agree (some l) b := by
  cases fate with
  | arrives there => exact agree_register_iff l (.replicated origin) there b
  | lost e => rfl

/-- A registration needs no repair. -/
theorem exchange_register (record? : Option Record) (record : Record) (b : Slot) :
    exchange origin first second record? (.register record) b =
      (call origin first (.register record) b).2 := by
  have hn : (call origin first (.register record) b).1.bind PeerReply.missing? = none := by
    cases first with
    | arrives there => exact missing?_register origin there record b
    | lost e => rfl
  simp only [exchange, hn]

/-- Whatever becomes of the messages of a request, the two slots agree after it exactly if its
record reuses no version of the receiver and a status update meets what it was made on. -/
theorem agree_exchange_iff {r : Request} (h : Agree a b) (hid : ∀ l ∈ a, l.record.id = r.id)
    (hm : a.message? now r = some m) :
    Agree (handle now r a).2 (exchange origin first second (record? (handle now r a).2) m b) ↔
      Agree (handle now r a).2 b ∧ Restates first m (handle now r a).2 b := by
  have he := effect_handle now r a
  rw [hm] at he
  generalize Slot.handle now r a = res at he ⊢
  cases he with
  | @added record source valid =>
    rw [exchange_register, and_iff_left (restates_of_ne (by simp))]
    exact agree_call_register_iff (.grant record source now) first b
  | @registered record source l valid newer =>
    rw [exchange_register, and_iff_left (restates_of_ne (by simp))]
    exact agree_call_register_iff (l.replace record source now) first b
  | @updated record deltas source l valid newer =>
    rw [and_iff_left (restates_of_ne (by simp))]
    cases first with
    | lost e => rfl
    | arrives there =>
      cases b with
      | none => exact agree_call_register_iff (l.replace record source now) second none
      | some x =>
        by_cases hle : record.version ≤ x.version
        · simp only [exchange, call, receive, updateWithDeltas, if_pos hle]
          rfl
        · by_cases hbase : x.version = l.version
          · have hnext : x.record.applyDeltas (record.diff l.record) record.version = record := by
              rw [agree_some.mp h hbase, Record.applyDeltas_diff _ _ (hid l rfl).symm]
            simp only [exchange, call, receive, updateWithDeltas, if_neg hle,
              if_neg (not_not_intro hbase), hnext, show record.fault? = none from valid]
            refine iff_of_true (agree_some.mpr fun _ => rfl) (agree_some.mpr fun hv => ?_)
            exact absurd (UInt64.le_of_eq hv.symm) hle
          · have hcall : call origin (.arrives there)
                (.update record.id l.version record.version (record.diff l.record)) (some x) =
                  (some (.stale record.id), some x) := by
              simp only [call, receive, updateWithDeltas, if_neg hle, if_pos hbase]
              rfl
            simp only [exchange, hcall]
            exact agree_call_register_iff (l.replace record source now) second (some x)
  | @removed id version source l notOlder =>
    exact iff_of_true (agree_none_left _) ⟨agree_none_left _, restates_of_ne (by simp)⟩
  | @restated id status source l newer =>
    cases first with
    | lost e =>
      rw [and_iff_left (restates_lost e)]
      rfl
    | arrives there =>
      cases b with
      | none =>
        rw [and_iff_left restates_none_right]
        exact agree_call_register_iff
          (l.replace ((l.record.withStatus status).atVersion (l.version + 1)) source now) second
          none
      | some x =>
        by_cases hle : l.version + 1 ≤ x.version
        · rw [and_iff_left]
          · simp only [exchange, call, receive, statusUpdate, if_pos hle]
            rfl
          · rintro _ _ _ _ ⟨⟩ _ _ _ _ ⟨⟩ hlt
            exact absurd hlt (UInt64.not_lt.mpr hle)
        · simp only [exchange, call, receive, statusUpdate, if_neg hle]
          refine agree_some.trans ⟨fun hag => ⟨agree_some.mpr fun hv => ?_, ?_⟩, fun hag _ => ?_⟩
          · exact absurd (UInt64.le_of_eq hv.symm) hle
          · rintro _ _ _ _ ⟨⟩ _ _ ⟨⟩ _ ⟨⟩ _
            exact hag rfl
          · exact hag.2 id status _ there rfl rfl _ rfl x rfl (UInt64.not_le.mp hle)
  | @renewed id source l =>
    rw [and_iff_left (restates_of_ne (by simp))]
    cases first with
    | lost e => rfl
    | arrives there =>
      cases b with
      | none => exact agree_call_register_iff (l.renew now) second none
      | some x =>
        exact (agree_some (m := x.renew there)).trans (agree_some (l := l.renew now) (m := x)).symm

end Slot

namespace Receiver

variable {origin : ServerId} {fate : Nat → Fate} {c : Coordinator} {r : Receiver} {m : PeerMessage}
  {id : InstanceId}

/-- A call changes the slot of its instance only. -/
theorem call_spec (origin : ServerId) (fate : Nat → Fate) (hm : m.instanceId? = some id)
    (hr : r.coordinator.store.WellFormed) :
    (r.call origin fate m).2.coordinator.store.WellFormed ∧
      (r.call origin fate m).1.reply? =
        (Slot.call origin (fate r.calls) m (r.coordinator.store.lease? id)).1 ∧
      ∀ k, (r.call origin fate m).2.coordinator.store.lease? k =
        if k = id then (Slot.call origin (fate r.calls) m (r.coordinator.store.lease? id)).2
        else r.coordinator.store.lease? k := by
  unfold call Slot.call
  cases fate r.calls with
  | lost e =>
    refine ⟨hr, ?_, fun k => ?_⟩
    · cases e <;> rfl
    · by_cases hk : k = id
      · rw [if_pos hk, hk]
      · rw [if_neg hk]
  | arrives now =>
    exact ⟨Coordinator.wellFormed_receive hr now origin hm,
      congrArg some (r.coordinator.reply_receive now origin hm),
      Coordinator.lease?_receive hr now origin hm⟩

theorem calls_call : (r.call origin fate m).2.calls = r.calls + 1 := by
  unfold call
  cases fate r.calls <;> rfl

theorem bind_repair? (c : Coordinator) (reply : Option PeerReply) :
    reply.bind c.repair? =
      (reply.bind PeerReply.missing?).bind fun id => (c.store.record? id).map .register := by
  cases reply <;> rfl

/-- A message and its repair change the slot of their instance only. -/
theorem exchange_spec (origin : ServerId) (fate : Nat → Fate) (hm : m.instanceId? = some id)
    (hc : c.store.WellFormed) (hr : r.coordinator.store.WellFormed) :
    (r.exchange origin fate c m).coordinator.store.WellFormed ∧
      ∀ k, (r.exchange origin fate c m).coordinator.store.lease? k =
        if k = id then Slot.exchange origin (fate r.calls) (fate (r.calls + 1))
          (c.store.record? id) m (r.coordinator.store.lease? id)
        else r.coordinator.store.lease? k := by
  obtain ⟨hwf, hreply, hlease⟩ := call_spec origin fate hm hr
  have hself := hlease id
  rw [if_pos rfl] at hself
  simp only [exchange, bind_repair?, hreply, Slot.exchange]
  rcases Slot.missing?_call hm origin (fate r.calls) (r.coordinator.store.lease? id) with hn | hn
  · simp only [hn, Option.bind_none]
    exact ⟨hwf, hlease⟩
  · simp only [hn, Option.bind_some]
    cases hrec : c.store.record? id with
    | none => exact ⟨hwf, hlease⟩
    | some record =>
      have hid : (PeerMessage.register record).instanceId? = some id := by
        obtain ⟨l, hl, rfl⟩ := Option.map_eq_some_iff.mp hrec
        exact congrArg some (hc.id_of_lease? hl)
      obtain ⟨hwf', -, hlease'⟩ := call_spec origin fate hid hwf
      refine ⟨hwf', fun k => ?_⟩
      simp only [Option.map_some]
      rw [hlease', hself, calls_call]
      by_cases hk : k = id
      · rw [if_pos hk, if_pos hk]
      · rw [if_neg hk, if_neg hk, hlease, if_neg hk]

/-- Messages change the slots of their instances only. -/
theorem foldl_exchange_spec {ms : List PeerMessage}
    (hms : ∀ m ∈ ms, ∃ i, m.instanceId? = some i) (hc : c.store.WellFormed)
    (hr : r.coordinator.store.WellFormed) :
    (ms.foldl (exchange origin fate c) r).coordinator.store.WellFormed ∧
      ∀ k, (∀ m ∈ ms, m.instanceId? ≠ some k) →
        (ms.foldl (exchange origin fate c) r).coordinator.store.lease? k =
          r.coordinator.store.lease? k := by
  induction ms generalizing r with
  | nil => exact ⟨hr, fun _ _ => rfl⟩
  | cons m ms ih =>
    obtain ⟨i, hi⟩ := hms m List.mem_cons_self
    obtain ⟨hwf, hlease⟩ := exchange_spec origin fate hi hc hr
    obtain ⟨hwf', hlease'⟩ := ih (fun m hm => hms m (List.mem_cons_of_mem _ hm)) hwf
    refine ⟨hwf', fun k hk => ?_⟩
    have hki : k ≠ i := by
      rintro rfl
      exact hk m List.mem_cons_self hi
    rw [List.foldl_cons, hlease' k fun m hm => hk m (List.mem_cons_of_mem _ hm), hlease,
      if_neg hki]

/-- A request of the server `c` with its message, on the slot that they are about. -/
theorem agree_perform_iff (origin : ServerId) (fate : Nat → Fate) {now : Time} {q : Request}
    (hc : c.store.WellFormed) (hr : r.coordinator.store.WellFormed)
    (h : Slot.Agree (c.store.lease? q.id) (r.coordinator.store.lease? q.id))
    (hm : Slot.message? now q (c.store.lease? q.id) = some m) :
    let c' := (c.perform now q).2.2
    Slot.Agree (c'.store.lease? q.id)
        ((r.exchange origin fate c' m).coordinator.store.lease? q.id) ↔
      Slot.Agree (c'.store.lease? q.id) (r.coordinator.store.lease? q.id) ∧
        Slot.Restates (fate r.calls) m (c'.store.lease? q.id)
          (r.coordinator.store.lease? q.id) := by
  intro c'
  have hnew : c'.store.lease? q.id = (Slot.handle now q (c.store.lease? q.id)).2 := by
    rw [Coordinator.lease?_perform hc, if_pos rfl]
  obtain ⟨-, hlease⟩ := exchange_spec origin fate (Slot.instanceId?_of_message? hm)
    (Coordinator.wellFormed_perform hc now q) hr
  rw [hlease, if_pos rfl, Store.record?_eq, hnew]
  exact Slot.agree_exchange_iff h (fun _ hl => hc.id_of_lease? hl) hm

end Receiver

/-! ## Runs -/

namespace Pair

variable {ε : Type} {k : Nat} {q : Peers ε} {id : InstanceId}

/-- Where both servers hold the instance at the same version, they hold the same record. -/
def Agrees (id : InstanceId) (p : Pair ε) : Prop :=
  Slot.Agree (p.sender.store.lease? id) (p.receiver.store.lease? id)

/-- The record that the round leaves at the sender reuses no version at which the receiver holds
another, and a status update that arrives turns an older record into the sender's. -/
structure Heeds (id : InstanceId) (p : Pair ε) (r : Round) : Prop where
  fresh : Slot.Agree ((p.sender.operate r.now r.operation).1.store.lease? id)
    (p.receiver.store.lease? id)
  based : ∀ status version there,
    .statusUpdate id status version ∈ (p.sender.operate r.now r.operation).2 →
    r.fate 0 = .arrives there →
    ∀ l ∈ (p.sender.operate r.now r.operation).1.store.lease? id,
    ∀ m ∈ p.receiver.store.lease? id, m.version < version →
      (m.record.withStatus status).atVersion version = l.record

/-- The stores are well formed, and the receiver is one of the peers. -/
structure Linked (k : Nat) (p : Pair ε) : Prop where
  peer : k < p.sender.coordinator.peers
  sender : p.sender.store.WellFormed
  receiver : p.receiver.store.WellFormed

end Pair

namespace Server

variable {s : Server} (hs : s.store.WellFormed) (now : Time)
include hs

theorem wellFormed_operate (o : Operation) : (s.operate now o).1.store.WellFormed := by
  cases o with
  | request r h => exact Coordinator.wellFormed_perform hs now r
  | evict =>
    simp only [operate]
    split
    · exact hs
    · exact (evicts_evictionPass hs _ _ now).wellFormed
  | enqueue record source => exact hs

/-- Every message of an operation is about one instance. -/
theorem instanceId?_operate (o : Operation) :
    ∀ m ∈ (s.operate now o).2, ∃ i, m.instanceId? = some i := by
  cases o with
  | request r h =>
    intro m hm
    have hmessage : (s.coordinator.perform now r).2.1 = some m := Option.mem_toList.mp hm
    rw [s.coordinator.perform_message now r hs, h,
      if_pos (show Source.here.fansOut = true from rfl)] at hmessage
    exact ⟨r.id, Slot.instanceId?_of_message? hmessage⟩
  | evict =>
    simp only [operate]
    split
    · simp
    · intro m hm
      obtain ⟨l, -, rfl⟩ := List.mem_map.mp hm
      exact ⟨l.record.id, rfl⟩
  | enqueue record source => simp [operate]

end Server

namespace Pair

variable {ε : Type} {k : Nat} {q : Peers ε} {id : InstanceId} {p : Pair ε}

theorem Linked.heard (hp : p.Linked k) (r : Round) :
    (p.heard r).coordinator.store.WellFormed ∧ ∀ id,
      (∀ m ∈ (p.sender.operate r.now r.operation).2, m.instanceId? ≠ some id) →
        (p.heard r).coordinator.store.lease? id = p.receiver.store.lease? id :=
  Receiver.foldl_exchange_spec (r := ⟨p.receiver, 0, []⟩)
    (Server.instanceId?_operate hp.sender r.now r.operation)
    (Server.wellFormed_operate hp.sender r.now r.operation) hp.receiver

theorem Linked.round (hp : p.Linked k) (r : Round) : (p.round k q r).Linked k := by
  refine ⟨?_, ?_, ?_⟩
  · rw [peers_round p r hp.peer]
    exact hp.peer
  · obtain ⟨others, heq⟩ := p.round_eq (q := q) r hp.peer
    rw [heq]
    exact Server.wellFormed_operate hp.sender r.now r.operation
  · obtain ⟨others, heq⟩ := p.round_eq (q := q) r hp.peer
    rw [heq]
    exact (hp.heard r).1

/-- If no message is about the instance, only the sender's side can change. -/
theorem Linked.agree_heard_iff_of_untold (hp : p.Linked k) {r : Round}
    (hm : ∀ m ∈ (p.sender.operate r.now r.operation).2, m.instanceId? ≠ some id) :
    Slot.Agree ((p.sender.operate r.now r.operation).1.store.lease? id)
      ((p.heard r).coordinator.store.lease? id) ↔ p.Heeds id r := by
  rw [(hp.heard r).2 id hm]
  refine ⟨fun h => ⟨h, fun status version there hs => ?_⟩, Heeds.fresh⟩
  exact absurd rfl (hm _ hs)

theorem agree_heard_request_iff (hp : p.Linked k) (h : p.Agrees id) (r : Request)
    (hsource : r.source = .here) (now : Time) (fate : Nat → Fate) (ends : Nat → Time)
    (htold : ∃ m ∈ (p.sender.operate now (.request r hsource)).2, m.instanceId? = some id) :
    Slot.Agree ((p.sender.operate now (.request r hsource)).1.store.lease? id)
        ((p.heard ⟨.request r hsource, now, fate, ends⟩).coordinator.store.lease? id) ↔
      p.Heeds id ⟨.request r hsource, now, fate, ends⟩ := by
  obtain ⟨m, hmem, hid⟩ := htold
  have hmessage : (p.sender.coordinator.perform now r).2.1 = some m := Option.mem_toList.mp hmem
  have hm := hmessage
  rw [p.sender.coordinator.perform_message now r hp.sender, hsource,
    if_pos (show Source.here.fansOut = true from rfl)] at hm
  obtain rfl : r.id = id := by
    rw [Slot.instanceId?_of_message? hm, Option.some.injEq] at hid
    exact hid
  have hiff := Receiver.agree_perform_iff p.sender.coordinator.id fate
    (r := ⟨p.receiver, 0, []⟩) hp.sender hp.receiver h hm
  simp only [heard, Server.operate, hmessage, Option.toList_some, List.foldl_cons, List.foldl_nil]
  refine hiff.trans ⟨fun h => ⟨h.1, ?_⟩, fun hh => ⟨hh.fresh, ?_⟩⟩
  · intro status version there hs hf
    obtain rfl : .statusUpdate r.id status version = m := by
      simpa [Server.operate, hmessage] using hs
    exact h.2 r.id status version there rfl hf
  · rintro i status version there rfl hf
    obtain rfl : i = r.id := Option.some.inj hid
    exact hh.based status version there hmem hf

theorem agrees_round_iff (hp : p.Linked k) (h : p.Agrees id) (r : Round) :
    (p.round k q r).Agrees id ↔ p.Heeds id r := by
  obtain ⟨others, heq⟩ := p.round_eq (q := q) r hp.peer
  rw [heq]
  change Slot.Agree ((p.sender.operate r.now r.operation).1.store.lease? id)
    ((p.heard r).coordinator.store.lease? id) ↔ p.Heeds id r
  by_cases htold : ∃ m ∈ (p.sender.operate r.now r.operation).2, m.instanceId? = some id
  · obtain ⟨operation, now, fate, ends⟩ := r
    cases operation with
    | request r hsource => exact agree_heard_request_iff hp h r hsource now fate ends htold
    | evict =>
      have hgone : (p.sender.operate now .evict).1.store.lease? id = none := by
        obtain ⟨m, hm, hid⟩ := htold
        simp only [Server.operate] at hm ⊢
        split at hm
        · cases hm
        · rename_i hidle
          obtain ⟨l, hl, rfl⟩ := List.mem_map.mp hm
          cases hid
          rw [if_neg hidle]
          exact (evicts_evictionPass hp.sender _ _ now).gone l hl
      rw [hgone]
      refine iff_of_true (Slot.agree_none_left _) ⟨?_, fun _ _ _ _ _ l hl => ?_⟩
      · rw [hgone]
        exact Slot.agree_none_left _
      · rw [hgone] at hl
        cases hl
    | enqueue record source =>
      obtain ⟨m, hm, -⟩ := htold
      cases hm
  · exact hp.agree_heard_iff_of_untold fun m hm hid => htold ⟨m, hm, hid⟩

/-! ## The receiver between the rounds -/

/-- What can happen to a pair in which only the sender writes the instance `id`. -/
inductive Event (id : InstanceId) where
  | sent (r : Round)
  | handled (now : Time) (r : Request) (other : r.id ≠ id)
  | told (now : Time) (origin : ServerId) (m : PeerMessage) (about : InstanceId)
    (isAbout : m.instanceId? = some about) (other : about ≠ id)
  | evicted (now : Time) (queue : EvictionQueue)

variable (k q)

def step (p : Pair ε) : Event id → Pair ε
  | .sent r => p.round k q r
  | .handled now r _ => { p with receiver := (p.receiver.perform now r).2.2 }
  | .told now origin m _ _ _ => { p with receiver := (p.receiver.receive now origin m).2 }
  | .evicted now queue =>
    let registry := p.receiver.registry
    let (_, store, preservation, _) :=
      evictionPass registry.store registry.preservation queue now
    { p with receiver := { p.receiver with registry := ⟨store, preservation⟩ } }

def play (p : Pair ε) (events : List (Event id)) : Pair ε := events.foldl (step k q) p

variable {k q}

/-- What the pair must heed if the servers are to agree after the event. -/
def Event.Sound (p : Pair ε) : Event id → Prop
  | .sent r => p.Heeds id r
  | .handled .. | .told .. | .evicted .. => True

theorem Linked.step (hp : p.Linked k) (e : Event id) : (p.step k q e).Linked k := by
  cases e with
  | sent r => exact hp.round r
  | handled now r other =>
    exact ⟨hp.peer, hp.sender, Coordinator.wellFormed_perform hp.receiver now r⟩
  | told now origin m about isAbout other =>
    exact ⟨hp.peer, hp.sender, Coordinator.wellFormed_receive hp.receiver now origin isAbout⟩
  | evicted now queue =>
    exact ⟨hp.peer, hp.sender, (evicts_evictionPass hp.receiver _ _ now).wellFormed⟩

theorem Agrees.of_kept (h : p.Agrees id) {c : Coordinator}
    (hc : c.store.lease? id = none ∨ c.store.lease? id = p.receiver.store.lease? id) :
    ({ p with receiver := c } : Pair ε).Agrees id := by
  rcases hc with hc | hc
  · simp only [Agrees, hc]
    exact Slot.agree_none_right _
  · simp only [Agrees, hc]
    exact h

theorem agrees_step_iff (hp : p.Linked k) (h : p.Agrees id) (e : Event id) :
    (p.step k q e).Agrees id ↔ e.Sound p := by
  cases e with
  | sent r => exact agrees_round_iff hp h r
  | handled now r other =>
    have hlease := Coordinator.lease?_perform hp.receiver now r id
    rw [if_neg (Ne.symm other)] at hlease
    exact iff_of_true (h.of_kept (.inr hlease)) trivial
  | told now origin m about isAbout other =>
    have hlease := Coordinator.lease?_receive hp.receiver now origin isAbout id
    rw [if_neg (Ne.symm other)] at hlease
    exact iff_of_true (h.of_kept (.inr hlease)) trivial
  | evicted now queue =>
    have he := evicts_evictionPass hp.receiver p.receiver.registry.preservation queue now
    exact iff_of_true (h.of_kept (he.none_or_same id)) trivial

/-- The servers agree throughout a run exactly if every round of it heeds the two conditions. -/
theorem agrees_always_iff (hp : p.Linked k) (h : p.Agrees id) (events : List (Event id)) :
    (∀ done, done <+: events → (p.play k q done).Agrees id) ↔
      ∀ done e, done ++ [e] <+: events → e.Sound (p.play k q done) := by
  induction events generalizing p with
  | nil =>
    refine iff_of_true (fun done hd => ?_) (fun done e hd => ?_)
    · obtain rfl := List.prefix_nil.mp hd
      exact h
    · simp at hd
  | cons e events ih =>
    have hstep := agrees_step_iff (q := q) hp h e
    constructor
    · intro hall
      have h' : (p.step k q e).Agrees id := hall [e] (by simp)
      have hrest := (ih (hp.step e) h').mp fun done hd => hall (e :: done) (by simpa using hd)
      intro done e' hd
      cases done with
      | nil =>
        obtain rfl : e' = e := by simpa using hd
        exact hstep.mp h'
      | cons d done =>
        simp only [List.cons_append, List.cons_prefix_cons] at hd
        obtain ⟨rfl, hd⟩ := hd
        exact hrest done e' hd
    · intro hall
      have h' : (p.step k q e).Agrees id := hstep.mpr (hall [] e (by simp))
      have hrest := (ih (hp.step e) h').mpr fun done e' hd =>
        hall (e :: done) e' (by simpa using hd)
      intro done hd
      cases done with
      | nil => exact h
      | cons d done =>
        rw [List.cons_prefix_cons] at hd
        obtain ⟨rfl, hd⟩ := hd
        exact hrest done hd

/-- An update that is lost and a status update that is not. -/
def missedUpdate : List (Event ⟨"web"⟩) :=
  let record := (Record.bare ⟨"web"⟩ "shop").atVersion 1
  [.sent (.arriving 5 (.request (.register record .here) rfl)),
   .sent (.losing 6 (.request (.update { record with app := "store", version := 2 } [] .here) rfl)),
   .sent (.arriving 7 (.request (.statusUpdate ⟨"web"⟩ .up .here) rfl))]

/-- The status update reaches the record that the update should have replaced, and leaves two
records at version 3. -/
theorem records_differ_of_missedUpdate :
    let p := (start (.fresh ⟨"a", by decide⟩ 1) (.fresh ⟨"b", by decide⟩ 1) ()).play 0 .silent
      missedUpdate
    p.sender.store.version? ⟨"web"⟩ = some 3 ∧ p.receiver.store.version? ⟨"web"⟩ = some 3 ∧
      (p.sender.store.record? ⟨"web"⟩).map (·.app) = some "store" ∧
      (p.receiver.store.record? ⟨"web"⟩).map (·.app) = some "shop" := by
  decide +kernel

/-- That run is told apart by what it fails to heed. -/
theorem not_sound_of_missedUpdate :
    let p := start (.fresh ⟨"a", by decide⟩ 1) (.fresh ⟨"b", by decide⟩ 1) ()
    p.Linked 0 ∧ p.Agrees ⟨"web"⟩ ∧
      ¬∀ done e, done ++ [e] <+: missedUpdate → e.Sound (p.play 0 .silent done) := by
  intro p
  have hp : p.Linked 0 := ⟨Nat.zero_lt_one, Store.wellFormed_empty, Store.wellFormed_empty⟩
  have h : p.Agrees ⟨"web"⟩ := Slot.agree_none_left _
  refine ⟨hp, h, fun hsound => ?_⟩
  have hall := (agrees_always_iff hp h missedUpdate).mpr hsound missedUpdate List.prefix_rfl
  revert hall
  unfold Agrees Slot.Agree
  decide +kernel

end Pair

end LeaseRegistry
