import LeaseRegistry.Proofs.Instance.Json
import LeaseRegistry.Proofs.Message.Size
import LeaseRegistry.Proofs.Replication.Slot
import LeaseRegistry.Proofs.Store.Listing

/-!
# What client frames can bring into a store

Where no client sends more than `n` bytes at a time, there is a bound on each part of a record
(`Record.Fits`). Deltas mix the parts of several frames in one record, so the bound is on the parts,
and that on the record is their sum. What a store holds stays within it, and so does what is sent on
account of it, whether a client or another server asks.
-/

namespace LeaseRegistry

variable {n : Nat}

/-! ## What fits -/

/-- The id of an instance that registered with at most `n` bytes. -/
structure InstanceId.Fits (n : Nat) (id : InstanceId) : Prop where
  nonempty : id.text.isEmpty = false
  size : id.text.utf8ByteSize + 20 ≤ n

namespace Delta

/-- The value is not what makes a record invalid. -/
def Acceptable : Delta → Prop
  | app a => a.isEmpty = false
  | lease t => t.duration ≠ 0 ∧ ¬(t.interval = 0 ∨ t.interval > t.duration)
  | _ => True

/-- A value that came with at most `n` bytes. -/
structure Fits (n : Nat) (d : Delta) : Prop where
  acceptable : d.Acceptable
  size : d.size ≤ 3 * n + 27

theorem Fits.status (n : Nat) (s : Status) : Fits n (.status s) := by
  refine ⟨trivial, ?_⟩
  rw [size_status]
  omega

end Delta

/-- A record whose parts came with at most `n` bytes each. -/
structure Record.Fits (n : Nat) (r : Record) : Prop where
  id : r.id.Fits n
  contents : ∀ d ∈ r.contents, d.Fits n

namespace Record

theorem valid_iff (r : Record) :
    r.Valid ↔ r.id.text.isEmpty = false ∧ ∀ d ∈ r.contents, d.Acceptable := by
  simp only [Valid, fault?, contents, List.mem_cons, List.not_mem_nil, or_false, forall_eq_or_imp,
    forall_eq, Delta.Acceptable, true_and]
  split
  · rename_i hid
    exact iff_of_false (Option.some_ne_none _) fun h => by simp [hid] at h
  rename_i hid
  split
  · rename_i happ
    exact iff_of_false (Option.some_ne_none _) fun h => by simp [happ] at h
  rename_i happ
  split
  · rename_i hduration
    exact iff_of_false (Option.some_ne_none _) fun h => h.2.2.1 hduration
  rename_i hduration
  split
  · rename_i hinterval
    exact iff_of_false (Option.some_ne_none _) fun h => h.2.2.2 hinterval
  · rename_i hinterval
    exact iff_of_true rfl ⟨eq_false_of_ne_true hid, eq_false_of_ne_true happ, hduration, hinterval⟩

namespace Fits

variable {r : Record}

theorem valid (h : r.Fits n) : r.Valid :=
  r.valid_iff.mpr ⟨h.id.nonempty, fun d hd => (h.contents d hd).acceptable⟩

theorem atVersion (h : r.Fits n) (v : Version) : (r.atVersion v).Fits n := ⟨h.id, h.contents⟩

theorem applyDelta (h : r.Fits n) {d : Delta} (hd : d.Fits n) : (r.applyDelta d).Fits n := by
  refine ⟨(r.id_applyDelta d).symm ▸ h.id, fun e he => ?_⟩
  rcases mem_contents_applyDelta he with rfl | he
  · exact hd
  · exact h.contents e he

theorem withStatus (h : r.Fits n) (s : Status) : (r.withStatus s).Fits n :=
  h.applyDelta (.status n s)

theorem applyDeltas (h : r.Fits n) {ds : List Delta} (hds : ∀ d ∈ ds, d.Fits n) (v : Version) :
    (r.applyDeltas ds v).Fits n := by
  refine atVersion ?_ v
  induction ds generalizing r with
  | nil => exact h
  | cons d ds ih =>
    exact ih (h.applyDelta (hds d List.mem_cons_self)) fun e he => hds e (List.mem_cons_of_mem _ he)

/-- Status and lease terms have a fixed size, the other five values are bounded each. -/
theorem sum_size_le (h : r.Fits n) : (r.contents.map Delta.size).sum ≤ 15 * n + 155 := by
  have happ := (h.contents (.app r.app) (by simp [Record.contents])).size
  have hvip := (h.contents (.vipAddress r.vipAddress) (by simp [Record.contents])).size
  have hdc := (h.contents (.dataCenter r.dataCenter) (by simp [Record.contents])).size
  have hports := (h.contents (.ports r.ports) (by simp [Record.contents])).size
  have hurls := (h.contents (.healthCheckUrls r.healthCheckUrls) (by simp [Record.contents])).size
  simp only [Record.contents, List.map_cons, List.map_nil, List.sum_cons, List.sum_nil]
  rw [Delta.size_status, Delta.size_lease]
  omega

theorem sum_size_diff_le (h : r.Fits n) (older : Record) :
    ((r.diff older).map Delta.size).sum ≤ 15 * n + 155 :=
  (((r.diff_sublist_contents older).map Delta.size).sum_le_sum fun _ _ => Nat.zero_le _).trans
    h.sum_size_le

theorem length_codec_le (h : r.Fits n) : (Record.codec.encode r).length ≤ 16 * n + 123 := by
  have hlength := r.length_codec
  have hsum := h.sum_size_le
  have hid := h.id.size
  omega

end Fits

/-- A record that a client gave in a frame of at most `n` bytes, at any version, of an instance that
registered in one. -/
structure Admitted (n : Nat) (record : Record) : Prop where
  given : ∃ frame m r v, frame.length ≤ n ∧ ClientMessage.parse? frame = some m ∧
    (m = .register r ∨ m = .update r) ∧ record = r.atVersion v
  registered : ∃ frame r, frame.length ≤ n ∧
    ClientMessage.parse? frame = some (.register r) ∧ r.id = record.id

theorem Admitted.fits {record : Record} (h : record.Admitted n) (hv : record.Valid) :
    record.Fits n := by
  obtain ⟨hnonempty, hacceptable⟩ := record.valid_iff.mp hv
  obtain ⟨frame, r, hlen, hparse, hid⟩ := h.registered
  obtain ⟨v, hread, hextent⟩ := ClientMessage.extent_of_parse? hparse (.inl rfl)
  have hsize := Record.utf8ByteSize_lt hread
  have hkind : (ClientMessage.register r).kind.utf8ByteSize = 8 := rfl
  rw [hid] at hsize
  refine ⟨⟨hnonempty, by omega⟩, fun d hd => ⟨hacceptable d hd, ?_⟩⟩
  obtain ⟨frame, m, r, version, hlen, hparse, hm, rfl⟩ := h.given
  obtain ⟨v, hread, hextent⟩ := ClientMessage.extent_of_parse? hparse hm
  have hkind : 6 ≤ m.kind.utf8ByteSize := by
    rcases hm with rfl | rfl
    · exact (by decide : 6 ≤ "register".utf8ByteSize)
    · exact (by decide : 6 ≤ "update".utf8ByteSize)
  have hsum := Record.sum_size_le hread
  have hd := List.le_sum_of_mem (List.mem_map_of_mem hd (f := Delta.size))
  rw [contents_atVersion] at hd
  omega

end Record

/-- What a message brings along fits. -/
def PeerMessage.Fits (n : Nat) : PeerMessage → Prop
  | register record => record.Fits n
  | update id _ _ deltas =>
    id.Fits n ∧ (∀ d ∈ deltas, d.Fits n) ∧ (deltas.map Delta.size).sum ≤ 15 * n + 155
  | unregister id _ | statusUpdate id _ _ | heartbeat id => id.Fits n
  | fetchSnapshot => True

/-- What a reply brings along fits, and the only error is that of a server that is not ready. -/
def PeerReply.Fits (n : Nat) : PeerReply → Prop
  | ack => True
  | snapshot _ records => ∀ r ∈ records, r.Fits n
  | unknownInstance id | stale id => id.Fits n
  | error reason => reason = notReady

/-! ## Sizes of messages that fit -/

/-- The most bytes of a request where clients send `n` bytes at a time. -/
def PeerMessage.limit (n : Nat) : PeerMessage → Nat
  | register _ => 16 * n + 127
  | update .. => 16 * n + 171
  | unregister .. | heartbeat _ => n
  | statusUpdate .. => n + 4
  | fetchSnapshot => 4

/-- The most bytes of a reply where clients send `n` bytes at a time. -/
def PeerReply.limit (n : Nat) : PeerReply → Nat
  | ack => 4
  | snapshot _ records => 148 + records.length * (16 * n + 123)
  | unknownInstance _ | stale _ => n
  | error _ => 30

theorem PeerMessage.limit_le (hn : n ≤ 65525) (m : PeerMessage) :
    m.limit n ≤ Handshake.maxMessageSize := by
  have hmax : Handshake.maxMessageSize = 1048576 := rfl
  cases m <;> simp only [limit] <;> omega

theorem PeerMessage.Fits.length_le {m : PeerMessage} (h : m.Fits n) :
    m.encode.length ≤ m.limit n := by
  cases m with
  | register record =>
    have hlength := length_register record
    have hsum := Record.Fits.sum_size_le h
    have hid := h.id.size
    simp only [limit]
    omega
  | update id base version deltas =>
    obtain ⟨hid, -, hsum⟩ := h
    have hid := hid.size
    rw [length_update, limit]
    omega
  | unregister id version =>
    have hid := InstanceId.Fits.size h
    rw [length_unregister, limit]
    omega
  | statusUpdate id status version =>
    have hid := InstanceId.Fits.size h
    rw [length_statusUpdate, limit]
    omega
  | heartbeat id =>
    have hid := InstanceId.Fits.size h
    rw [length_heartbeat, limit]
    omega
  | fetchSnapshot => exact Nat.le_refl 4

theorem PeerReply.Fits.length_le {r : PeerReply} (h : r.Fits n) : r.encode.length ≤ r.limit n := by
  cases r with
  | ack => exact Nat.le_refl 4
  | snapshot server records =>
    have hserver := server.utf8ByteSize_le
    have hmax : ServerId.maxBytes = 128 := rfl
    have hrecords : (records.map fun r => (Record.codec.encode r).length).sum ≤
        records.length * (16 * n + 123) := by
      have := List.sum_le_card_nsmul (records.map fun r => (Record.codec.encode r).length)
        (16 * n + 123) fun k hk => by
          obtain ⟨r, hr, rfl⟩ := List.mem_map.mp hk
          exact (h r hr).length_codec_le
      simpa using this
    rw [length_snapshot, limit]
    omega
  | unknownInstance id =>
    have hid := InstanceId.Fits.size h
    rw [length_unknownInstance, limit]
    omega
  | stale id =>
    have hid := InstanceId.Fits.size h
    rw [length_stale, limit]
    omega
  | error reason =>
    obtain rfl : reason = notReady := h
    have hreason : notReady.utf8ByteSize = 18 := by decide
    rw [length_error, hreason, limit]

/-! ## On one slot -/

def Slot.Fits (n : Nat) (slot : Slot) : Prop := ∀ l ∈ slot, l.record.Fits n

def Request.record? : Request → Option Record
  | register record _ | update record _ _ => some record
  | unregister .. | statusUpdate .. | renew .. => none

namespace Slot

theorem fits_none (n : Nat) : Fits n none := fun _ h => by cases h

theorem fits_some {l : Lease} (h : l.record.Fits n) : Fits n (some l) := by
  rintro _ ⟨⟩
  exact h

/-- A request leaves what fits, and so does the message that it gives rise to. -/
theorem Effect.fits {now : Time} {r : Request} {slot : Slot} {res : Answer × Slot}
    {message : Option PeerMessage} (h : Effect now r slot res message) (hslot : slot.Fits n)
    (hid : ∀ l ∈ slot, l.record.id = r.id) (hr : ∀ record ∈ r.record?, record.Admitted n) :
    Fits n res.2 ∧ ∀ m ∈ message, m.Fits n := by
  cases h with
  | refused => exact ⟨hslot, nofun⟩
  | added hv =>
    have hrecord := (hr _ rfl).fits hv
    refine ⟨fits_some hrecord, ?_⟩
    rintro _ ⟨⟩
    exact hrecord
  | registered hv =>
    have hrecord := (hr _ rfl).fits hv
    refine ⟨fits_some hrecord, ?_⟩
    rintro _ ⟨⟩
    exact hrecord
  | @updated record deltas source l hv =>
    have hrecord := (hr _ rfl).fits hv
    refine ⟨fits_some hrecord, ?_⟩
    rintro _ ⟨⟩
    exact ⟨hrecord.id, fun d hd =>
      hrecord.contents d ((record.diff_sublist_contents l.record).subset hd),
      hrecord.sum_size_diff_le l.record⟩
  | @removed id version source l =>
    obtain rfl : l.record.id = id := hid l rfl
    refine ⟨fits_none n, ?_⟩
    rintro _ ⟨⟩
    exact (hslot l rfl).id
  | @restated id status source l =>
    obtain rfl : l.record.id = id := hid l rfl
    refine ⟨fits_some (((hslot l rfl).withStatus status).atVersion _), ?_⟩
    rintro _ ⟨⟩
    exact (hslot l rfl).id
  | @renewed id source l =>
    obtain rfl : l.record.id = id := hid l rfl
    refine ⟨fits_some (hslot l rfl), ?_⟩
    rintro _ ⟨⟩
    exact (hslot l rfl).id

theorem fits_register {record : Record} (hr : record.Fits n) (origin : ServerId) (now : Time)
    {slot : Slot} (hslot : slot.Fits n) :
    Fits n (register record (.replicated origin) now slot).2 ∧
      (PeerReply.ofAnswer (.ofStore (register record (.replicated origin) now slot).1)).Fits n := by
  rw [register_of_valid hr.valid]
  cases slot with
  | none => exact ⟨fits_some hr, trivial⟩
  | some l =>
    simp only [write]
    split
    · exact ⟨hslot, trivial⟩
    · exact ⟨fits_some hr, trivial⟩

/-- The message of another server leaves what fits, and so does the reply to it. -/
theorem fits_receive {m : PeerMessage} (hm : m.Fits n) (origin : ServerId) (now : Time)
    {slot : Slot} (hslot : slot.Fits n) :
    Fits n (receive origin now m slot).2 ∧ (receive origin now m slot).1.Fits n := by
  cases m with
  | register record => exact fits_register hm origin now hslot
  | update id base version deltas =>
    obtain ⟨hid, hdeltas, -⟩ := hm
    simp only [receive]
    cases slot with
    | none => exact ⟨hslot, hid⟩
    | some l =>
      have hnext := (hslot l rfl).applyDeltas hdeltas version
      have hvalid : (l.record.applyDeltas deltas version).fault? = none := hnext.valid
      simp only [updateWithDeltas, hvalid]
      split
      · exact ⟨hslot, trivial⟩
      split
      · exact ⟨hslot, hid⟩
      · exact ⟨fits_some hnext, trivial⟩
  | unregister id version =>
    simp only [receive]
    cases slot with
    | none => exact ⟨hslot, trivial⟩
    | some l =>
      simp only [unregister]
      split
      · exact ⟨hslot, trivial⟩
      · exact ⟨fits_none n, trivial⟩
  | statusUpdate id status version =>
    simp only [receive]
    cases slot with
    | none => exact ⟨hslot, hm⟩
    | some l =>
      simp only [statusUpdate]
      split
      · exact ⟨hslot, trivial⟩
      · exact ⟨fits_some (((hslot l rfl).withStatus status).atVersion version), trivial⟩
  | heartbeat id =>
    cases slot with
    | none => exact ⟨hslot, hm⟩
    | some l => exact ⟨fits_some (hslot l rfl), trivial⟩
  | fetchSnapshot => exact ⟨hslot, trivial⟩

end Slot

/-! ## In a store -/

/-- A well-formed store in which every record fits. -/
structure Store.Fits (n : Nat) (s : Store) : Prop where
  wellFormed : s.WellFormed
  slots : ∀ id, Slot.Fits n (s.lease? id)

namespace Store

variable {s : Store} {id : InstanceId}

theorem fits_empty (n : Nat) : Fits n .empty := ⟨wellFormed_empty, fun _ => Slot.fits_none n⟩

theorem Fits.put (h : s.Fits n) {slot : Slot} (hslot : slot.Fits n)
    (hid : ∀ l ∈ slot, l.record.id = id) : (s.put id slot).Fits n := by
  refine ⟨h.wellFormed.put hid, fun k => ?_⟩
  rw [lease?_put h.wellFormed]
  split
  · exact hslot
  · exact h.slots k

theorem Fits.record? (h : s.Fits n) {r : Record} (hr : s.record? id = some r) : r.Fits n := by
  obtain ⟨l, hl, rfl⟩ := Option.map_eq_some_iff.mp hr
  exact h.slots id l hl

theorem Fits.evictIf (h : s.Fits n) {due : Lease → Bool} {now : Time} {l : Lease} {s' : Store}
    (he : s.evictIf id due now = (some l, s')) :
    s'.Fits n ∧ (PeerMessage.evicting l).Fits n := by
  rw [evictIf_eq_onSlot] at he
  cases hl : s.lease? id with
  | none =>
    rw [onSlot_of_absent hl] at he
    cases he
  | some m =>
    rw [onSlot_of_lease hl, Slot.evictIf] at he
    split at he
    · cases he
      refine ⟨h.put (Slot.fits_none n) fun k hk => ?_, (h.slots id m hl).id⟩
      cases hk
    · cases he

end Store

/-! ## On a server -/

namespace Registry

theorem fits_adopt {g : Registry} (h : g.store.Fits n) (origin : ServerId) (now : Time)
    {records : List Record} (hrecords : ∀ r ∈ records, r.Fits n) :
    (g.adopt origin now records).2.store.Fits n := by
  induction records generalizing g with
  | nil => exact h
  | cons record records ih =>
    have hfits := (Slot.fits_register (hrecords record List.mem_cons_self) origin now
      (h.slots record.id)).1
    have hkeeps := Slot.KeepsId.register record (.replicated origin) now _ fun _ hl =>
      h.wellFormed.id_of_lease? hl
    have hstore : (g.register record (.replicated origin) now).2.store.Fits n := by
      simp only [register, write, Store.register_eq_onSlot]
      exact h.put hfits hkeeps
    exact ih hstore fun r hr => hrecords r (List.mem_cons_of_mem _ hr)

end Registry

namespace Coordinator

variable {c : Coordinator}

theorem fits_perform (h : c.store.Fits n) (now : Time) {r : Request}
    (hr : ∀ record ∈ r.record?, record.Admitted n) :
    (c.perform now r).2.2.store.Fits n ∧ ∀ m ∈ (c.perform now r).2.1, m.Fits n := by
  have hid : ∀ l ∈ c.store.lease? r.id, l.record.id = r.id := fun _ hl =>
    h.wellFormed.id_of_lease? hl
  have hfits := (Slot.effect_handle now r (c.store.lease? r.id)).fits (h.slots r.id) hid hr
  refine ⟨?_, fun m hm => ?_⟩
  · rw [perform_store]
    exact h.put hfits.1 (Slot.KeepsId.handle now r _ hid)
  · rw [perform_message c now r h.wellFormed] at hm
    split at hm
    · exact hfits.2 m hm
    · cases hm

theorem fits_receive (h : c.store.Fits n) (now : Time) (origin : ServerId) {m : PeerMessage}
    (hm : m.Fits n) :
    (c.receive now origin m).2.store.Fits n ∧ (c.receive now origin m).1.Fits n := by
  cases hid : m.instanceId? with
  | some id =>
    have hfits := Slot.fits_receive hm origin now (h.slots id)
    rw [store_receive c now origin hid, reply_receive c now origin hid]
    exact ⟨h.put hfits.1 (Slot.KeepsId.receive hid origin now _ fun _ hl =>
      h.wellFormed.id_of_lease? hl), hfits.2⟩
  | none =>
    cases m <;> cases hid
    refine ⟨h, ?_⟩
    simp only [receive]
    split
    · intro r hr
      exact h.record? (h.wellFormed.mem_snapshot_iff.mp hr)
    · rfl

theorem fits_repair? (h : c.store.Fits n) {reply : PeerReply} {m : PeerMessage}
    (hm : c.repair? reply = some m) : m.Fits n := by
  obtain ⟨id, -, hrecord⟩ := Option.bind_eq_some_iff.mp hm
  obtain ⟨record, hr, rfl⟩ := Option.map_eq_some_iff.mp hrecord
  exact h.record? hr

theorem fits_adopt (h : c.store.Fits n) (now : Time) {s : Snapshot}
    (hs : ∀ r ∈ s.records, r.Fits n) : (c.adopt now s).2.store.Fits n :=
  Registry.fits_adopt h s.server now hs

end Coordinator

end LeaseRegistry
