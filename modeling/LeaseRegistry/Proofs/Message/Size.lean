import LeaseRegistry.Link.Frame
import LeaseRegistry.Message.Client
import LeaseRegistry.Proofs.Instance.Size

/-!
# How large messages are

The number of bytes of every message between servers, and what a frame of a client says about the
record that came in it.
-/

namespace LeaseRegistry

open Codec

open Json (sum_fieldExtent_le_load exists_of_required)

/-! ## Messages of clients -/

namespace ClientMessage

theorem extent_of_contentRecord? {content : Json} {r : Record}
    (h : contentRecord? content = some r) :
    ∃ v, Record.ofJson? .kept v = some r ∧ v.extent < content.load := by
  simp only [contentRecord?, Option.bind_eq_bind, Option.bind_eq_some_iff] at h
  obtain ⟨fs, hfs, hr⟩ := h
  obtain ⟨v, hv, hextent⟩ := exists_of_required hr
  have hload := sum_fieldExtent_le_load ["instance"] (by decide) hfs
  rw [List.map_singleton, List.sum_singleton, hextent] at hload
  exact ⟨v, hv, hload⟩

/-- The frame that a record came in spells the record, and around it the kind of the message. -/
theorem extent_of_parse? {s : List UInt8} {m : ClientMessage} {r : Record}
    (h : parse? s = some m) (hm : m = .register r ∨ m = .update r) :
    ∃ v, Record.ofJson? .kept v = some r ∧ v.extent + m.kind.utf8ByteSize + 5 ≤ s.length := by
  obtain ⟨v, hv, hread⟩ := Option.bind_eq_some_iff.mp h
  have hlength := Json.extent_le_of_parseKept? hv
  have hload := v.load_lt_extent
  simp only [ofJson?, Option.bind_eq_bind, Option.bind_eq_some_iff, Prod.exists] at hread
  obtain ⟨tag, content, htagged, hread⟩ := hread
  have htag := Json.load_of_tagged? htagged
  have hcontent (hr : contentRecord? content = some r) (hkind : m.kind = tag) :
      ∃ v, Record.ofJson? .kept v = some r ∧ v.extent + m.kind.utf8ByteSize + 5 ≤ s.length := by
    obtain ⟨w, hw, hextent⟩ := extent_of_contentRecord? hr
    refine ⟨w, hw, ?_⟩
    rw [hkind]
    omega
  split at hread
  · obtain ⟨r', hr, rfl⟩ := Option.map_eq_some_iff.mp hread
    rcases hm with hm | hm <;> cases hm
    exact hcontent hr rfl
  · obtain ⟨r', hr, rfl⟩ := Option.map_eq_some_iff.mp hread
    rcases hm with hm | hm <;> cases hm
    exact hcontent hr rfl
  · split at hread
    · cases hread
      rcases hm with hm | hm <;> cases hm
    · cases hread
  · split at hread
    · cases hread
      rcases hm with hm | hm <;> cases hm
    · cases hread
  · cases hread

end ClientMessage

/-! ## Messages of servers -/

namespace PeerMessage

theorem length_register (r : Record) :
    (register r).encode.length + 8 = r.id.text.utf8ByteSize + (r.contents.map Delta.size).sum := by
  have hrecord := r.length_codec
  have hindexed : (register r).encode.length = 4 + (Record.codec.encode r).length := by
    rw [encode, codec, length_sum rfl]
    rfl
  omega

theorem length_update (id : InstanceId) (base version : Version) (deltas : List Delta) :
    (update id base version deltas).encode.length =
      36 + id.text.utf8ByteSize + (deltas.map Delta.size).sum := by
  have hindexed : (update id base version deltas).encode.length =
      4 + ((InstanceId.codec.pair <| uint64.pair <| uint64.pair Delta.codec.list).encode
        (id, base, version, deltas)).length := by
    rw [encode, codec, length_sum rfl]
    rfl
  have hsizes : (deltas.map fun d => (Delta.codec.encode d).length) = deltas.map Delta.size := rfl
  simp only [hindexed, InstanceId.codec, length_pair, length_via, length_string, length_uint64,
    length_list, hsizes]
  omega

theorem length_unregister (id : InstanceId) (version : Version) :
    (unregister id version).encode.length = 20 + id.text.utf8ByteSize := by
  have hindexed : (unregister id version).encode.length =
      4 + ((InstanceId.codec.pair uint64).encode (id, version)).length := by
    rw [encode, codec, length_sum rfl]
    rfl
  simp only [hindexed, InstanceId.codec, length_pair, length_via, length_string, length_uint64]
  omega

theorem length_statusUpdate (id : InstanceId) (status : Status) (version : Version) :
    (statusUpdate id status version).encode.length = 24 + id.text.utf8ByteSize := by
  have hindexed : (statusUpdate id status version).encode.length =
      4 + ((InstanceId.codec.pair <| Status.codec.pair uint64).encode
        (id, status, version)).length := by
    rw [encode, codec, length_sum rfl]
    rfl
  have hstatus : (Status.codec.encode status).length = 4 := rfl
  simp only [hindexed, InstanceId.codec, length_pair, length_via, length_string, length_uint64,
    hstatus]
  omega

theorem length_heartbeat (id : InstanceId) :
    (heartbeat id).encode.length = 12 + id.text.utf8ByteSize := by
  have hindexed : (heartbeat id).encode.length = 4 + (InstanceId.codec.encode id).length := by
    rw [encode, codec, length_sum rfl]
    rfl
  rw [hindexed, InstanceId.codec, length_via, length_string]
  omega

end PeerMessage

namespace PeerReply

theorem length_snapshot (server : ServerId) (records : List Record) :
    (snapshot server records).encode.length =
      20 + server.text.utf8ByteSize +
        (records.map fun r => (Record.codec.encode r).length).sum := by
  have hindexed : (snapshot server records).encode.length =
      4 + ((ServerId.codec.pair Record.codec.list).encode (server, records)).length := by
    rw [encode, codec, length_sum rfl]
    rfl
  simp only [hindexed, ServerId.codec, length_pair, length_viaChecked, length_string, length_list]
  omega

theorem length_unknownInstance (id : InstanceId) :
    (unknownInstance id).encode.length = 12 + id.text.utf8ByteSize := by
  have hindexed : (unknownInstance id).encode.length = 4 + (InstanceId.codec.encode id).length := by
    rw [encode, codec, length_sum rfl]
    rfl
  rw [hindexed, InstanceId.codec, length_via, length_string]
  omega

theorem length_stale (id : InstanceId) :
    (stale id).encode.length = 12 + id.text.utf8ByteSize := by
  have hindexed : (stale id).encode.length = 4 + (InstanceId.codec.encode id).length := by
    rw [encode, codec, length_sum rfl]
    rfl
  rw [hindexed, InstanceId.codec, length_via, length_string]
  omega

theorem length_error (reason : String) :
    (error reason).encode.length = 12 + reason.utf8ByteSize := by
  have hindexed : (error reason).encode.length = 4 + (string.encode reason).length := by
    rw [encode, codec, length_sum rfl]
    rfl
  rw [hindexed, length_string]
  omega

end PeerReply

end LeaseRegistry
