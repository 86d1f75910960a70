import LeaseRegistry.Message.Replication
import LeaseRegistry.Proofs.Binary.Codec

/-!
# The binary form of messages between servers

Every part of a message is read back from its bytes, whatever follows them, and from no proper part
of them. So a message can be told where it ends, and no two messages have the same bytes
(`messages_selfDelimiting`).
-/

namespace LeaseRegistry

open Codec

/-! ## Records -/

theorem InstanceId.faithful_codec (id : InstanceId) : InstanceId.codec.Faithful id :=
  (faithful_string id.text).via rfl

theorem ServerId.faithful_codec (a : ServerId) : ServerId.codec.Faithful a :=
  (faithful_string a.text).viaChecked (by rw [ServerId.ofText_text]; rfl)

theorem Status.exact_codec (s : Status) : Status.codec.Exact s :=
  (exact_uint32 s.index).viaChecked (by cases s <;> rfl)

theorem ServicePort.faithful_codec (p : ServicePort) : ServicePort.codec.Faithful p := by
  refine Faithful.via (.pair (faithful_string p.name) ?_) rfl
  exact ((exact_uint16 p.port).pair (exact_bool p.secure)).faithful

theorem NetworkAddress.faithful_codec (a : NetworkAddress) : NetworkAddress.codec.Faithful a := by
  refine Faithful.via (.pair (faithful_string a.ip) ?_) rfl
  exact (faithful_option faithful_string a.hostName).pair (exact_bool a.isPublic).faithful

theorem LeaseTerms.exact_codec (t : LeaseTerms) : LeaseTerms.codec.Exact t :=
  Exact.via (.pair (exact_uint32 t.duration) (exact_uint32 t.interval)) rfl

theorem length_string_pos (t : String) : 0 < (string.encode t).length := by
  rw [length_string]
  omega

theorem NetworkAddress.length_codec_pos (a : NetworkAddress) :
    0 < (NetworkAddress.codec.encode a).length := by
  simp only [NetworkAddress.codec, length_via, length_pair, length_bool]
  omega

theorem ServicePort.length_codec_pos (p : ServicePort) :
    0 < (ServicePort.codec.encode p).length := by
  simp only [ServicePort.codec, length_via, length_pair, length_bool]
  omega

theorem DataCenter.faithful_codec (d : DataCenter) : DataCenter.codec.Faithful d := by
  refine Faithful.via (.pair (faithful_string d.name) ?_) rfl
  exact faithful_list NetworkAddress.faithful_codec NetworkAddress.length_codec_pos d.addresses

theorem faithful_ports (ps : SortedSet ServicePort) : ServicePort.codec.sortedSet.Faithful ps :=
  faithful_sortedSet ServicePort.faithful_codec ServicePort.length_codec_pos ps

theorem faithful_urls (us : SortedSet String) : string.sortedSet.Faithful us :=
  faithful_sortedSet faithful_string length_string_pos us

theorem Record.faithful_codec (r : Record) : Record.codec.Faithful r := by
  refine Faithful.via ?_ rfl
  exact .pair r.id.faithful_codec <| .pair (faithful_string r.app) <|
    .pair (faithful_option faithful_string r.vipAddress) <| .pair r.dataCenter.faithful_codec <|
    .pair (faithful_ports r.ports) <| .pair (faithful_urls r.healthCheckUrls) <|
    .pair r.status.exact_codec.faithful <|
    (r.lease.exact_codec.pair (exact_uint64 r.version)).faithful

theorem Record.length_codec_pos (r : Record) : 0 < (Record.codec.encode r).length := by
  simp only [Record.codec, length_via, length_pair, length_uint64]
  omega

/-! ## Deltas -/

theorem Delta.faithful_codec (d : Delta) : Delta.codec.Faithful d := by
  cases d with
  | app a => exact .sum rfl (Faithful.via (faithful_string a) rfl)
  | vipAddress v => exact .sum rfl (Faithful.via (faithful_option faithful_string v) rfl)
  | dataCenter dc => exact .sum rfl (Faithful.via dc.faithful_codec rfl)
  | ports ps => exact .sum rfl (Faithful.via (faithful_ports ps) rfl)
  | healthCheckUrls us => exact .sum rfl (Faithful.via (faithful_urls us) rfl)
  | status s => exact .sum rfl (Faithful.via s.exact_codec.faithful rfl)
  | lease t => exact .sum rfl (Faithful.via t.exact_codec.faithful rfl)

theorem Delta.length_codec_pos (d : Delta) : 0 < (Delta.codec.encode d).length := by
  simp only [Delta.codec, Codec.sum, List.length_append, length_uint32]
  omega

/-! ## Messages -/

theorem PeerMessage.faithful_codec (m : PeerMessage) : PeerMessage.codec.Faithful m := by
  cases m with
  | register r => exact .sum rfl (Faithful.via r.faithful_codec rfl)
  | update id base version deltas =>
    refine .sum rfl (Faithful.via ?_ rfl)
    exact id.faithful_codec.pair <| (exact_uint64 base).faithful.pair <|
      (exact_uint64 version).faithful.pair <|
      faithful_list Delta.faithful_codec Delta.length_codec_pos deltas
  | unregister id version =>
    exact .sum rfl (Faithful.via (id.faithful_codec.pair (exact_uint64 version).faithful) rfl)
  | statusUpdate id status version =>
    refine .sum rfl (Faithful.via ?_ rfl)
    exact id.faithful_codec.pair (status.exact_codec.pair (exact_uint64 version)).faithful
  | heartbeat id => exact .sum rfl (Faithful.via id.faithful_codec rfl)
  | fetchSnapshot => exact .sum rfl (Faithful.via exact_unit.faithful rfl)

theorem PeerReply.faithful_codec (r : PeerReply) : PeerReply.codec.Faithful r := by
  cases r with
  | ack => exact .sum rfl (Faithful.via exact_unit.faithful rfl)
  | snapshot server records =>
    refine .sum rfl (Faithful.via ?_ rfl)
    exact server.faithful_codec.pair
      (faithful_list Record.faithful_codec Record.length_codec_pos records)
  | unknownInstance id => exact .sum rfl (Faithful.via id.faithful_codec rfl)
  | stale id => exact .sum rfl (Faithful.via id.faithful_codec rfl)
  | error reason => exact .sum rfl (Faithful.via (faithful_string reason) rfl)

theorem PeerMessage.decode_encode {m : PeerMessage} (h : m.encode.length < UInt64.size) :
    decode m.encode = .ok m := by
  have hread := (m.faithful_codec h).1 []
  rw [List.append_nil] at hread
  exact decodeAll_of_ok hread

theorem PeerReply.decode_encode {r : PeerReply} (h : r.encode.length < UInt64.size) :
    decode r.encode = .ok r := by
  have hread := (r.faithful_codec h).1 []
  rw [List.append_nil] at hread
  exact decodeAll_of_ok hread

/-- A message is read back from its bytes, whatever follows them, and a proper part of them ends too
early. So the bytes of a message start those of no other one, and are not those of another one. -/
theorem messages_selfDelimiting :
    (∀ m : PeerMessage, m.encode.length < UInt64.size →
      (∀ s, PeerMessage.decode (m.encode ++ s) = .ok m) ∧
      (∀ p, p <+: m.encode → p ≠ m.encode → PeerMessage.decode p = .error .inputEnded) ∧
      ∀ m' : PeerMessage, m'.encode.length < UInt64.size →
        (m.encode = m'.encode → m = m') ∧ (m.encode <+: m'.encode → m.encode = m'.encode)) ∧
    ∀ r : PeerReply, r.encode.length < UInt64.size →
      (∀ s, PeerReply.decode (r.encode ++ s) = .ok r) ∧
      (∀ p, p <+: r.encode → p ≠ r.encode → PeerReply.decode p = .error .inputEnded) ∧
      ∀ r' : PeerReply, r'.encode.length < UInt64.size →
        (r.encode = r'.encode → r = r') ∧ (r.encode <+: r'.encode → r.encode = r'.encode) :=
  ⟨fun m hm => selfDelimiting (m.faithful_codec hm) fun m' hm' => m'.faithful_codec hm',
    fun r hr => selfDelimiting (r.faithful_codec hr) fun r' hr' => r'.faithful_codec hr'⟩

/-- An update with text beyond ASCII, cut off in the middle, and a snapshot with bytes behind it. -/
theorem messages_selfDelimiting_update :
    let m := PeerMessage.update ⟨"wéb"⟩ 1 2
      [.vipAddress none, .ports (.ofList [⟨"http", 9090, false⟩])]
    let r := PeerReply.snapshot ⟨"a", by decide⟩ [.bare ⟨"web"⟩ "shop"]
    m.encode.length = 72 ∧ PeerMessage.decode (m.encode.take 71) = .error .inputEnded ∧
      r.encode.length = 97 ∧ PeerReply.decode (r.encode ++ [1, 2]) = .ok r := by
  intro m r
  have hm : m.encode.length = 72 := by decide +kernel
  have hr : r.encode.length = 97 := by decide +kernel
  refine ⟨hm, ?_, hr, (messages_selfDelimiting.2 r (by rw [hr]; decide)).1 [1, 2]⟩
  refine (messages_selfDelimiting.1 m (by rw [hm]; decide)).2.1 _ (List.take_prefix 71 _) ?_
  intro he
  have := congrArg List.length he
  rw [List.length_take, hm] at this
  omega

end LeaseRegistry
