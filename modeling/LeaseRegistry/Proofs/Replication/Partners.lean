import LeaseRegistry.Proofs.Message.Json
import LeaseRegistry.Proofs.Replication.Delivery
import LeaseRegistry.Proofs.Replication.Volume
import Mathlib.Logic.Function.Basic
import Mathlib.Logic.Relation

/-!
# What two servers send each other

Two servers replicate into each other, each with clients of its own that send `n` bytes at a time at
most. A frame that is too large is skipped by its reader, and nothing on the sender's side keeps a
request or a reply from being too large: in the counterexample a registration comes in a frame of
allowed size and leaves in one that is not. The bound says how large each kind of frame gets, so
that with frames of clients up to 65525 bytes every request arrives, and with any frames of clients
that are read all but registrations, updates, status updates and snapshots do.
-/

namespace LeaseRegistry

/-- A server with all that it has sent to its peer. -/
structure Partner where
  coordinator : Coordinator
  requests : List PeerMessage
  replies : List PeerReply

namespace Partner

def asks (p : Partner) (c : Coordinator) (ms : List PeerMessage) : Partner :=
  { p with coordinator := c, requests := p.requests ++ ms }

def answers (p : Partner) (c : Coordinator) (r : PeerReply) : Partner :=
  { p with coordinator := c, replies := p.replies ++ [r] }

/-- What the store holds fits, and so does everything that was sent. -/
structure Fits (n : Nat) (p : Partner) : Prop where
  store : p.coordinator.store.Fits n
  requests : ∀ m ∈ p.requests, m.Fits n
  replies : ∀ r ∈ p.replies, r.Fits n

variable {n : Nat} {p : Partner} {c : Coordinator}

theorem Fits.asks (h : p.Fits n) (hc : c.store.Fits n) {ms : List PeerMessage}
    (hms : ∀ m ∈ ms, m.Fits n) : (p.asks c ms).Fits n := by
  refine ⟨hc, fun m hm => ?_, h.replies⟩
  rcases List.mem_append.mp hm with hm | hm
  · exact h.requests m hm
  · exact hms m hm

theorem Fits.answers (h : p.Fits n) (hc : c.store.Fits n) {r : PeerReply} (hr : r.Fits n) :
    (p.answers c r).Fits n := by
  refine ⟨hc, h.requests, fun r' hr' => ?_⟩
  rcases List.mem_append.mp hr' with hr' | hr'
  · exact h.replies r' hr'
  · exact List.mem_singleton.mp hr' ▸ hr

end Partner

/-- Two servers that are each other's peers. -/
abbrev Partners := Bool → Partner

/-- The frame with these bytes is handed on to the peer's reader. -/
def Frame.Arrives (bytes : List UInt8) : Prop := ofMessage (.binary bytes) = .data bytes

theorem Frame.arrives_iff {bytes : List UInt8} :
    Arrives bytes ↔ bytes.length ≤ Handshake.maxMessageSize := by
  rw [Arrives, ofMessage, bounded]
  split
  · exact iff_of_true rfl ‹_›
  · exact iff_of_false nofun ‹_›

theorem PeerMessage.decode_of_arrives {m : PeerMessage} (h : Frame.Arrives m.encode) :
    decode m.encode = .ok m :=
  decode_encode ((Frame.arrives_iff.mp h).trans_lt (by decide))

theorem PeerReply.decode_of_arrives {r : PeerReply} (h : Frame.Arrives r.encode) :
    decode r.encode = .ok r :=
  decode_encode ((Frame.arrives_iff.mp h).trans_lt (by decide))

namespace Partners

open Function (update)

/-- What server `i` may do next. A request or a reply of its peer must have arrived, late or more
than once perhaps, and counts as what its bytes say. -/
inductive Step (n : Nat) (d : Partners) : Partners → Prop where
  /-- Handles a request on account of a client, or of itself. -/
  | perform (i : Bool) (now : Time) (r : Request) (hr : ∀ record ∈ r.record?, record.Admitted n) :
    Step n d (update d i ((d i).asks ((d i).coordinator.perform now r).2.2
      ((d i).coordinator.perform now r).2.1.toList))
  | evict (i : Bool) (id : InstanceId) (due : Lease → Bool) (now : Time) {l : Lease} {s : Store}
    (h : (d i).coordinator.store.evictIf id due now = (some l, s)) {c : Coordinator}
    (hc : c.store = s) : Step n d (update d i ((d i).asks c [.evicting l]))
  | fetch (i : Bool) : Step n d (update d i ((d i).asks (d i).coordinator [.fetchSnapshot]))
  | serve (i : Bool) (now : Time) {m m' : PeerMessage} (hm : m ∈ (d !i).requests)
    (ha : Frame.Arrives m.encode) (hread : PeerMessage.decode m.encode = .ok m') :
    Step n d (update d i ((d i).answers
      ((d i).coordinator.receive now (d !i).coordinator.id m').2
      ((d i).coordinator.receive now (d !i).coordinator.id m').1))
  /-- Registers what its peer lacks, by a reply of that. -/
  | repair (i : Bool) {r r' : PeerReply} (hr : r ∈ (d !i).replies) (ha : Frame.Arrives r.encode)
    (hread : PeerReply.decode r.encode = .ok r') {m : PeerMessage}
    (hm : (d i).coordinator.repair? r' = some m) :
    Step n d (update d i ((d i).asks (d i).coordinator [m]))
  | adopt (i : Bool) (now : Time) {r r' : PeerReply} (hr : r ∈ (d !i).replies)
    (ha : Frame.Arrives r.encode) (hread : PeerReply.decode r.encode = .ok r') {s : Snapshot}
    (hs : r'.snapshot? = .ok s) :
    Step n d (update d i ((d i).asks ((d i).coordinator.adopt now s).2 []))
  /-- Does anything else that leaves its store alone. -/
  | other (i : Bool) {c : Coordinator} (hc : c.store = (d i).coordinator.store) :
    Step n d (update d i ((d i).asks c []))

def Idle (d : Partners) : Prop :=
  ∀ i, (d i).coordinator.store = .empty ∧ (d i).requests = [] ∧ (d i).replies = []

/-- The two servers can come to this from their start. -/
def Reachable (n : Nat) (d : Partners) : Prop :=
  ∃ s, Idle s ∧ Relation.ReflTransGen (Step n) s d

variable {n : Nat} {d d' : Partners}

theorem fits_update (h : ∀ i, (d i).Fits n) {i : Bool} {p : Partner} (hp : p.Fits n) (j : Bool) :
    (update d i p j).Fits n := by
  rw [Function.update_apply]
  split
  · exact hp
  · exact h j

theorem Step.fits (hs : Step n d d') (h : ∀ i, (d i).Fits n) (i : Bool) : (d' i).Fits n := by
  cases hs with
  | perform j now r hr =>
    obtain ⟨hc, hms⟩ := Coordinator.fits_perform (h j).store now hr
    exact fits_update h ((h j).asks hc fun m hm => hms m (Option.mem_toList.mp hm)) i
  | evict j id due now he hc =>
    obtain ⟨hstore, hm⟩ := (h j).store.evictIf he
    exact fits_update h ((h j).asks (hc ▸ hstore) fun m hm' => List.mem_singleton.mp hm' ▸ hm) i
  | fetch j =>
    refine fits_update h ((h j).asks (h j).store fun m hm => ?_) i
    rw [List.mem_singleton.mp hm]
    trivial
  | serve j now hm ha hread =>
    rw [PeerMessage.decode_of_arrives ha] at hread
    cases hread
    obtain ⟨hc, hr⟩ := Coordinator.fits_receive (h j).store now (d !j).coordinator.id
      ((h !j).requests _ hm)
    exact fits_update h ((h j).answers hc hr) i
  | repair j hr ha hread hm =>
    refine fits_update h ((h j).asks (h j).store fun m' hm' => ?_) i
    rw [List.mem_singleton.mp hm']
    exact Coordinator.fits_repair? (h j).store hm
  | @adopt j now r r' hr ha hread s hs =>
    rw [PeerReply.decode_of_arrives ha] at hread
    cases hread
    have hfits := (h !j).replies r hr
    have hrecords : ∀ r ∈ s.records, r.Fits n := by
      cases r <;> cases hs
      exact hfits
    exact fits_update h ((h j).asks (Coordinator.fits_adopt (h j).store now hrecords)
      (List.forall_mem_nil _)) i
  | other j hc =>
    exact fits_update h ((h j).asks (hc ▸ (h j).store) (List.forall_mem_nil _)) i

theorem Reachable.fits (h : Reachable n d) (i : Bool) : (d i).Fits n := by
  obtain ⟨s, hidle, hrun⟩ := h
  induction hrun generalizing i with
  | refl =>
    obtain ⟨hstore, hrequests, hreplies⟩ := hidle i
    refine ⟨hstore ▸ Store.fits_empty n, ?_, ?_⟩
    · rw [hrequests]
      nofun
    · rw [hreplies]
      nofun
  | tail _ hstep ih => exact hstep.fits ih i

/-- Where no client sends more than `n` bytes at a time, no request and no reply of the two servers
is larger than its limit, and those that are not too large arrive. So does every request as long as
the frames of clients are small enough. -/
theorem frames_bounded (h : Reachable n d) (i : Bool) :
    (∀ m ∈ (d i).requests, m.encode.length ≤ m.limit n ∧
      (Frame.Arrives m.encode ↔ m.encode.length ≤ Handshake.maxMessageSize) ∧
      (n ≤ 65525 → Frame.Arrives m.encode)) ∧
    ∀ r ∈ (d i).replies, r.encode.length ≤ r.limit n ∧
      (Frame.Arrives r.encode ↔ r.encode.length ≤ Handshake.maxMessageSize) := by
  refine ⟨fun m hm => ?_, fun r hr => ?_⟩
  · have hlength := ((h.fits i).requests m hm).length_le
    refine ⟨hlength, Frame.arrives_iff, fun hn => Frame.arrives_iff.mpr (hlength.trans ?_)⟩
    exact m.limit_le hn
  · exact ⟨((h.fits i).replies r hr).length_le, Frame.arrives_iff⟩

/-! ## A registration -/

/-- A server `a` and a server `b` that have just started. -/
def fresh : Partners
  | true => ⟨.fresh ⟨"a", by decide⟩ 1, [], []⟩
  | false => ⟨.fresh ⟨"b", by decide⟩ 1, [], []⟩

theorem idle_fresh : Idle fresh := by
  intro i
  cases i <;> exact ⟨rfl, rfl, rfl⟩

/-- A record has been registered with `a`. -/
def registered (record : Record) : Partners :=
  update fresh true ((fresh true).asks
    ((fresh true).coordinator.perform 0 (.register record .here)).2.2 [.register record])

theorem reachable_registered {record : Record} (ha : record.Admitted n) (hv : record.Valid) :
    Reachable n (registered record) := by
  have hnone : (fresh true).coordinator.store.lease? record.id = none := rfl
  have hmessage : ((fresh true).coordinator.perform 0 (.register record .here)).2.1 =
      some (.register record) := by
    rw [Coordinator.perform_message (fresh true).coordinator _ _ Store.wellFormed_empty]
    simp only [Request.source, Source.fansOut, Request.id, hnone, Slot.message?, Slot.handle,
      Slot.register_of_valid hv, Slot.write]
    rfl
  have hstep := Step.perform (n := n) (d := fresh) true 0 (.register record .here) fun r hr => by
    cases hr
    exact ha
  rw [hmessage] at hstep
  exact ⟨fresh, idle_fresh, .single hstep⟩

/-- The server `b` has been told of the registration. -/
def told (record : Record) : Partners :=
  update (registered record) false ((registered record false).answers
    ((fresh false).coordinator.receive 1 (fresh true).coordinator.id (.register record)).2 .ack)

/-- A short registration, and the reply to it. -/
theorem frames_bounded_told :
    let record := Record.bare ⟨"web"⟩ "shop"
    Reachable 65525 (told record) ∧
      (told record true).requests = [.register record] ∧
      (told record false).replies = [.ack] ∧
      (∀ m ∈ (told record true).requests, Frame.Arrives m.encode) ∧
      ∀ r ∈ (told record false).replies, Frame.Arrives r.encode := by
  intro record
  have hparse : ClientMessage.parse? (ClientMessage.register record).toJson.bytes =
      some (.register record) := ClientMessage.parse?_bytes _
  have hlength : (ClientMessage.register record).toJson.bytes.length ≤ 65525 := by decide +kernel
  have hadmitted : record.Admitted 65525 :=
    ⟨⟨_, _, record, 0, hlength, hparse, .inl rfl, rfl⟩, ⟨_, _, hlength, hparse, rfl⟩⟩
  have hregistered := reachable_registered hadmitted rfl
  have harrives : Frame.Arrives (PeerMessage.register record).encode :=
    Frame.arrives_iff.mpr (by decide +kernel)
  have hstep := Step.serve (n := 65525) (d := registered record) false 1
    (List.mem_singleton_self (PeerMessage.register record)) harrives
    (PeerMessage.decode_of_arrives harrives)
  have htold : Reachable 65525 (told record) := by
    obtain ⟨s, hidle, hrun⟩ := hregistered
    exact ⟨s, hidle, hrun.tail hstep⟩
  obtain ⟨hrequests, -⟩ := frames_bounded htold true
  obtain ⟨-, hreplies⟩ := frames_bounded htold false
  refine ⟨htold, rfl, rfl, fun m hm => (hrequests m hm).2.2 (Nat.le_refl _), fun r hr => ?_⟩
  obtain ⟨hlimit, hiff⟩ := hreplies r hr
  obtain rfl : r = .ack := List.mem_singleton.mp hr
  exact hiff.mpr (hlimit.trans (by decide))

end Partners

/-! ## A registration that grows too large -/

/-- A record with many addresses of which nothing is known. -/
def Record.crowded (k : Nat) : Record :=
  { bare ⟨"web"⟩ "shop" with dataCenter := ⟨"", List.replicate k ⟨"", none, false⟩⟩ }

/-- The registration of a crowded record, without the names of the fields. -/
def ClientMessage.crowded (k : Nat) : Json :=
  .array [.text "register", .array [.text "web", .text "shop", .null,
    .array [.text "", .array (List.replicate k (.array [.text ""]))]]]

/-- Items of one kind take a comma or a bracket each besides themselves. -/
theorem Json.length_array_replicate_le (k : Nat) (v : Json) :
    (array (List.replicate k v)).bytes.length ≤ k * (v.bytes.length + 1) + 2 := by
  cases k with
  | zero => exact Nat.le_add_left 2 _
  | succ k =>
    have hothers : ((List.replicate k v).flatMap fun w =>
        (Token.comma :: w.tokens).flatMap Token.bytes).length = k * (v.bytes.length + 1) := by
      simp [List.length_flatMap, bytes, Token.bytes]
    rw [List.replicate_succ, bytes, tokens_array_cons, List.flatMap_append, List.flatMap_append,
      List.flatMap_assoc, List.length_append, List.length_append, hothers, List.flatMap_cons,
      List.length_append]
    have hopen : (Token.bytes .openArray).length = 1 := rfl
    have hclose : ([Token.closeArray].flatMap Token.bytes).length = 1 := rfl
    have hbytes : (v.tokens.flatMap Token.bytes).length = v.bytes.length := rfl
    rw [Nat.succ_mul]
    omega

theorem DataCenter.ofJson?_crowded (k : Nat) :
    ofJson? (.array [.text "", .array (List.replicate k (.array [.text ""]))]) =
      some (Record.crowded k).dataCenter := by
  have hfields : Json.fields? ["name", "addresses"]
      (.array [.text "", .array (List.replicate k (.array [.text ""]))]) =
        some [("name", .text ""), ("addresses", .array (List.replicate k (.array [.text ""])))] :=
    rfl
  have haddress : ∀ a ∈ List.replicate k (⟨"", none, false⟩ : NetworkAddress),
      NetworkAddress.ofJson? (.array [.text ""]) = some a := fun a ha => by
    rw [List.eq_of_mem_replicate ha]
    rfl
  have haddresses := Json.toList?_map haddress
  rw [List.map_replicate] at haddresses
  rw [ofJson?, hfields, Option.bind_eq_bind, Option.bind_some,
    Json.required_of_mem (v := .text "") (by simp) (by simp),
    Json.defaulted_of_mem (v := .array (List.replicate k (.array [.text ""]))) (by simp) (by simp),
    haddresses]
  rfl

theorem Record.ofJson?_crowded (k : Nat) :
    ofJson? .kept (.array [.text "web", .text "shop", .null,
      .array [.text "", .array (List.replicate k (.array [.text ""]))]]) = some (crowded k) := by
  have hfields : Json.fields? fieldNames (.array [.text "web", .text "shop", .null,
      .array [.text "", .array (List.replicate k (.array [.text ""]))]]) =
        some [("id", .text "web"), ("app", .text "shop"), ("vipAddress", .null),
          ("dataCenter", .array [.text "", .array (List.replicate k (.array [.text ""]))])] :=
    rfl
  rw [ofJson?, hfields, Option.bind_eq_bind, Option.bind_some,
    Json.required_of_mem (v := .text "web") (by simp) (by simp),
    Json.required_of_mem (v := .text "shop") (by simp) (by simp),
    Json.defaulted_of_mem (v := .null) (by simp) (by simp),
    Json.defaulted_of_mem (v := .array [.text "", .array (List.replicate k (.array [.text ""]))])
      (by simp) (by simp), DataCenter.ofJson?_crowded,
    Json.defaulted_of_notMem (by simp), Json.defaulted_of_notMem (by simp),
    Json.defaulted_of_notMem (by simp), Json.defaulted_of_notMem (by simp),
    Json.defaulted_of_notMem (by simp)]
  rfl

namespace ClientMessage

/-- An address takes five bytes of text, and ten in binary form. -/
theorem length_crowded (k : Nat) : (crowded k).bytes.length ≤ 5 * k + 40 := by
  have htokens : (crowded k).tokens = [.openArray, .string (some "register"), .comma, .openArray,
      .string (some "web"), .comma, .string (some "shop"), .comma, .null, .comma, .openArray,
      .string (some ""), .comma] ++ (Json.array (List.replicate k (.array [.text ""]))).tokens ++
        [.closeArray, .closeArray, .closeArray] := by
    simp only [crowded, Json.tokens, Json.tokensTo, Json.itemTokensTo, Json.text]
    rw [Json.tokensTo_eq]
    rfl
  have hfront : (([.openArray, .string (some "register"), .comma, .openArray,
      .string (some "web"), .comma, .string (some "shop"), .comma, .null, .comma, .openArray,
      .string (some ""), .comma] : List Json.Token).flatMap Json.Token.bytes).length = 35 := by
    decide +kernel
  have hback : (([.closeArray, .closeArray, .closeArray] : List Json.Token).flatMap
      Json.Token.bytes).length = 3 := by
    decide +kernel
  have haddress : (Json.array [.text ""]).bytes.length = 4 := by decide +kernel
  have haddresses := Json.length_array_replicate_le k (.array [.text ""])
  rw [haddress, Json.bytes] at haddresses
  rw [Json.bytes, htokens, List.flatMap_append, List.flatMap_append, List.length_append,
    List.length_append, hfront, hback]
  omega

theorem keptWithin_crowded (k : Nat) : Json.KeptWithin 5 (crowded k) := by
  have haddress : Json.KeptWithin 1 (.array [.text ""]) := .array fun v hv => by
    rw [List.mem_singleton.mp hv]
    exact .text 0 ""
  have haddresses : Json.KeptWithin 2 (.array (List.replicate k (.array [.text ""]))) :=
    .array fun v hv => by
      rw [List.eq_of_mem_replicate hv]
      exact haddress
  have hdc : Json.KeptWithin 3 (.array [.text "", .array (List.replicate k (.array [.text ""]))]) :=
    .array fun v hv => by
      simp only [List.mem_cons, List.not_mem_nil, or_false] at hv
      rcases hv with rfl | rfl
      · exact .text 2 ""
      · exact haddresses
  refine .array fun v hv => ?_
  simp only [List.mem_cons, List.not_mem_nil, or_false] at hv
  rcases hv with rfl | rfl
  · exact .text 4 "register"
  · refine .array fun v hv => ?_
    simp only [List.mem_cons, List.not_mem_nil, or_false] at hv
    rcases hv with rfl | rfl | rfl | rfl
    · exact .text 3 "web"
    · exact .text 3 "shop"
    · exact .null 3
    · exact hdc

theorem parse?_crowded (k : Nat) : parse? (crowded k).bytes = some (.register (.crowded k)) := by
  have hcontent : contentRecord? (.array [.array [.text "web", .text "shop", .null,
      .array [.text "", .array (List.replicate k (.array [.text ""]))]]]) =
        some (.crowded k) := Record.ofJson?_crowded k
  rw [parse?, Json.parseKept?_bytes (keptWithin_crowded k) (by decide), Option.bind_some]
  exact congrArg (Option.map register) hcontent

end ClientMessage

theorem Record.valid_crowded (k : Nat) : (crowded k).Valid := rfl

theorem Record.size_crowded (k : Nat) :
    (Delta.dataCenter (crowded k).dataCenter).size = 20 + k * 10 := by
  have haddress : (NetworkAddress.codec.encode ⟨"", none, false⟩).length = 10 := by decide +kernel
  simp [crowded, haddress]

/-- A client registers with a frame of allowed size, and the registration that is passed on is
skipped by the peer. -/
theorem Partners.registration_skipped :
    let record := (Record.crowded 131072).atVersion 1
    (ClientMessage.crowded 131072).bytes.length ≤ Handshake.maxMessageSize ∧
      Reachable Handshake.maxMessageSize (registered record) ∧
      .register record ∈ (registered record true).requests ∧
      Frame.ofMessage (.binary (PeerMessage.register record).encode) = .skip := by
  intro record
  have hlength := ClientMessage.length_crowded 131072
  have hmax : Handshake.maxMessageSize = 1048576 := rfl
  have hread : (ClientMessage.crowded 131072).bytes.length ≤ Handshake.maxMessageSize := by omega
  have hparse := ClientMessage.parse?_crowded 131072
  have hadmitted : record.Admitted Handshake.maxMessageSize :=
    ⟨⟨_, _, _, 1, hread, hparse, .inl rfl, rfl⟩, ⟨_, _, hread, hparse, rfl⟩⟩
  refine ⟨hread, reachable_registered hadmitted (Record.valid_crowded 131072),
    List.mem_singleton_self _, ?_⟩
  have hsize := PeerMessage.length_register record
  have haddresses : (Delta.dataCenter record.dataCenter).size = 20 + 131072 * 10 :=
    Record.size_crowded 131072
  have hle := List.le_sum_of_mem (List.mem_map_of_mem (f := Delta.size)
    (by simp [Record.contents] : Delta.dataCenter record.dataCenter ∈ record.contents))
  rw [Frame.ofMessage, Frame.bounded, if_neg (by omega)]

end LeaseRegistry
