import LeaseRegistry.Proofs.Binary.Message
import LeaseRegistry.Proofs.Message.Json
import LeaseRegistry.Proofs.Peer.Dialogue

/-!
# How a connection stands

A connection in use stands in one of a few ways to the call that uses it (`Wire.Stands`): the server
has not met the client yet, or has and still has the request before it, or has answered it, or is
gone. Whatever the server does, and whatever gets lost, keeps that; what the client sends and reads
takes the connection to how it stands at the next stage of the call. Between calls a connection is
`Quiet`.
-/

namespace LeaseRegistry

/-! ## Frames on their way -/

/-- The data frame that a reader makes of a parcel, with its call. -/
def Parcel.data? (p : Parcel) : Option (Option Nat × List UInt8) :=
  match p.item.taken? with
  | some (.ok bytes) => some (p.call, bytes)
  | some (.error _) | none => none

def Parcel.data (ps : List Parcel) : List (Option Nat × List UInt8) := ps.filterMap data?

theorem Parcel.data_append (ps qs : List Parcel) : data (ps ++ qs) = data ps ++ data qs :=
  List.filterMap_append

theorem Parcel.data?_of_ok {p : Parcel} {frame : List UInt8}
    (h : p.item.taken? = some (.ok frame)) :
    p.data? = some (p.call, frame) := by
  rw [data?, h]

theorem WireItem.length_of_taken {i : WireItem} {frame : List UInt8}
    (h : i.taken? = some (.ok frame)) : frame.length ≤ Handshake.maxMessageSize := by
  cases i with
  | error e => cases e <;> cases h
  | ok m =>
    have hbounded {bytes : List UInt8} (h : Frame.bounded bytes = .data frame) :
        frame.length ≤ Handshake.maxMessageSize := by
      unfold Frame.bounded at h
      split_ifs at h with hfits
      cases h
      exact hfits
    cases hframe : Frame.ofMessage m with
    | data bytes =>
      simp only [taken?, hframe] at h
      cases h
      cases m with
      | binary bytes | text bytes => exact hbounded hframe
      | ping bytes | pong bytes | close => cases hframe
    | skip | close =>
      simp only [taken?, hframe] at h
      cases h

theorem Parcel.data?_of_none {p : Parcel} (h : p.item.taken? = none) : p.data? = none := by
  rw [data?, h]

theorem Parcel.data?_of_error {p : Parcel} {e : LinkError} (h : p.item.taken? = some (.error e)) :
    p.data? = none := by
  rw [data?, h]

/-- Bytes are data unless there are too many of them. -/
theorem Parcel.data?_binary (n : Option Nat) (bytes : List UInt8) :
    (binary n bytes).data? =
      if bytes.length ≤ Handshake.maxMessageSize then some (n, bytes) else none := by
  by_cases h : bytes.length ≤ Handshake.maxMessageSize
  · have hframe : Frame.ofMessage (.binary bytes) = .data bytes := if_pos h
    simp only [data?, binary, WireItem.taken?, hframe, if_pos h]
  · have hframe : Frame.ofMessage (.binary bytes) = .skip := if_neg h
    simp only [data?, binary, WireItem.taken?, hframe, if_neg h]

theorem Parcel.data_cons_of_none {p : Parcel} (h : p.data? = none) (ps : List Parcel) :
    data (p :: ps) = data ps :=
  List.filterMap_cons_none h

theorem Parcel.data_cons_of_some {p : Parcel} {x : Option Nat × List UInt8} (h : p.data? = some x)
    (ps : List Parcel) : data (p :: ps) = x :: data ps :=
  List.filterMap_cons_some h

/-- What is to come arrives, or at least the first part of it if the connection is broken. -/
def Arrives {α : Type} (broken : Bool) (coming queue : List α) : Prop :=
  queue = coming ∨ broken = true ∧ queue <+: coming

namespace Arrives

variable {α : Type} {broken : Bool} {xs ys queue : List α} {x : α}

theorem isPrefix (h : Arrives broken xs queue) : queue <+: xs := by
  rcases h with rfl | ⟨-, h⟩
  · exact List.prefix_rfl
  · exact h

theorem eq_nil (h : Arrives broken [] queue) : queue = [] := List.prefix_nil.mp h.isPrefix

theorem send (h : Arrives broken xs queue) (ys : List α) :
    Arrives broken (xs ++ ys) (if broken then queue else queue ++ ys) := by
  cases broken with
  | true => exact .inr ⟨rfl, h.isPrefix.trans (List.prefix_append xs ys)⟩
  | false =>
    rcases h with rfl | ⟨hb, -⟩
    · exact .inl rfl
    · cases hb

theorem receive (h : Arrives broken xs (x :: queue)) :
    ∃ ys, xs = x :: ys ∧ Arrives broken ys queue := by
  rcases h with rfl | ⟨hb, ys, rfl⟩
  · exact ⟨queue, rfl, .inl rfl⟩
  · exact ⟨queue ++ ys, rfl, .inr ⟨hb, List.prefix_append queue ys⟩⟩

theorem lose {part : List α} (h : Arrives broken xs queue) (hpart : part <+: queue) :
    Arrives true xs part :=
  .inr ⟨rfl, hpart.trans h.isPrefix⟩

end Arrives

namespace Wire

/-- The data frames on their way to the server. -/
def asked (w : Wire) : List (Option Nat × List UInt8) := Parcel.data w.up

/-- The data frames on their way to the client. -/
def told (w : Wire) : List (List UInt8) := (Parcel.data w.down).map (·.2)

variable (w : Wire)

@[simp] theorem session_sendUp (p : Parcel) : (w.sendUp p).session = w.session := by
  unfold sendUp
  split_ifs <;> rfl

@[simp] theorem broken_sendUp (p : Parcel) : (w.sendUp p).broken = w.broken := by
  unfold sendUp
  split_ifs <;> rfl

@[simp] theorem told_sendUp (p : Parcel) : (w.sendUp p).told = w.told := by
  unfold sendUp
  split_ifs <;> rfl

theorem asked_sendUp (p : Parcel) :
    (w.sendUp p).asked = if w.broken then w.asked else w.asked ++ Parcel.data [p] := by
  unfold sendUp
  split_ifs
  · rfl
  · exact Parcel.data_append _ _

@[simp] theorem session_sendDown (ps : List Parcel) : (w.sendDown ps).session = w.session := by
  unfold sendDown
  split_ifs <;> rfl

@[simp] theorem broken_sendDown (ps : List Parcel) : (w.sendDown ps).broken = w.broken := by
  unfold sendDown
  split_ifs <;> rfl

@[simp] theorem asked_sendDown (ps : List Parcel) : (w.sendDown ps).asked = w.asked := by
  unfold sendDown
  split_ifs <;> rfl

@[simp] theorem sendDown_nil : w.sendDown [] = w := by
  unfold sendDown
  split_ifs
  · rfl
  · rw [List.append_nil]

theorem told_sendDown (ps : List Parcel) :
    (w.sendDown ps).told =
      if w.broken then w.told else w.told ++ (Parcel.data ps).map (·.2) := by
  unfold sendDown
  split_ifs
  · rfl
  · simp only [told, Parcel.data_append, List.map_append]

variable {w} {p : Parcel}

theorem asked_sendUp_of_none (hp : p.data? = none) : (w.sendUp p).asked = w.asked := by
  rw [asked_sendUp, Parcel.data_cons_of_none hp]
  exact (congrArg (ite _ _) (List.append_nil _)).trans (ite_self _)

theorem told_sendDown_of_none (hp : p.data? = none) : (w.sendDown [p]).told = w.told := by
  rw [told_sendDown, Parcel.data_cons_of_none hp]
  exact (congrArg (ite _ _) (List.append_nil _)).trans (ite_self _)

theorem asked_of_none {up : List Parcel} (hup : w.up = p :: up) (hp : p.data? = none) :
    ({ w with up } : Wire).asked = w.asked := by
  simp only [asked, hup, Parcel.data_cons_of_none hp]

theorem told_of_none {down : List Parcel} (hdown : w.down = p :: down) (hp : p.data? = none) :
    ({ w with down } : Wire).told = w.told := by
  simp only [told, hdown, Parcel.data_cons_of_none hp]

theorem asked_of_some {up : List Parcel} (hup : w.up = p :: up) {x : Option Nat × List UInt8}
    (hp : p.data? = some x) : w.asked = x :: ({ w with up } : Wire).asked := by
  simp only [asked, hup, Parcel.data_cons_of_some hp]

theorem told_of_some {down : List Parcel} (hdown : w.down = p :: down) {n : Option Nat}
    {bytes : List UInt8} (hp : p.data? = some (n, bytes)) :
    w.told = bytes :: ({ w with down } : Wire).told := by
  simp only [told, hdown, Parcel.data_cons_of_some hp, List.map_cons]

variable (w)

theorem asked_cut_prefix (ups downs : Nat) (e : WireError) :
    (w.cut ups downs e).asked <+: w.asked := by
  have hlast : Parcel.data [⟨none, .error e⟩] = [] := by cases e <;> rfl
  simp only [asked, cut, Parcel.data_append, hlast, List.append_nil]
  exact (List.take_prefix ups w.up).filterMap _

theorem told_cut_prefix (ups downs : Nat) (e : WireError) :
    (w.cut ups downs e).told <+: w.told := by
  have hlast : Parcel.data [⟨none, .error e⟩] = [] := by cases e <;> rfl
  simp only [told, cut, Parcel.data_append, hlast, List.append_nil]
  exact ((List.take_prefix downs w.down).filterMap _).map _

end Wire

/-! ## Connections in use -/

/-- The server's answer to the frame that a call sent, which holds its message. -/
def Answered.To {ρ : Type} (a : Answered ρ) (number : Nat) (m : PeerMessage) : Prop :=
  a.call = some number ∧ a.frame = m.encode

/-- The answer is what the server made of the frame, which was not too large. -/
structure Answered.Genuine {ρ : Type} (P : Parties ρ) (a : Answered ρ) : Prop where
  size : a.frame.length ≤ Handshake.maxMessageSize
  reply : a.reply = (Session.answerPeer P.endpoint a.time P.client a.frame a.before).1

/-- The answer to a request is what the server replied to its message. -/
theorem Answered.Genuine.reply_eq {ρ : Type} {P : Parties ρ} {a : Answered ρ} (h : a.Genuine P)
    {n : Nat} {m : PeerMessage} (hto : a.To n m) :
    a.reply = (P.endpoint.receive a.before a.time P.client m).1 := by
  have hsize := h.size
  rw [hto.2] at hsize
  have hread : PeerMessage.decode a.frame = .ok m := by
    rw [hto.2]
    exact PeerMessage.decode_encode (Nat.lt_of_le_of_lt hsize (by decide))
  rw [h.reply, Session.answerPeer, hread]

namespace Call

variable {ρ : Type} (P : Parties ρ) (c : Call)

/-- The handshake, if the call has sent it. -/
def introduction : List Parcel :=
  match c.stage with
  | .dialing | .greeting _ => []
  | .greeted _ | .asking _ | .asked _ =>
    [.binary none (Handshake.peer P.client).toJson.bytes]

/-- The request, if the call has sent it. -/
def request : List Parcel :=
  match c.stage with
  | .dialing | .greeting _ | .greeted _ | .asking _ => []
  | .asked _ => [.binary (some c.number) c.message.encode]

/-- The handshake of the server, if the call has not read it. -/
def unread : List (List UInt8) :=
  match c.stage with
  | .greeting _ | .greeted _ => [(Session.greeting P.server).bytes]
  | .dialing | .asking _ | .asked _ => []

end Call

/-- What a server says that ends a connection without a handshake. -/
def refusal : List UInt8 := (ServerFrame.message Session.handshakeExpected).bytes

section

variable {ρ : Type} (P : Parties ρ) (log : List (Answered ρ))

/-- How the connection of a call can stand. -/
inductive Wire.Stands (c : Call) (w : Wire) : Prop where
  /-- The server waits for the handshake. -/
  | unmet (session : w.session = .opening)
    (up : Arrives w.broken (Parcel.data (c.introduction P ++ c.request)) w.asked)
    (down : Arrives w.broken (c.unread P) w.told)
  /-- The server knows the client and has not seen the request. -/
  | met (session : w.session = .peer P.client) (introduced : c.introduction P ≠ [])
    (up : Arrives w.broken (Parcel.data c.request) w.asked)
    (down : Arrives w.broken (c.unread P) w.told)
  /-- The server has answered the request. -/
  | answered (session : w.session = .peer P.client ∨ w.session = .ended) (k : Nat)
    (waits : c.stage = .asked k) (up : w.asked = []) (a : Answered ρ) (given : a ∈ log)
    (answers : a.To c.number c.message)
    (down : Arrives w.broken ((Parcel.data [.binary a.call a.reply.encode]).map (·.2)) w.told)
  /-- The server has not got a handshake and has ended the connection. -/
  | refused (session : w.session = .ended)
    (down : Arrives w.broken (c.unread P ++ [refusal]) w.told)
  /-- The connection has ended without an answer. -/
  | closed (session : w.session = .ended) (down : Arrives w.broken (c.unread P) w.told)

/-- Between calls nothing is on its way. -/
structure Wire.Quiet (w : Wire) : Prop where
  session : w.session = .peer P.client ∨ w.session = .ended
  up : w.asked = []
  down : w.told = []

end

namespace Wire

variable {ρ : Type} {P : Parties ρ} {log log' : List (Answered ρ)} {c : Call} {w w' : Wire}

theorem Stands.mono (h : w.Stands P log c) (hlog : ∀ a ∈ log, a ∈ log') : w.Stands P log' c := by
  cases h with
  | unmet session up down => exact .unmet session up down
  | met session introduced up down => exact .met session introduced up down
  | answered session k waits up a given answers down =>
    exact .answered session k waits up a (hlog a given) answers down
  | refused session down => exact .refused session down
  | closed session down => exact .closed session down

/-- Only the data frames on a connection matter. -/
theorem Stands.congr (h : w.Stands P log c) (hsession : w'.session = w.session)
    (hbroken : w'.broken = w.broken) (hasked : w'.asked = w.asked) (htold : w'.told = w.told) :
    w'.Stands P log c := by
  cases h with
  | unmet session up down =>
    exact .unmet (hsession.trans session) (by rwa [hbroken, hasked]) (by rwa [hbroken, htold])
  | met session introduced up down =>
    exact .met (hsession.trans session) introduced (by rwa [hbroken, hasked])
      (by rwa [hbroken, htold])
  | answered session k waits up a given answers down =>
    exact .answered (by rwa [hsession]) k waits (hasked.trans up) a given answers
      (by rwa [hbroken, htold])
  | refused session down => exact .refused (hsession.trans session) (by rwa [hbroken, htold])
  | closed session down => exact .closed (hsession.trans session) (by rwa [hbroken, htold])

/-- A connection that breaks stands as it did: less arrives. -/
theorem Stands.lose (h : w.Stands P log c) (hsession : w'.session = w.session)
    (hbroken : w'.broken = true) (hasked : w'.asked <+: w.asked) (htold : w'.told <+: w.told) :
    w'.Stands P log c := by
  cases h with
  | unmet session up down =>
    exact .unmet (hsession.trans session) (hbroken ▸ up.lose hasked) (hbroken ▸ down.lose htold)
  | met session introduced up down =>
    exact .met (hsession.trans session) introduced (hbroken ▸ up.lose hasked)
      (hbroken ▸ down.lose htold)
  | answered session k waits up a given answers down =>
    exact .answered (by rwa [hsession]) k waits (List.prefix_nil.mp (up ▸ hasked)) a given answers
      (hbroken ▸ down.lose htold)
  | refused session down => exact .refused (hsession.trans session) (hbroken ▸ down.lose htold)
  | closed session down => exact .closed (hsession.trans session) (hbroken ▸ down.lose htold)

theorem Stands.finish (h : w.Stands P log c) (hsession : w'.session = .ended)
    (hbroken : w'.broken = w.broken) (hasked : w'.asked = w.asked) (htold : w'.told = w.told) :
    w'.Stands P log c := by
  cases h with
  | unmet session up down => exact .closed hsession (by rwa [hbroken, htold])
  | met session introduced up down => exact .closed hsession (by rwa [hbroken, htold])
  | answered session k waits up a given answers down =>
    exact .answered (.inr hsession) k waits (hasked.trans up) a given answers
      (by rwa [hbroken, htold])
  | refused session down => exact .refused hsession (by rwa [hbroken, htold])
  | closed session down => exact .closed hsession (by rwa [hbroken, htold])

/-! ### The server -/

section

variable {e : Endpoint ρ} {now : Time} {d : Desk} {g : ρ} {p : Parcel} {up : List Parcel}

theorem handle_of_none (hup : w.up = p :: up) (h : p.item.taken? = none) :
    w.handle e now d g = ([], { w with up }, d, g) := by
  simp only [handle, hup, h]

theorem handle_of_error (hup : w.up = p :: up) {err : LinkError}
    (h : p.item.taken? = some (.error err)) :
    w.handle e now d g = ([], { w with up, session := (w.session.disconnect d now).1 },
      (w.session.disconnect d now).2, g) := by
  simp only [handle, hup, h]

theorem handle_of_ok (hup : w.up = p :: up) {frame : List UInt8}
    (h : p.item.taken? = some (.ok frame)) {out : List ServerFrame} {session : Session} {d' : Desk}
    {g' : ρ} (hfeed : w.session.feed e now frame d g = (out, session, d', g')) :
    w.handle e now d g =
      (out.filterMap (Answered.of? p.call frame now g),
        ({ w with up, session } : Wire).sendDown (out.map fun f => .binary p.call f.bytes),
        d', g') := by
  simp only [handle, hup, h, hfeed]

end

theorem data_introduction (c : Call) (P : Parties ρ) :
    c.introduction P = [] ∧ c.request = [] ∨ c.introduction P ≠ [] ∧
      Parcel.data (c.introduction P) = [(none, (Handshake.peer P.client).toJson.bytes)] := by
  have hfits : (Parcel.binary none (Handshake.peer P.client).toJson.bytes).data? =
      some (none, (Handshake.peer P.client).toJson.bytes) :=
    (Parcel.data?_binary _ _).trans (if_pos (Handshake.length_bytes_le .peer P.client))
  cases hstage : c.stage with
  | dialing | greeting k =>
    left
    simp only [Call.introduction, Call.request, hstage, and_self]
  | greeted k | asking k | asked k =>
    refine .inr ?_
    simp only [Call.introduction, hstage]
    exact ⟨List.cons_ne_nil _ _, Parcel.data_cons_of_some hfits []⟩

/-- Only a call that has sent its request has one on its way. -/
theorem data_request {n : Option Nat} {frame : List UInt8} {rest : List (Option Nat × List UInt8)}
    (h : Parcel.data c.request = (n, frame) :: rest) :
    (∃ k, c.stage = .asked k) ∧ n = some c.number ∧ frame = c.message.encode ∧ rest = [] := by
  cases hstage : c.stage with
  | dialing | greeting k | greeted k | asking k =>
    simp only [Call.request, hstage] at h
    cases h
  | asked k =>
    refine ⟨⟨k, rfl⟩, ?_⟩
    simp only [Call.request, hstage] at h
    have hdata := Parcel.data?_binary (some c.number) c.message.encode
    split_ifs at hdata
    · rw [Parcel.data_cons_of_some hdata] at h
      cases h
      exact ⟨rfl, rfl, rfl⟩
    · rw [Parcel.data_cons_of_none hdata] at h
      cases h

theorem identify_peer (id : ServerId) (d : Desk) :
    Session.identify (Handshake.peer id).toJson.bytes d = ([], .peer id, d) := by
  simp only [Session.identify, Handshake.parse?_bytes]
  rfl

theorem Stands.handle_frame (h : w.Stands P log c) (now : Time) (d : Desk) (g : ρ) {p : Parcel}
    {up : List Parcel} (hup : w.up = p :: up) {frame : List UInt8}
    (htaken : p.item.taken? = some (.ok frame)) :
    (w.handle P.endpoint now d g).2.1.Stands P (log ++ (w.handle P.endpoint now d g).1) c ∧
      ∀ a ∈ (w.handle P.endpoint now d g).1, a.Genuine P := by
  have hasked := asked_of_some hup (Parcel.data?_of_ok htaken)
  have hended (hsession : w.session = .ended) :
      w.handle P.endpoint now d g = ([], { w with up, session := .ended }, d, g) := by
    have hfeed : w.session.feed P.endpoint now frame d g = ([], .ended, d, g) := by
      rw [hsession, Session.feed]
    rw [handle_of_ok hup htaken hfeed, List.map_nil, sendDown_nil]
    rfl
  cases h with
  | unmet session up' down =>
    rw [hasked] at up'
    rcases data_introduction c P with ⟨hintro, hrequest⟩ | ⟨hintro, hdata⟩
    · rw [hintro, hrequest] at up'
      cases up'.eq_nil
    · rw [Parcel.data_append, hdata] at up'
      obtain ⟨rest, hrest, harrives⟩ := up'.receive
      obtain ⟨hhead, rfl⟩ := List.cons.inj hrest
      obtain ⟨-, rfl⟩ := Prod.mk.inj hhead
      have hfeed : w.session.feed P.endpoint now (Handshake.peer P.client).toJson.bytes d g =
          ([], .peer P.client, d, g) := by
        rw [session, Session.feed, identify_peer]
      rw [handle_of_ok hup htaken hfeed, List.map_nil, sendDown_nil]
      exact ⟨.met rfl hintro harrives down, fun a ha => by cases ha⟩
  | met session introduced up' down =>
    rw [hasked] at up'
    obtain ⟨rest, hrest, harrives⟩ := up'.receive
    obtain ⟨⟨k, hstage⟩, hnumber, hframe, hnil⟩ := data_request hrest
    have hunread : c.unread P = [] := by simp only [Call.unread, hstage]
    rw [hunread] at down
    let reply := (Session.answerPeer P.endpoint now P.client frame g).1
    have hfeed : w.session.feed P.endpoint now frame d g = ([.reply reply], .peer P.client, d,
        (Session.answerPeer P.endpoint now P.client frame g).2) := by
      rw [session, Session.feed]
    rw [handle_of_ok hup htaken hfeed]
    refine ⟨.answered (.inl (session_sendDown _ _)) k hstage ?_ ⟨p.call, frame, now, g, reply⟩
      (List.mem_append_right _ List.mem_cons_self) ⟨hnumber, hframe⟩ ?_, fun a ha => ?_⟩
    · rw [asked_sendDown]
      exact (hnil ▸ harrives).eq_nil
    · rw [broken_sendDown, told_sendDown]
      exact down.send _
    · obtain rfl := List.mem_singleton.mp ha
      exact ⟨WireItem.length_of_taken htaken, rfl⟩
  | answered session k waits up' a given answers down =>
    rw [hasked] at up'
    cases up'
  | refused session down =>
    rw [hended session]
    exact ⟨.refused rfl down, fun a ha => by cases ha⟩
  | closed session down =>
    rw [hended session]
    exact ⟨.closed rfl down, fun a ha => by cases ha⟩

/-- What the server does next keeps how the connection stands. -/
theorem Stands.handle (h : w.Stands P log c) (now : Time) (d : Desk) (g : ρ) :
    (w.handle P.endpoint now d g).2.1.Stands P (log ++ (w.handle P.endpoint now d g).1) c ∧
      ∀ a ∈ (w.handle P.endpoint now d g).1, a.Genuine P := by
  cases hup : w.up with
  | nil =>
    have hidle : w.handle P.endpoint now d g = ([], w, d, g) := by simp only [Wire.handle, hup]
    rw [hidle]
    exact ⟨h.mono fun a ha => List.mem_append_left _ ha, fun a ha => by cases ha⟩
  | cons p up =>
    cases htaken : p.item.taken? with
    | none =>
      rw [handle_of_none hup htaken]
      have hasked := asked_of_none hup (Parcel.data?_of_none htaken)
      have hstands : Stands P log c { w with up } := h.congr rfl rfl hasked rfl
      exact ⟨hstands.mono fun a ha => List.mem_append_left _ ha, fun a ha => by cases ha⟩
    | some r =>
      cases r with
      | error err =>
        rw [handle_of_error hup htaken]
        have hasked := asked_of_none hup (Parcel.data?_of_error htaken)
        have hended : (w.session.disconnect d now).1 = .ended := by cases w.session <;> rfl
        have hstands : Stands P log c { w with up, session := (w.session.disconnect d now).1 } :=
          h.finish hended rfl hasked rfl
        exact ⟨hstands.mono fun a ha => List.mem_append_left _ ha, fun a ha => by cases ha⟩
      | ok frame => exact h.handle_frame now d g hup htaken

theorem readReply_refusal : PeerClient.readReply refusal = .error .unreadableReply := by
  decide +kernel

theorem data_refusal (n : Option Nat) :
    Parcel.data [.binary n refusal, ⟨n, .ok .close⟩] = [(n, refusal)] := by
  have hfits : refusal.length ≤ Handshake.maxMessageSize := by decide +kernel
  exact Parcel.data_cons_of_some ((Parcel.data?_binary n refusal).trans (if_pos hfits)) _

/-- The server says last that it expected a handshake, if it has not got one. -/
theorem hangUp_eq (w : Wire) (now : Time) (d : Desk) :
    ∃ ps, (w.hangUp now d).1 = ({ w with session := .ended } : Wire).sendDown ps ∧
      (Parcel.data ps).map (·.2) = if w.session = .opening then [refusal] else [] := by
  obtain ⟨session, broken, up, down⟩ := w
  cases session with
  | opening => exact ⟨_, rfl, congrArg (List.map (·.2)) (data_refusal none)⟩
  | client c => exact ⟨_, rfl, rfl⟩
  | peer o => exact ⟨_, rfl, rfl⟩
  | ended => exact ⟨_, rfl, rfl⟩

theorem Stands.hangUp (h : w.Stands P log c) (now : Time) (d : Desk) :
    (w.hangUp now d).1.Stands P log c := by
  obtain ⟨ps, heq, hdata⟩ := w.hangUp_eq now d
  rw [heq]
  by_cases hopening : w.session = .opening
  · rw [if_pos hopening] at hdata
    cases h with
    | unmet session up down =>
      refine .refused (session_sendDown _ _) ?_
      rw [broken_sendDown, told_sendDown, hdata]
      exact down.send [refusal]
    | met session | refused session | closed session => cases hopening.symm.trans session
    | answered session =>
      rcases session with session | session
      · cases hopening.symm.trans session
      · cases hopening.symm.trans session
  · rw [if_neg hopening] at hdata
    refine h.finish (session_sendDown _ _) (broken_sendDown _ _) (asked_sendDown _ _) ?_
    rw [told_sendDown, hdata, List.append_nil, ite_self]
    rfl

theorem Stands.cut (h : w.Stands P log c) (ups downs : Nat) (e : WireError) :
    (w.cut ups downs e).Stands P log c :=
  h.lose rfl rfl (w.asked_cut_prefix ups downs e) (w.told_cut_prefix ups downs e)

theorem Stands.sendUp_noise (h : w.Stands P log c) {p : Parcel} (hp : p.data? = none) :
    (w.sendUp p).Stands P log c :=
  h.congr (session_sendUp w p) (broken_sendUp w p) (asked_sendUp_of_none hp) (told_sendUp w p)

theorem Stands.sendDown_noise (h : w.Stands P log c) {p : Parcel} (hp : p.data? = none) :
    (w.sendDown [p]).Stands P log c :=
  h.congr (session_sendDown w _) (broken_sendDown w _) (asked_sendDown w _)
    (told_sendDown_of_none hp)

/-! ### The client -/

theorem Stands.accepted (n : Nat) (m : PeerMessage) (k : Nat) :
    (Wire.accepted P.server).Stands P log ⟨n, m, .greeting k⟩ := by
  have hfits := Parcel.data_cons_of_some
    ((Parcel.data?_binary none (Session.greeting P.server).bytes).trans
      (if_pos (Handshake.length_bytes_le .server P.server))) []
  refine .unmet rfl (.inl rfl) (.inl ?_)
  exact congrArg (List.map (·.2)) hfits

variable {k : Nat}

theorem Stands.sendUp (h : w.Stands P log c) {c' : Call} {p : Parcel}
    (hwaits : ∀ k, c.stage ≠ .asked k) (hunread : c'.unread P = c.unread P)
    (hsent : c'.introduction P ++ c'.request = c.introduction P ++ c.request ++ [p])
    (hmet : c.introduction P ≠ [] → c'.introduction P ≠ [] ∧ c'.request = c.request ++ [p]) :
    (w.sendUp p).Stands P log c' := by
  have hdown {xs : List (List UInt8)} (down : Arrives w.broken xs w.told) :
      Arrives (w.sendUp p).broken xs (w.sendUp p).told := by
    rw [broken_sendUp, told_sendUp]
    exact down
  have hup {ps : List Parcel} (up : Arrives w.broken (Parcel.data ps) w.asked) :
      Arrives (w.sendUp p).broken (Parcel.data (ps ++ [p])) (w.sendUp p).asked := by
    rw [broken_sendUp, asked_sendUp, Parcel.data_append]
    exact up.send _
  cases h with
  | unmet session up down =>
    refine .unmet ((session_sendUp w p).trans session) ?_ (hdown (hunread ▸ down))
    rw [hsent]
    exact hup up
  | met session introduced up down =>
    obtain ⟨hintro, hrequest⟩ := hmet introduced
    refine .met ((session_sendUp w p).trans session) hintro ?_ (hdown (hunread ▸ down))
    rw [hrequest]
    exact hup up
  | answered session k waits => exact absurd waits (hwaits k)
  | refused session down =>
    exact .refused ((session_sendUp w p).trans session) (hdown (hunread ▸ down))
  | closed session down =>
    exact .closed ((session_sendUp w p).trans session) (hdown (hunread ▸ down))

theorem Stands.introduce (h : w.Stands P log c) (hstage : c.stage = .greeting k) :
    (w.sendUp (.binary none (Handshake.peer P.client).toJson.bytes)).Stands P log
      { c with stage := .greeted k } := by
  refine h.sendUp (fun k' => ?_) ?_ ?_ fun introduced => ?_
  · rw [hstage]
    nofun
  · simp only [Call.unread, hstage]
  · simp only [Call.introduction, Call.request, hstage, List.append_nil, List.nil_append]
  · simp only [Call.introduction, hstage, ne_eq, not_true] at introduced

theorem Stands.ask (h : w.Stands P log c) (hstage : c.stage = .asking k) :
    (w.sendUp (.binary (some c.number) c.message.encode)).Stands P log
      { c with stage := .asked k } := by
  refine h.sendUp (fun k' => ?_) ?_ ?_ fun _ => ⟨?_, ?_⟩
  · rw [hstage]
    nofun
  · simp only [Call.unread, hstage]
  · simp only [Call.introduction, Call.request, hstage, List.append_nil]
  · exact List.cons_ne_nil _ _
  · simp only [Call.request, hstage, List.nil_append]

theorem Stands.skip (h : w.Stands P log c) {p : Parcel} {down : List Parcel}
    (hdown : w.down = p :: down) (hp : p.data? = none) :
    ({ w with down } : Wire).Stands P log c :=
  h.congr rfl rfl rfl (told_of_none hdown hp)

theorem Stands.greet (h : w.Stands P log c) (hstage : c.stage = .greeted k) {p : Parcel}
    {down : List Parcel} (hdown : w.down = p :: down) {n : Option Nat} {bytes : List UInt8}
    (hp : p.data? = some (n, bytes)) :
    ({ w with down } : Wire).Stands P log { c with stage := .asking k } := by
  have htold := told_of_some hdown hp
  have hunread : c.unread P = [(Session.greeting P.server).bytes] := by
    simp only [Call.unread, hstage]
  have hintro : Call.introduction P { c with stage := .asking k } = c.introduction P := by
    simp only [Call.introduction, hstage]
  have hrequest : Call.request { c with stage := .asking k } = c.request := by
    simp only [Call.request, hstage]
  cases h with
  | unmet session up down =>
    rw [htold, hunread] at down
    obtain ⟨rest, hrest, harrives⟩ := down.receive
    obtain ⟨-, rfl⟩ := List.cons.inj hrest
    exact .unmet session (by rw [hintro, hrequest]; exact up) harrives
  | met session introduced up down =>
    rw [htold, hunread] at down
    obtain ⟨rest, hrest, harrives⟩ := down.receive
    obtain ⟨-, rfl⟩ := List.cons.inj hrest
    exact .met session (hintro ▸ introduced) (by rw [hrequest]; exact up) harrives
  | answered session k' waits => rw [hstage] at waits; cases waits
  | refused session down =>
    rw [htold, hunread] at down
    obtain ⟨rest, hrest, harrives⟩ := down.receive
    obtain ⟨-, rfl⟩ := List.cons.inj hrest
    exact .refused session harrives
  | closed session down =>
    rw [htold, hunread] at down
    obtain ⟨rest, hrest, harrives⟩ := down.receive
    obtain ⟨-, rfl⟩ := List.cons.inj hrest
    exact .closed session harrives

/-- What the client reads instead of a reply is that the server wanted a handshake, or else it is
the server's answer to the request of the call, and then nothing is on its way. -/
theorem Stands.hear (h : w.Stands P log c) (hstage : c.stage = .asked k) {p : Parcel}
    {down : List Parcel} (hdown : w.down = p :: down) {n : Option Nat} {bytes : List UInt8}
    (hp : p.data? = some (n, bytes)) :
    PeerClient.readReply bytes = .error .unreadableReply ∧
        ({ w with down } : Wire).Stands P log c ∨
      ∃ a ∈ log, a.To c.number c.message ∧ PeerClient.readReply bytes = .ok a.reply ∧
        ({ w with down } : Wire).Quiet P := by
  have htold := told_of_some hdown hp
  have hunread : c.unread P = [] := by simp only [Call.unread, hstage]
  have hnone {b : Bool} (h : Arrives b (c.unread P) w.told) : False := by
    rw [htold, hunread] at h
    cases h.eq_nil
  cases h with
  | unmet session up down => exact (hnone down).elim
  | met session introduced up down => exact (hnone down).elim
  | closed session down => exact (hnone down).elim
  | refused session down =>
    rw [htold, hunread] at down
    obtain ⟨rest, hrest, harrives⟩ := down.receive
    obtain ⟨rfl, rfl⟩ := List.cons.inj hrest
    exact .inl ⟨readReply_refusal, .closed session (hunread ▸ harrives)⟩
  | answered session k' waits up a given answers down =>
    rw [htold] at down
    obtain ⟨rest, hrest, harrives⟩ := down.receive
    have hdata := Parcel.data?_binary a.call a.reply.encode
    split_ifs at hdata with hfits
    · rw [Parcel.data_cons_of_some hdata] at hrest
      obtain ⟨rfl, rfl⟩ := List.cons.inj hrest
      have hread : PeerReply.decode a.reply.encode = .ok a.reply :=
        PeerReply.decode_encode (Nat.lt_of_le_of_lt hfits (by decide))
      refine .inr ⟨a, given, answers, ?_, session, up, harrives.eq_nil⟩
      rw [PeerClient.readReply, hread]
      rfl
    · rw [Parcel.data_cons_of_none hdata] at hrest
      cases hrest

/-! ### Between calls -/

theorem Quiet.stands (h : w.Quiet P) (hstage : c.stage = .asking k) : w.Stands P log c := by
  have hunread : c.unread P = [] := by simp only [Call.unread, hstage]
  rcases h.session with session | session
  · refine .met session ?_ (.inl ?_) (.inl ?_)
    · simp only [Call.introduction, hstage]
      exact List.cons_ne_nil _ _
    · rw [h.up, Call.request, hstage]
      rfl
    · rw [h.down, hunread]
  · exact .closed session (.inl (by rw [h.down, hunread]))

theorem Quiet.keep (h : w.Quiet P) (hsession : w'.session = w.session ∨ w'.session = .ended)
    (hasked : w'.asked = w.asked) (htold : w'.told = w.told) : w'.Quiet P := by
  refine ⟨?_, hasked.trans h.up, htold.trans h.down⟩
  rcases hsession with hsession | hsession
  · rw [hsession]
    exact h.session
  · exact .inr hsession

theorem Quiet.handle (h : w.Quiet P) (now : Time) (d : Desk) (g : ρ) :
    (w.handle P.endpoint now d g).2.1.Quiet P := by
  cases hup : w.up with
  | nil =>
    have hidle : w.handle P.endpoint now d g = ([], w, d, g) := by simp only [Wire.handle, hup]
    rw [hidle]
    exact h
  | cons p up =>
    cases htaken : p.item.taken? with
    | none =>
      rw [handle_of_none hup htaken]
      have hasked := asked_of_none hup (Parcel.data?_of_none htaken)
      exact h.keep (.inl rfl) hasked rfl
    | some r =>
      cases r with
      | error err =>
        rw [handle_of_error hup htaken]
        have hasked := asked_of_none hup (Parcel.data?_of_error htaken)
        have hended : (w.session.disconnect d now).1 = .ended := by cases w.session <;> rfl
        exact h.keep (.inr hended) hasked rfl
      | ok frame =>
        have hasked := asked_of_some hup (Parcel.data?_of_ok htaken)
        rw [h.up] at hasked
        cases hasked

theorem Quiet.hangUp (h : w.Quiet P) (now : Time) (d : Desk) : (w.hangUp now d).1.Quiet P := by
  obtain ⟨ps, heq, hdata⟩ := w.hangUp_eq now d
  have hmet : w.session ≠ .opening := by
    rcases h.session with session | session <;> rw [session] <;> nofun
  rw [if_neg hmet] at hdata
  rw [heq]
  have htold : (({ w with session := .ended } : Wire).sendDown ps).told = w.told := by
    rw [told_sendDown, hdata, List.append_nil, ite_self]
    rfl
  have hasked : (({ w with session := .ended } : Wire).sendDown ps).asked = w.asked :=
    asked_sendDown _ ps
  exact h.keep (.inr (session_sendDown _ _)) hasked htold

theorem Quiet.cut (h : w.Quiet P) (ups downs : Nat) (e : WireError) :
    (w.cut ups downs e).Quiet P :=
  ⟨h.session, List.prefix_nil.mp (h.up ▸ w.asked_cut_prefix ups downs e),
    List.prefix_nil.mp (h.down ▸ w.told_cut_prefix ups downs e)⟩

theorem Quiet.sendUp_noise (h : w.Quiet P) {p : Parcel} (hp : p.data? = none) :
    (w.sendUp p).Quiet P :=
  h.keep (.inl (session_sendUp w p)) (asked_sendUp_of_none hp) (told_sendUp w p)

theorem Quiet.sendDown_noise (h : w.Quiet P) {p : Parcel} (hp : p.data? = none) :
    (w.sendDown [p]).Quiet P :=
  h.keep (.inl (session_sendDown w _)) (asked_sendDown w _) (told_sendDown_of_none hp)

end Wire

end LeaseRegistry
