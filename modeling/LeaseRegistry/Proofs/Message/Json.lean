import LeaseRegistry.Message.Client
import LeaseRegistry.Message.Handshake
import LeaseRegistry.Proofs.Instance.Json

/-!
# The JSON form of messages

What a client, a server or the opening of a connection says in JSON is read back as it was said; a
handshake of another kind is refused.
-/

namespace LeaseRegistry

open Json (KeptWithin fields?_record required_of_mem defaulted_of_mem defaulted_of_notMem)

namespace Json

theorem tagged?_object {tag : String} {members : List (Text × Json)}
    (h : some "type" ∉ members.map (·.1)) :
    (object ((some "type", text tag) :: members)).tagged? = some (tag, object members) := by
  have hothers : ∀ m ∈ members, ¬ (m.1 == some "type") = true := fun m hm he =>
    h (List.mem_map.mpr ⟨m, hm, eq_of_beq he⟩)
  have hsplit : ((some "type", text tag) :: members).partition (·.1 == some "type") =
      ([(some "type", text tag)], members) := by
    rw [List.partition_eq_filter_filter, List.filter_cons_of_pos (by simp),
      List.filter_cons_of_neg (by simp), List.filter_eq_nil_iff.mpr hothers,
      List.filter_eq_self.mpr fun m hm => by simpa using hothers m hm]
  rw [tagged?, hsplit]
  rfl

/-- The tag is taken out of a message that begins with it, and names no other member. -/
theorem tagged?_record {tag : String} {ms : List (String × Json)}
    (h : "type" ∉ ms.map (·.1)) :
    (record (("type", text tag) :: ms)).tagged? = some (tag, record ms) := by
  refine tagged?_object fun hm => h ?_
  simpa using hm

end Json

namespace ClientMessage

theorem contentRecord?_record (r : Record) :
    contentRecord? (.record [("instance", r.toJson)]) = some r := by
  rw [contentRecord?, fields?_record, Option.bind_eq_bind, Option.bind_some,
    required_of_mem (v := r.toJson) (by simp) (by simp), Record.ofJson?_toJson]

@[simp] theorem ofJson?_toJson (m : ClientMessage) : ofJson? m.toJson = some m := by
  cases m with
  | register r =>
    rw [ofJson?, toJson, Json.tagged?_record (by simp)]
    exact congrArg (Option.map register) (contentRecord?_record r)
  | update r =>
    rw [ofJson?, toJson, Json.tagged?_record (by simp)]
    exact congrArg (Option.map update) (contentRecord?_record r)
  | unregister => rfl
  | heartbeat => rfl

theorem keptWithin_toJson (m : ClientMessage) : KeptWithin 5 m.toJson := by
  cases m with
  | register r | update r =>
    refine .record fun m hm => ?_
    simp only [List.mem_cons, List.not_mem_nil, or_false] at hm
    rcases hm with rfl | rfl
    · exact .text _ _
    · exact Json.keptWithin_record 0 r
  | unregister | heartbeat =>
    refine .record fun m hm => ?_
    rw [List.mem_singleton.mp hm]
    exact .text _ _

theorem parse?_bytes (m : ClientMessage) : parse? m.toJson.bytes = some m := by
  rw [parse?, Json.parseKept?_bytes m.keptWithin_toJson (by decide), Option.bind_some,
    ofJson?_toJson]

end ClientMessage

namespace ServerMessage

@[simp] theorem ofJson?_toJson (m : ServerMessage) : ofJson? m.toJson = some m := by
  cases m with
  | ack => rfl
  | error reason => rfl
  | heartbeat => rfl

theorem keptWithin_toJson (m : ServerMessage) : KeptWithin 1 m.toJson := by
  cases m with
  | error reason =>
    refine .record fun m hm => ?_
    simp only [List.mem_cons, List.not_mem_nil, or_false] at hm
    rcases hm with rfl | rfl
    · exact .text _ _
    · exact .text _ _
  | ack | heartbeat =>
    refine .record fun m hm => ?_
    rw [List.mem_singleton.mp hm]
    exact .text _ _

theorem parse?_bytes (m : ServerMessage) : parse? m.toJson.bytes = some m := by
  rw [parse?, Json.parseKept?_bytes m.keptWithin_toJson (by decide), Option.bind_some,
    ofJson?_toJson]

end ServerMessage

namespace Handshake

theorem readRole?_name (r : Role) :
    ((Json.text r.name).toName? .direct).bind Role.ofName? = some r := by
  cases r <;> rfl

@[simp] theorem ofJson?_toJson (h : Handshake) : ofJson? h.toJson = some h := by
  obtain ⟨kind, version, role, serverId⟩ := h
  cases serverId with
  | none =>
    rw [ofJson?, toJson, fields?_record, Option.bind_eq_bind, Option.bind_some,
      required_of_mem (v := .text kind) (by simp) (by simp),
      required_of_mem (v := .nat version.toNat) (by simp) (by simp),
      required_of_mem (v := .text role.name) (by simp) (by simp),
      defaulted_of_notMem (by simp), Json.toUInt32?_nat, readRole?_name]
    rfl
  | some id =>
    have hid : Json.toNullable? ServerId.ofJson? id.toJson = some (some id) :=
      congrArg (Option.map some) id.ofJson?_toJson
    rw [ofJson?, toJson, fields?_record, Option.bind_eq_bind, Option.bind_some,
      required_of_mem (v := .text kind) (by simp) (by simp),
      required_of_mem (v := .nat version.toNat) (by simp) (by simp),
      required_of_mem (v := .text role.name) (by simp) (by simp),
      defaulted_of_mem (v := id.toJson) (by simp) (by simp), Json.toUInt32?_nat, readRole?_name,
      hid]
    rfl

/-- A handshake is read as one only if it says it is one. -/
theorem parse?_bytes (h : Handshake) :
    parse? h.toJson.bytes = if h.kind = kindName then some h else none := by
  rw [parse?, Json.parse?_bytes, Option.bind_some, ofJson?_toJson, Option.filter_some]
  simp only [beq_iff_eq]

end Handshake

/-- A server id is short, so the handshake of a server fits into a frame. -/
theorem Handshake.length_bytes_le (role : Role) (id : ServerId) :
    (make role (some id)).toJson.bytes.length ≤ maxMessageSize := by
  let front : List Json.Token := [.openObject, .string (some "type"), .colon,
    .string (some kindName), .comma, .string (some "version"), .colon, .number (.ofNat 1),
    .comma, .string (some "role"), .colon, .string (some role.name),
    .comma, .string (some "serverId"), .colon]
  have htokens : (make role (some id)).toJson.tokens =
      front ++ [.string (some id.text), .closeObject] := rfl
  have hfront : (front.flatMap Json.Token.bytes).length ≤ 100 := by
    cases role <;> decide +kernel
  have hid := id.utf8ByteSize_le
  have hquoted := Json.Token.length_quoted_le id.text.toUTF8.toList
  rw [Text.length_toUTF8] at hquoted
  have hlen : (make role (some id)).toJson.bytes.length =
      (front.flatMap Json.Token.bytes).length +
        ((Json.Token.quoted id.text.toUTF8.toList).length + 1) := by
    rw [Json.bytes, htokens, List.flatMap_append, List.length_append]
    simp [Json.Token.bytes, Json.Token.stringBytes]
  have hmax : ServerId.maxBytes = 128 ∧ maxMessageSize = 1048576 := ⟨rfl, rfl⟩
  omega

/-- Records, deltas and the messages of both directions are read back from their compact spelling as
the values that were written; so are handshakes of the right kind, and the others are refused. -/
theorem json_roundTrips :
    (∀ r : Record, Record.parse? r.toJson.bytes = some r) ∧
    (∀ d : Delta, Delta.parse? d.toJson.bytes = some d) ∧
    (∀ m : ClientMessage, ClientMessage.parse? m.toJson.bytes = some m) ∧
    (∀ m : ServerMessage, ServerMessage.parse? m.toJson.bytes = some m) ∧
    ∀ h : Handshake,
      Handshake.parse? h.toJson.bytes = if h.kind = Handshake.kindName then some h else none :=
  ⟨Record.parse?_bytes, Delta.parse?_bytes, ClientMessage.parse?_bytes,
    ServerMessage.parse?_bytes, Handshake.parse?_bytes⟩

end LeaseRegistry
