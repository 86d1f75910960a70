import LeaseRegistry.Instance.Json
import LeaseRegistry.Proofs.Json.Fields

/-!
# The JSON form of records and deltas

Every record and every delta is read back from its JSON, whether it is read directly or kept as a
whole first; and all of it can be kept. The members of a record may also come in another order,
without those that a reader fills in again, and with others between them (`Record.Layout`).
-/

namespace LeaseRegistry

open Json (Reading KeptWithin fields?_record required_of_mem defaulted_of_mem
  keptWithin_nat keptWithin_nullable keptWithin_map)

/-! ## Reading what was written -/

@[simp] theorem Status.ofJson?_toJson (reading : Reading) (s : Status) :
    ofJson? reading s.toJson = some s :=
  ofName?_name s

@[simp] theorem ServicePort.ofJson?_toJson (p : ServicePort) : ofJson? p.toJson = some p := by
  rw [ofJson?, toJson, fields?_record, Option.bind_eq_bind, Option.bind_some,
    required_of_mem (v := .text p.name) (by simp) (by simp),
    required_of_mem (v := .nat p.port.toNat) (by simp) (by simp),
    defaulted_of_mem (v := .bool p.secure) (by simp) (by simp), Json.toUInt16?_nat]
  rfl

@[simp] theorem NetworkAddress.ofJson?_toJson (a : NetworkAddress) : ofJson? a.toJson = some a := by
  rw [ofJson?, toJson, fields?_record, Option.bind_eq_bind, Option.bind_some,
    required_of_mem (v := .text a.ip) (by simp) (by simp),
    defaulted_of_mem (v := .nullable a.hostName) (by simp) (by simp),
    defaulted_of_mem (v := .bool a.isPublic) (by simp) (by simp), Json.toNullable?_nullable]
  rfl

@[simp] theorem DataCenter.ofJson?_toJson (d : DataCenter) : ofJson? d.toJson = some d := by
  have haddresses : Json.toList? NetworkAddress.ofJson?
      (.array (d.addresses.map NetworkAddress.toJson)) = some d.addresses :=
    Json.toList?_map fun a _ => a.ofJson?_toJson
  rw [ofJson?, toJson, fields?_record, Option.bind_eq_bind, Option.bind_some,
    required_of_mem (v := .text d.name) (by simp) (by simp),
    defaulted_of_mem (v := .array (d.addresses.map NetworkAddress.toJson)) (by simp) (by simp),
    haddresses]
  rfl

@[simp] theorem LeaseTerms.ofJson?_toJson (t : LeaseTerms) : ofJson? t.toJson = some t := by
  rw [ofJson?, toJson, fields?_record, Option.bind_eq_bind, Option.bind_some,
    required_of_mem (v := .nat t.duration.toNat) (by simp) (by simp),
    required_of_mem (v := .nat t.interval.toNat) (by simp) (by simp),
    Json.toUInt32?_nat, Json.toUInt32?_nat]
  rfl

theorem SortedSet.ofJson?_toJson {α : Type} [Ord α] [Std.TransOrd α] {read : Json → Option α}
    {write : α → Json} (h : ∀ a, read (write a) = some a) (s : SortedSet α) :
    ofJson? read (s.toJson write) = some s := by
  rw [ofJson?, toJson, Json.toList?_map fun a _ => h a, Option.map_some, ofList_toList]

@[simp] theorem SortedSet.ofJson?_toJson_ports (s : SortedSet ServicePort) :
    ofJson? ServicePort.ofJson? (s.toJson ServicePort.toJson) = some s :=
  ofJson?_toJson ServicePort.ofJson?_toJson s

@[simp] theorem SortedSet.ofJson?_toJson_text (s : SortedSet String) :
    ofJson? Json.toText? (s.toJson .text) = some s :=
  ofJson?_toJson Json.toText?_text s

/-! ## Layouts of records -/

namespace Record

theorem nodup_members (r : Record) : (r.members.map (·.1)).Nodup := by
  have hnames : r.members.map (·.1) = fieldNames := rfl
  rw [hnames]
  decide

variable {r : Record} {omitted : List String} {extra ms : List (String × Json)} {name : String}
  {v : Json}

/-- What the record has in this field is what a reader takes if the field is left out. -/
def HasDefault (r : Record) : String → Prop
  | "vipAddress" => r.vipAddress = none
  | "dataCenter" => r.dataCenter = .unnamed
  | "ports" => r.ports = ∅
  | "healthCheckUrls" => r.healthCheckUrls = ∅
  | "status" => r.status = .unknown
  | "lease" => r.lease = .standard
  | "version" => r.version = 0
  | _ => False

/-- The members `ms` are those of the record without the fields `omitted`, and the members `extra`,
in any order. -/
structure Layout (r : Record) (omitted : List String) (extra ms : List (String × Json)) :
    Prop where
  defaults : ∀ name ∈ omitted, r.HasDefault name
  unknown : ∀ m ∈ extra, m.1 ∉ fieldNames
  members : ms.Perm (r.members.filter (·.1 ∉ omitted) ++ extra)

namespace Layout

theorem of_members (r : Record) : r.Layout [] [] r.members where
  defaults := List.forall_mem_nil _
  unknown := List.forall_mem_nil _
  members := by simp

/-- A field is looked up as if its record were written as usual, but for the omitted ones. -/
theorem lookup? (h : r.Layout omitted extra ms) (hm : (name, v) ∈ r.members) :
    Json.lookup? name ms = some (if name ∈ omitted then none else some v) := by
  have hextra : name ∉ extra.map (·.1) := by
    intro hmem
    obtain ⟨m, hm', rfl⟩ := List.mem_map.mp hmem
    exact h.unknown m hm' (List.mem_map_of_mem (f := (·.1)) hm)
  rw [Json.lookup?_perm h.members, Json.lookup?_append_of_notMem hextra]
  by_cases homitted : name ∈ omitted
  · rw [if_pos homitted]
    refine Json.lookup?_of_notMem fun hmem => ?_
    obtain ⟨m, hm', rfl⟩ := List.mem_map.mp hmem
    have hkept := (List.mem_filter.mp hm').2
    exact (of_decide_eq_true hkept) homitted
  · rw [if_neg homitted]
    refine Json.lookup?_of_mem ?_ (List.mem_filter.mpr ⟨hm, decide_eq_true homitted⟩)
    exact r.nodup_members.sublist (List.filter_sublist.map _)

theorem required {α : Type} (h : r.Layout omitted extra ms) (name : String)
    (hm : (name, v) ∈ r.members) (hdefault : ¬r.HasDefault name) {read : Json → Option α} :
    Json.required name read ms = read v := by
  rw [Json.required, h.lookup? hm, if_neg fun homitted => hdefault (h.defaults name homitted)]

theorem defaulted {α : Type} (h : r.Layout omitted extra ms) (name : String)
    {read : Json → Option α} {default a : α} (hm : (name, v) ∈ r.members) (hread : read v = some a)
    (hdefault : r.HasDefault name → a = default) :
    Json.defaulted name default read ms = some a := by
  rw [Json.defaulted, h.lookup? hm]
  by_cases homitted : name ∈ omitted
  · rw [if_pos homitted, hdefault (h.defaults name homitted)]
  · rw [if_neg homitted]
    exact hread

/-- The record is read from each of its layouts. -/
theorem ofJson? (h : r.Layout omitted extra ms) (reading : Json.Reading) :
    Record.ofJson? reading (.record ms) = some r := by
  rw [Record.ofJson?, fields?_record, Option.bind_eq_bind, Option.bind_some,
    h.required "id" (v := .text r.id.text) (by simp [Record.members]) fun hd => hd,
    h.required "app" (v := .text r.app) (by simp [Record.members]) fun hd => hd,
    h.defaulted "vipAddress" (by simp [Record.members]) (Json.toNullable?_nullable _) fun hd => hd,
    h.defaulted "dataCenter" (by simp [Record.members]) r.dataCenter.ofJson?_toJson fun hd => hd,
    h.defaulted "ports" (by simp [Record.members]) r.ports.ofJson?_toJson_ports fun hd => hd,
    h.defaulted "healthCheckUrls" (by simp [Record.members])
      r.healthCheckUrls.ofJson?_toJson_text fun hd => hd,
    h.defaulted "status" (by simp [Record.members]) (r.status.ofJson?_toJson reading) fun hd => hd,
    h.defaulted "lease" (by simp [Record.members]) r.lease.ofJson?_toJson fun hd => hd,
    h.defaulted "version" (by simp [Record.members]) (Json.toUInt64?_nat _) fun hd => hd]
  rfl

end Layout

@[simp] theorem ofJson?_toJson (reading : Reading) (r : Record) :
    ofJson? reading r.toJson = some r :=
  (Layout.of_members r).ofJson? reading

end Record

/-! ## Deltas and server ids -/

@[simp] theorem Delta.ofJson?_toJson (d : Delta) : ofJson? d.toJson = some d := by
  cases d with
  | app a => rfl
  | vipAddress vip => exact congrArg (Option.map Delta.vipAddress) (Json.toNullable?_nullable vip)
  | dataCenter d => exact congrArg (Option.map Delta.dataCenter) d.ofJson?_toJson
  | ports ps => exact congrArg (Option.map Delta.ports) ps.ofJson?_toJson_ports
  | healthCheckUrls urls =>
    exact congrArg (Option.map Delta.healthCheckUrls) urls.ofJson?_toJson_text
  | status s => exact congrArg (Option.map Delta.status) (s.ofJson?_toJson .direct)
  | lease t => exact congrArg (Option.map Delta.lease) t.ofJson?_toJson

@[simp] theorem ServerId.ofJson?_toJson (a : ServerId) : ofJson? a.toJson = some a := by
  rw [ofJson?, toJson, Json.toText?_text, Option.bind_some, ofText_text]
  rfl

theorem ServerId.utf8ByteSize_le (a : ServerId) : a.text.utf8ByteSize ≤ maxBytes := by
  have h := a.valid
  unfold fault? at h
  split at h
  · cases h
  · split at h
    · cases h
    · omega

theorem Record.parse?_bytes (r : Record) : parse? r.toJson.bytes = some r := by
  rw [parse?, Json.parse?_bytes, Option.bind_some, ofJson?_toJson]

theorem Delta.parse?_bytes (d : Delta) : parse? d.toJson.bytes = some d := by
  rw [parse?, Json.parse?_bytes, Option.bind_some, ofJson?_toJson]

/-! ## Keeping it as a whole -/

namespace Json

theorem keptWithin_port (n : Nat) (p : ServicePort) : KeptWithin (n + 1) p.toJson := by
  have hport := keptWithin_nat n (Nat.lt_trans p.port.toNat_lt (by decide : 2 ^ 16 < UInt64.size))
  refine .record fun m hm => ?_
  simp only [List.mem_cons, List.not_mem_nil, or_false] at hm
  rcases hm with rfl | rfl | rfl
  · exact .text n _
  · exact hport
  · exact .bool n _

theorem keptWithin_address (n : Nat) (a : NetworkAddress) : KeptWithin (n + 1) a.toJson := by
  refine .record fun m hm => ?_
  simp only [List.mem_cons, List.not_mem_nil, or_false] at hm
  rcases hm with rfl | rfl | rfl
  · exact .text n _
  · exact keptWithin_nullable n _
  · exact .bool n _

theorem keptWithin_dataCenter (n : Nat) (d : DataCenter) : KeptWithin (n + 3) d.toJson := by
  refine .record fun m hm => ?_
  simp only [List.mem_cons, List.not_mem_nil, or_false] at hm
  rcases hm with rfl | rfl
  · exact .text _ _
  · exact keptWithin_map fun a _ => keptWithin_address n a

theorem keptWithin_lease (n : Nat) (t : LeaseTerms) : KeptWithin (n + 1) t.toJson := by
  have hfits (k : UInt32) : KeptWithin n (nat k.toNat) :=
    keptWithin_nat n (Nat.lt_trans k.toNat_lt (by decide : 2 ^ 32 < UInt64.size))
  refine .record fun m hm => ?_
  simp only [List.mem_cons, List.not_mem_nil, or_false] at hm
  rcases hm with rfl | rfl
  · exact hfits _
  · exact hfits _

/-- A record holds its data center, which holds its addresses. -/
theorem keptWithin_record (n : Nat) (r : Record) : KeptWithin (n + 4) r.toJson := by
  refine .record fun m hm => ?_
  simp only [Record.members, List.mem_cons, List.not_mem_nil, or_false] at hm
  rcases hm with rfl | rfl | rfl | rfl | rfl | rfl | rfl | rfl | rfl
  · exact .text _ _
  · exact .text _ _
  · exact keptWithin_nullable _ _
  · exact keptWithin_dataCenter n _
  · exact keptWithin_map fun p _ => keptWithin_port (n + 1) p
  · exact keptWithin_map fun url _ => .text _ url
  · exact .text _ _
  · exact keptWithin_lease (n + 2) _
  · exact keptWithin_nat _ r.version.toNat_lt

end Json

end LeaseRegistry
