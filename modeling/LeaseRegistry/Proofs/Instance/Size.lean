import LeaseRegistry.Instance.Json
import LeaseRegistry.Proofs.Binary.Message
import LeaseRegistry.Proofs.Json.Length

/-!
# How large records are

The binary form of a record in terms of its fields (`Record.length_codec`), and how it compares with
the JSON it was read from. Lengths and counts have eight bytes each in binary form, so that a list
of short texts grows when it is passed on; it does so threefold at most (`Record.sum_size_le`).
-/

namespace LeaseRegistry

open Codec

open Json (fieldExtent sum_fieldExtent_lt_extent exists_of_required exists_of_defaulted)

/-! ## Fields in binary form -/

namespace Delta

def size (d : Delta) : Nat := (codec.encode d).length

@[simp] theorem size_app (a : String) : (app a).size = 12 + a.utf8ByteSize := by
  rw [size, codec, length_sum rfl]
  change 4 + (string.encode a).length = _
  rw [length_string]
  omega

@[simp] theorem size_vipAddress (v : Option String) :
    (vipAddress v).size = 4 + (string.option.encode v).length := by
  rw [size, codec, length_sum rfl]
  rfl

@[simp] theorem size_dataCenter (d : DataCenter) :
    (dataCenter d).size = 20 + d.name.utf8ByteSize +
      (d.addresses.map fun a => (NetworkAddress.codec.encode a).length).sum := by
  rw [size, codec, length_sum rfl]
  change 4 + ((string.pair NetworkAddress.codec.list).encode (d.name, d.addresses)).length = _
  simp only [length_pair, length_string, length_list]
  omega

@[simp] theorem size_ports (ps : SortedSet ServicePort) :
    (ports ps).size = 12 + (ps.toList.map fun p => (ServicePort.codec.encode p).length).sum := by
  rw [size, codec, length_sum rfl]
  change 4 + (ServicePort.codec.sortedSet.encode ps).length = _
  rw [length_sortedSet]
  omega

@[simp] theorem size_healthCheckUrls (us : SortedSet String) :
    (healthCheckUrls us).size = 12 + (us.toList.map fun u => (string.encode u).length).sum := by
  rw [size, codec, length_sum rfl]
  change 4 + (string.sortedSet.encode us).length = _
  rw [length_sortedSet]
  omega

@[simp] theorem size_status (s : Status) : (status s).size = 8 := rfl

@[simp] theorem size_lease (t : LeaseTerms) : (lease t).size = 12 := rfl

end Delta

namespace Record

/-- All of a record but its identity and its version. -/
def contents (r : Record) : List Delta :=
  [.app r.app, .vipAddress r.vipAddress, .dataCenter r.dataCenter, .ports r.ports,
   .healthCheckUrls r.healthCheckUrls, .status r.status, .lease r.lease]

/-- A record takes less than its contents one by one, which have an index each. -/
theorem length_codec (r : Record) :
    (codec.encode r).length + 12 = r.id.text.utf8ByteSize + (r.contents.map Delta.size).sum := by
  have hstatus : (Status.codec.encode r.status).length = 4 := rfl
  have hlease : (LeaseTerms.codec.encode r.lease).length = 8 := rfl
  simp only [codec, InstanceId.codec, DataCenter.codec, length_via, length_pair, length_string,
    length_list, length_sortedSet, length_uint64, hstatus, hlease, contents, List.map_cons,
    List.map_nil, List.sum_cons, List.sum_nil, Delta.size_app, Delta.size_vipAddress,
    Delta.size_dataCenter, Delta.size_ports, Delta.size_healthCheckUrls, Delta.size_status,
    Delta.size_lease]
  omega

@[simp] theorem contents_atVersion (r : Record) (v : Version) :
    (r.atVersion v).contents = r.contents := rfl

theorem mem_contents_applyDelta {r : Record} {d e : Delta} (h : e ∈ (r.applyDelta d).contents) :
    e = d ∨ e ∈ r.contents := by
  cases d <;> simp only [contents, applyDelta, List.mem_cons, List.not_mem_nil, or_false] at h ⊢ <;>
    tauto

theorem deltaIf_sublist (changed : Bool) (d : Delta) : (deltaIf changed d).Sublist [d] := by
  cases changed
  · exact List.nil_sublist _
  · exact List.Sublist.refl _

/-- Deltas to a record are among its contents, each at most once. -/
theorem diff_sublist_contents (newer older : Record) : (newer.diff older).Sublist newer.contents :=
  (((((((deltaIf_sublist _ _).append (deltaIf_sublist _ _)).append (deltaIf_sublist _ _)).append
    (deltaIf_sublist _ _)).append (deltaIf_sublist _ _)).append (deltaIf_sublist _ _)).append
      (deltaIf_sublist _ _))

end Record

/-! ## What was read from JSON -/

section

variable {fs : List (String × Json)} {name : String} {v : Json}

theorem Json.utf8ByteSize_of_toText? {s : String} (h : v.toText? = some s) :
    s.utf8ByteSize + 2 = v.extent := by
  cases v <;> cases h
  rfl

theorem Json.utf8ByteSize_of_required {s : String} (h : required name toText? fs = some s) :
    s.utf8ByteSize + 3 = fieldExtent fs name := by
  obtain ⟨w, hw, hextent⟩ := exists_of_required h
  have := utf8ByteSize_of_toText? hw
  omega

theorem Json.length_option_of_defaulted {o : Option String}
    (h : defaulted name none (toNullable? toText?) fs = some o) :
    (Codec.string.option.encode o).length ≤ 3 * fieldExtent fs name + 1 := by
  rcases exists_of_defaulted h with rfl | ⟨w, hw, hextent⟩
  · exact Nat.le_add_left _ _
  unfold toNullable? at hw
  split at hw
  · cases hw
    exact Nat.le_add_left _ _
  · obtain ⟨s, hs, rfl⟩ := Option.map_eq_some_iff.mp hw
    have := utf8ByteSize_of_toText? hs
    rw [length_option_some, length_string]
    omega

/-- The items of an array share its extent. -/
theorem Json.sum_le_of_toList? {α : Type} {read : Json → Option α} {size : α → Nat}
    (hsize : ∀ w a, read w = some a → size a ≤ 3 * (w.extent + 1)) {as : List α}
    (h : v.toList? read = some as) : (as.map size).sum ≤ 3 * v.extent := by
  cases v with
  | array items =>
    have hload := (Json.array items).load_lt_extent
    have hle : (as.map size).sum ≤ 3 * (Json.array items).load := by
      clear hload
      rw [load]
      simp only [toList?] at h
      induction items generalizing as with
      | nil =>
        cases h
        exact Nat.zero_le _
      | cons w items ih =>
        rw [List.mapM_cons] at h
        simp only [Option.bind_eq_bind, Option.bind_eq_some_iff] at h
        obtain ⟨a, ha, as', has, he⟩ := h
        cases he
        have hw := hsize w a ha
        have hitems := ih has
        simp only [List.map_cons, List.sum_cons]
        omega
    omega
  | null | bool b | number n | string s | object members => cases h

end

theorem NetworkAddress.length_codec_le {v : Json} {a : NetworkAddress} (h : ofJson? v = some a) :
    (codec.encode a).length ≤ 3 * (v.extent + 1) := by
  simp only [ofJson?, Option.bind_eq_bind, Option.bind_eq_some_iff] at h
  obtain ⟨fs, hfs, ip, hip, host, hhost, isPublic, -, he⟩ := h
  cases he
  have hsum := sum_fieldExtent_lt_extent ["ip", "hostName"] (by decide) hfs
  have hip := Json.utf8ByteSize_of_required hip
  have hhost := Json.length_option_of_defaulted hhost
  simp only [List.map_cons, List.map_nil, List.sum_cons, List.sum_nil] at hsum
  simp only [codec, length_via, length_pair, length_string, length_bool]
  omega

theorem ServicePort.length_codec_le {v : Json} {p : ServicePort} (h : ofJson? v = some p) :
    (codec.encode p).length ≤ 3 * (v.extent + 1) := by
  simp only [ofJson?, Option.bind_eq_bind, Option.bind_eq_some_iff] at h
  obtain ⟨fs, hfs, name, hname, port, -, secure, -, he⟩ := h
  cases he
  have hsum := sum_fieldExtent_lt_extent ["name"] (by decide) hfs
  have hname := Json.utf8ByteSize_of_required hname
  simp only [List.map_cons, List.map_nil, List.sum_cons, List.sum_nil] at hsum
  simp only [codec, length_via, length_pair, length_string, length_uint16, length_bool]
  omega

theorem DataCenter.size_le {v : Json} {d : DataCenter} (h : ofJson? v = some d) :
    (Delta.dataCenter d).size ≤ 3 * (v.extent + 1) + 20 := by
  simp only [ofJson?, Option.bind_eq_bind, Option.bind_eq_some_iff] at h
  obtain ⟨fs, hfs, name, hname, addresses, haddresses, he⟩ := h
  obtain rfl : ⟨name, addresses⟩ = d := Option.some.inj he
  have hsum := sum_fieldExtent_lt_extent ["name", "addresses"] (by decide) hfs
  have hname := Json.utf8ByteSize_of_required hname
  have haddresses : (addresses.map fun a => (NetworkAddress.codec.encode a).length).sum ≤
      3 * fieldExtent fs "addresses" := by
    rcases exists_of_defaulted haddresses with rfl | ⟨w, hw, hextent⟩
    · exact Nat.zero_le _
    · have := Json.sum_le_of_toList? (fun w a => NetworkAddress.length_codec_le) hw
      omega
  simp only [List.map_cons, List.map_nil, List.sum_cons, List.sum_nil] at hsum
  simp only [Delta.size_dataCenter]
  omega

theorem SortedSet.sum_insertInto_le {α : Type} [Ord α] (f : α → Nat) (a : α) (l : List α) :
    ((insertInto a l).map f).sum ≤ f a + (l.map f).sum := by
  induction l with
  | nil => exact Nat.le_refl _
  | cons b bs ih =>
    unfold insertInto
    split
    · exact Nat.le_refl _
    · exact Nat.le_add_left _ _
    · simp only [List.map_cons, List.sum_cons]
      omega

/-- A set has no more elements than were put into it. -/
theorem SortedSet.sum_ofList_le {α : Type} [Ord α] [Std.TransOrd α] (f : α → Nat) (l : List α) :
    ((ofList l).toList.map f).sum ≤ (l.map f).sum := by
  have hinsert (s : SortedSet α) :
      ((l.foldl insert s).toList.map f).sum ≤ (s.toList.map f).sum + (l.map f).sum := by
    induction l generalizing s with
    | nil => exact Nat.le_refl _
    | cons a l ih =>
      have hs := sum_insertInto_le f a s.toList
      have hl := ih (s.insert a)
      rw [List.map_cons, List.sum_cons, List.foldl_cons]
      rw [toList_insert] at hl
      omega
  have h := hinsert ∅
  rw [toList_empty, List.map_nil, List.sum_nil, Nat.zero_add] at h
  exact h

theorem SortedSet.sum_le_of_ofJson? {α : Type} [Ord α] [Std.TransOrd α] {read : Json → Option α}
    {size : α → Nat} (hsize : ∀ w a, read w = some a → size a ≤ 3 * (w.extent + 1)) {v : Json}
    {s : SortedSet α} (h : ofJson? read v = some s) : (s.toList.map size).sum ≤ 3 * v.extent := by
  obtain ⟨l, hl, rfl⟩ := Option.map_eq_some_iff.mp h
  exact (sum_ofList_le size l).trans (Json.sum_le_of_toList? hsize hl)

theorem size_ports_le {v : Json} {ps : SortedSet ServicePort}
    (h : SortedSet.ofJson? ServicePort.ofJson? v = some ps) :
    (Delta.ports ps).size ≤ 3 * (v.extent + 1) + 12 := by
  have := SortedSet.sum_le_of_ofJson? (fun w p => ServicePort.length_codec_le) h
  rw [Delta.size_ports]
  omega

theorem size_healthCheckUrls_le {v : Json} {us : SortedSet String}
    (h : SortedSet.ofJson? Json.toText? v = some us) :
    (Delta.healthCheckUrls us).size ≤ 3 * (v.extent + 1) + 12 := by
  have hurl (w : Json) (u : String) (hu : w.toText? = some u) :
      (string.encode u).length ≤ 3 * (w.extent + 1) := by
    have := Json.utf8ByteSize_of_toText? hu
    rw [length_string]
    omega
  have := SortedSet.sum_le_of_ofJson? hurl h
  rw [Delta.size_healthCheckUrls]
  omega

/-- A field that has a default takes three times as many bytes as its JSON at most, and some more
for what was left out. -/
theorem size_le_of_defaulted {α : Type} {read : Json → Option α} {fs : List (String × Json)}
    {name : String} {default a : α} {field : α → Delta} {k : Nat}
    (h : Json.defaulted name default read fs = some a) (hdefault : (field default).size ≤ k)
    (hread : ∀ w b, read w = some b → (field b).size ≤ 3 * (w.extent + 1) + k) :
    (field a).size ≤ 3 * fieldExtent fs name + k := by
  rcases exists_of_defaulted h with rfl | ⟨w, hw, hextent⟩
  · omega
  · rw [hextent]
    exact hread w a hw

/-- So does the whole record. -/
theorem Record.sum_size_le {reading : Json.Reading} {v : Json} {r : Record}
    (h : ofJson? reading v = some r) :
    (r.contents.map Delta.size).sum + 3 * r.id.text.utf8ByteSize ≤ 3 * v.extent + 60 := by
  simp only [ofJson?, Option.bind_eq_bind, Option.bind_eq_some_iff] at h
  obtain ⟨fs, hfs, id, hid, app, happ, vip, hvip, dc, hdc, ports, hports, urls, hurls, status, -,
    lease, -, version, -, he⟩ := h
  obtain rfl : (⟨⟨id⟩, app, vip, dc, ports, urls, status, lease, version⟩ : Record) = r :=
    Option.some.inj he
  have hsum := sum_fieldExtent_lt_extent
    ["id", "app", "vipAddress", "dataCenter", "ports", "healthCheckUrls"] (by decide) hfs
  have hid := Json.utf8ByteSize_of_required hid
  have happ := Json.utf8ByteSize_of_required happ
  have hvip := Json.length_option_of_defaulted hvip
  have hdc : (Delta.dataCenter dc).size ≤ 3 * fieldExtent fs "dataCenter" + 20 :=
    size_le_of_defaulted hdc (Nat.le_of_eq (Delta.size_dataCenter _)) fun _ _ => DataCenter.size_le
  have hports : (Delta.ports ports).size ≤ 3 * fieldExtent fs "ports" + 12 :=
    size_le_of_defaulted hports (Nat.le_of_eq (Delta.size_ports _)) fun _ _ => size_ports_le
  have hurls : (Delta.healthCheckUrls urls).size ≤ 3 * fieldExtent fs "healthCheckUrls" + 12 :=
    size_le_of_defaulted hurls (Nat.le_of_eq (Delta.size_healthCheckUrls _)) fun _ _ =>
      size_healthCheckUrls_le
  simp only [List.map_cons, List.map_nil, List.sum_cons, List.sum_nil] at hsum
  simp only [contents, List.map_cons, List.map_nil, List.sum_cons, List.sum_nil, Delta.size_app,
    Delta.size_vipAddress, Delta.size_status, Delta.size_lease]
  omega

theorem Record.utf8ByteSize_lt {reading : Json.Reading} {v : Json} {r : Record}
    (h : ofJson? reading v = some r) :
    r.id.text.utf8ByteSize + r.app.utf8ByteSize + 6 < v.extent := by
  simp only [ofJson?, Option.bind_eq_bind, Option.bind_eq_some_iff] at h
  obtain ⟨fs, hfs, id, hid, app, happ, vip, -, dc, -, ports, -, urls, -, status, -, lease, -,
    version, -, he⟩ := h
  obtain rfl : (⟨⟨id⟩, app, vip, dc, ports, urls, status, lease, version⟩ : Record) = r :=
    Option.some.inj he
  have hsum := sum_fieldExtent_lt_extent ["id", "app"] (by decide) hfs
  have hid := Json.utf8ByteSize_of_required hid
  have happ := Json.utf8ByteSize_of_required happ
  simp only [List.map_cons, List.map_nil, List.sum_cons, List.sum_nil] at hsum
  simp only
  omega

end LeaseRegistry
