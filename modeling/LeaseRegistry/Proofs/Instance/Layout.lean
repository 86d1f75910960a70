import LeaseRegistry.Proofs.Instance.Json

/-!
# Layouts of the JSON of records

A record is read from every text of each of its layouts, and an object in which a field cannot be
found or is found twice is refused (`Record.parse?_of_layout`). Both come down to what is looked up
for the names of the fields (`Layout.lookup?`, `Record.lookup?_of_ofJson?`).
-/

namespace LeaseRegistry.Record

open Json (fields?_record)

variable {r : Record} {ms : List (String × Json)}

/-- What must be found for a record to be read. -/
theorem lookup?_of_ofJson? {reading : Json.Reading}
    (h : ofJson? reading (.record ms) = some r) :
    (∀ name ∈ fieldNames, Json.lookup? name ms ≠ none) ∧
      Json.lookup? "id" ms ≠ some none ∧ Json.lookup? "app" ms ≠ some none := by
  simp only [ofJson?, fields?_record, Option.bind_eq_bind, Option.bind_some,
    Option.bind_eq_some_iff] at h
  obtain ⟨id, hid, app, happ, vip, hvip, center, hcenter, ports, hports, urls, hurls, status,
    hstatus, lease, hlease, version, hversion, -⟩ := h
  obtain ⟨vid, hid⟩ := Json.lookup?_of_required hid
  obtain ⟨vapp, happ⟩ := Json.lookup?_of_required happ
  refine ⟨?_, by simp [hid], by simp [happ]⟩
  simp only [fieldNames, List.forall_mem_cons]
  exact ⟨by simp [hid], by simp [happ], Json.lookup?_of_defaulted hvip,
    Json.lookup?_of_defaulted hcenter, Json.lookup?_of_defaulted hports,
    Json.lookup?_of_defaulted hurls, Json.lookup?_of_defaulted hstatus,
    Json.lookup?_of_defaulted hlease, Json.lookup?_of_defaulted hversion,
    List.forall_mem_nil _⟩

/-- A record is read from every text of each of its layouts. An object with a field of records
twice, or without the id or the application, is read as none. -/
theorem parse?_of_layout :
    (∀ (r : Record) (omitted : List String) (extra ms : List (String × Json)) (s : List UInt8),
      r.Layout omitted extra ms → (Json.record ms).SpelledBy s → parse? s = some r) ∧
    ∀ (ms : List (String × Json)) (s : List UInt8), (Json.record ms).SpelledBy s →
      ((∃ name ∈ fieldNames, 2 ≤ (ms.map (·.1)).count name) ∨
        "id" ∉ ms.map (·.1) ∨ "app" ∉ ms.map (·.1)) →
      parse? s = none := by
  refine ⟨fun r omitted extra ms s hlayout hs => ?_, fun ms s hs hbad => ?_⟩
  · rw [parse?, Json.parse?_of_spelledBy hs, Option.bind_some, hlayout.ofJson?]
  · rw [parse?, Json.parse?_of_spelledBy hs, Option.bind_some, Option.eq_none_iff_forall_ne_some]
    intro r hr
    obtain ⟨honce, hid, happ⟩ := lookup?_of_ofJson? hr
    rcases hbad with ⟨name, hname, hrepeated⟩ | hmissing | hmissing
    · exact honce name hname (Json.lookup?_of_repeated hrepeated)
    · exact hid (Json.lookup?_of_notMem hmissing)
    · exact happ (Json.lookup?_of_notMem hmissing)

/-- Members backwards and five fields left out, behind a nested value with an `id` of its own, and a
blank and a line feed before every token. -/
theorem parse?_of_layout_web :
    let r : Record := { Record.bare ⟨"web"⟩ "shop" with lease := ⟨30, 10⟩ }
    let omitted := ["vipAddress", "dataCenter", "ports", "healthCheckUrls", "status"]
    let note : Json := .array [.number ⟨true, 1, [5], some (-3)⟩, .object [(some "id", .null)]]
    let ms : List (String × Json) := [("note", note), ("version", .nat 0),
      ("lease", LeaseTerms.toJson ⟨30, 10⟩), ("app", .text "shop"), ("id", .text "web")]
    let spaced (v : Json) := v.tokens.flatMap fun t => [0x20, 0x0A] ++ t.bytes
    r.Layout omitted [("note", note)] ms ∧ parse? (spaced (.record ms)) = some r ∧
      parse? (spaced (.record (("app", .text "shop") :: ms))) = none ∧
      parse? (spaced (.record (ms.take 4))) = none := by
  intro r omitted note ms spaced
  have hspelled (v : Json) : v.SpelledBy (spaced v) :=
    Json.Token.spaced_bytes (List.all_eq_true.mp rfl) _
  have hlayout : r.Layout omitted [("note", note)] ms := by
    refine ⟨?_, ?_, ?_⟩
    · simp [omitted, HasDefault, r, Record.bare]
    · decide
    · exact List.reverse_perm [("id", .text "web"), ("app", .text "shop"),
        ("lease", LeaseTerms.toJson ⟨30, 10⟩), ("version", .nat 0), ("note", note)]
  exact ⟨hlayout, parse?_of_layout.1 r omitted _ ms _ hlayout (hspelled _),
    parse?_of_layout.2 _ _ (hspelled _) (.inl ⟨"app", by decide, by decide⟩),
    parse?_of_layout.2 _ _ (hspelled _) (.inr (.inl (by decide)))⟩

end LeaseRegistry.Record
