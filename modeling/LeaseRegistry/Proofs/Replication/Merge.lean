import LeaseRegistry.Proofs.Replication.Adoption
import LeaseRegistry.Proofs.Replication.Slot
import LeaseRegistry.Proofs.Store.Invariant

/-!
# Full records merge

Full records come in from peers one by one or as snapshots, in any order and any number of times.
One record after the other takes the place of an older one (`Record.newest`), and what is stored in
the end is the newest of all (`Record.NewestIn`), however they came: `merge_lastWriterWins`.
-/

namespace LeaseRegistry

namespace Record

/-- What is stored once a full record has come in: the record, if it is valid and newer. -/
def newest (stored : Option Record) (record : Record) : Option Record :=
  if record.Valid ∧ ∀ r ∈ stored, r.version < record.version then some record else stored

/-- No record of the same instance in the list is newer. -/
def NewestIn (r : Record) (rs : List Record) : Prop :=
  r ∈ rs ∧ ∀ r' ∈ rs, r'.id = r.id → r'.version ≤ r.version

/-- A version says which record of an instance it is. -/
def Consistent (rs : List Record) : Prop :=
  ∀ r ∈ rs, ∀ r' ∈ rs, r.id = r'.id → r.version = r'.version → r = r'

instance (rs : List Record) : Decidable (Consistent rs) :=
  inferInstanceAs (Decidable (∀ r ∈ rs, ∀ r' ∈ rs, _))

/-- What is stored is of version `v` or newer. -/
def Covers (stored : Option Record) (v : Version) : Prop := ∃ r, stored = some r ∧ v ≤ r.version

variable {stored : Option Record} {r record : Record} {rs rs' : List Record} {v : Version}

theorem NewestIn.congr (h : ∀ r, r ∈ rs ↔ r ∈ rs') : r.NewestIn rs ↔ r.NewestIn rs' := by
  simp only [NewestIn, h]

/-- The newest record of an instance is the only one. -/
theorem Consistent.eq_of_newestIn (hc : Consistent rs) {r' : Record} (hr : r.NewestIn rs)
    (hr' : r'.NewestIn rs) (hid : r'.id = r.id) : r' = r :=
  hc r' hr'.1 r hr.1 hid (UInt64.le_antisymm (hr.2 r' hr'.1 hid) (hr'.2 r hr.1 hid.symm))

theorem newest_eq_some (h : newest stored record = some r) :
    stored = some r ∨ r = record ∧ record.Valid := by
  unfold newest at h
  split at h
  · exact .inr ⟨(Option.some.inj h).symm, (‹_ ∧ _›).1⟩
  · exact .inl h

/-- An invalid record, or one that is not newer, changes nothing. -/
theorem newest_of_covered (h : record.Valid → Covers stored record.version) :
    newest stored record = stored := by
  refine if_neg fun ⟨hv, hlt⟩ => ?_
  obtain ⟨r, hr, hle⟩ := h hv
  exact UInt64.not_lt.mpr hle (hlt r hr)

theorem Covers.newest (h : Covers stored v) (record : Record) :
    Covers (newest stored record) v := by
  obtain ⟨r, hr, hle⟩ := h
  unfold Record.newest
  split
  · rename_i hnew
    exact ⟨record, rfl, UInt64.le_trans hle (UInt64.le_of_lt (hnew.2 r hr))⟩
  · exact ⟨r, hr, hle⟩

theorem covers_newest (stored : Option Record) (h : record.Valid) :
    Covers (newest stored record) record.version := by
  unfold newest
  split
  · exact ⟨record, rfl, UInt64.le_refl _⟩
  · rename_i hold
    cases stored with
    | none => exact absurd ⟨h, by simp⟩ hold
    | some r =>
      have hle : ¬r.version < record.version := by simpa [h] using hold
      exact ⟨r, rfl, UInt64.not_lt.mp hle⟩

theorem Covers.foldl_newest (h : Covers stored v) (rs : List Record) :
    Covers (rs.foldl Record.newest stored) v := by
  induction rs generalizing stored with
  | nil => exact h
  | cons record rs ih => exact ih (h.newest record)

theorem covers_foldl_newest (stored : Option Record) (hr : r ∈ rs) (hv : r.Valid) :
    Covers (rs.foldl newest stored) r.version := by
  induction rs generalizing stored with
  | nil => cases hr
  | cons record rs ih =>
    rcases List.mem_cons.mp hr with rfl | hr
    · exact (covers_newest stored hv).foldl_newest rs
    · exact ih _ hr

theorem foldl_newest_eq_some (h : rs.foldl newest stored = some r) :
    stored = some r ∨ r ∈ rs ∧ r.Valid := by
  induction rs generalizing stored with
  | nil => exact .inl h
  | cons record rs ih =>
    rcases ih h with hfirst | ⟨hr, hv⟩
    · rcases newest_eq_some hfirst with hstored | ⟨rfl, hv⟩
      · exact .inl hstored
      · exact .inr ⟨List.mem_cons_self, hv⟩
    · exact .inr ⟨List.mem_cons_of_mem _ hr, hv⟩

end Record

open Record

/-! ## One store -/

namespace Store

variable {s s' s'' : Store} {rs rs' : List Record} {id : InstanceId}

/-- The valid records, those of the store and those that come in. -/
def candidates (s : Store) (rs : List Record) : List Record :=
  (s.snapshot ++ rs).filter fun r => decide r.Valid

theorem mem_candidates (hs : s.Sound) {r : Record} :
    r ∈ s.candidates rs ↔ s.record? r.id = some r ∨ r ∈ rs ∧ r.Valid := by
  simp only [candidates, List.mem_filter, List.mem_append, hs.wellFormed.mem_snapshot_iff,
    decide_eq_true_eq]
  constructor
  · rintro ⟨h | h, hv⟩
    · exact .inl h
    · exact .inr ⟨h, hv⟩
  · rintro (h | ⟨h, hv⟩)
    · obtain ⟨l, hl, rfl⟩ := Option.map_eq_some_iff.mp h
      exact ⟨.inl h, (hs.leases _ l hl).valid⟩
    · exact ⟨.inr h, hv⟩

/-- The store `s'` is what the records `rs` made of `s`. -/
structure Merged (s : Store) (rs : List Record) (s' : Store) : Prop where
  wellFormed : s'.WellFormed
  record? : ∀ id, s'.record? id = (rs.filter (·.id = id)).foldl newest (s.record? id)
  others : ∀ id, (∀ r ∈ rs, r.id ≠ id) → s'.lease? id = s.lease? id

theorem Merged.refl (hs : s.WellFormed) : Merged s [] s := ⟨hs, fun _ => rfl, fun _ _ => rfl⟩

theorem Merged.trans (h : Merged s rs s') (h' : Merged s' rs' s'') :
    Merged s (rs ++ rs') s'' := by
  refine ⟨h'.wellFormed, fun id => ?_, fun id hid => ?_⟩
  · rw [h'.record?, h.record?, List.filter_append, List.foldl_append]
  · rw [List.forall_mem_append] at hid
    rw [h'.others id hid.2, h.others id hid.1]

theorem record?_register (record : Record) (source : Source) (now : Time) (slot : Slot) :
    (Slot.register record source now slot).2.record? = newest slot.record? record := by
  by_cases hv : record.Valid
  · rw [Slot.register_of_valid hv]
    cases slot with
    | none => simp [Slot.write, Slot.record?, newest, hv, Lease.grant]
    | some l =>
      have hlt : (record.version ≤ l.version) ↔ ¬l.record.version < record.version :=
        UInt64.not_lt.symm
      simp only [Slot.write, Slot.record?, newest, hv, hlt, true_and, Option.map_some,
        Option.mem_def, Option.some.injEq, forall_eq']
      by_cases hnew : l.record.version < record.version
      · simp only [hnew, not_true_eq_false, if_false, if_true]
        rfl
      · simp only [hnew, not_false_eq_true, if_true, if_false]
        rfl
  · obtain ⟨reason, he⟩ := Slot.register_of_not_valid hv source now slot
    rw [he, newest_of_covered fun h => absurd h hv]

theorem merged_register (hs : s.WellFormed) (record : Record) (source : Source) (now : Time) :
    Merged s [record] (s.register record source now).2 := by
  rw [register_eq_onSlot]
  refine ⟨hs.onSlot (Slot.KeepsId.register record source now), fun id => ?_, fun id hid => ?_⟩
  · rw [record?_eq, lease?_onSlot hs, List.filter_cons, List.filter_nil]
    by_cases h : id = record.id
    · subst h
      simp only [decide_true, if_true, List.foldl_cons, List.foldl_nil]
      exact record?_register ..
    · simp only [h, Ne.symm h, decide_false, Bool.false_eq_true, if_false, List.foldl_nil]
      rfl
  · have hne : id ≠ record.id := Ne.symm (hid record List.mem_cons_self)
    rw [lease?_onSlot hs, if_neg hne]

/-- A record that is stored afterwards is the newest there is. -/
theorem Merged.newestIn (h : Merged s rs s') (hs : s.Sound) {r : Record}
    (hr : s'.record? id = some r) : r.id = id ∧ r.NewestIn (s.candidates rs) := by
  have hid : r.id = id := h.wellFormed.id_of_record? hr
  subst hid
  have hin : r ∈ s.candidates rs := by
    rw [h.record?] at hr
    rw [mem_candidates hs]
    refine (foldl_newest_eq_some hr).imp_right fun ⟨hmem, hv⟩ => ⟨?_, hv⟩
    exact (List.mem_filter.mp hmem).1
  refine ⟨rfl, hin, fun r' hr' hid => ?_⟩
  have hcovered : Covers (s'.record? r.id) r'.version := by
    rw [h.record?]
    rcases (mem_candidates hs).mp hr' with hstored | ⟨hmem, hv⟩
    · rw [hid] at hstored
      exact Covers.foldl_newest ⟨r', hstored, UInt64.le_refl _⟩ _
    · exact covers_foldl_newest _ (List.mem_filter.mpr ⟨hmem, by simpa using hid⟩) hv
  obtain ⟨r'', hr'', hle⟩ := hcovered
  rw [hr] at hr''
  cases hr''
  exact hle

theorem Merged.record?_eq_some_iff (h : Merged s rs s') (hs : s.Sound)
    (hc : Consistent (s.candidates rs)) {r : Record} :
    s'.record? id = some r ↔ r.id = id ∧ r.NewestIn (s.candidates rs) := by
  refine ⟨fun hr => h.newestIn hs hr, ?_⟩
  rintro ⟨rfl, hr⟩
  have hcovered : Covers (s'.record? r.id) r.version := by
    rw [h.record?]
    rcases (mem_candidates hs).mp hr.1 with hstored | ⟨hmem, hv⟩
    · exact Covers.foldl_newest ⟨r, hstored, UInt64.le_refl _⟩ _
    · exact covers_foldl_newest _ (List.mem_filter.mpr ⟨hmem, by simp⟩) hv
  obtain ⟨r', hr', -⟩ := hcovered
  obtain ⟨hid, hnewest⟩ := h.newestIn hs hr'
  rw [hr', hc.eq_of_newestIn hr hnewest hid]

/-- Records that came in before are covered. -/
theorem Merged.covers (h : Merged s rs s') {r : Record} (hr : r ∈ rs) (hv : r.Valid) :
    Covers (s'.record? r.id) r.version := by
  rw [h.record?]
  exact covers_foldl_newest _ (List.mem_filter.mpr ⟨hr, by simp⟩) hv

end Store

/-! ## What comes in -/

/-- Full records as peers send them. -/
inductive Incoming where
  | register (now : Time) (origin : ServerId) (record : Record)
  | snapshot (now : Time) (s : Snapshot)

def Incoming.records : Incoming → List Record
  | register _ _ record => [record]
  | snapshot _ s => s.records

namespace Registry

variable {g : Registry}

theorem merged_adopt (hs : g.store.WellFormed) (origin : ServerId) (now : Time)
    (rs : List Record) : g.store.Merged rs (g.adopt origin now rs).2.store := by
  induction rs generalizing g with
  | nil => exact .refl hs
  | cons record rs ih =>
    have hfirst := Store.merged_register hs record (.replicated origin) now
    exact hfirst.trans (ih (g := (g.register record (.replicated origin) now).2) hfirst.wellFormed)

theorem not_newer_of_covered {record : Record}
    (h : record.Valid → Covers (g.store.record? record.id) record.version) :
    ¬(record.Valid ∧ Slot.OlderThan (g.store.lease? record.id) record.version) := by
  rintro ⟨hv, hnewer⟩
  obtain ⟨r, hr, hle⟩ := h hv
  obtain ⟨l, hl, rfl⟩ := Option.map_eq_some_iff.mp hr
  exact UInt64.not_le.mpr (hnewer l.version (by rw [hl]; rfl)) hle

/-- Records that are all invalid or covered change nothing. -/
theorem adopt_of_covered (origin : ServerId) (now : Time) {rs : List Record}
    (h : ∀ r ∈ rs, r.Valid → Covers (g.store.record? r.id) r.version) :
    g.adopt origin now rs = (0, g) := by
  induction rs with
  | nil => rfl
  | cons record rs ih =>
    obtain ⟨hrefused, hsame⟩ := register_of_not_newer
      (not_newer_of_covered (h record List.mem_cons_self)) (.replicated origin) now
    simp only [adopt, hsame, hrefused, ih fun r hr => h r (List.mem_cons_of_mem _ hr)]
    rfl

end Registry

namespace Coordinator

def takeIn (c : Coordinator) : Incoming → Coordinator
  | .register now origin record => (c.receive now origin (.register record)).2
  | .snapshot now s => (c.adopt now s).2

def takeAllIn (c : Coordinator) (incoming : List Incoming) : Coordinator :=
  incoming.foldl takeIn c

theorem merged_takeIn {c : Coordinator} (hs : c.store.WellFormed) (i : Incoming) :
    c.store.Merged i.records (c.takeIn i).store := by
  cases i with
  | register now origin record => exact Store.merged_register hs ..
  | snapshot now s => exact Registry.merged_adopt hs s.server now s.records

theorem merged_takeAllIn {c : Coordinator} (hs : c.store.WellFormed) (incoming : List Incoming) :
    c.store.Merged (incoming.flatMap Incoming.records) (c.takeAllIn incoming).store := by
  induction incoming generalizing c with
  | nil => exact .refl hs
  | cons i incoming ih =>
    have hfirst := merged_takeIn hs i
    exact hfirst.trans (ih hfirst.wellFormed)

/-- Where a version says which record it is, each instance ends up with the newest of the valid
records that were stored or came in, in whatever order, however often and in whatever messages they
did. An instance that nothing came in for keeps its lease, and a snapshot of which all records have
come in before takes no effect. -/
theorem merge_lastWriterWins {c : Coordinator} (hs : c.store.Sound) (incoming : List Incoming)
    (hc : Consistent (c.store.candidates (incoming.flatMap Incoming.records))) :
    let received := incoming.flatMap Incoming.records
    let after := c.takeAllIn incoming
    (∀ id r, after.store.record? id = some r ↔
      r.id = id ∧ r.NewestIn (c.store.candidates received)) ∧
    (∀ incoming' : List Incoming,
      (∀ r, r ∈ incoming'.flatMap Incoming.records ↔ r ∈ received) →
        (c.takeAllIn incoming').store.record? = after.store.record?) ∧
    (∀ id, (∀ r ∈ received, r.id ≠ id) → after.store.lease? id = c.store.lease? id) ∧
    ∀ now (s : Snapshot), (∀ r ∈ s.records, r ∈ received) →
      (after.adopt now s).1 = 0 ∧ (after.adopt now s).2.store = after.store := by
  intro received after
  have hmerged : c.store.Merged received after.store := merged_takeAllIn hs.wellFormed incoming
  refine ⟨fun id r => hmerged.record?_eq_some_iff hs hc, fun incoming' hsame => ?_,
    hmerged.others, fun now s hknown => ?_⟩
  · have hsame' : ∀ r, r ∈ c.store.candidates received ↔
        r ∈ c.store.candidates (incoming'.flatMap Incoming.records) := by
      intro r
      rw [Store.mem_candidates hs, Store.mem_candidates hs, hsame]
    have hc' : Consistent (c.store.candidates (incoming'.flatMap Incoming.records)) :=
      fun r hr r' hr' => hc r ((hsame' r).mpr hr) r' ((hsame' r').mpr hr')
    have hmerged' := merged_takeAllIn hs.wellFormed incoming'
    funext id
    refine Option.ext fun r => ?_
    rw [hmerged'.record?_eq_some_iff hs hc', hmerged.record?_eq_some_iff hs hc,
      NewestIn.congr hsame']
  · have hcovered : ∀ r ∈ s.records, r.Valid → Covers (after.store.record? r.id) r.version :=
      fun r hr hv => hmerged.covers (hknown r hr) hv
    have hadopt := Registry.adopt_of_covered (g := after.registry) s.server now hcovered
    simp only [adopt, hadopt]
    exact ⟨trivial, rfl⟩

/-- A snapshot with an invalid record and a newer registration, the other way round and twice. -/
theorem merge_lastWriterWins_shuffled :
    let record (name app : String) (v : Version) := (Record.bare ⟨name⟩ app).atVersion v
    let stored := (Store.empty.run [(0, .register (record "web" "shop" 2) .here)]).2
    let c : Coordinator := ⟨⟨"a", by decide⟩, ⟨stored, .start .standard 0⟩, .start 0 300000, none, 2,
      200, .standard 3⟩
    let s : Snapshot :=
      ⟨⟨"b", by decide⟩, [record "web" "shop" 2, record "web" "" 9, record "mail" "post" 1]⟩
    let newer : Incoming := .register 6 ⟨"d", by decide⟩ (record "web" "store" 3)
    let incoming := [.snapshot 5 s, newer]
    let after := c.takeAllIn incoming
    c.store.Sound ∧ Consistent (c.store.candidates (incoming.flatMap Incoming.records)) ∧
      (c.takeAllIn [newer, .snapshot 8 s, newer, .snapshot 7 s]).store.record? =
        after.store.record? ∧
      after.store.record? ⟨"web"⟩ = some (record "web" "store" 3) ∧
      (after.adopt 9 s).1 = 0 ∧ (after.adopt 9 s).2.store = after.store := by
  intro record stored c s newer incoming after
  have hs : c.store.Sound := Store.sound_empty.run _
  have hc : Consistent (c.store.candidates (incoming.flatMap Incoming.records)) := by
    decide +kernel
  obtain ⟨hstored, hsame, -, hagain⟩ := merge_lastWriterWins hs incoming hc
  refine ⟨hs, hc, hsame _ fun r => ?_, by decide +kernel, hagain 9 s fun r hr => ?_⟩
  · simp only [incoming, newer, List.flatMap_cons, List.flatMap_nil, Incoming.records,
      List.mem_append, List.append_nil]
    grind
  · exact List.mem_append_left _ hr

end Coordinator

end LeaseRegistry
