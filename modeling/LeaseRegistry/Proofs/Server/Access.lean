import LeaseRegistry.Proofs.Server.Task

/-!
# When a server serves reads

The gate counts the leases of a store and takes one off if the server itself is stored. What it
means to count is which leases there are (`Coordinator.otherLeases_pos_iff`), and `Traffic.Follows`
carries what it knows of syncs through any run of a server.
-/

namespace LeaseRegistry

/-! ## A coordinator -/

namespace Coordinator

variable {c : Coordinator}

/-- The count of other leases says whether there is one. -/
theorem otherLeases_pos_iff (hs : c.registry.store.WellFormed) :
    0 < c.otherLeases ↔ ∃ id, (c.registry.store.lease? id).isSome ∧ c.own ≠ some id := by
  have hcount : c.registry.store.size = (c.registry.store.slots.map (·.1)).length := by
    rw [List.length_map, hs.counted]
  simp only [Store.lease?, ← Store.mem_keys_iff]
  unfold otherLeases
  cases hown : c.own.bind c.registry.store.record? with
  | none =>
    have hother : ∀ id ∈ c.registry.store.slots.map (·.1), c.own ≠ some id := by
      intro id hid hself
      rw [hself, Option.bind_some, Store.record?, Option.map_eq_none_iff] at hown
      rw [Store.mem_keys_iff, ← Store.lease?, hown] at hid
      cases hid
    simp only [hcount]
    rw [List.length_pos_iff_exists_mem]
    constructor
    · rintro ⟨id, hid⟩
      exact ⟨id, hid, hother id hid⟩
    · rintro ⟨id, hid, -⟩
      exact ⟨id, hid⟩
  | some record =>
    obtain ⟨own, hself, hrecord⟩ := Option.bind_eq_some_iff.mp hown
    have hstored : own ∈ c.registry.store.slots.map (·.1) := by
      rw [Store.mem_keys_iff, ← Store.lease?]
      obtain ⟨l, hl, -⟩ := Option.map_eq_some_iff.mp hrecord
      exact Option.isSome_iff_exists.mpr ⟨l, hl⟩
    simp only [hcount]
    rw [← List.length_erase_of_mem hstored, List.length_pos_iff_exists_mem]
    refine exists_congr fun id => ?_
    rw [hs.distinct.mem_erase_iff, hself]
    rw [and_comm, Ne, Ne, Option.some_inj, eq_comm (a := id)]

theorem allowsAccess_iff (hs : c.registry.store.WellFormed) {wait : UInt64}
    (hwait : c.gate.wait = wait.toNat) (now : Time) :
    c.allowsAccess now = true ↔
      0 < c.gate.synced ∨ (∃ id, (c.registry.store.lease? id).isSome ∧ c.own ≠ some id) ∨
        wait ≤ c.gate.startedAt.since now := by
  rw [allowsAccess, AccessGate.allows, hwait, UInt64.ofNat_toNat]
  simp only [Bool.or_eq_true, decide_eq_true_eq]
  rw [otherLeases_pos_iff hs, or_assoc]

end Coordinator

/-! ## A server -/

/-- The server as it starts: nothing is stored, synced or marked as its own. -/
def Server.launched (s : Server) (startedAt : Time) (wait : UInt64) : Server :=
  { s with coordinator := { s.coordinator with
      registry := { s.coordinator.registry with store := .empty }
      gate := .start startedAt wait.toNat
      own := none } }

open Server (Task)

namespace Traffic

/-- The errand was a sync that brought in a record. -/
def HasSynced (e : Errand Task Cluster.Outcome) : Prop :=
  e.task = .syncUp ∧ ∃ count, 0 < count ∧ e.result? = some (.synced count)

theorem hasSynced_iff {e : Errand Task Cluster.Outcome} :
    HasSynced e ↔ 0 < e.task.synced e.result? := by
  constructor
  · rintro ⟨htask, count, hpos, hresult⟩
    rw [htask, hresult]
    exact hpos
  · intro hpos
    unfold Task.synced at hpos
    split at hpos
    · exact ⟨‹_›, _, hpos, ‹_›⟩
    · exact absurd hpos (Nat.lt_irrefl 0)

/-- A sync is over that brought in a record. -/
def Synced (t : Traffic Task Cluster.Outcome) : Prop := ∃ e ∈ t.errands, HasSynced e

/-- The server still waits as it did at its start, and knows of the syncs that are over. -/
structure Waits (startedAt : Time) (wait : UInt64) (t : Traffic Task Cluster.Outcome) : Prop where
  sound : t.server.store.Sound
  startedAt : t.server.coordinator.gate.startedAt = startedAt
  wait : t.server.coordinator.gate.wait = wait.toNat
  synced : 0 < t.server.coordinator.gate.synced ↔ t.Synced

variable {startedAt : Time} {wait : UInt64} {t t' : Traffic Task Cluster.Outcome}

theorem waits_start (s : Server) (startedAt : Time) (wait : UInt64) :
    Waits startedAt wait (start (s.launched startedAt wait)) :=
  ⟨Store.sound_empty, rfl, rfl, ⟨fun h => absurd h (Nat.lt_irrefl 0),
    fun ⟨_, he, _⟩ => (List.not_mem_nil he).elim⟩⟩

/-- What the server did since tells of one sync at most. -/
theorem Waits.of_section (h : Waits startedAt wait t) {registers : Prop} {count : Nat}
    (hsection : Server.Section registers count t.server t'.server)
    (hsynced : t'.Synced ↔ t.Synced ∨ 0 < count) : Waits startedAt wait t' := by
  refine ⟨h.sound.mutated hsection.store, ?_, ?_, ?_⟩
  · rw [hsection.gate, ← h.startedAt, AccessGate.recordSync]
  · rw [hsection.gate, ← h.wait, AccessGate.recordSync]
  · rw [hsection.gate, hsynced, ← h.synced]
    simp only [AccessGate.recordSync]
    omega

/-- An errand that goes on still has synced what it had. -/
theorem synced_set {n : Nat} {e e' : Errand Task Cluster.Outcome} (found : t.errands[n]? = some e)
    (h : HasSynced e → HasSynced e') (s : Server) :
    Synced ⟨s, t.errands.set n e'⟩ ↔ t.Synced ∨ HasSynced e' := by
  have hn : n < t.errands.length := (List.getElem?_eq_some_iff.mp found).1
  constructor
  · rintro ⟨x, hx, hsynced⟩
    rcases List.mem_or_eq_of_mem_set hx with hold | rfl
    · exact .inl ⟨x, hold, hsynced⟩
    · exact .inr hsynced
  · rintro (⟨x, hx, hsynced⟩ | hsynced)
    · obtain ⟨k, hk⟩ := List.mem_iff_getElem?.mp hx
      by_cases hkn : n = k
      · subst hkn
        cases found.symm.trans hk
        exact ⟨e', List.mem_set hn e', h hsynced⟩
      · refine ⟨x, List.mem_iff_getElem?.mpr ⟨k, ?_⟩, hsynced⟩
        rw [List.getElem?_set_ne hkn, hk]
    · exact ⟨e', List.mem_set hn e', hsynced⟩

theorem Waits.stepped (h : Waits startedAt wait t) (hstep : Stepped Task.Goes t t') :
    Waits startedAt wait t' := by
  cases hstep with
  | idle => exact h
  | received now origin m =>
    exact h.of_section (Server.section_receive False t.server now origin m)
      (or_iff_left (Nat.lt_irrefl 0)).symm
  | @begun e s goes =>
    refine h.of_section goes ?_
    rw [← hasSynced_iff]
    constructor
    · rintro ⟨x, hx, hsynced⟩
      rcases List.mem_append.mp hx with hold | hnew
      · exact .inl ⟨x, hold, hsynced⟩
      · exact .inr (List.mem_singleton.mp hnew ▸ hsynced)
    · rintro (⟨x, hx, hsynced⟩ | hsynced)
      · exact ⟨x, List.mem_append_left _ hx, hsynced⟩
      · exact ⟨e, List.mem_append_right _ (List.mem_singleton_self e), hsynced⟩
  | @moved n e e' s found moves =>
    cases moves with
    | still task result =>
      have hsame : HasSynced e ↔ HasSynced e' := by rw [HasSynced, HasSynced, task, result]
      refine h.of_section (Server.section_refl False t.server) ?_
      rw [synced_set found hsame.mp, ← hsame]
      have hold : HasSynced e → t.Synced := fun hsynced => ⟨e, List.mem_of_getElem? found, hsynced⟩
      rw [or_iff_left_of_imp hold, or_iff_left (Nat.lt_irrefl 0)]
    | on task waited goes =>
      have hnot : ¬HasSynced e := fun ⟨_, _, _, hresult⟩ => by cases waited.symm.trans hresult
      refine h.of_section goes ?_
      rw [synced_set found fun hsynced => absurd hsynced hnot, hasSynced_iff, task]

/-- What was marked as the server's own stays that, and the other things hold all the time. -/
theorem Waits.run (h : Waits startedAt wait t) (hunderway : t.Underway Task.Goes)
    (moves : List (Move Task)) :
    Waits startedAt wait (t.run Task.activity moves) ∧
      (t.run Task.activity moves).Underway Task.Goes ∧
      ∀ id, t.server.coordinator.own = some id →
        (t.run Task.activity moves).server.coordinator.own = some id := by
  induction moves generalizing t with
  | nil => exact ⟨h, hunderway, fun _ hid => hid⟩
  | cons move moves ih =>
    obtain ⟨hstep, hnext⟩ := stepped_step Server.sections_activity hunderway move
    obtain ⟨hwaits, hrest, howns⟩ := ih (h.stepped hstep) hnext
    refine ⟨hwaits, hrest, fun id hid => howns id ?_⟩
    generalize t.step Task.activity move = t' at hstep
    cases hstep with
    | idle => exact hid
    | received now origin m => exact (Server.section_receive False _ now origin m).own id hid
    | begun goes => exact goes.own id hid
    | moved found moves =>
      cases moves with
      | still => exact hid
      | on task waited goes => exact goes.own id hid

/-- Whatever requests, evictions, syncs, registrations of its own and messages of peers a server has
dealt with since its start, and however they took turns: reads are served exactly after a sync that
brought in a record, with a lease other than the one marked as its own, or once the wait is over. So
until then a peer that asks for a snapshot gets an error, or a snapshot with another instance in it;
and whenever it gets a snapshot, that lists the records that are stored, each instance once. -/
theorem serves_reads_iff (s : Server) (startedAt : Time) (wait : UInt64)
    (moves : List (Move Task)) :
    let t := (start (s.launched startedAt wait)).run Task.activity moves
    let c := t.server.coordinator
    (∀ now, c.allowsAccess now = true ↔
      t.Synced ∨ (∃ id, (c.registry.store.lease? id).isSome ∧ c.own ≠ some id) ∨
        wait ≤ startedAt.since now) ∧
    (∀ id, c.own = some id → ∀ more,
      (t.run Task.activity more).server.coordinator.own = some id) ∧
    ∀ (now : Time) (origin : ServerId), ∃ reply,
      c.receive now origin .fetchSnapshot = (reply, c) ∧
      (startedAt.since now < wait → ¬t.Synced →
        reply = .error PeerReply.notReady ∨
          ∃ records, reply = .snapshot c.id records ∧ ∃ r ∈ records, c.own ≠ some r.id) ∧
      ∀ server records, reply = .snapshot server records →
        server = c.id ∧ (records.map (·.id)).Nodup ∧
          ∀ r, r ∈ records ↔ c.registry.store.record? r.id = some r := by
  intro t c
  obtain ⟨hwaits, hunderway, -⟩ := (waits_start s startedAt wait).run
    (fun e he => (List.not_mem_nil he).elim) moves
  have hs : c.registry.store.WellFormed := hwaits.sound.wellFormed
  have hallows (now : Time) : c.allowsAccess now = true ↔
      t.Synced ∨ (∃ id, (c.registry.store.lease? id).isSome ∧ c.own ≠ some id) ∨
        wait ≤ startedAt.since now := by
    rw [Coordinator.allowsAccess_iff hs hwaits.wait, hwaits.synced, hwaits.startedAt]
  refine ⟨hallows, fun id hid more => (hwaits.run hunderway more).2.2 id hid,
    fun now origin => ⟨_, rfl, fun hearly hsynced => ?_, fun server records hreply => ?_⟩⟩
  · by_cases hopen : c.allowsAccess now = true
    · refine .inr ⟨c.registry.store.snapshot, if_pos hopen, ?_⟩
      obtain hsync | ⟨id, hid, hother⟩ | hover := (hallows now).mp hopen
      · exact absurd hsync hsynced
      · obtain ⟨l, hl⟩ := Option.isSome_iff_exists.mp hid
        have hlid := hs.id_of_lease? hl
        refine ⟨l.record, hs.mem_snapshot_iff.mpr ?_, hlid ▸ hother⟩
        rw [Store.record?, hlid, hl, Option.map_some]
      · exact absurd hearly (UInt64.not_lt.mpr hover)
    · exact .inl (if_neg hopen)
  · by_cases hopen : c.allowsAccess now = true
    · rw [if_pos hopen] at hreply
      cases hreply
      exact ⟨rfl, hs.nodup_ids_snapshot, fun r => hs.mem_snapshot_iff⟩
    · rw [if_neg hopen] at hreply
      cases hreply

end Traffic

end LeaseRegistry
