import LeaseRegistry.Proofs.Eviction.Pass
import LeaseRegistry.Proofs.Store.Invariant

/-!
# The exact effect of a pass

One eviction after the other comes to the same as taking all the leases out of the store at once
(`Store.evictEach_eq_without`), so it does not matter in which order the expired instances are
visited, nor that an expired lease may be queued too. `evictionPass_exact` says what a pass does to
the store and the queue, and what it answers, in each of its three cases.
-/

namespace LeaseRegistry

namespace Store

variable {s : Store} {taken taken' : Lease → Bool} {id : InstanceId} {now : Time}

/-! ## What is left of a store -/

/-- The store less the leases for which `taken` holds. -/
def without (s : Store) (taken : Lease → Bool) : Store :=
  let slots := s.slots.filter fun p => !taken p.2
  ⟨slots, slots.length⟩

theorem wellFormed_without (hs : s.WellFormed) (taken : Lease → Bool) :
    (s.without taken).WellFormed where
  distinct := hs.distinct.sublist (List.filter_sublist.map _)
  keyed p hp := hs.keyed p (List.mem_filter.mp hp).1
  counted := rfl

theorem WellFormed.lease?_without (hs : s.WellFormed) {l : Lease} :
    (s.without taken).lease? id = some l ↔ s.lease? id = some l ∧ taken l = false := by
  rw [← (wellFormed_without hs taken).mem_slots_iff, ← hs.mem_slots_iff, without, List.mem_filter]
  simp only [Bool.not_eq_true']

theorem without_congr (h : ∀ p ∈ s.slots, taken p.2 = taken' p.2) :
    s.without taken = s.without taken' := by
  have hslots : (s.slots.filter fun p => !taken p.2) = s.slots.filter fun p => !taken' p.2 :=
    List.filter_congr fun p hp => by rw [h p hp]
  simp only [without, hslots]

theorem without_without (s : Store) (taken taken' : Lease → Bool) :
    (s.without taken).without taken' = s.without fun l => taken l || taken' l := by
  simp only [without, List.filter_filter, Bool.not_or, Bool.and_comm]

theorem WellFormed.without_of_none (hs : s.WellFormed) (h : ∀ p ∈ s.slots, taken p.2 = false) :
    s.without taken = s := by
  have hslots : (s.slots.filter fun p => !taken p.2) = s.slots :=
    List.filter_eq_self.mpr fun p hp => by simp only [h p hp, Bool.not_false]
  simp only [without, hslots, ← hs.counted]

theorem erase_eq_filter {slots : List (InstanceId × Lease)} (hd : (slots.map (·.1)).Nodup)
    (id : InstanceId) : erase id slots = slots.filter fun p => p.1 ≠ id := by
  induction slots with
  | nil => rfl
  | cons p rest ih =>
    obtain ⟨k, m⟩ := p
    rw [List.map_cons, List.nodup_cons] at hd
    by_cases hk : k = id
    · -- The slot that goes is the only one of its instance.
      have hrest : ∀ q ∈ rest, decide (q.1 ≠ id) = true := by
        intro q hq
        refine decide_eq_true fun he => hd.1 ?_
        exact List.mem_map.mpr ⟨q, hq, he.trans hk.symm⟩
      simp only [erase, List.filter_cons, hk, ne_eq, not_true_eq_false, decide_false,
        Bool.false_eq_true, ↓reduceIte]
      exact (List.filter_eq_self.mpr hrest).symm
    · simp only [erase, List.filter_cons, hk, ne_eq, not_false_eq_true, decide_true,
        ↓reduceIte, ih hd.2]

theorem WellFormed.remove_eq_without (hs : s.WellFormed) {l : Lease} (hl : s.lease? id = some l) :
    s.remove id = s.without fun m => m.record.id = id := by
  have hslots : erase id s.slots = s.slots.filter fun p => !decide (p.2.record.id = id) := by
    rw [erase_eq_filter hs.distinct]
    refine List.filter_congr fun p hp => ?_
    rw [hs.keyed p hp, ← decide_not]
  have hsize : (erase id s.slots).length = s.size - 1 := by
    rw [length_erase (by rw [show lookup id s.slots = some l from hl]; rfl), hs.counted]
  simp only [remove, without, ← hslots, hsize]

theorem WellFormed.evictIf_eq_without (hs : s.WellFormed) (id : InstanceId) (due : Lease → Bool)
    (now : Time) : (s.evictIf id due now).2 = s.without fun l => l.record.id = id && due l := by
  have hkey : ∀ p ∈ s.slots, p.2.record.id = id → s.lease? id = some p.2 := by
    rintro ⟨k, l⟩ hp hid
    have hk : l.record.id = k := hs.keyed _ hp
    exact hs.mem_slots_iff.mp (hid ▸ hk ▸ hp)
  unfold evictIf
  cases hl : s.lease? id with
  | none =>
    refine (hs.without_of_none fun p hp => ?_).symm
    have hne : p.2.record.id ≠ id := by
      intro hid
      rw [hkey p hp hid] at hl
      cases hl
    simp only [hne, decide_false, Bool.false_and]
  | some l =>
    have hsame : ∀ p ∈ s.slots, p.2.record.id = id → p.2 = l := by
      intro p hp hid
      exact Option.some.inj ((hkey p hp hid).symm.trans hl)
    cases hdue : due l with
    | true =>
      simp only [hdue, ↓reduceIte]
      rw [hs.remove_eq_without hl]
      refine without_congr fun p hp => ?_
      by_cases hid : p.2.record.id = id
      · rw [hsame p hp hid, hdue, Bool.and_true]
      · simp only [hid, decide_false, Bool.false_and]
    | false =>
      simp only [hdue, Bool.false_eq_true, ↓reduceIte]
      refine (hs.without_of_none fun p hp => ?_).symm
      by_cases hid : p.2.record.id = id
      · rw [hsame p hp hid, hdue, Bool.and_false]
      · simp only [hid, decide_false, Bool.false_and]

theorem evictEach_eq_without {α : Type} (key : α → InstanceId) (due : α → Lease → Bool)
    (hs : s.WellFormed) (now : Time) (as : List α) :
    (s.evictEach (fun s a => s.evictIf (key a) (due a) now) as).2 =
      s.without fun l => as.any fun a => l.record.id = key a && due a l := by
  induction as generalizing s with
  | nil => exact (hs.without_of_none fun _ _ => rfl).symm
  | cons a as ih =>
    simp only [evictEach, hs.evictIf_eq_without, ih (wellFormed_without hs _), without_without,
      List.any_cons]

end Store

/-! ## The two loops of a pass -/

/-- A pass takes the lease out: its instance is expired, or a due entry names it at its version. -/
def Lease.Taken (expired : List InstanceId) (due : List QueuedEviction) (l : Lease) : Prop :=
  l.record.id ∈ expired ∨ ∃ e ∈ due, e.record.id = l.record.id ∧ e.record.version = l.version

instance (expired : List InstanceId) (due : List QueuedEviction) (l : Lease) :
    Decidable (l.Taken expired due) :=
  inferInstanceAs (Decidable (_ ∨ _))

namespace Store

variable {s : Store} {ids : List InstanceId} {due : List QueuedEviction} {now : Time}

/-- Evicts the expired among the given instances and then what the due entries take. -/
def evictAll (s : Store) (ids : List InstanceId) (due : List QueuedEviction) (now : Time) :
    List Lease × Store :=
  let (byExpiry, s) := s.evictExpired ids now
  let (byQueue, s) := s.evictQueued due now
  (byExpiry ++ byQueue, s)

theorem evicts_evictAll (hs : s.WellFormed) (ids : List InstanceId) (due : List QueuedEviction)
    (now : Time) : Evicts now s (s.evictAll ids due now).1 (s.evictAll ids due now).2 := by
  have h := evicts_evictExpired hs ids now
  exact h.trans (evicts_evictQueued h.wellFormed due now)

theorem evictExpired_eq_without (hs : s.WellFormed) (ids : List InstanceId) (now : Time) :
    (s.evictExpired ids now).2 =
      s.without fun l => ids.any fun id => l.record.id = id && l.isExpired now :=
  evictEach_eq_without (fun id => id) (fun _ l => l.isExpired now) hs now ids

theorem evictQueued_eq_without (hs : s.WellFormed) (due : List QueuedEviction) (now : Time) :
    (s.evictQueued due now).2 =
      s.without fun l =>
        due.any fun e => l.record.id = e.record.id && l.version == e.record.version :=
  evictEach_eq_without (fun e : QueuedEviction => e.record.id)
    (fun e l => l.version == e.record.version) hs now due

/-- Only which instances are visited matters, not in which order. -/
theorem evictAll_eq_without (hs : s.WellFormed) (hids : ∀ id, id ∈ ids ↔ id ∈ s.expired now)
    (due : List QueuedEviction) :
    (s.evictAll ids due now).2 = s.without fun l => decide (l.Taken (s.expired now) due) := by
  rw [evictAll]
  simp only
  rw [evictExpired_eq_without hs, evictQueued_eq_without (wellFormed_without hs _), without_without]
  refine without_congr fun p hp => ?_
  have hheld : s.lease? p.2.record.id = some p.2 := by
    have hk : p.2.record.id = p.1 := hs.keyed p hp
    rw [hk]
    exact hs.mem_slots_iff.mp hp
  rw [Bool.eq_iff_iff, decide_eq_true_iff, Lease.Taken]
  simp only [Bool.or_eq_true, List.any_eq_true, Bool.and_eq_true, decide_eq_true_eq, beq_iff_eq,
    hids]
  refine or_congr ⟨?_, fun h => ?_⟩ ?_
  · rintro ⟨id, hid, rfl, -⟩
    exact hid
  · obtain ⟨l, hl, hdue⟩ := hs.mem_expired_iff.mp h
    cases hheld.symm.trans hl
    exact ⟨_, h, rfl, hdue⟩
  · constructor <;> rintro ⟨e, he, hid, hversion⟩ <;> exact ⟨e, he, hid.symm, hversion.symm⟩

end Store

theorem Evicts.mem_iff {now : Time} {s s' : Store} {ls : List Lease} (h : Evicts now s ls s')
    {l : Lease} : l ∈ ls ↔ ∃ m, s.lease? m.record.id = some m ∧ s'.lease? m.record.id = none ∧
      l = m.markEvicted now := by
  constructor
  · intro hl
    obtain ⟨m, hm, rfl⟩ := h.held l hl
    have hgone := h.gone _ hl
    exact ⟨m, hm, hgone, rfl⟩
  · rintro ⟨m, hm, hgone, rfl⟩
    by_cases hex : ∃ l ∈ ls, l.record.id = m.record.id
    · obtain ⟨l, hl, hid⟩ := hex
      obtain ⟨m', hm', rfl⟩ := h.held l hl
      rw [hid, hm] at hm'
      cases hm'
      exact hl
    · rw [h.kept m.record.id fun l hl hid => hex ⟨l, hl, hid⟩, hm] at hgone
      cases hgone

/-! ## The pass -/

namespace EvictionQueue

variable {q : EvictionQueue} {now : Time}

theorem pending_takeDue (q : EvictionQueue) (now : Time) :
    (q.takeDue now).2 = { q with entries := q.entries.filter fun e => now < e.dueAt } := by
  have hpending : (q.entries.filter fun e => !e.isDue now) =
      q.entries.filter fun e => now < e.dueAt := by
    refine List.filter_congr fun e _ => ?_
    rw [QueuedEviction.isDue, ← decide_not]
    exact decide_eq_decide.mpr UInt64.not_le
  rw [takeDue, hpending]

theorem pending_of_none_due (h : (q.takeDue now).1 = []) : (q.takeDue now).2 = q := by
  have hkept : (q.entries.filter fun e => !e.isDue now) = q.entries := by
    refine List.filter_eq_self.mpr fun e he => ?_
    rw [Bool.eq_false_iff.mpr (List.filter_eq_nil_iff.mp h e he), Bool.not_false]
  rw [takeDue, hkept]

/-- In a queue that is in the order of its times, the due entries come first. -/
theorem due_append_pending {entries : List QueuedEviction}
    (h : entries.Pairwise fun e f => e.dueAt ≤ f.dueAt) (now : Time) :
    (entries.filter fun e => e.dueAt ≤ now) ++ (entries.filter fun e => now < e.dueAt) =
      entries := by
  induction entries with
  | nil => rfl
  | cons e rest ih =>
    obtain ⟨hfirst, hrest⟩ := List.pairwise_cons.mp h
    by_cases hdue : e.dueAt ≤ now
    · simp only [List.filter_cons, hdue, UInt64.not_lt.mpr hdue, decide_true, decide_false,
        Bool.false_eq_true, ↓reduceIte, List.cons_append, ih hrest]
    · have hlate : ∀ f ∈ e :: rest, now < f.dueAt := by
        intro f hf
        rcases List.mem_cons.mp hf with rfl | hf
        · exact UInt64.not_le.mp hdue
        · exact UInt64.lt_of_lt_of_le (UInt64.not_le.mp hdue) (hfirst f hf)
      have hnone : ((e :: rest).filter fun f => f.dueAt ≤ now) = [] :=
        List.filter_eq_nil_iff.mpr fun f hf => by simp only [UInt64.not_le.mpr (hlate f hf),
          decide_false, Bool.false_eq_true, not_false_eq_true]
      have hall : ((e :: rest).filter fun f => now < f.dueAt) = e :: rest :=
        List.filter_eq_self.mpr fun f hf => decide_eq_true (hlate f hf)
      rw [hnone, hall, List.nil_append]

end EvictionQueue

section

variable (order : List InstanceId) (s : Store) (p : Preservation) (q : EvictionQueue) (now : Time)

theorem evictionPassOver_of_none (horder : order = []) (hdue : (q.takeDue now).1 = []) :
    evictionPassOver order s p q now = (.evicted [], s, p.setExpected s.expectedRenewals, q) := by
  simp only [evictionPassOver, horder, hdue, List.length_nil, Nat.add_zero, ↓reduceIte,
    EvictionQueue.pending_of_none_due hdue]

variable {order} {q} {now} (hsome : ¬(order = [] ∧ (q.takeDue now).1 = []))
include hsome

theorem candidates_ne_zero : order.length + (q.takeDue now).1.length ≠ 0 := by
  intro h
  obtain ⟨horder, hdue⟩ := Nat.add_eq_zero_iff.mp h
  exact hsome ⟨List.length_eq_zero_iff.mp horder, List.length_eq_zero_iff.mp hdue⟩

theorem evictionPassOver_of_suppressed
    (hv : ((p.setExpected s.expectedRenewals).evaluate now).allowed = false) :
    evictionPassOver order s p q now =
      (.suppressed (order.length + (q.takeDue now).1.length)
          ((p.setExpected s.expectedRenewals).evaluate now), s,
        (p.setExpected s.expectedRenewals).recordAnomaly,
        (q.takeDue now).2.requeue (q.takeDue now).1) := by
  simp only [evictionPassOver, candidates_ne_zero hsome, hv, Bool.false_eq_true, ↓reduceIte]

theorem evictionPassOver_of_allowed
    (hv : ((p.setExpected s.expectedRenewals).evaluate now).allowed = true) :
    evictionPassOver order s p q now =
      (.evicted (s.evictAll order (q.takeDue now).1 now).1,
        (s.evictAll order (q.takeDue now).1 now).2, p.setExpected s.expectedRenewals,
        (q.takeDue now).2) := by
  simp only [evictionPassOver, candidates_ne_zero hsome, hv, ↓reduceIte]
  rfl

end

namespace Store

variable {s : Store} {order order' : List InstanceId} {now : Time}

theorem mem_evictAll (hs : s.WellFormed) (horder : order.Perm (s.expired now))
    (due : List QueuedEviction) {l : Lease} :
    l ∈ (s.evictAll order due now).1 ↔ ∃ m, s.lease? m.record.id = some m ∧
      m.Taken (s.expired now) due ∧ l = m.markEvicted now := by
  rw [(evicts_evictAll hs order due now).mem_iff,
    evictAll_eq_without hs fun _ => horder.mem_iff]
  refine exists_congr fun m => and_congr_right fun hm => and_congr_left fun _ => ?_
  rw [Option.eq_none_iff_forall_ne_some]
  constructor
  · intro hgone
    exact Decidable.byContradiction fun hkept =>
      hgone m (hs.lease?_without.mpr ⟨hm, decide_eq_false hkept⟩)
  · intro htaken m' hm'
    obtain ⟨hsame, hkept⟩ := hs.lease?_without.mp hm'
    cases hm.symm.trans hsame
    exact of_decide_eq_false hkept htaken

/-- Whatever the order, the same leases are left and the same ones are evicted. -/
theorem evictAll_perm (hs : s.WellFormed) (horder : order.Perm (s.expired now))
    (horder' : order'.Perm (s.expired now)) (due : List QueuedEviction) :
    (s.evictAll order due now).2 = (s.evictAll order' due now).2 ∧
      (s.evictAll order due now).1.Perm (s.evictAll order' due now).1 := by
  refine ⟨?_, ?_⟩
  · rw [evictAll_eq_without hs fun _ => horder.mem_iff,
      evictAll_eq_without hs fun _ => horder'.mem_iff]
  · have hnodup : ∀ order, (s.evictAll order due now).1.Nodup := fun order =>
      List.Pairwise.of_map (·.record.id) (fun _ _ hne he => hne (congrArg (·.record.id) he))
        (evicts_evictAll hs order due now).distinct
    refine (List.perm_ext_iff_of_nodup (hnodup order) (hnodup order')).mpr fun l => ?_
    rw [mem_evictAll hs horder, mem_evictAll hs horder']

end Store

/-- The order in which the expired instances are visited matters for nothing but the order in which
the evicted leases are listed. -/
theorem evictionPassOver_perm {s : Store} (hs : s.WellFormed) (p : Preservation) (q : EvictionQueue)
    {now : Time} {order : List InstanceId} (horder : order.Perm (s.expired now)) :
    (evictionPassOver order s p q now).2 = (evictionPass s p q now).2 ∧
      (evictionPassOver order s p q now).1.leases.Perm (evictionPass s p q now).1.leases := by
  have hempty : s.expired now = [] ↔ order = [] := by
    rw [← List.length_eq_zero_iff, ← List.length_eq_zero_iff, horder.length_eq]
  unfold evictionPass
  by_cases hnone : order = [] ∧ (q.takeDue now).1 = []
  · rw [evictionPassOver_of_none _ s p q now hnone.1 hnone.2,
      evictionPassOver_of_none _ s p q now (hempty.mpr hnone.1) hnone.2]
    exact ⟨rfl, .refl _⟩
  · have hsome : ¬(s.expired now = [] ∧ (q.takeDue now).1 = []) := by
      rwa [hempty]
    cases hv : ((p.setExpected s.expectedRenewals).evaluate now).allowed with
    | false =>
      rw [evictionPassOver_of_suppressed s p hnone hv, evictionPassOver_of_suppressed s p hsome hv]
      exact ⟨rfl, .refl _⟩
    | true =>
      obtain ⟨hleft, hgone⟩ := Store.evictAll_perm hs horder (.refl _) (q.takeDue now).1
      rw [evictionPassOver_of_allowed s p hnone hv, evictionPassOver_of_allowed s p hsome hv, hleft]
      exact ⟨rfl, hgone⟩

/-- What a pass does that visits the expired instances in any order. Without candidates it changes
neither the store nor the queue. If it is held back, the store stays as it is, one more anomaly is
counted, and the due entries go to the front of the queue, which is where they were if the queue was
in the order of its times. If it goes on, exactly the leases of expired instances and those that
due entries name at their version are gone, and each of them is listed once, as it was but for the
time of its eviction. The order matters for nothing but the order of that list. -/
theorem evictionPass_exact {s : Store} (hs : s.WellFormed) (p : Preservation) (q : EvictionQueue)
    (now : Time) {order : List InstanceId} (horder : order.Perm (s.expired now)) :
    let expired := s.expired now
    let due := q.entries.filter fun e => e.dueAt ≤ now
    let pending := q.entries.filter fun e => now < e.dueAt
    let counters := p.setExpected s.expectedRenewals
    let verdict := counters.evaluate now
    let pass := evictionPassOver order s p q now
    (∀ id, id ∈ expired ↔ ∃ l, s.lease? id = some l ∧ l.isExpired now = true) ∧
    (expired = [] ∧ due = [] → pass = (.evicted [], s, counters, q)) ∧
    (¬(expired = [] ∧ due = []) ∧ verdict.allowed = false →
      pass = (.suppressed (expired.length + due.length) verdict, s, counters.recordAnomaly,
        { q with entries := due ++ pending }) ∧
      counters.recordAnomaly.anomalies = p.anomalies + 1 ∧
      (q.entries.Pairwise (fun e f => e.dueAt ≤ f.dueAt) → due ++ pending = q.entries)) ∧
    (¬(expired = [] ∧ due = []) ∧ verdict.allowed = true →
      pass.2.2 = (counters, { q with entries := pending }) ∧
      (∀ id l, pass.2.1.lease? id = some l ↔
        s.lease? id = some l ∧ ¬l.Taken expired due) ∧
      ∃ ls, pass.1 = .evicted ls ∧ (ls.map (·.record.id)).Nodup ∧
        ∀ l, l ∈ ls ↔ ∃ m, s.lease? m.record.id = some m ∧ m.Taken expired due ∧
          l = m.markEvicted now) ∧
    pass.2 = (evictionPass s p q now).2 ∧
      pass.1.leases.Perm (evictionPass s p q now).1.leases := by
  intro expired due pending counters verdict pass
  have hpending : (q.takeDue now).2 = { q with entries := pending } := q.pending_takeDue now
  have hempty : expired = [] ↔ order = [] := by
    rw [← List.length_eq_zero_iff, ← List.length_eq_zero_iff, horder.length_eq]
  refine ⟨fun id => hs.mem_expired_iff, fun ⟨he, hd⟩ => ?_, fun ⟨hsome, hv⟩ => ?_,
    fun ⟨hsome, hv⟩ => ?_, evictionPassOver_perm hs p q horder⟩
  · exact evictionPassOver_of_none order s p q now (hempty.mp he) hd
  · rw [hempty] at hsome
    have hpass := evictionPassOver_of_suppressed s p hsome hv
    rw [hpending, horder.length_eq] at hpass
    exact ⟨hpass, rfl, fun hsorted => EvictionQueue.due_append_pending hsorted now⟩
  · rw [hempty] at hsome
    have hpass : pass = _ := evictionPassOver_of_allowed s p hsome hv
    have hleft := Store.evictAll_eq_without hs (fun _ => horder.mem_iff) due
    rw [hpending] at hpass
    rw [hpass]
    refine ⟨rfl, fun id l => ?_, _, rfl, (Store.evicts_evictAll hs order due now).distinct,
      fun l => Store.mem_evictAll hs horder due⟩
    change (s.evictAll order due now).2.lease? id = some l ↔ _
    rw [hleft, hs.lease?_without, decide_eq_false_iff_not]

/-- Two leases have expired, and an entry that is due names a third one at its version. -/
theorem evictionPass_exact_reversed :
    let record (name : String) (terms : LeaseTerms) : Record :=
      { (Record.bare ⟨name⟩ "shop").atVersion 1 with lease := terms }
    let s := (Store.empty.run [(0, .register (record "a" ⟨90, 30⟩) .here),
      (0, .register (record "b" ⟨90, 30⟩) .here), (0, .register (record "c" ⟨200, 30⟩) .here)]).2
    let p := Preservation.start ⟨false, Preservation.defaultThreshold, 60000⟩ 0
    let q := (EvictionQueue.empty 90000).add (record "c" ⟨200, 30⟩) .here 0
    let order : List InstanceId := [⟨"b"⟩, ⟨"a"⟩]
    order.Perm (s.expired 100000) ∧
      (evictionPassOver order s p q 100000).2 = (evictionPass s p q 100000).2 ∧
      (evictionPassOver order s p q 100000).1.leases.map (·.record.id) = [⟨"b"⟩, ⟨"a"⟩, ⟨"c"⟩] := by
  intro record s p q order
  have hlisted : order.Perm (((s.slots.map (·.2)).filter (·.isExpired 100000)).map (·.record.id)) :=
    by decide +kernel
  have horder : order.Perm (s.expired 100000) :=
    hlisted.trans ((s.leases_perm.filter _).map _).symm
  obtain ⟨-, -, -, -, hsame, -⟩ :=
    evictionPass_exact (Store.sound_empty.run _).wellFormed p q 100000 horder
  exact ⟨horder, hsame, by decide +kernel⟩

end LeaseRegistry
