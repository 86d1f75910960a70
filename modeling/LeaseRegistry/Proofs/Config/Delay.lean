import Mathlib.Algebra.Group.Nat.Defs
import Mathlib.Tactic.ByContra
import LeaseRegistry.AccessGate
import LeaseRegistry.Config.ServerConfig
import LeaseRegistry.Eviction.Queue

/-!
# Configured delays

Delays are given in seconds of 64 bits, and times are milliseconds of 64 bits. Neither the
milliseconds of a delay nor the sum of a time and a delay needs to fit into these, and what does not
fit is cut off: a delay is kept in full exactly as long as nothing is.
-/

namespace LeaseRegistry

namespace ServerConfig

def evictionQueue (c : ServerConfig) : EvictionQueue := .empty c.evictionDelay

def accessGate (c : ServerConfig) (now : Time) : AccessGate := .start now c.syncWait

variable {fresh : ServerId} {args : Arguments} {c : ServerConfig}

theorem delays_ofArguments (h : ofArguments fresh args = .ok c) :
    c.evictionDelay = 1000 * args.evictionDelay.toNat ∧
      c.syncWait = 1000 * args.syncWait.toNat := by
  simp only [ofArguments, bind, Except.bind] at h
  split at h
  · cases h
  split at h
  · cases h
  split at h
  · cases h
  cases h
  exact ⟨Nat.mul_comm .., Nat.mul_comm ..⟩

end ServerConfig

theorem Time.toNat_after (t : Time) (d : Millis) : (t.after d).toNat = (t.toNat + d) % 2 ^ 64 := by
  rw [Time.after, UInt64.toNat_add, UInt64.toNat_ofNat', Nat.add_mod_mod]

theorem Time.toNat_since (t now : Time) : (t.since now).toNat = now.toNat - t.toNat := by
  rw [Time.since]
  split
  case isTrue h => exact UInt64.toNat_sub_of_le _ _ h
  case isFalse h =>
    rw [UInt64.not_le, UInt64.lt_iff_toNat_lt] at h
    rw [Nat.sub_eq_zero_of_le (Nat.le_of_lt h)]
    rfl

namespace EvictionQueue

variable {q : EvictionQueue} {record : Record} {source : Source} {t now : Time}

def entry (q : EvictionQueue) (record : Record) (source : Source) (t : Time) : QueuedEviction :=
  ⟨record, source, t.after q.delay⟩

theorem takeDue_add_of_due (h : (q.entry record source t).isDue now = true) :
    ((q.add record source t).takeDue now).1 =
      (q.takeDue now).1 ++ [q.entry record source t] := by
  have hentries : (q.add record source t).entries = q.entries ++ [q.entry record source t] := rfl
  rw [takeDue, hentries, List.filter_append, List.filter_cons_of_pos h]
  rfl

theorem takeDue_add_of_not_due (h : (q.entry record source t).isDue now = false) :
    (q.add record source t).takeDue now =
      ((q.takeDue now).1, (q.takeDue now).2.add record source t) := by
  have hentries : (q.add record source t).entries = q.entries ++ [q.entry record source t] := rfl
  rw [takeDue, hentries, List.filter_append, List.filter_append,
    List.filter_cons_of_neg (by rw [h]; decide), List.filter_cons_of_pos (by rw [h]; rfl)]
  simp [takeDue, add, entry]

theorem isDue_entry :
    (q.entry record source t).isDue now = true ↔ (t.toNat + q.delay) % 2 ^ 64 ≤ now.toNat := by
  rw [QueuedEviction.isDue, decide_eq_true_eq, UInt64.le_iff_toNat_le, entry, Time.toNat_after]

/-- An entry stays in the queue up to its due time in exact arithmetic if that is a time. If it is
not, the entry is due at the last time at the latest, which is before its delay is over. -/
theorem stays_iff (record : Record) (source : Source) :
    (∀ now, t ≤ now → now.toNat < t.toNat + q.delay →
      (q.add record source t).takeDue now =
        ((q.takeDue now).1, (q.takeDue now).2.add record source t)) ↔
      t.toNat + q.delay < 2 ^ 64 := by
  constructor
  · intro h
    by_contra hover
    let last : Time := -1
    have hlast : last.toNat = 2 ^ 64 - 1 := rfl
    have ht := t.toNat_lt
    have hstays := h last (UInt64.le_iff_toNat_le.mpr (by omega)) (by omega)
    have hdue : (q.entry record source t).isDue last = true := isDue_entry.mpr (by omega)
    have hlength := congrArg (·.1.length) hstays
    rw [takeDue_add_of_due hdue, List.length_append] at hlength
    simp at hlength
  · intro hfits now _ hnow
    refine takeDue_add_of_not_due (Bool.eq_false_iff.mpr fun hdue => ?_)
    rw [isDue_entry, Nat.mod_eq_of_lt hfits] at hdue
    omega

end EvictionQueue

namespace AccessGate

variable {start now : Time} {wait : Nat}

theorem allows_start_iff :
    (AccessGate.start start wait).allows 0 now = true ↔
      wait % 2 ^ 64 ≤ now.toNat - start.toNat := by
  have hallows : (AccessGate.start start wait).allows 0 now =
      decide (UInt64.ofNat wait ≤ start.since now) := rfl
  rw [hallows, decide_eq_true_eq, UInt64.le_iff_toNat_le, Time.toNat_since, UInt64.toNat_ofNat']

/-- The gate is closed up to the end of the wait in exact arithmetic if the wait fits into a time,
and also if what is left of it, cut off, is more than there are times left. -/
theorem closed_iff :
    (∀ now, start ≤ now → now.toNat < start.toNat + wait →
      (AccessGate.start start wait).allows 0 now = false) ↔
      wait < 2 ^ 64 ∨ 2 ^ 64 ≤ start.toNat + wait % 2 ^ 64 := by
  have hstart := start.toNat_lt
  constructor
  · intro h
    by_contra hnot
    let last : Time := -1
    have hlast : last.toNat = 2 ^ 64 - 1 := rfl
    have hclosed := h last (UInt64.le_iff_toNat_le.mpr (by omega)) (by omega)
    have hopen : (AccessGate.start start wait).allows 0 last = true :=
      allows_start_iff.mpr (by omega)
    rw [hclosed] at hopen
    cases hopen
  · intro h now hle hnow
    rw [UInt64.le_iff_toNat_le] at hle
    have hnow' := now.toNat_lt
    refine Bool.eq_false_iff.mpr fun hopen => ?_
    rw [allows_start_iff] at hopen
    rcases h with hfits | hleft
    · rw [Nat.mod_eq_of_lt hfits] at hopen
      omega
    · omega

end AccessGate

namespace ServerConfig

/-- What the delays of an accepted configuration come to. An entry is due at the time of queuing
plus the delay, cut off to a time, and the gate opens after the wait, cut off likewise. So an entry
never leaves the queue before its delay is over exactly if that is at a time, and the gate never
opens before its wait is over exactly if the wait fits into a time, or what is left of it after
cutting off reaches past the last time. -/
theorem delays_kept_iff {fresh : ServerId} {args : Arguments} {c : ServerConfig}
    (h : ofArguments fresh args = .ok c) :
    (∀ (q : EvictionQueue) (record : Record) (source : Source) (t : Time),
      q.delay = c.evictionQueue.delay →
      ((q.add record source t).entries.getLast?.map fun e => e.dueAt.toNat) =
        some ((t.toNat + 1000 * args.evictionDelay.toNat) % 2 ^ 64) ∧
      ((∀ now, t ≤ now → now.toNat < t.toNat + 1000 * args.evictionDelay.toNat →
        (q.add record source t).takeDue now =
          ((q.takeDue now).1, (q.takeDue now).2.add record source t)) ↔
        t.toNat + 1000 * args.evictionDelay.toNat < 2 ^ 64)) ∧
    ∀ start : Time,
      (∀ now, (c.accessGate start).allows 0 now = true ↔
        1000 * args.syncWait.toNat % 2 ^ 64 ≤ now.toNat - start.toNat) ∧
      ((∀ now, start ≤ now → now.toNat < start.toNat + 1000 * args.syncWait.toNat →
        (c.accessGate start).allows 0 now = false) ↔
        1000 * args.syncWait.toNat < 2 ^ 64 ∨
          2 ^ 64 ≤ start.toNat + 1000 * args.syncWait.toNat % 2 ^ 64) := by
  obtain ⟨hdelay, hwait⟩ := delays_ofArguments h
  refine ⟨fun q record source t hq => ?_, fun start => ?_⟩
  · have hq' : q.delay = 1000 * args.evictionDelay.toNat := hq.trans hdelay
    rw [← hq']
    refine ⟨?_, EvictionQueue.stays_iff record source⟩
    simp [EvictionQueue.add, Time.toNat_after]
  · rw [accessGate, hwait]
    exact ⟨fun now => AccessGate.allows_start_iff, AccessGate.closed_iff⟩

/-- The delays of a server of which nothing else is said are kept, unless time is about to end. -/
theorem delays_kept_iff_standard :
    ∃ c, ofArguments ⟨"a", by decide⟩ Arguments.standard = .ok c ∧
      (c.evictionQueue.add (.bare ⟨"web"⟩ "shop") .here 1000).takeDue 90999 =
        ([], c.evictionQueue.add (.bare ⟨"web"⟩ "shop") .here 1000) ∧
      (c.accessGate 1000).allows 0 300999 = false := by
  rcases h : ofArguments ⟨"a", by decide⟩ Arguments.standard with e | c
  · have hok : (ofArguments ⟨"a", by decide⟩ Arguments.standard).toOption.isSome = true := by
      decide +kernel
    rw [h] at hok
    cases hok
  obtain ⟨hqueue, hgate⟩ := delays_kept_iff h
  refine ⟨c, rfl, ?_, ?_⟩
  · exact (hqueue c.evictionQueue (.bare ⟨"web"⟩ "shop") .here 1000 rfl).2.mpr (by decide) 90999
      (by decide) (by decide)
  · exact (hgate 1000).2.mpr (by decide) 300999 (by decide) (by decide)

/-- A server that is to wait for 2 ^ 64 + 384 milliseconds. -/
def veryPatient : Arguments :=
  { Arguments.standard with
    evictionDelay := 18446744073709552
    syncWait := 18446744073709552 }

/-- After 384 milliseconds, the longest delays are over. -/
theorem delays_cutOff_veryPatient :
    384 < 1000 * veryPatient.evictionDelay.toNat ∧ 384 < 1000 * veryPatient.syncWait.toNat ∧
    (ofArguments ⟨"a", by decide⟩ veryPatient).toOption.map (fun c =>
      (((c.evictionQueue.add (.bare ⟨"web"⟩ "shop") .here 0).takeDue 384).1.map (·.record.id),
        (c.accessGate 0).allows 0 384)) = some ([⟨"web"⟩], true) := by
  decide +kernel

end ServerConfig

end LeaseRegistry
