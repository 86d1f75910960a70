import LeaseRegistry.Eviction.Pass
import LeaseRegistry.Proofs.Store.Slot

/-!
# What an eviction pass removes

`Evicts now s ls s'` says that `s'` is `s` less the leases that `ls` lists, each as it was stored
but for the time of its eviction. It holds of one eviction, of any number of them one after the
other, and so of a pass.
-/

namespace LeaseRegistry

/-- `s'` is what is left of `s` once the leases `ls` are evicted at `now`. -/
structure Evicts (now : Time) (s : Store) (ls : List Lease) (s' : Store) : Prop where
  wellFormed : s'.WellFormed
  distinct : (ls.map (·.record.id)).Nodup
  gone : ∀ l ∈ ls, s'.lease? l.record.id = none
  kept : ∀ id, (∀ l ∈ ls, l.record.id ≠ id) → s'.lease? id = s.lease? id
  held : ∀ l ∈ ls, ∃ m, s.lease? l.record.id = some m ∧ l = m.markEvicted now

namespace Evicts

variable {now : Time} {s s' s'' : Store} {ls ls' : List Lease}

theorem none_or_same (h : Evicts now s ls s') (id : InstanceId) :
    s'.lease? id = none ∨ s'.lease? id = s.lease? id := by
  by_cases hid : ∃ l ∈ ls, l.record.id = id
  · obtain ⟨l, hl, rfl⟩ := hid
    exact .inl (h.gone l hl)
  · exact .inr (h.kept id fun l hl he => hid ⟨l, hl, he⟩)

theorem lease?_of_some (h : Evicts now s ls s') {id : InstanceId} {l : Lease}
    (hl : s'.lease? id = some l) : s.lease? id = some l := by
  rcases h.none_or_same id with hnone | hsame
  · cases hnone.symm.trans hl
  · exact hsame.symm.trans hl

theorem refl (hs : s.WellFormed) : Evicts now s [] s :=
  ⟨hs, List.nodup_nil, by simp, fun _ _ => rfl, by simp⟩

theorem trans (h : Evicts now s ls s') (h' : Evicts now s' ls' s'') :
    Evicts now s (ls ++ ls') s'' where
  wellFormed := h'.wellFormed
  distinct := by
    rw [List.map_append, List.nodup_append]
    refine ⟨h.distinct, h'.distinct, fun id hid id' hid' heq => ?_⟩
    obtain ⟨l, hl, rfl⟩ := List.mem_map.mp hid
    obtain ⟨l', hl', rfl⟩ := List.mem_map.mp hid'
    obtain ⟨m, hm, -⟩ := h'.held l' hl'
    rw [← heq, h.gone l hl] at hm
    cases hm
  gone l hl := by
    rcases List.mem_append.mp hl with hl | hl
    · rcases h'.none_or_same l.record.id with hn | hk
      · exact hn
      · rw [hk, h.gone l hl]
    · exact h'.gone l hl
  kept id hid := by
    rw [h'.kept id fun l hl => hid l (List.mem_append_right _ hl),
      h.kept id fun l hl => hid l (List.mem_append_left _ hl)]
  held l hl := by
    rcases List.mem_append.mp hl with hl | hl
    · exact h.held l hl
    · obtain ⟨m, hm, rfl⟩ := h'.held l hl
      exact ⟨m, h.lease?_of_some hm, rfl⟩

theorem evictIf (hs : s.WellFormed) (id : InstanceId) (due : Lease → Bool) (now : Time) :
    Evicts now s (s.evictIf id due now).1.toList (s.evictIf id due now).2 := by
  rw [Store.evictIf_eq_onSlot]
  have hwf := hs.onSlot (Slot.KeepsId.evictIf id due now)
  cases hl : s.lease? id with
  | none =>
    rw [Store.onSlot_of_absent hl, Slot.evictIf, Store.put_of_eq hl]
    exact refl hs
  | some l =>
    have hid := hs.id_of_lease? hl
    rw [Store.onSlot_of_lease hl] at hwf ⊢
    simp only [Slot.evictIf] at hwf ⊢
    split
    · rename_i hd
      simp only [hd, ↓reduceIte] at hwf
      refine ⟨hwf, List.pairwise_singleton _ _, ?_, fun k hk => ?_, ?_⟩
      · simp only [Option.toList_some, List.mem_singleton, forall_eq]
        simp [Store.lease?_put hs, Lease.markEvicted, hid]
      · rw [Store.lease?_put hs]
        simp only [Option.toList_some, List.mem_singleton, forall_eq] at hk
        exact if_neg fun he => hk (hid.trans he.symm)
      · simp only [Option.toList_some, List.mem_singleton, forall_eq]
        exact ⟨l, by simpa [Lease.markEvicted, hid] using hl, rfl⟩
    · rw [Store.put_of_eq hl]
      exact refl hs

theorem evictEach {α : Type} (key : α → InstanceId) (due : α → Lease → Bool)
    (hs : s.WellFormed) (now : Time) (as : List α) :
    Evicts now s (s.evictEach (fun s a => s.evictIf (key a) (due a) now) as).1
      (s.evictEach (fun s a => s.evictIf (key a) (due a) now) as).2 := by
  induction as generalizing s with
  | nil => exact refl hs
  | cons a as ih =>
    have h := evictIf hs (key a) (due a) now
    exact h.trans (ih h.wellFormed)

end Evicts

theorem evicts_evictExpired {s : Store} (hs : s.WellFormed) (ids : List InstanceId) (now : Time) :
    Evicts now s (s.evictExpired ids now).1 (s.evictExpired ids now).2 :=
  .evictEach (fun id => id) (fun _ l => l.isExpired now) hs now ids

theorem evicts_evictQueued {s : Store} (hs : s.WellFormed) (es : List QueuedEviction)
    (now : Time) : Evicts now s (s.evictQueued es now).1 (s.evictQueued es now).2 :=
  .evictEach (fun e : QueuedEviction => e.record.id) (fun e l => l.version == e.record.version)
    hs now es

/-- A pass evicts the expired leases and then what the due entries take, or nothing at all. -/
theorem evictionPass_cases (s : Store) (p : Preservation) (q : EvictionQueue) (now : Time) :
    let (due, pending) := q.takeDue now
    let (byExpiry, s₁) := s.evictExpired (s.expired now) now
    let (byQueue, s₂) := s₁.evictQueued due now
    (∃ p', evictionPass s p q now = (.evicted (byExpiry ++ byQueue), s₂, p', pending)) ∨
      ∃ n verdict p',
        evictionPass s p q now = (.suppressed n verdict, s, p', pending.requeue due) := by
  unfold evictionPass evictionPassOver
  simp only
  split
  · rename_i hnone
    obtain ⟨hexpired, hdue⟩ := Nat.add_eq_zero_iff.mp hnone
    rw [List.length_eq_zero_iff.mp hexpired, List.length_eq_zero_iff.mp hdue]
    exact .inl ⟨_, rfl⟩
  · split
    · exact .inl ⟨_, rfl⟩
    · exact .inr ⟨_, _, _, rfl⟩

theorem evicts_evictionPass {s : Store} (hs : s.WellFormed) (p : Preservation) (q : EvictionQueue)
    (now : Time) :
    Evicts now s (evictionPass s p q now).1.leases (evictionPass s p q now).2.1 := by
  have h := evicts_evictExpired hs (s.expired now) now
  rcases evictionPass_cases s p q now with ⟨p', hpass⟩ | ⟨n, verdict, p', hpass⟩
  · rw [hpass]
    exact h.trans (evicts_evictQueued h.wellFormed _ now)
  · rw [hpass]
    exact .refl hs

end LeaseRegistry
