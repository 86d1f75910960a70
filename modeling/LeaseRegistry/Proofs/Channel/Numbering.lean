import LeaseRegistry.Proofs.Channel.History

/-!
# When versions increase

The versions of the writes of one instance increase over a run exactly as long as every lease is
created by the channel that made the last write, if there was one. A channel starts to count again
from what it has seen itself: a lease that another channel creates gets a version that the instance
had before.
-/

namespace LeaseRegistry

namespace History

def Increasing (ws : List Write) : Prop :=
  ws.Pairwise fun newer older => older.version < newer.version

/-- A write that creates the lease comes from the channel that made the write before it. -/
def ByLastWriter (ws : List Write) : Prop :=
  ∀ newer w older, ws = newer ++ w :: older → w.creates = true →
    ∀ v, older.head? = some v → v.channel = w.channel

theorem byLastWriter_nil : ByLastWriter [] := by
  intro newer w older h
  simp at h

theorem byLastWriter_cons {w : Write} {ws : List Write} :
    ByLastWriter (w :: ws) ↔
      (w.creates = true → ∀ v, ws.head? = some v → v.channel = w.channel) ∧ ByLastWriter ws := by
  constructor
  · intro h
    refine ⟨h [] w ws rfl, fun newer v older hws => ?_⟩
    exact h (w :: newer) v older (congrArg (w :: ·) hws)
  · rintro ⟨hw, hws⟩ newer v older heq
    cases newer with
    | nil =>
      cases heq
      exact hw
    | cons u newer =>
      cases heq
      exact hws newer v older rfl

theorem mem_of_lastOf {i : Nat} {ws : List Write} {w : Write} (h : lastOf i ws = some w) :
    w ∈ ws ∧ w.channel = i := by
  refine ⟨List.mem_of_find?_eq_some h, ?_⟩
  simpa using List.find?_some h

/-- The view of a channel is no more than the greatest version there is. -/
theorem view_lt {i : Nat} {ws : List Write} {n : Nat} (hn : 0 < n)
    (hb : ∀ w ∈ ws, w.version.toNat < n) : (view i ws).toNat < n := by
  unfold view
  cases hl : lastOf i ws with
  | none => exact hn
  | some w => exact hb w (mem_of_lastOf hl).1

theorem increasing_cons_cons {w v : Write} {ws : List Write} :
    Increasing (w :: v :: ws) ↔ v.version < w.version ∧ Increasing (v :: ws) := by
  constructor
  · intro h
    exact ⟨List.rel_of_pairwise_cons h List.mem_cons_self, h.of_cons⟩
  · rintro ⟨hlt, h⟩
    refine List.pairwise_cons.mpr ⟨fun u hu => ?_, h⟩
    rcases List.mem_cons.mp hu with rfl | hu
    · exact hlt
    · exact UInt64.lt_trans (List.rel_of_pairwise_cons h hu) hlt

theorem Numbered.pos {ws : List Write} (h : Numbered ws)
    (hb : ∀ w ∈ ws, w.version.toNat + 1 < UInt64.size) : ∀ w ∈ ws, 0 < w.version.toNat := by
  induction h with
  | nil => simp
  | @changed w v ws rest old newer ih =>
    have ih := ih fun u hu => hb u (List.mem_cons_of_mem _ hu)
    intro u hu
    rcases List.mem_cons.mp hu with rfl | hu
    · have hlt := UInt64.lt_iff_toNat_lt.mp newer
      omega
    · exact ih u hu
  | @created w ws rest new next ih =>
    have hrest : ∀ u ∈ ws, u.version.toNat + 1 < UInt64.size := fun u hu =>
      hb u (List.mem_cons_of_mem _ hu)
    have hview : (view w.channel ws).toNat < UInt64.size - 1 :=
      view_lt (by decide) fun u hu => Nat.lt_sub_of_add_lt (hrest u hu)
    intro u hu
    rcases List.mem_cons.mp hu with rfl | hu
    · rw [next, toNat_succ (by omega)]
      omega
    · exact ih hrest u hu

/-- After the write `v`, the next version of a channel is newer than `v` only if `v` is its own. -/
theorem lt_view_succ_iff {v : Write} {ws : List Write} (i : Nat) (hinc : Increasing (v :: ws))
    (hpos : 0 < v.version.toNat) (hb : v.version.toNat + 1 < UInt64.size) :
    v.version < view i (v :: ws) + 1 ↔ v.channel = i := by
  by_cases hi : v.channel = i
  · subst hi
    have hview : view v.channel (v :: ws) = v.version := by
      rw [view, lastOf_cons_self]
      rfl
    refine iff_of_true ?_ rfl
    rw [hview, UInt64.lt_iff_toNat_lt, toNat_succ hb]
    omega
  · have hview : view i (v :: ws) = view i ws := by
      rw [view, lastOf_cons_of_ne hi]
      rfl
    have hlt : (view i ws).toNat < v.version.toNat := view_lt hpos fun u hu =>
      UInt64.lt_iff_toNat_lt.mp (List.rel_of_pairwise_cons hinc hu)
    refine iff_of_false ?_ hi
    rw [hview, UInt64.lt_iff_toNat_lt, toNat_succ (by omega)]
    omega

/-- A new lease is numbered after the last write exactly if the last writer creates it. -/
theorem Numbered.increasing_iff {ws : List Write} (h : Numbered ws)
    (hb : ∀ w ∈ ws, w.version.toNat + 1 < UInt64.size) : Increasing ws ↔ ByLastWriter ws := by
  induction h with
  | nil => exact iff_of_true .nil byLastWriter_nil
  | @changed w v ws rest old newer ih =>
    have ih := ih fun u hu => hb u (List.mem_cons_of_mem _ hu)
    rw [increasing_cons_cons, byLastWriter_cons, ih]
    refine and_congr_left fun _ => iff_of_true newer fun hnew => ?_
    rw [old] at hnew
    cases hnew
  | @created w ws rest new next ih =>
    have hrest : ∀ u ∈ ws, u.version.toNat + 1 < UInt64.size := fun u hu =>
      hb u (List.mem_cons_of_mem _ hu)
    have ih := ih hrest
    cases ws with
    | nil =>
      refine iff_of_true (List.pairwise_singleton ..) (byLastWriter_cons.mpr ⟨?_, byLastWriter_nil⟩)
      simp
    | cons v ws =>
      rw [increasing_cons_cons, byLastWriter_cons, ← ih]
      refine and_congr_left fun hinc => ?_
      rw [next, lt_view_succ_iff w.channel hinc (rest.pos hrest v List.mem_cons_self)
        (hrest v List.mem_cons_self)]
      simp [new]

end History

open History

/-- Over any run of a node whose versions do not reach the last one, the versions of the writes of
an instance increase exactly if each of its leases is created by the channel that wrote last. -/
theorem Chronicle.increasing_iff_byLastWriter (settings : Preservation.Settings) (delay : Millis)
    (now : Time) (acts : List Node.Act) (id : InstanceId)
    (hb : ∀ w ∈ writes id ((start settings delay now).run acts).events,
      w.version.toNat + 1 < UInt64.size) :
    Increasing (writes id ((start settings delay now).run acts).events) ↔
      ByLastWriter (writes id ((start settings delay now).run acts).events) :=
  (((tallies_start settings delay now).run acts).numbered id).increasing_iff hb

/-- An instance is registered and unregistered on one connection, and registered on another. -/
def registeredTwice : List Node.Act :=
  let record := Record.bare ⟨"web"⟩ "shop"
  [.connect, .connect, .message 0 (.register record), .message 0 .unregister,
    .message 1 (.register record)]

/-- Both registrations are version 1. -/
theorem versions_of_registeredTwice :
    let ws := writes ⟨"web"⟩ ((Chronicle.start .standard 90000 0).run registeredTwice).events
    ws.map (·.version) = [1, 1] ∧ (∀ w ∈ ws, w.version.toNat + 1 < UInt64.size) ∧ ¬Increasing ws := by
  unfold Increasing
  decide +kernel

/-- The second registration does not come from the channel that wrote last. -/
theorem not_byLastWriter_registeredTwice :
    let ws := writes ⟨"web"⟩ ((Chronicle.start .standard 90000 0).run registeredTwice).events
    (∀ w ∈ ws, w.version.toNat + 1 < UInt64.size) ∧ ¬ByLastWriter ws := by
  intro ws
  have hb : ∀ w ∈ ws, w.version.toNat + 1 < UInt64.size := by decide +kernel
  refine ⟨hb, fun h => ?_⟩
  have hinc := (Chronicle.increasing_iff_byLastWriter .standard 90000 0 registeredTwice ⟨"web"⟩
    hb).mpr h
  revert hinc
  unfold Increasing
  decide +kernel

end LeaseRegistry
