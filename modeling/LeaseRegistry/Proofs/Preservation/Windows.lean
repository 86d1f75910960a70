import LeaseRegistry.Preservation
import Mathlib.Algebra.BigOperators.Group.Finset.Piecewise
import Mathlib.Data.Bool.AllAny

/-!
# Renewals in windows

Only the open window and the latest closed one are kept. A renewal counts in its own window, or in
the open one if it comes late, so that it counts in the latest window of all renewals up to it
(`openWindow`). The two windows that are kept say how many renewals count in the last complete one
(`renewals_countedOnce`): they are the open one and the latest closed one that any renewal counts
in, and in between there are none (`Tracks`).
-/

namespace LeaseRegistry.Preservation

/-! ## The windows that renewals count in -/

/-- The window that is open after renewals in the windows `ws`: the latest of them. -/
def openWindow (ws : List Nat) : Nat := ws.foldl max 0

/-- How many renewals count in window `k` if they fall in the windows `ws`, one after the other:
each counts in the window that is open then. -/
def countedIn (ws : List Nat) (k : Nat) : Nat :=
  (List.range ws.length).countP fun i => decide (openWindow (ws.take (i + 1)) = k)

variable {ws : List Nat} {w k : Nat}

theorem openWindow_concat (ws : List Nat) (w : Nat) :
    openWindow (ws ++ [w]) = max (openWindow ws) w := by
  rw [openWindow, List.foldl_append]
  rfl

theorem le_openWindow (h : w ∈ ws) : w ≤ openWindow ws := by
  induction ws using List.reverseRecOn with
  | nil => cases h
  | append_singleton ws v ih =>
    rw [openWindow_concat]
    rcases List.mem_append.mp h with h | h
    · have := ih h
      omega
    · have := List.mem_singleton.mp h
      omega

theorem openWindow_le (h : ∀ w ∈ ws, w ≤ k) : openWindow ws ≤ k := by
  induction ws using List.reverseRecOn with
  | nil => exact Nat.zero_le k
  | append_singleton ws v ih =>
    rw [openWindow_concat]
    have hws := ih fun w hw => h w (List.mem_append_left _ hw)
    have hv := h v (List.mem_append_right _ (List.mem_singleton_self v))
    omega

theorem countedIn_concat (ws : List Nat) (w k : Nat) :
    countedIn (ws ++ [w]) k =
      countedIn ws k + if max (openWindow ws) w = k then 1 else 0 := by
  have hbefore : (List.range ws.length).countP
        (fun i => decide (openWindow ((ws ++ [w]).take (i + 1)) = k)) = countedIn ws k := by
    refine List.countP_congr fun i hi => ?_
    have hlt : i + 1 ≤ ws.length := List.mem_range.mp hi
    rw [List.take_append_of_le_length hlt]
  have hlast : (ws ++ [w]).take (ws.length + 1) = ws ++ [w] :=
    List.take_of_length_le (by simp)
  rw [countedIn, List.length_append, List.length_singleton, List.range_succ, List.countP_append,
    hbefore, List.countP_singleton, hlast, openWindow_concat]
  simp only [decide_eq_true_eq]

theorem countedIn_le_length (ws : List Nat) (k : Nat) : countedIn ws k ≤ ws.length := by
  have h := List.countP_le_length (p := fun i => decide (openWindow (ws.take (i + 1)) = k))
    (l := List.range ws.length)
  rwa [List.length_range] at h

/-- No renewal counts in a window that is still to come. -/
theorem countedIn_of_lt (h : openWindow ws < k) : countedIn ws k = 0 := by
  induction ws using List.reverseRecOn with
  | nil => rfl
  | append_singleton ws w ih =>
    rw [openWindow_concat] at h
    rw [countedIn_concat, ih (by omega), if_neg (by omega)]

theorem openWindow_mem (h : ws ≠ []) : openWindow ws ∈ ws := by
  induction ws using List.reverseRecOn with
  | nil => exact absurd rfl h
  | append_singleton ws w ih =>
    rw [openWindow_concat]
    by_cases hlate : w ≤ openWindow ws
    · rw [Nat.max_eq_left hlate]
      cases ws with
      | nil => exact List.mem_singleton.mpr (Nat.le_zero.mp hlate).symm
      | cons v ws => exact List.mem_append_left _ (ih nofun)
    · rw [Nat.max_eq_right (by omega)]
      exact List.mem_append_right _ (List.mem_singleton_self w)

/-- Nor in one that no renewal falls in. -/
theorem countedIn_of_notMem (h : k ∉ ws) : countedIn ws k = 0 := by
  induction ws using List.reverseRecOn with
  | nil => rfl
  | append_singleton ws w ih =>
    have hmem : max (openWindow ws) w ∈ ws ++ [w] := by
      rw [← openWindow_concat]
      exact openWindow_mem (by simp)
    rw [countedIn_concat, ih fun hk => h (List.mem_append_left _ hk),
      if_neg fun he : max (openWindow ws) w = k => h (he ▸ hmem)]

/-- A window that is no longer open is never counted in again. -/
theorem countedIn_append_of_lt (h : k < openWindow ws) (more : List Nat) :
    countedIn (ws ++ more) k = countedIn ws k := by
  induction more using List.reverseRecOn with
  | nil => rw [List.append_nil]
  | append_singleton more w ih =>
    have hle : openWindow ws ≤ openWindow (ws ++ more) :=
      openWindow_le fun v hv => le_openWindow (List.mem_append_left _ hv)
    rw [← List.append_assoc, countedIn_concat, ih, if_neg (by omega),
      Nat.add_zero]

open Finset in
/-- Every renewal counts in one window. -/
theorem sum_countedIn {n : Nat} (h : openWindow ws < n) :
    ∑ k ∈ range n, countedIn ws k = ws.length := by
  induction ws using List.reverseRecOn with
  | nil => exact sum_const_zero
  | append_singleton ws w ih =>
    rw [openWindow_concat] at h
    have hopen : max (openWindow ws) w ∈ range n := mem_range.mpr h
    simp only [countedIn_concat, sum_add_distrib, sum_ite_eq, if_pos hopen, ih (by omega),
      List.length_append, List.length_singleton]

/-! ## The windows that are kept -/

def recordAll (p : Preservation) (times : List Time) : Preservation := times.foldl record p

theorem windowIndex_record (p : Preservation) (t : Time) :
    (p.record t).windowIndex = p.windowIndex := by
  unfold record
  split <;> rfl

theorem windowIndex_recordAll (p : Preservation) (times : List Time) :
    (p.recordAll times).windowIndex = p.windowIndex := by
  induction times generalizing p with
  | nil => rfl
  | cons t times ih => exact (ih _).trans (windowIndex_record p t)

theorem windowIndex_mono (p : Preservation) {t now : Time} (h : t ≤ now) :
    p.windowIndex t ≤ p.windowIndex now := by
  have hsince : (p.startedAt.since t).toNat ≤ (p.startedAt.since now).toNat := by
    rw [UInt64.le_iff_toNat_le] at h
    unfold Time.since
    split
    · rename_i hstart
      have hlater := UInt64.le_iff_toNat_le.mp hstart
      rw [if_pos (UInt64.le_iff_toNat_le.mpr (hlater.trans h)), UInt64.toNat_sub_of_le _ _ hstart,
        UInt64.toNat_sub_of_le _ _ (UInt64.le_iff_toNat_le.mpr (hlater.trans h))]
      omega
    · exact Nat.zero_le _
  rw [windowIndex, windowIndex, UInt64.toNat_div, UInt64.toNat_div]
  exact Nat.div_le_div_right hsince

/-- The counters of `p` tell of renewals that fell in the windows `ws`: the open window with its
renewals and, once it is not the first one that is counted in, the one before it that is. -/
structure Tracks (p : Preservation) (ws : List Nat) : Prop where
  index : p.current.index = openWindow ws
  count : p.current.count = countedIn ws p.current.index
  closed : p.previous.index < p.current.index ∧
      p.previous.count = countedIn ws p.previous.index ∨
    p.previous = ⟨0, 0⟩ ∧ p.current.index = 0
  between : ∀ k, p.previous.index < k → k < p.current.index → countedIn ws k = 0

theorem tracks_start (settings : Settings) (now : Time) : Tracks (start settings now) [] where
  index := rfl
  count := rfl
  closed := .inr ⟨rfl, rfl⟩
  between := fun k _ hk => absurd hk (Nat.not_lt_zero k)

/-- The open window is closed when a renewal falls in a later one. -/
theorem Tracks.latest {p : Preservation} (h : Tracks p ws) :
    p.previous.latest p.current = p.current := by
  unfold Window.latest
  rcases h.closed with ⟨hlt, -⟩ | ⟨hprevious, hzero⟩
  · exact if_pos (.inl hlt)
  · rw [hprevious, hzero]
    exact if_pos (.inr ⟨rfl, Nat.zero_le _⟩)

theorem Window.make_of_le {index count : Nat} (hi : index ≤ limit) (hc : count ≤ limit) :
    make index count = ⟨index, count⟩ := by
  rw [make, Nat.min_eq_left hi, Nat.min_eq_left hc]

theorem Tracks.record {p : Preservation} (h : Tracks p ws) {t : Time}
    (hindex : p.windowIndex t ≤ Window.limit) (hopen : openWindow ws ≤ Window.limit)
    (hlength : ws.length + 1 ≤ Window.limit) :
    Tracks (p.record t) (ws ++ [p.windowIndex t]) := by
  have hadded := countedIn_concat ws (p.windowIndex t)
  have hnext := openWindow_concat ws (p.windowIndex t)
  have hi := h.index
  by_cases hlater : p.current.index < p.windowIndex t
  · -- the open window is closed, and the renewal is the first one in its own
    have hmax : max (openWindow ws) (p.windowIndex t) = p.windowIndex t := by omega
    simp only [hmax] at hadded hnext
    rw [Preservation.record, if_pos hlater, Window.make_of_le hindex (by decide), h.latest]
    refine ⟨hnext.symm, ?_, .inl ⟨hlater, ?_⟩, fun k hk hlt => ?_⟩
    · show 1 = countedIn _ (p.windowIndex t)
      rw [hadded, countedIn_of_lt (hi ▸ hlater), if_pos rfl]
    · show p.current.count = countedIn _ p.current.index
      rw [hadded, if_neg (Nat.ne_of_gt hlater), Nat.add_zero, h.count]
    · rw [hadded, countedIn_of_lt (hi ▸ hk), if_neg (Nat.ne_of_gt hlt)]
  · -- the renewal counts in the open window, and nothing else changes
    have hmax : max (openWindow ws) (p.windowIndex t) = p.current.index := by omega
    have hcount := countedIn_le_length ws p.current.index
    have hc := h.count
    simp only [hmax] at hadded hnext
    rw [Preservation.record, if_neg hlater, Window.make_of_le (by omega) (by omega)]
    refine ⟨hnext.symm, ?_, ?_, fun k hk hlt => ?_⟩
    · show p.current.count + 1 = countedIn _ p.current.index
      rw [hadded, if_pos rfl, h.count]
    · refine h.closed.imp_left fun ⟨hlt, hclosed⟩ => ⟨hlt, ?_⟩
      show p.previous.count = countedIn _ p.previous.index
      rw [hadded, if_neg (Nat.ne_of_gt hlt), Nat.add_zero, hclosed]
    · rw [hadded, if_neg (Nat.ne_of_gt hlt), Nat.add_zero, h.between k hk hlt]

theorem tracks_recordAll {p : Preservation} (times : List Time)
    (hindex : ∀ t ∈ times, p.windowIndex t ≤ Window.limit) (hlength : times.length ≤ Window.limit)
    (h : Tracks p []) : Tracks (p.recordAll times) (times.map p.windowIndex) := by
  induction times using List.reverseRecOn with
  | nil => exact h
  | append_singleton times t ih =>
    have hbefore := fun u hu => hindex u (List.mem_append_left _ hu)
    have ht := hindex t (List.mem_append_right _ (List.mem_singleton_self t))
    rw [List.length_append, List.length_singleton] at hlength
    have htracks := ih hbefore (by omega)
    have hopen : openWindow (times.map p.windowIndex) ≤ Window.limit := by
      refine openWindow_le fun w hw => ?_
      obtain ⟨u, hu, rfl⟩ := List.mem_map.mp hw
      exact hbefore u hu
    rw [recordAll, List.foldl_append, List.map_append]
    have hstep := htracks.record (t := t) (by rwa [windowIndex_recordAll]) hopen
      (by rwa [List.length_map])
    rwa [windowIndex_recordAll] at hstep

theorem Tracks.countIn {p : Preservation} (h : Tracks p ws) (hk : openWindow ws ≤ k + 1) :
    p.countIn k = countedIn ws k := by
  have hi := h.index
  unfold Preservation.countIn
  split
  · rename_i hcurrent
    rw [h.count, hcurrent]
  · split
    · rename_i hcurrent hprevious
      rcases h.closed with ⟨-, hclosed⟩ | ⟨hzero, hfirst⟩
      · rw [hclosed, hprevious]
      · rw [hzero] at hprevious
        exact absurd (hfirst.trans hprevious) hcurrent
    · rename_i hcurrent hprevious
      rcases Nat.lt_or_ge p.current.index k with hlt | hge
      · exact (countedIn_of_lt (hi ▸ hlt)).symm
      · refine (h.between k ?_ (by omega)).symm
        rcases h.closed with ⟨hlt, -⟩ | ⟨hzero, hfirst⟩
        · omega
        · omega

/-- Renewals at `times` are counted once each: the count of the last complete window at a time when
they are all over is the number of those that count in it, each counting in the latest window of all
renewals up to it. None is left out or counted twice, none is added to a window that is not open any
more, and a window that no renewal falls in has none. -/
theorem renewals_countedOnce {settings : Settings} {startedAt : Time} {times : List Time}
    (hindex : ∀ t ∈ times, (start settings startedAt).windowIndex t < UInt32.size)
    (hlength : times.length < UInt32.size) :
    let p := (start settings startedAt).recordAll times
    let ws := times.map p.windowIndex
    (∀ now, (∀ t ∈ times, t ≤ now) →
      (p.windowIndex now = 0 → p.lastCount now = 0) ∧
      (∀ k, p.windowIndex now = k + 1 → p.lastCount now = countedIn ws k) ∧
      (∀ k, p.windowIndex now = k + 1 → k ∉ ws → p.lastCount now = 0) ∧
      p.observed now = (p.lastCount now).toUInt64.toFloat * 60000 / p.windowLength.toFloat) ∧
    ∑ k ∈ Finset.range (openWindow ws + 1), countedIn ws k = times.length ∧
    ∀ k < openWindow ws, ∀ more, countedIn (ws ++ more) k = countedIn ws k := by
  intro p ws
  have hws : ws = times.map (start settings startedAt).windowIndex := by
    simp only [ws, p, windowIndex_recordAll]
  have htracks : Tracks p ws := by
    rw [hws]
    exact tracks_recordAll times (fun t ht => Nat.le_pred_of_lt (hindex t ht))
      (Nat.le_pred_of_lt hlength) (tracks_start settings startedAt)
  have hlast (now : Time) (hnow : ∀ t ∈ times, t ≤ now) (k : Nat)
      (hk : p.windowIndex now = k + 1) : p.lastCount now = countedIn ws k := by
    have hopen : openWindow ws ≤ k + 1 := by
      refine openWindow_le fun w hw => ?_
      obtain ⟨t, ht, rfl⟩ := List.mem_map.mp hw
      exact hk ▸ p.windowIndex_mono (hnow t ht)
    rw [lastCount, hk]
    exact htracks.countIn hopen
  refine ⟨fun now hnow => ⟨fun hzero => ?_, hlast now hnow, fun k hk hidle => ?_, rfl⟩, ?_,
    fun k hk more => countedIn_append_of_lt hk more⟩
  · rw [lastCount, hzero]
  · rw [hlast now hnow k hk, countedIn_of_notMem hidle]
  · rw [sum_countedIn (Nat.lt_succ_self _), List.length_map]

/-- Of four renewals, one comes late, for a window that is closed by then, and one after two idle
windows. -/
theorem renewals_countedOnce_late :
    let times : List Time := [1000, 61000, 59000, 250000]
    let p := (start .standard 0).recordAll times
    (∀ t ∈ times, (start .standard 0).windowIndex t < UInt32.size) ∧ times.length < UInt32.size ∧
    (∀ t ∈ times, t ≤ 300000) ∧ p.windowIndex 300000 = 4 + 1 ∧
    p.lastCount 300000 = 1 ∧ countedIn (times.map p.windowIndex) 1 = 2 := by
  intro times p
  have hindex : ∀ t ∈ times, (start .standard 0).windowIndex t < UInt32.size :=
    List.all_iff_forall_prop.mp (by decide)
  have hlength : times.length < UInt32.size := by decide
  have hnow : ∀ t ∈ times, t ≤ 300000 := List.all_iff_forall_prop.mp (by decide)
  have hlast := ((renewals_countedOnce hindex hlength).1 300000 hnow).2.1 4 (by decide)
  have hcount : countedIn (times.map p.windowIndex) 4 = 1 := by decide
  exact ⟨hindex, hlength, hnow, by decide, hlast.trans hcount, by decide⟩

end LeaseRegistry.Preservation
