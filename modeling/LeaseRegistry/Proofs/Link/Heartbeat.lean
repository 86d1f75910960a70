import LeaseRegistry.Link.Heartbeat
import LeaseRegistry.Proofs.Data.List

/-!
# Heartbeats over a history

A monitor hears of frames and ticks, and keeps one flag and one counter of them. A history is cut at
its ticks into intervals: the flag says whether a frame came in the open one, and the counter, which
has 32 bits, how many of those that are over had none, from the last one back (`Tracks`). Every step
keeps this (`Tracks.step`), so every run does, and the verdict of a tick is one about the last
intervals (`dead_iff_silent`).
-/

namespace LeaseRegistry

namespace HeartbeatMonitor

/-! ## Histories -/

inductive Event where
  | frame
  | tick
  deriving DecidableEq, Repr

def step (m : HeartbeatMonitor) : Event → HeartbeatMonitor
  | .frame => m.onFrame
  | .tick => m.onTick.2

def run (m : HeartbeatMonitor) (history : List Event) : HeartbeatMonitor := history.foldl step m

def ticks (history : List Event) : Nat := history.count .tick

/-- The intervals that are over: each is what came from the tick before it, or from the start, up to
its own tick. -/
def intervals (history : List Event) : List (List Event) := (history.splitOn .tick).dropLast

def openInterval (history : List Event) : List Event :=
  (history.splitOn .tick).getLast (List.splitOn_ne_nil _ _)

/-- How many intervals, from the last one back, are without a frame. -/
def silentRun (is : List (List Event)) : Nat := (is.rtakeWhile (Event.frame ∉ ·)).length

variable {history : List Event}

theorem splitOn_tick (history : List Event) :
    history.splitOn .tick = intervals history ++ [openInterval history] :=
  (List.dropLast_concat_getLast _).symm

theorem cut_of_splitOn {is : List (List Event)} {i : List Event}
    (h : history.splitOn .tick = is ++ [i]) :
    intervals history = is ∧ openInterval history = i := by
  constructor
  · rw [intervals, h, List.dropLast_concat]
  · simp only [openInterval, h, List.getLast_concat]

theorem cut_frame (history : List Event) :
    intervals (history ++ [.frame]) = intervals history ∧
      openInterval (history ++ [.frame]) = openInterval history ++ [.frame] :=
  cut_of_splitOn (splitOn_concat_of_ne (by decide) (splitOn_tick history))

theorem cut_tick (history : List Event) :
    intervals (history ++ [.tick]) = intervals history ++ [openInterval history] ∧
      openInterval (history ++ [.tick]) = [] := by
  refine cut_of_splitOn ?_
  rw [List.splitOn_append_cons_self, splitOn_tick]
  rfl

theorem length_intervals (history : List Event) :
    (intervals history).length = ticks history := by
  rw [intervals, List.length_dropLast, length_splitOn]
  rfl

theorem silentRun_le (is : List (List Event)) : silentRun is ≤ is.length :=
  (List.rtakeWhile_suffix _ _).length_le

theorem silentRun_concat (is : List (List Event)) (i : List Event) :
    silentRun (is ++ [i]) = if .frame ∈ i then 0 else silentRun is + 1 := by
  unfold silentRun
  rw [List.rtakeWhile_concat]
  by_cases hi : Event.frame ∈ i <;> simp [hi]

/-! ## What a monitor keeps of its history -/

/-- The flag and the counter of `m` tell of the intervals of the history. -/
structure Tracks (m : HeartbeatMonitor) (history : List Event) : Prop where
  misses : m.misses = .ofNat (silentRun (intervals history))
  heard : m.heard = decide (.frame ∈ openInterval history)

theorem tracks_start (interval : Millis) (maxMisses : UInt32) :
    Tracks (start interval maxMisses) [] where
  misses := rfl
  heard := rfl

theorem Tracks.step {m : HeartbeatMonitor} (h : Tracks m history) (e : Event) :
    Tracks (m.step e) (history ++ [e]) := by
  cases e with
  | frame =>
    obtain ⟨his, hopen⟩ := cut_frame history
    constructor
    · rw [his]
      exact h.misses
    · rw [hopen]
      show true = _
      simp
  | tick =>
    obtain ⟨his, hopen⟩ := cut_tick history
    constructor
    · rw [his, silentRun_concat]
      show (if m.heard then 0 else m.misses + 1) = _
      by_cases hframe : Event.frame ∈ openInterval history
      · simp [h.heard, hframe]
      · simp [h.heard, hframe, h.misses]
    · rw [hopen]
      rfl

theorem maxMisses_step (m : HeartbeatMonitor) (e : Event) : (m.step e).maxMisses = m.maxMisses := by
  cases e <;> rfl

theorem run_concat (m : HeartbeatMonitor) (history : List Event) (e : Event) :
    m.run (history ++ [e]) = (m.run history).step e := List.foldl_concat ..

theorem tracks_run (interval : Millis) (maxMisses : UInt32) (history : List Event) :
    Tracks ((start interval maxMisses).run history) history := by
  induction history using List.reverseRecOn with
  | nil => exact tracks_start interval maxMisses
  | append_singleton history e ih =>
    rw [run_concat]
    exact ih.step e

theorem maxMisses_run (m : HeartbeatMonitor) (history : List Event) :
    (m.run history).maxMisses = m.maxMisses := by
  induction history using List.reverseRecOn with
  | nil => rfl
  | append_singleton history e ih => rw [run_concat, maxMisses_step, ih]

theorem onTick_dead_iff (m : HeartbeatMonitor) :
    m.onTick.1 = .dead ↔ m.maxMisses ≤ m.onTick.2.misses := by
  unfold onTick
  simp

/-- The tick that ends a history with fewer than 2 ^ 32 ticks finds the connection dead exactly if
there were at least `maxMisses` ticks and no frame came in the last `maxMisses` intervals, and
`misses` is then the number of silent intervals in a row up to this tick. -/
theorem dead_iff_silent (interval : Millis) (maxMisses : UInt32) (before : List Event)
    (hticks : ticks (before ++ [.tick]) < UInt32.size) :
    let history := before ++ [.tick]
    (((start interval maxMisses).run before).onTick.1 = .dead ↔
      maxMisses.toNat ≤ ticks history ∧
        ∀ i ∈ (intervals history).rtake maxMisses.toNat, .frame ∉ i) ∧
    ((start interval maxMisses).run history).misses.toNat = silentRun (intervals history) := by
  intro history
  have hfits : silentRun (intervals history) < UInt32.size :=
    calc silentRun (intervals history)
      _ ≤ (intervals history).length := silentRun_le _
      _ = ticks history := length_intervals history
      _ < UInt32.size := hticks
  have hmisses : ((start interval maxMisses).run history).misses.toNat =
      silentRun (intervals history) := by
    rw [(tracks_run interval maxMisses history).misses, UInt32.toNat_ofNat_of_lt' hfits]
  refine ⟨?_, hmisses⟩
  have hmax : ((start interval maxMisses).run before).maxMisses = maxMisses := maxMisses_run ..
  have hlast : ((start interval maxMisses).run before).onTick.2 =
      (start interval maxMisses).run history :=
    (run_concat _ before .tick).symm
  rw [onTick_dead_iff, UInt32.le_iff_toNat_le, hmax, hlast, hmisses, silentRun,
    le_length_rtakeWhile_iff, length_intervals]
  simp only [decide_eq_true_eq]

/-- After a frame, two silent intervals count no more; three in a row are the end. -/
theorem dead_iff_silent_afterFrame :
    let quiet : List Event := [.tick, .tick, .frame]
    let silent : List Event := [.tick, .tick, .frame, .tick, .tick, .tick]
    ticks (quiet ++ [.tick]) < UInt32.size ∧ ticks (silent ++ [.tick]) < UInt32.size ∧
    ((start 30000 3).run quiet).onTick.1 ≠ .dead ∧
    ((start 30000 3).run silent).onTick.1 = .dead ∧
    ((start 30000 3).run (silent ++ [.tick])).misses.toNat = 3 := by
  intro quiet silent
  have hquiet : ticks (quiet ++ [.tick]) < UInt32.size := by decide
  have hsilent : ticks (silent ++ [.tick]) < UInt32.size := by decide
  obtain ⟨halive, -⟩ := dead_iff_silent 30000 3 quiet hquiet
  obtain ⟨hdead, hmisses⟩ := dead_iff_silent 30000 3 silent hsilent
  have hframe : ¬∀ i ∈ (intervals (quiet ++ [.tick])).rtake 3, .frame ∉ i := by decide
  exact ⟨hquiet, hsilent, fun h => hframe (halive.mp h).2, hdead.mpr ⟨by decide, by decide⟩,
    hmisses.trans (by decide)⟩

end HeartbeatMonitor

end LeaseRegistry
