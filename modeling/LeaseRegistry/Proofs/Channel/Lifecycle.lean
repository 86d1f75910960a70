import LeaseRegistry.Proofs.Channel.Service

/-!
# The life of a channel

Whatever happens to a service, a channel goes from idle to registered to closed and never back. As
long as it is registered it holds a valid record of one and the same instance, the last one it
wrote, and what it writes gets ever newer versions. The gauges count the channels that are there.
-/

namespace LeaseRegistry

namespace Channel

/-! ## One channel -/

/-- A channel goes from a state to one of higher rank only. -/
def State.rank : State → Nat
  | idle => 0
  | registered => 1
  | closed => 2

/-- `c` can be `c'` at a later time: its state has not gone back, and it is not registered with
another instance. -/
structure Becomes (c c' : Channel) : Prop where
  state : c.state.rank ≤ c'.state.rank
  identity : c.state = .registered → c'.state = .registered → ∀ r, c.current = some r →
    ∃ r', c'.current = some r' ∧ r'.id = r.id

section

variable {c c' c'' : Channel} {ws : List Accepted} {written : List Record}

theorem Becomes.refl (c : Channel) : c.Becomes c :=
  ⟨Nat.le_refl _, fun _ _ r hr => ⟨r, hr, rfl⟩⟩

theorem eq_registered_of_between {s t u : State} (h : s.rank ≤ t.rank) (h' : t.rank ≤ u.rank)
    (hs : s = .registered) (hu : u = .registered) : t = .registered := by
  subst hs hu
  cases t with
  | idle => exact absurd h (by decide)
  | registered => rfl
  | closed => exact absurd h' (by decide)

theorem Becomes.trans (h : c.Becomes c') (h' : c'.Becomes c'') : c.Becomes c'' := by
  refine ⟨Nat.le_trans h.state h'.state, fun hs hs'' r hr => ?_⟩
  have hs' := eq_registered_of_between h.state h'.state hs hs''
  obtain ⟨r', hr', hid⟩ := h.identity hs hs' r hr
  obtain ⟨r'', hr'', hid'⟩ := h'.identity hs' hs'' r' hr'
  exact ⟨r'', hr'', hid'.trans hid⟩

theorem Turn.becomes (h : Turn c c' ws) : c.Becomes c' := by
  cases h with
  | kept state current version =>
    refine ⟨Nat.le_of_eq (congrArg State.rank state.symm), fun _ _ r hr => ⟨r, ?_, rfl⟩⟩
    rw [current, hr]
  | ended state current version =>
    refine ⟨?_, fun _ hs' => ?_⟩
    · rw [state]
      cases c.state <;> decide
    · rw [state] at hs'
      cases hs'
  | @wrote w origin state current version valid newer =>
    rcases origin with hidle | ⟨hregistered, previous, hprevious, hid⟩
    · refine ⟨?_, fun hs => ?_⟩
      · rw [hidle]
        exact Nat.zero_le _
      · rw [hidle] at hs
        cases hs
    · refine ⟨Nat.le_of_eq (by rw [hregistered, state]), fun _ _ r hr => ?_⟩
      rw [hprevious] at hr
      cases hr
      exact ⟨w.record, current, hid.symm⟩

/-- The channel goes by what it wrote, the latest first. -/
structure Recalls (c : Channel) (written : List Record) : Prop where
  version : c.version = (written.head?.map (·.version)).getD 0
  registered : c.state = .registered → ∃ r, c.current = some r ∧ written.head? = some r ∧ r.Valid
  idle : c.state = .idle → c.current = none

theorem Recalls.new (d : Desk) : (openOn d).1.Recalls [] :=
  ⟨rfl, nofun, fun _ => rfl⟩

theorem Recalls.turn (h : c.Recalls written) (ht : Turn c c' ws) :
    c'.Recalls ((ws.map (·.record)).reverse ++ written) := by
  cases ht with
  | kept state current version =>
    refine ⟨version.trans h.version, fun hs => ?_, fun hs => ?_⟩
    · rw [current]
      exact h.registered (state.symm.trans hs)
    · rw [current]
      exact h.idle (state.symm.trans hs)
  | ended state current version =>
    refine ⟨version.trans h.version, fun hs => ?_, fun hs => ?_⟩ <;>
      · rw [state] at hs
        cases hs
  | wrote origin state current version valid newer =>
    refine ⟨version, fun _ => ⟨_, current, rfl, valid⟩, fun hs => ?_⟩
    rw [state] at hs
    cases hs

/-- Each record is newer than those written before it, as long as the numbers do not run out. -/
def Rising (written : List Record) : Prop :=
  (∀ r ∈ written, r.version.toNat + 1 < UInt64.size) →
    written.Pairwise fun newer older => older.version < newer.version

theorem Rising.turn (h : Rising written) (hc : c.Recalls written) (ht : Turn c c' ws) :
    Rising ((ws.map (·.record)).reverse ++ written) := by
  cases ht with
  | kept => exact h
  | ended => exact h
  | @wrote w origin state current version valid newer =>
    intro hbound
    have hwritten := h fun r hr => hbound r (List.mem_append_right _ hr)
    refine List.pairwise_cons.mpr ⟨?_, hwritten⟩
    cases written with
    | nil => simp
    | cons last older =>
      have hversion : c.version = last.version := hc.version
      have hlast : last.version < w.record.version := by
        rw [← hversion]
        refine newer ?_
        rw [hversion]
        exact hbound last (List.mem_append_right _ List.mem_cons_self)
      intro r hr
      rcases List.mem_cons.mp hr with rfl | hr
      · exact hlast
      · exact UInt64.lt_trans (List.rel_of_pairwise_cons hwritten hr) hlast

end

/-! ## Gauges -/

/-- How often a channel in state `s` counts for the state `t`. -/
def State.tally (s t : State) : Nat := if s = t then 1 else 0

namespace Gauges

variable (g : Gauges) (s t u : State)

theorem count_add (n : Int64) :
    (g.add n s).count t = if s = t then g.count t + n else g.count t := by
  cases s <;> cases t <;> rfl

theorem count_enter : (g.enter s).count t = g.count t + Int64.ofNat (s.tally t) := by
  rw [enter, count_add, State.tally]
  split
  · rfl
  · exact (Int64.add_zero _).symm

theorem count_leave : (g.leave s).count t + Int64.ofNat (s.tally t) = g.count t := by
  rw [leave, count_add, State.tally]
  split
  · have hone : (-1 : Int64) + Int64.ofNat 1 = 0 := Int64.add_left_neg 1
    rw [Int64.add_assoc, hone, Int64.add_zero]
  · exact Int64.add_zero _

theorem count_move :
    (g.move s t).count u + Int64.ofNat (s.tally u) = g.count u + Int64.ofNat (t.tally u) := by
  unfold move
  split
  · rename_i h
    rw [h]
  · rw [count_enter, Int64.add_assoc, Int64.add_comm (Int64.ofNat _), ← Int64.add_assoc,
      count_leave]

end Gauges

end Channel

open Channel

namespace Service

variable {ρ : Type} {s s' : Service ρ} {i : Nat} {c : Channel}

def population (s : Service ρ) (st : State) : Nat := s.channels.countP (·.any (·.state = st))

theorem population_of_set {place : Option Channel} (h : s.channel? i = some c)
    (hs : s'.channels = s.channels.set i place) (st : State) :
    s'.population st + c.state.tally st =
      s.population st + ((place.map (·.state.tally st)).getD 0) := by
  obtain ⟨hi, hc⟩ := channel?_eq_some h
  have hold : (if (s.channels[i].any (·.state = st)) = true then 1 else 0) = c.state.tally st := by
    rw [hc, State.tally]
    simp
  have hnew : (if (place.any (·.state = st)) = true then 1 else 0) =
      (place.map (·.state.tally st)).getD 0 := by
    cases place <;> simp [State.tally]
  have hpos : c.state.tally st ≤ s.population st := by
    rw [← hold]
    split
    · exact List.countP_pos_iff.mpr ⟨_, List.getElem_mem hi, ‹_›⟩
    · exact Nat.zero_le _
  have hset := List.countP_set (p := (·.any (·.state = st))) (a := place) hi
  rw [hold, hnew, ← hs] at hset
  simp only [population] at hpos ⊢
  omega

/-- The gauges say how many channels are in each state. -/
def Counted (s : Service ρ) : Prop :=
  ∀ st, s.desk.gauges.count st = Int64.ofNat (s.population st)

theorem Counted.moved {ps : List Posting} (h : s.Counted) (hm : Moved s s' ps) : s'.Counted := by
  intro st
  cases hm with
  | aside channels gauges elsewhere =>
    rw [gauges, population, channels]
    exact h st
  | @opened c new channels gauges =>
    have hone : List.countP (·.any (·.state = st)) [some c] = State.idle.tally st := by
      rw [new]
      simp [openOn, State.tally]
    have hpopulation : s'.population st = s.population st + State.idle.tally st := by
      rw [population, channels, List.countP_append, hone]
      rfl
    rw [gauges, Gauges.count_enter, h st, hpopulation, Int64.ofNat_add]
  | @turned i c c' ws there turn channels gauges =>
    have hmove := Gauges.count_move s.desk.gauges c.state c'.state st
    have hset := congrArg Int64.ofNat (population_of_set there channels st)
    rw [← gauges, h st] at hmove
    simp only [Int64.ofNat_add, Option.map_some, Option.getD_some] at hset
    rw [← hset] at hmove
    exact (Int64.add_left_inj _).mp hmove
  | @dropped i c there channels gauges =>
    have hleave := Gauges.count_leave s.desk.gauges c.state st
    have hset := congrArg Int64.ofNat (population_of_set there channels st)
    rw [← gauges, h st] at hleave
    simp only [Int64.ofNat_add, Option.map_none, Option.getD_none] at hset
    rw [← Int64.add_zero (Int64.ofNat (s.population st))] at hleave
    exact (Int64.add_left_inj _).mp (hleave.trans hset.symm)

theorem Moved.becomes {ps : List Posting} (hm : Moved s s' ps) {i : Nat} {c' : Channel}
    (hi : i < s.channels.length) (hc' : s'.channel? i = some c') :
    ∃ c, s.channel? i = some c ∧ c.Becomes c' := by
  cases hm with
  | aside channels gauges elsewhere =>
    rw [channel?, channels] at hc'
    exact ⟨c', hc', .refl c'⟩
  | opened new channels gauges =>
    rw [channel?_of_append channels, if_neg (Nat.ne_of_lt hi)] at hc'
    exact ⟨c', hc', .refl c'⟩
  | @turned j c d ws there turn channels gauges =>
    rw [channel?_of_set there channels] at hc'
    split at hc'
    · subst j
      cases hc'
      exact ⟨c, there, turn.becomes⟩
    · exact ⟨c', hc', .refl c'⟩
  | dropped there channels gauges =>
    rw [channel?_of_set there channels] at hc'
    split at hc'
    · cases hc'
    · exact ⟨c', hc', .refl c'⟩

theorem Moved.length_le {ps : List Posting} (hm : Moved s s' ps) :
    s.channels.length ≤ s'.channels.length := by
  cases hm with
  | aside channels gauges elsewhere => exact Nat.le_of_eq (by rw [channels])
  | opened new channels gauges =>
    rw [channels, List.length_append]
    exact Nat.le_add_right _ _
  | turned there turn channels gauges => exact Nat.le_of_eq (by rw [channels, List.length_set])
  | dropped there channels gauges => exact Nat.le_of_eq (by rw [channels, List.length_set])

theorem becomes_run (h : Host ρ) (acts : List (Act ρ)) {i : Nat} {c' : Channel}
    (hi : i < s.channels.length) (hc' : (s.run h.toBackend acts).channel? i = some c') :
    ∃ c, s.channel? i = some c ∧ c.Becomes c' := by
  induction acts generalizing s with
  | nil => exact ⟨c', hc', .refl c'⟩
  | cons a acts ih =>
    have hm := moved_act h s a
    obtain ⟨c₁, hc₁, hlater⟩ := ih (Nat.lt_of_lt_of_le hi hm.length_le) hc'
    obtain ⟨c, hc, hfirst⟩ := hm.becomes hi hc₁
    exact ⟨c, hc, hfirst.trans hlater⟩

end Service

open Service

/-! ## Along a run -/

namespace Journal

variable {ρ : Type} {j : Journal ρ} {s' : Service ρ} {ps : List Posting}

structure Coherent (j : Journal ρ) : Prop where
  recalls : ∀ i c, j.service.channel? i = some c → c.Recalls (writtenBy i j.postings)
  unopened : ∀ i, j.service.channels.length ≤ i → writtenBy i j.postings = []
  rising : ∀ i, Rising (writtenBy i j.postings)
  counted : j.service.Counted

theorem coherent_start (g : ρ) (delay : Millis) (now : Time) : (start g delay now).Coherent := by
  refine ⟨fun i c hc => ?_, fun _ _ => rfl, fun _ _ => .nil, fun st => ?_⟩
  · simp [start, Service.start, channel?] at hc
  · cases st <;> rfl

/-- What the postings of an act add to the records of each channel. -/
theorem writtenBy_act (k : Nat) (ps ps' : List Posting) :
    writtenBy k (ps.reverse ++ ps') = (writtenBy k ps).reverse ++ writtenBy k ps' := by
  rw [writtenBy_append]
  simp only [writtenBy, List.filter_reverse, List.map_reverse]

theorem writtenBy_turned (i k : Nat) (ws : List Accepted) (ps : List Posting) :
    writtenBy k ((ws.map fun w => ⟨.channel i, w.record⟩).reverse ++ ps) =
      if i = k then (ws.map (·.record)).reverse ++ writtenBy k ps else writtenBy k ps := by
  rw [writtenBy_act]
  split
  · subst k
    have hown := writtenBy_own (i := i) (ws.map (·.record))
    rw [List.map_map] at hown
    exact congrArg (fun rs => rs.reverse ++ writtenBy i ps) hown
  · rw [writtenBy_of_others]
    · rfl
    · intro p hp
      obtain ⟨w, -, rfl⟩ := List.mem_map.mp hp
      simpa using ‹i ≠ k›

theorem Coherent.moved (hj : j.Coherent) (hm : Moved j.service s' ps) :
    Coherent ⟨s', ps.reverse ++ j.postings⟩ := by
  have hcounted := hj.counted.moved hm
  cases hm with
  | aside channels gauges elsewhere =>
    have hsame : ∀ i, writtenBy i (ps.reverse ++ j.postings) = writtenBy i j.postings := by
      intro i
      rw [writtenBy_act, writtenBy_of_others fun p hp => by simp [elsewhere p hp]]
      rfl
    refine ⟨fun i c hc => ?_, fun i hi => ?_, fun i => ?_, hcounted⟩
    · rw [hsame]
      rw [channel?, channels] at hc
      exact hj.recalls i c hc
    · rw [hsame]
      exact hj.unopened i (channels ▸ hi)
    · rw [hsame]
      exact hj.rising i
  | @opened c new channels gauges =>
    refine ⟨fun i c' hc' => ?_, fun i hi => ?_, hj.rising, hcounted⟩
    · rw [channel?_of_append channels] at hc'
      split at hc'
      · rename_i hi
        cases hc'
        have hnone : writtenBy i j.postings = [] := hj.unopened i (Nat.le_of_eq hi.symm)
        rw [new]
        exact hnone ▸ .new _
      · exact hj.recalls i c' hc'
    · rw [channels, List.length_append] at hi
      exact hj.unopened i (Nat.le_of_add_right_le hi)
  | @turned i c c' ws there turn channels gauges =>
    have hc := hj.recalls i c there
    obtain ⟨hi, -⟩ := channel?_eq_some there
    refine ⟨fun k ck hk => ?_, fun k hk => ?_, fun k => ?_, hcounted⟩
    · rw [channel?_of_set there channels] at hk
      rw [writtenBy_turned]
      split at hk
      · subst k
        cases hk
        rw [if_pos rfl]
        exact hc.turn turn
      · rw [if_neg ‹_›]
        exact hj.recalls k ck hk
    · rw [channels, List.length_set] at hk
      rw [writtenBy_turned, if_neg (Nat.ne_of_lt (Nat.lt_of_lt_of_le hi hk))]
      exact hj.unopened k hk
    · rw [writtenBy_turned]
      split
      · subst k
        exact (hj.rising i).turn hc turn
      · exact hj.rising k
  | @dropped i c there channels gauges =>
    refine ⟨fun k ck hk => ?_, fun k hk => ?_, hj.rising, hcounted⟩
    · rw [channel?_of_set there channels] at hk
      split at hk
      · cases hk
      · exact hj.recalls k ck hk
    · rw [channels, List.length_set] at hk
      exact hj.unopened k hk

theorem coherent_run (h : Host ρ) (g : ρ) (delay : Millis) (now : Time) (acts : List (Act ρ)) :
    ((start g delay now).run h acts).Coherent := by
  have hstart := coherent_start g delay now
  generalize start g delay now = j at hstart ⊢
  induction acts generalizing j with
  | nil => exact hstart
  | cons a acts ih => exact ih (j.act h a) (hstart.moved (moved_act h j.service a))

/-- The life of the channels of a service, from any state of the host on. -/
theorem lifecycle (h : Host ρ) (g : ρ) (delay : Millis) (now : Time) (acts : List (Act ρ)) :
    let j := (start g delay now).run h acts
    let s := j.service
    (∀ i c later c', s.channel? i = some c →
      (s.run h.toBackend later).channel? i = some c' →
        c.state.rank ≤ c'.state.rank ∧
        (c.state = .registered → c'.state = .registered →
          c'.current.map (·.id) = c.current.map (·.id))) ∧
    (∀ i c, s.channel? i = some c → c.state = .registered →
      ∃ r, c.current = some r ∧ r.version = c.version ∧ r.Valid) ∧
    (∀ i c, s.channel? i = some c → c.state = .idle → c.current = none) ∧
    (∀ i, (∀ r ∈ writtenBy i j.postings, r.version.toNat + 1 < UInt64.size) →
      (writtenBy i j.postings).Pairwise fun newer older => older.version < newer.version) ∧
    ∀ st, s.desk.gauges.count st = Int64.ofNat (s.population st) := by
  intro j s
  have hj : j.Coherent := coherent_run h g delay now acts
  have hheld : ∀ i c, s.channel? i = some c → c.state = .registered →
      ∃ r, c.current = some r ∧ r.version = c.version ∧ r.Valid := by
    intro i c hc hs
    have hrecalls := hj.recalls i c hc
    obtain ⟨r, hr, hhead, hvalid⟩ := hrecalls.registered hs
    refine ⟨r, hr, ?_, hvalid⟩
    rw [hrecalls.version, hhead]
    rfl
  refine ⟨fun i c later c' hc hc' => ?_, hheld, fun i c hc => (hj.recalls i c hc).idle,
    hj.rising, hj.counted⟩
  obtain ⟨hi, -⟩ := channel?_eq_some hc
  obtain ⟨c₀, hc₀, hbecomes⟩ := becomes_run h later hi hc'
  obtain rfl : c = c₀ := Option.some.inj (hc.symm.trans hc₀)
  refine ⟨hbecomes.state, fun hs hs' => ?_⟩
  obtain ⟨r, hr, -⟩ := hheld i c hc hs
  obtain ⟨r', hr', hid⟩ := hbecomes.identity hs hs' r hr
  rw [hr, hr', Option.map_some, Option.map_some, hid]

/-- An instance is registered and updated on one of two channels. -/
def registerAndUpdate : List (Act Registry) :=
  [.connect, .connect, .operate 0 (.message (.register (Record.bare ⟨"web"⟩ "shop"))),
    .operate 0 (.message (.update (Record.bare ⟨"web"⟩ "store")))]

/-- The channel is registered with the second record, and closed once its connection is gone. The
other one is idle. -/
theorem lifecycle_registerAndUpdate :
    let j := (start (.start .standard 0) 90000 0).run .alone registerAndUpdate
    let s := j.service
    ∃ c c' other, s.channel? 0 = some c ∧ s.channel? 1 = some other ∧
      (s.run .alone [.disconnect 0]).channel? 0 = some c' ∧
      c.state = .registered ∧ c'.state = .closed ∧ c.state.rank ≤ c'.state.rank ∧
      (∃ r, c.current = some r ∧ r.version = c.version ∧ r.Valid) ∧
      other.state = .idle ∧ other.current = none ∧
      ((writtenBy 0 j.postings).map (·.version) = [2, 1] ∧
        (writtenBy 0 j.postings).Pairwise fun newer older => older.version < newer.version) ∧
      s.population .registered = 1 ∧ s.desk.gauges.count .registered = 1 := by
  intro j s
  obtain ⟨hbecomes, hheld, hidle, hrising, hcounted⟩ :=
    lifecycle .alone (.start .standard 0) 90000 0 registerAndUpdate
  have hpopulation : s.population .registered = 1 := by decide +kernel
  refine ⟨_, _, _, rfl, rfl, rfl, rfl, rfl, (hbecomes 0 _ [.disconnect 0] _ rfl rfl).1,
    hheld 0 _ rfl rfl, rfl, hidle 1 _ rfl rfl, ⟨by decide +kernel, hrising 0 ?_⟩, hpopulation, ?_⟩
  · decide +kernel
  · exact (hcounted .registered).trans (congrArg Int64.ofNat hpopulation)

end Journal

end LeaseRegistry
