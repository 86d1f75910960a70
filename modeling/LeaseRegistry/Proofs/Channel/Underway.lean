import LeaseRegistry.Proofs.Channel.Service

/-!
# Operations under way

A `Busy` service also has operations that are under way. They make one indivisible step at a time,
and anything may come between two steps: whole operations, steps of other operations, of the same
channel too, and whatever else can happen to a service. Also the answer of the registry may take its
time. In every state that is reached so, what a channel holds is valid (`Busy.sound_run`).
-/

namespace LeaseRegistry

open Channel

namespace Channel

/-- Where an operation that is under way is. -/
inductive Stage where
  | next (p : Phase)
  | answered (call : Call) (a : Answer)

def Stage.proceed {ρ : Type} (b : Backend ρ) (now : Time) (c : Channel) (d : Desk) (g : ρ) :
    Stage → Stage × Channel × Desk × ρ
  | .next (.calling call) =>
    let (a, g) := b.handle g now call.request
    (.answered call a, c, d, g)
  | .answered call a =>
    let (p, c, d) := c.answered call a (b.stored g) now d
    (.next p, c, d, g)
  | .next p =>
    let (p, c, d) := advance now c d p
    (.next p, c, d, g)

/-! ## What a channel holds -/

def HoldsValid (c : Channel) : Prop := ∀ r, c.current = some r → r.Valid

def Call.record? : Call → Option Record
  | .register record | .update record _ | .revive record => some record
  | .unregister _ _ | .renew _ => none

/-- A record that the registry took is valid. -/
def Phase.Sound : Phase → Prop
  | .taken call => ∀ r, call.record? = some r → r.Valid
  | .noted record => record.Valid
  | _ => True

/-- A record that the registry took, or whose acceptance is on its way, is valid. -/
def Stage.Sound : Stage → Prop
  | .next p => p.Sound
  | .answered call a =>
    ∀ r, call.record? = some r → ∀ what, rejection? what r a = none → r.Valid

variable {c c' : Channel} {d : Desk} {now : Time} {ws : List Accepted}

theorem Turn.holdsValid (h : Turn c c' ws) (hc : c.HoldsValid) : c'.HoldsValid := by
  cases h with
  | kept state current version => exact fun r hr => hc r (current ▸ hr)
  | ended state current version =>
    rcases current with hcurrent | hcurrent
    · exact fun r hr => hc r (hcurrent ▸ hr)
    · exact fun r hr => by rw [hcurrent] at hr; cases hr
  | wrote origin state current version valid newer =>
    intro r hr
    rw [current] at hr
    cases hr
    exact valid

theorem sound_begin (m : ClientMessage) (stored : InstanceId → Option Version) (c : Channel)
    (d : Desk) : (c.begin m stored d).1.Sound ∧ (c.begin m stored d).2.1.current = c.current := by
  cases m with
  | register record =>
    simp only [begin]
    cases hs : c.state <;> exact ⟨trivial, rfl⟩
  | update record =>
    simp only [begin]
    cases hr : c.registered? with
    | error e => exact ⟨trivial, rfl⟩
    | ok previous =>
      simp only
      split <;> exact ⟨trivial, rfl⟩
  | unregister =>
    simp only [begin]
    cases hr : c.registered? <;> exact ⟨trivial, rfl⟩
  | heartbeat =>
    simp only [begin]
    cases hr : c.registered? <;> exact ⟨trivial, rfl⟩

theorem current_giveUp (c : Channel) (d : Desk) : (c.giveUp d).1.current = c.current := by
  unfold giveUp
  split <;> rfl

theorem sound_answered {call : Call} {a : Answer} (stored : InstanceId → Option Version)
    (now : Time) (c : Channel) (d : Desk) (h : (Stage.answered call a).Sound) :
    (c.answered call a stored now d).1.Sound ∧
      (c.answered call a stored now d).2.1.current = c.current := by
  cases call with
  | register record =>
    cases hr : rejection? "registration" record a with
    | some e =>
      rw [answered_register_rejected hr]
      exact ⟨trivial, current_giveUp c d⟩
    | none =>
      rw [answered_register hr]
      exact ⟨fun r hrecord => h r hrecord _ (Option.some.inj hrecord ▸ hr), rfl⟩
  | update record deltas =>
    cases hr : rejection? "update" record a with
    | some e =>
      rw [answered_update_rejected hr]
      exact ⟨trivial, rfl⟩
    | none =>
      rw [answered_update hr]
      exact ⟨fun r hrecord => h r hrecord _ (Option.some.inj hrecord ▸ hr), rfl⟩
  | unregister record version =>
    cases a with
    | failed e => exact ⟨trivial, rfl⟩
    | changed change => exact ⟨fun r hrecord => (by cases hrecord), rfl⟩
    | renewed found => exact ⟨fun r hrecord => (by cases hrecord), rfl⟩
  | renew record =>
    cases a with
    | renewed found => cases found <;> exact ⟨trivial, rfl⟩
    | changed change => exact ⟨trivial, rfl⟩
    | failed e => exact ⟨trivial, rfl⟩
  | revive record =>
    cases a with
    | failed e => exact ⟨trivial, rfl⟩
    | renewed found => exact ⟨fun r hrecord => h r hrecord "" rfl, rfl⟩
    | changed change =>
      cases change with
      | superseded => exact ⟨trivial, rfl⟩
      | added => exact ⟨fun r hrecord => h r hrecord "" rfl, rfl⟩
      | modified => exact ⟨fun r hrecord => h r hrecord "" rfl, rfl⟩
      | removed => exact ⟨fun r hrecord => h r hrecord "" rfl, rfl⟩

theorem sound_advance {p : Phase} (hp : p.Sound) (hc : c.HoldsValid) :
    (advance now c d p).1.Sound ∧ (advance now c d p).2.1.HoldsValid := by
  have hnote : ∀ {r : Record}, r.Valid → (c.note r).HoldsValid := by
    intro r hr r' hr'
    cases hr'
    exact hr
  cases p with
  | calling call => exact ⟨trivial, hc⟩
  | taken call =>
    cases call with
    | register record => exact ⟨hp record rfl, hnote (hp record rfl)⟩
    | update record deltas => exact ⟨trivial, hnote (hp record rfl)⟩
    | unregister record version => exact ⟨trivial, nofun⟩
    | renew record => exact ⟨trivial, hc⟩
    | revive record => exact ⟨trivial, hnote (hp record rfl)⟩
  | noted record =>
    simp only [advance]
    split <;> exact ⟨trivial, hc⟩
  | replying reply result =>
    cases reply with
    | none => exact ⟨trivial, hc⟩
    | some m => exact ⟨trivial, fun r hr => hc r ((core_reply c m).2.1 ▸ hr)⟩
  | finished result => exact ⟨trivial, hc⟩

/-- A host takes valid records only. -/
theorem Host.sound_handle {ρ : Type} (h : Host ρ) (g : ρ) (now : Time) (call : Call) :
    (Stage.answered call (h.handle g now call.request).1).Sound := by
  obtain ⟨a, g', asked⟩ : ∃ a g', h.handle g now call.request = (a, g') := ⟨_, _, rfl⟩
  rw [asked]
  intro record hrecord what hr
  have hw : call.request.isWrite = true := by
    cases call <;> first | rfl | cases hrecord
  obtain ⟨time, htime⟩ := h.handle_eq asked
  obtain ⟨w, hw, hvalid, -⟩ :=
    Registry.accepted_of_applied hw htime (Host.applied_of_not_rejected asked hw hr)
  have hsame : w.record = record := by
    cases call with
    | register record' => exact (record_of_accepted hw).trans (Option.some.inj hrecord)
    | update record' deltas => exact (record_of_accepted_update hw).trans (Option.some.inj hrecord)
    | revive record' => exact (record_of_accepted hw).trans (Option.some.inj hrecord)
    | unregister record' version => cases hrecord
    | renew record' => cases hrecord
  exact hsame ▸ hvalid

theorem sound_proceed {ρ : Type} (h : Host ρ) {stage : Stage} (hs : stage.Sound)
    (hc : c.HoldsValid) (now : Time) (d : Desk) (g : ρ) :
    (stage.proceed h.toBackend now c d g).1.Sound ∧
      (stage.proceed h.toBackend now c d g).2.1.HoldsValid := by
  cases stage with
  | answered call a =>
    obtain ⟨hsound, hcurrent⟩ := sound_answered (h.stored g) now c d hs
    exact ⟨hsound, fun r hr => hc r (hcurrent ▸ hr)⟩
  | next p =>
    cases p with
    | calling call => exact ⟨h.sound_handle g now call, hc⟩
    | taken call => exact sound_advance (p := .taken call) hs hc
    | noted record => exact sound_advance (p := .noted record) hs hc
    | replying reply result => exact sound_advance (p := .replying reply result) hs hc
    | finished result => exact ⟨trivial, hc⟩

end Channel

/-! ## Busy services -/

structure Busy (ρ : Type) where
  service : Service ρ
  /-- The operations that have begun, each with its channel. -/
  underway : List (Nat × Stage)

namespace Busy

variable {ρ : Type}

inductive Act (ρ : Type) where
  | whole (a : Service.Act ρ)
  | begin (channel : Nat) (m : ClientMessage)
  /-- An operation makes its next step. If its channel was dropped, it makes none. -/
  | proceed (n : Nat)

def start (g : ρ) (delay : Millis) (now : Time) : Busy ρ := ⟨.start g delay now, []⟩

def put (s : Service ρ) (i : Nat) (c : Channel) (desk : Desk) (host : ρ) : Service ρ :=
  { s with host, desk, channels := s.channels.set i (some c) }

def act (b : Backend ρ) (s : Busy ρ) : Act ρ → Busy ρ
  | .whole a => { s with service := s.service.act b a }
  | .begin i m =>
    match s.service.channel? i with
    | none => s
    | some c =>
      let (p, c, d) := c.begin m (b.stored s.service.host) s.service.desk
      ⟨put s.service i c d s.service.host, s.underway ++ [(i, .next p)]⟩
  | .proceed n =>
    match s.underway[n]? with
    | none => s
    | some (i, stage) =>
      match s.service.channel? i with
      | none => s
      | some c =>
        let (stage, c, d, g) :=
          stage.proceed b s.service.now c s.service.desk s.service.host
        ⟨put s.service i c d g, s.underway.set n (i, stage)⟩

def run (b : Backend ρ) (s : Busy ρ) (acts : List (Act ρ)) : Busy ρ := acts.foldl (act b) s

structure Sound (s : Busy ρ) : Prop where
  channels : ∀ i c, s.service.channel? i = some c → c.HoldsValid
  underway : ∀ x ∈ s.underway, x.2.Sound

variable {s : Busy ρ}

theorem sound_start (g : ρ) (delay : Millis) (now : Time) : (start g delay now).Sound := by
  refine ⟨fun i c hc => ?_, fun x hx => absurd hx List.not_mem_nil⟩
  simp [start, Service.start, Service.channel?] at hc

theorem channels_put {i : Nat} {c c' : Channel} {d : Desk} {g : ρ}
    (hs : ∀ k ck, s.service.channel? k = some ck → ck.HoldsValid)
    (there : s.service.channel? i = some c) (hc' : c'.HoldsValid) :
    ∀ k ck, (put s.service i c' d g).channel? k = some ck → ck.HoldsValid := by
  intro k ck hk
  have hset : (put s.service i c' d g).channels = s.service.channels.set i (some c') := rfl
  rw [Service.channel?_of_set there hset] at hk
  split at hk
  · cases hk
    exact hc'
  · exact hs k ck hk

theorem Sound.whole (h : Host ρ) (hs : s.Sound) (a : Service.Act ρ) :
    (s.act h.toBackend (.whole a)).Sound := by
  refine ⟨fun k ck hk => ?_, hs.underway⟩
  have hk : (s.service.act h.toBackend a).channel? k = some ck := hk
  have hmoved := Service.moved_act h s.service a
  generalize s.service.posted h a = ps at hmoved
  generalize s.service.act h.toBackend a = s' at hmoved hk
  cases hmoved with
  | aside channels gauges elsewhere =>
    rw [Service.channel?, channels] at hk
    exact hs.channels k ck hk
  | opened new channels gauges =>
    rw [Service.channel?_of_append channels] at hk
    split at hk
    · cases hk
      rw [new]
      intro r hr
      cases hr
    · exact hs.channels k ck hk
  | turned there turn channels gauges =>
    rw [Service.channel?_of_set there channels] at hk
    split at hk
    · cases hk
      exact turn.holdsValid (hs.channels _ _ there)
    · exact hs.channels k ck hk
  | dropped there channels gauges =>
    rw [Service.channel?_of_set there channels] at hk
    split at hk
    · cases hk
    · exact hs.channels k ck hk

theorem Sound.act (h : Host ρ) (hs : s.Sound) (a : Act ρ) : (s.act h.toBackend a).Sound := by
  cases a with
  | whole a => exact hs.whole h a
  | begin i m =>
    cases hc : s.service.channel? i with
    | none =>
      simp only [Busy.act, hc]
      exact hs
    | some c =>
      obtain ⟨hsound, hcurrent⟩ := sound_begin m (h.stored s.service.host) c s.service.desk
      simp only [Busy.act, hc]
      refine ⟨channels_put hs.channels hc fun r hr => ?_, fun x hx => ?_⟩
      · exact hs.channels i c hc r (hcurrent ▸ hr)
      · rcases List.mem_append.mp hx with hx | hx
        · exact hs.underway x hx
        · rw [List.mem_singleton.mp hx]
          exact hsound
  | proceed n =>
    cases hn : s.underway[n]? with
    | none =>
      simp only [Busy.act, hn]
      exact hs
    | some x =>
      obtain ⟨i, stage⟩ := x
      cases hc : s.service.channel? i with
      | none =>
        simp only [Busy.act, hn, hc]
        exact hs
      | some c =>
        have hstage := hs.underway _ (List.mem_of_getElem? hn)
        obtain ⟨hsound, hvalid⟩ := sound_proceed h hstage (hs.channels i c hc) s.service.now
          s.service.desk s.service.host
        simp only [Busy.act, hn, hc]
        refine ⟨channels_put hs.channels hc hvalid, fun x hx => ?_⟩
        rcases List.mem_or_eq_of_mem_set hx with hx | rfl
        · exact hs.underway x hx
        · exact hsound

theorem sound_run (h : Host ρ) (g : ρ) (delay : Millis) (now : Time) (acts : List (Act ρ)) :
    ((start g delay now).run h.toBackend acts).Sound := by
  have hstart := sound_start g delay now
  generalize start g delay now = s at hstart ⊢
  induction acts generalizing s with
  | nil => exact hstart
  | cons a acts ih => exact ih (s.act h.toBackend a) (hstart.act h a)

end Busy

end LeaseRegistry
