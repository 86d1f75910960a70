import LeaseRegistry.Proofs.Channel.Acknowledgement
import LeaseRegistry.Proofs.Channel.Underway
import LeaseRegistry.Proofs.Store.Versions

/-!
# How fast versions rise through channels

A channel gives a write the version after the highest one that it or the store has seen. So a call
that is about to be made is one past what there is at most, and the registry has got no further once
it is made (`Host.Rises`). With that each step raises versions by one at most, a whole operation by
two (`upTo_run`, `Busy.UpTo.act`), and as long as there are two versions left nothing that a whole
operation writes is superseded (`not_superseded_of_operate`).
-/

namespace LeaseRegistry

open Channel

namespace Channel

variable {n m : Nat} {c : Channel}

/-! ## Steps -/

def Call.UpTo (n : Nat) (call : Call) : Prop := ∀ r ∈ call.record?, r.version.toNat ≤ n

/-- A call that is about to be made may be one past `n`, one that was made is not. -/
def Phase.UpTo (n : Nat) : Phase → Prop
  | calling call => call.UpTo (n + 1)
  | taken call => call.UpTo n
  | noted _ | replying .. | finished _ => True

def Stage.UpTo (n : Nat) : Stage → Prop
  | next p => p.UpTo n
  | answered call _ => call.UpTo n

theorem Call.UpTo.mono {call : Call} (h : call.UpTo n) (hle : n ≤ m) : call.UpTo m :=
  fun r hr => Nat.le_trans (h r hr) hle

theorem Phase.UpTo.mono {p : Phase} (h : p.UpTo n) (hle : n ≤ m) : p.UpTo m := by
  cases p with
  | calling call => exact Call.UpTo.mono h (Nat.succ_le_succ hle)
  | taken call => exact Call.UpTo.mono h hle
  | noted | replying | finished => trivial

theorem Stage.UpTo.mono {stage : Stage} (h : stage.UpTo n) (hle : n ≤ m) : stage.UpTo m := by
  cases stage with
  | next p => exact Phase.UpTo.mono h hle
  | answered call a => exact Call.UpTo.mono h hle

theorem Call.UpTo.named {call : Call} (h : call.UpTo n) :
    ∀ v ∈ call.request.named?, v.toNat ≤ n := by
  intro v hv
  cases call with
  | register record | update record deltas | revive record =>
    exact Option.some.inj hv ▸ h record rfl
  | unregister | renew => cases hv

theorem toNat_nextVersion_le {stored : Option Version} (hc : c.version.toNat ≤ n)
    (hs : ∀ v, stored = some v → v.toNat ≤ n) : (c.nextVersion stored).toNat ≤ n + 1 := by
  refine Nat.le_trans (toNat_succ_le _) (Nat.succ_le_succ ?_)
  rw [toNat_max]
  refine Nat.max_le.mpr ⟨hc, ?_⟩
  cases stored with
  | none => exact Nat.zero_le n
  | some v => exact hs v rfl

section

variable {stored : InstanceId → Option Version} (hc : c.version.toNat ≤ n)
  (hs : ∀ id v, stored id = some v → v.toNat ≤ n)
include hc hs

theorem upTo_begin (m : ClientMessage) (d : Desk) :
    (c.begin m stored d).1.UpTo n ∧ (c.begin m stored d).2.1.version.toNat ≤ n := by
  have hnext : ∀ record : Record,
      (record.atVersion (c.nextVersion (stored record.id))).version.toNat ≤ n + 1 :=
    fun record => toNat_nextVersion_le hc (hs record.id)
  cases m with
  | register record =>
    simp only [begin]
    cases c.state with
    | idle => exact ⟨fun _ hr => Option.some.inj hr ▸ hnext record, hc⟩
    | registered | closed => exact ⟨trivial, hc⟩
  | update record =>
    simp only [begin]
    cases c.registered? with
    | error e => exact ⟨trivial, hc⟩
    | ok previous =>
      simp only
      split
      · exact ⟨fun _ hr => Option.some.inj hr ▸ hnext record, hc⟩
      · exact ⟨trivial, hc⟩
  | unregister =>
    simp only [begin]
    cases c.registered? with
    | error e => exact ⟨trivial, hc⟩
    | ok record => exact ⟨by rintro _ ⟨⟩, hc⟩
  | heartbeat =>
    simp only [begin]
    cases c.registered? with
    | error e => exact ⟨trivial, hc⟩
    | ok record => exact ⟨by rintro _ ⟨⟩, hc⟩

theorem upTo_answered {call : Call} (hcall : call.UpTo n) (a : Answer) (now : Time) (d : Desk) :
    (c.answered call a stored now d).1.UpTo n ∧
      (c.answered call a stored now d).2.1.version.toNat ≤ n := by
  have hgiveUp : (c.giveUp d).1.version.toNat ≤ n := by
    unfold giveUp
    split <;> exact hc
  unfold answered
  split
  case h_7 record =>
    exact ⟨fun _ hr => Option.some.inj hr ▸ toNat_nextVersion_le hc (hs record.id), hc⟩
  case h_11 => exact ⟨hcall, hc⟩
  all_goals first | exact ⟨trivial, hgiveUp⟩ | exact ⟨trivial, hc⟩

end

theorem upTo_advance {p : Phase} (hp : p.UpTo n) (hc : c.version.toNat ≤ n) (now : Time)
    (d : Desk) :
    (advance now c d p).1.UpTo n ∧ (advance now c d p).2.1.version.toNat ≤ n := by
  cases p with
  | calling call => exact ⟨hp, hc⟩
  | taken call =>
    cases call with
    | register record | update record deltas | revive record => exact ⟨trivial, hp record rfl⟩
    | unregister record version | renew record => exact ⟨trivial, hc⟩
  | noted record =>
    simp only [advance]
    split <;> exact ⟨trivial, hc⟩
  | replying reply result =>
    cases reply with
    | none => exact ⟨trivial, hc⟩
    | some m => exact ⟨trivial, (core_reply c m).1 ▸ hc⟩
  | finished result => exact ⟨trivial, hc⟩

theorem upTo_settle {p : Phase} (hp : p.UpTo n) (hc : c.version.toNat ≤ n) (now : Time)
    (d : Desk) :
    (settle now p c d).1.UpTo n ∧ (settle now p c d).2.1.version.toNat ≤ n := by
  obtain ⟨hp₁, hc₁⟩ := upTo_advance hp hc now d
  unfold settle
  generalize advance now c d p = first at hp₁ hc₁ ⊢
  obtain ⟨p₁, c₁, d₁⟩ := first
  obtain ⟨hp₂, hc₂⟩ := upTo_advance hp₁ hc₁ now d₁
  simp only
  generalize advance now c₁ d₁ p₁ = second at hp₂ hc₂ ⊢
  exact upTo_advance hp₂ hc₂ now _

/-! ## Hosts -/

/-- As long as `P n` holds of the host, nothing that it stores is past `n`, and a request of a
channel at a version up to `n + 1` gets it one further. -/
structure Host.Rises {ρ : Type} (h : Host ρ) (P : Nat → ρ → Prop) : Prop where
  mono {n m : Nat} {g : ρ} : P n g → n ≤ m → P m g
  stored {n : Nat} {g : ρ} : P n g → ∀ id v, h.stored g id = some v → v.toNat ≤ n
  handle {n : Nat} {g : ρ} : P n g → ∀ now r, (∀ v ∈ r.named?, v.toNat ≤ n + 1) →
    P (n + 1) (h.handle g now r).2

variable {ρ : Type} {h : Host ρ} {P : Nat → ρ → Prop} {g : ρ}

theorem upTo_proceed (hh : h.Rises P) {stage : Stage} (hstage : stage.UpTo n)
    (hc : c.version.toNat ≤ n) (hg : P n g) (now : Time) (d : Desk) :
    let after := stage.proceed h.toBackend now c d g
    after.1.UpTo (n + 1) ∧ after.2.1.version.toNat ≤ n + 1 ∧ P (n + 1) after.2.2.2 := by
  have hle : n ≤ n + 1 := Nat.le_succ n
  have hadvance : ∀ {p : Phase}, p.UpTo n → (advance now c d p).1.UpTo (n + 1) ∧
      (advance now c d p).2.1.version.toNat ≤ n + 1 ∧ P (n + 1) g := fun hp =>
    ⟨(upTo_advance hp hc now d).1.mono hle, Nat.le_trans (upTo_advance hp hc now d).2 hle,
      hh.mono hg hle⟩
  cases stage with
  | answered call a =>
    obtain ⟨hp, hc⟩ := upTo_answered hc (hh.stored hg) hstage a now d
    exact ⟨hp.mono hle, Nat.le_trans hc hle, hh.mono hg hle⟩
  | next p =>
    cases p with
    | calling call =>
      exact ⟨hstage, Nat.le_trans hc hle, hh.handle hg now _ (Call.UpTo.named hstage)⟩
    | taken call => exact hadvance (p := .taken call) hstage
    | noted record => exact hadvance (p := .noted record) hstage
    | replying reply result => exact hadvance (p := .replying reply result) hstage
    | finished result => exact hadvance (p := .finished result) hstage

theorem upTo_askOnce (hh : h.Rises P) {p : Phase} (hp : p.UpTo n) (hc : c.version.toNat ≤ n)
    (hg : P n g) (now : Time) (d : Desk) :
    let after := askOnce h.toBackend now (p, c, d, g)
    after.1.UpTo (n + 1) ∧ after.2.1.version.toNat ≤ n + 1 ∧ P (n + 1) after.2.2.2 := by
  have hle : n ≤ n + 1 := Nat.le_succ n
  cases p with
  | calling call =>
    have hg' := hh.handle hg now _ (Call.UpTo.named hp)
    obtain ⟨hp, hc⟩ := upTo_answered (Nat.le_trans hc hle) (hh.stored hg') hp
      (h.handle g now call.request).1 now d
    obtain ⟨hp, hc⟩ := upTo_settle hp hc now _
    exact ⟨hp, hc, hg'⟩
  | taken | noted | replying | finished =>
    exact ⟨Phase.UpTo.mono hp hle, Nat.le_trans hc hle, hh.mono hg hle⟩

theorem upTo_run (hh : h.Rises P) (hc : c.version.toNat ≤ n) (hg : P n g) (now : Time)
    (m : ClientMessage) (d : Desk) :
    let after := c.run h.toBackend now m d g
    after.2.1.version.toNat ≤ n + 2 ∧ P (n + 2) after.2.2.2 := by
  obtain ⟨hp, hc⟩ := upTo_begin hc (hh.stored hg) m d
  unfold run
  generalize c.begin m (h.stored g) d = begun at hp hc ⊢
  obtain ⟨p, c, d⟩ := begun
  obtain ⟨hp, hc⟩ := upTo_settle hp hc now d
  simp only
  generalize settle now p c d = settled at hp hc ⊢
  obtain ⟨p, c, d⟩ := settled
  obtain ⟨hp, hc, hg⟩ := upTo_askOnce hh hp hc hg now d
  generalize askOnce h.toBackend now (p, c, d, g) = asked at hp hc hg ⊢
  obtain ⟨p, c, d, g⟩ := asked
  exact (upTo_askOnce hh hp hc hg now d).2

theorem upTo_operate (hh : h.Rises P) (hc : c.version.toNat ≤ n) (hg : P n g) (now : Time)
    (x : Inbound) (d : Desk) :
    let after := c.operate h.toBackend now x d g
    after.2.1.version.toNat ≤ n + 2 ∧ P (n + 2) after.2.2.2 := by
  cases hm : x.message? with
  | none =>
    simp only [operate_of_unreadable _ _ _ _ _ hm, (core_answerError c .unexpectedFrame).1]
    exact ⟨Nat.le_trans hc (Nat.le_add_right n 2), hh.mono hg (Nat.le_add_right n 2)⟩
  | some m =>
    rw [operate_of_message _ _ _ _ _ hm]
    exact upTo_run hh hc hg now m d

/-! ## What is superseded -/

theorem Host.not_superseded {now : Time} {r : Request} {w : Version} {a : Answer} {g' : ρ}
    (asked : h.handle g now r = (a, g')) (hr : r.named? = some w)
    (newer : ∀ v, h.stored g r.id = some v → v < w) : a ≠ .changed .superseded := by
  obtain ⟨time, htime⟩ := h.handle_eq asked
  have hnot : ((h.registry g).handle time r).1 ≠ .changed .superseded :=
    Registry.not_superseded (r.version?_of_named _ hr)
      fun v hv => newer v ((h.version g r.id).trans hv)
  rwa [htime] at hnot

/-- What was asked and is a write was not superseded. -/
def NoneSuperseded (asks : List Asked) : Prop :=
  ∀ p ∈ asks, p.1.isWrite = true → p.2 ≠ .changed .superseded

theorem noneSuperseded_of_asked {now : Time} {r : Request} {a : Answer} {log : List Asked}
    {g' : ρ × List Asked}
    (hlog : NoneSuperseded log) (asked : h.listing.handle (g, log) now r = (a, g'))
    (ha : r.isWrite = true → a ≠ .changed .superseded) : NoneSuperseded g'.2 := by
  intro p hp
  rw [(of_handle_listing asked).2] at hp
  rcases List.mem_append.mp hp with hold | hnew
  · exact hlog p hold
  · rw [List.mem_singleton.mp hnew]
    exact ha

/-- A write at the channel's next version is not superseded, as long as there is one left. -/
theorem not_superseded_of_next (hh : h.Rises P) (hc : c.version.toNat ≤ n) (hg : P n g)
    (hn : n + 1 < UInt64.size) {now : Time} {record next : Record}
    (hnext : next = record.atVersion (c.nextVersion (h.stored g record.id))) {r : Request}
    (hr : r.named? = some next.version) (hid : r.id = next.id) {a : Answer} {g' : ρ}
    (asked : h.handle g now r = (a, g')) : a ≠ .changed .superseded := by
  refine Host.not_superseded asked hr fun v hv => ?_
  subst hnext
  rw [hid] at hv
  have hhas : c.HasNext (h.stored g record.id) := by
    refine ⟨by omega, fun v hv => ?_⟩
    have := hh.stored hg record.id v hv
    omega
  exact hhas.stored_lt hv

/-- As long as there are two versions left, the registry supersedes no write of a whole
operation. -/
theorem noneSuperseded_operate (hh : h.Rises P) (hc : c.version.toNat ≤ n) (hg : P n g)
    (hn : n + 2 < UInt64.size) (now : Time) (x : Inbound) (d : Desk) :
    NoneSuperseded (c.operate h.listing now x d (g, [])).2.2.2.2 := by
  have hnil : NoneSuperseded [] := fun _ hp => absurd hp List.not_mem_nil
  -- A heartbeat may register after it found no lease, which is why a second version may be needed.
  have hrevived : ∀ {record next : Record} {a : Answer} {g' g'' : ρ × List Asked},
      h.listing.handle (g, []) now (.renew record.id .here) = (.renewed false, g') →
      next = record.atVersion (c.nextVersion (h.listing.stored g' record.id)) →
      h.listing.handle g' now (.register next .here) = (a, g'') → NoneSuperseded g''.2 := by
    intro record next a g' g'' asked hnext asked'
    have hlog : NoneSuperseded g'.2 := noneSuperseded_of_asked hnil asked nofun
    obtain ⟨g', log⟩ := g'
    have hg' : P (n + 1) g' := by
      have hhandled := hh.handle hg now (.renew record.id .here) nofun
      rwa [(of_handle_listing asked).1] at hhandled
    exact noneSuperseded_of_asked hlog asked' fun _ => not_superseded_of_next hh
      (Nat.le_succ_of_le hc) hg' hn hnext rfl rfl (of_handle_listing asked').1
  cases hm : x.message? with
  | none =>
    simp only [operate_of_unreadable _ _ _ _ _ hm]
    exact hnil
  | some m =>
    rw [operate_of_message _ _ _ _ _ hm]
    have hran := ran_run h.listing now m c d (g, [])
    generalize c.run h.listing now m d (g, []) = res at hran ⊢
    cases hran with
    | refused | ignored => exact hnil
    | registrationRejected idle hnext asked | registered idle hnext asked
    | updateRejected current same hnext asked | updated current same hnext asked =>
      exact noneSuperseded_of_asked hnil asked fun _ => not_superseded_of_next hh hc hg
        (Nat.lt_of_succ_lt hn) hnext rfl rfl (of_handle_listing asked).1
    | unregistrationFailed current asked | unregistered current asked
    | renewalFailed current asked | renewed current asked =>
      exact noneSuperseded_of_asked hnil asked nofun
    | revivalFailed current asked hnext asked' | revivalOvertaken current asked hnext asked'
    | revived current asked hnext asked' => exact hrevived asked hnext asked'

end Channel

/-! ## Busy services -/

namespace Busy

variable {ρ : Type} {h : Host ρ} {P : Nat → ρ → Prop} {n m : Nat} {s : Busy ρ}

/-- No version in a busy service is past `n`, but for those of the calls that are about to be
made. -/
structure UpTo (P : Nat → ρ → Prop) (n : Nat) (s : Busy ρ) : Prop where
  host : P n s.service.host
  channels : ∀ i c, s.service.channel? i = some c → c.version.toNat ≤ n
  underway : ∀ x ∈ s.underway, x.2.UpTo n

theorem UpTo.mono (hh : h.Rises P) (hs : s.UpTo P n) (hle : n ≤ m) : s.UpTo P m :=
  ⟨hh.mono hs.host hle, fun i c hc => Nat.le_trans (hs.channels i c hc) hle,
    fun x hx => (hs.underway x hx).mono hle⟩

/-- What was done to one channel is all that was done to the channels. -/
theorem UpTo.set (hs : s.UpTo P n) (hle : n ≤ m) {i : Nat} {c : Channel} {place : Option Channel}
    {s' : Service ρ} (there : s.service.channel? i = some c)
    (channels : s'.channels = s.service.channels.set i place)
    (hplace : ∀ c' ∈ place, c'.version.toNat ≤ m) :
    ∀ k ck, s'.channel? k = some ck → ck.version.toNat ≤ m := by
  intro k ck hk
  rw [Service.channel?_of_set there channels] at hk
  split at hk
  · exact hplace ck hk
  · exact Nat.le_trans (hs.channels k ck hk) hle

theorem UpTo.whole (hh : h.Rises P) (hs : s.UpTo P n) (a : Service.Act ρ)
    (ha : ∀ change, a = .elsewhere change →
      P (n + 2) (change (s.service.host, s.service.desk.queue)).1) :
    (s.act h.toBackend (.whole a)).UpTo P (n + 2) := by
  have hle : n ≤ n + 2 := Nat.le_add_right n 2
  have hmono := hs.mono hh hle
  have onChannel : ∀ (i : Nat) (f : Channel → Desk → ρ → Option Channel × Desk × ρ),
      (∀ c, c.version.toNat ≤ n →
        (∀ c' ∈ (f c s.service.desk s.service.host).1, c'.version.toNat ≤ n + 2) ∧
        P (n + 2) (f c s.service.desk s.service.host).2.2) →
      UpTo P (n + 2) ⟨s.service.onChannel i f, s.underway⟩ := by
    intro i f hf
    unfold Service.onChannel
    cases hi : s.service.channel? i with
    | none => exact hmono
    | some c =>
      obtain ⟨hplace, hhost⟩ := hf c (hs.channels i c hi)
      exact ⟨hhost, hs.set hle hi rfl hplace, hmono.underway⟩
  cases a <;> simp only [Busy.act, Service.act]
  case connect =>
    refine ⟨hmono.host, fun k ck hk => ?_, hmono.underway⟩
    rw [Service.channel?_of_append (s := s.service) rfl] at hk
    split at hk
    · cases hk
      exact Nat.zero_le _
    · exact hmono.channels k ck hk
  case operate i x =>
    refine onChannel i _ fun c hc => ?_
    obtain ⟨hversion, hhost⟩ := upTo_operate hh hc hs.host s.service.now x s.service.desk
    exact ⟨fun _ hc' => Option.some.inj hc' ▸ hversion, hhost⟩
  case disconnect i =>
    refine onChannel i _ fun c hc => ⟨fun c' hc' => ?_, hmono.host⟩
    cases hc'
    simp only [connectionClosed_fst]
    exact Nat.le_trans hc hle
  case drop i =>
    refine onChannel i _ fun c _ => ⟨fun c' hc' => ?_, hmono.host⟩
    cases hc'
  case reachable i b =>
    refine onChannel i _ fun c hc => ⟨fun c' hc' => ?_, hmono.host⟩
    cases hc'
    exact Nat.le_trans hc hle
  case clock now => exact ⟨hmono.host, hmono.channels, hmono.underway⟩
  case elsewhere change => exact ⟨ha change rfl, hmono.channels, hmono.underway⟩

/-- One act raises versions by two at most, if what happens elsewhere does. -/
theorem UpTo.act (hh : h.Rises P) (hs : s.UpTo P n) (a : Act ρ)
    (ha : ∀ change, a = .whole (.elsewhere change) →
      P (n + 2) (change (s.service.host, s.service.desk.queue)).1) :
    (s.act h.toBackend a).UpTo P (n + 2) := by
  have hle : n ≤ n + 2 := Nat.le_add_right n 2
  have hmono := hs.mono hh hle
  cases a with
  | whole a => exact hs.whole hh a fun change hchange => ha change (by rw [hchange])
  | begin i message =>
    cases hi : s.service.channel? i with
    | none =>
      simp only [Busy.act, hi]
      exact hmono
    | some c =>
      obtain ⟨hp, hc⟩ :=
        upTo_begin (hs.channels i c hi) (hh.stored hs.host) message s.service.desk
      simp only [Busy.act, hi]
      refine ⟨hmono.host, hs.set hle hi rfl ?_, fun x hx => ?_⟩
      · rintro _ ⟨⟩
        exact Nat.le_trans hc hle
      · rcases List.mem_append.mp hx with hold | hnew
        · exact hmono.underway x hold
        · rw [List.mem_singleton.mp hnew]
          exact hp.mono hle
  | proceed k =>
    cases hk : s.underway[k]? with
    | none =>
      simp only [Busy.act, hk]
      exact hmono
    | some x =>
      obtain ⟨i, stage⟩ := x
      cases hi : s.service.channel? i with
      | none =>
        simp only [Busy.act, hk, hi]
        exact hmono
      | some c =>
        have hstage := hs.underway _ (List.mem_of_getElem? hk)
        obtain ⟨hstage', hc, hg⟩ := upTo_proceed hh hstage (hs.channels i c hi) hs.host
          s.service.now s.service.desk
        simp only [Busy.act, hk, hi]
        refine ⟨hh.mono hg (Nat.le_succ _), hs.set hle hi rfl ?_, fun x hx => ?_⟩
        · rintro _ ⟨⟩
          exact Nat.le_trans hc (Nat.le_succ _)
        · rcases List.mem_or_eq_of_mem_set hx with hold | rfl
          · exact hmono.underway x hold
          · exact hstage'.mono (Nat.le_succ _)

end Busy

end LeaseRegistry
