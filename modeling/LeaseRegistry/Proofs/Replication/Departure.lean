import LeaseRegistry.Proofs.Channel.History
import LeaseRegistry.Proofs.Eviction.Exact
import LeaseRegistry.Proofs.Replication.Station
import Mathlib.Logic.Relation

/-!
# An instance that is gone

An instance whose connection goes away stays in the store until an eviction run takes it out. While
the channel is open it holds the record of the stored lease (`Station.Open`); once it is closed the
one queued entry of the instance names the version of the lease, if there still is one
(`Station.Left`). Runs that are held back change neither, so the first run that is not, at the time
of the entry or later, removes the instance, here and at the receiver, for good
(`Station.departed_is_evicted`).
-/

namespace LeaseRegistry

/-! ## The channel and its lease -/

namespace Channel

theorem registered?_congr {c c' : Channel} (hs : c'.state = c.state)
    (hc : c'.current = c.current) : c'.registered? = c.registered? := by
  simp only [registered?, hs, hc]

/-- If the store holds a lease of the instance, it has the record of the channel. -/
def Holds (c : Channel) (id : InstanceId) (s : Store) : Prop :=
  ∀ l, s.lease? id = some l → c.registered? = .ok l.record

section

variable {c c' : Channel} {id : InstanceId} {s s' : Store} {asks : List Asked}

theorem Quiet.holds (h : Quiet c s c' s' asks) (hsame : c'.registered? = c.registered?)
    (hc : c.Holds id s) : c'.Holds id s' := by
  intro l' hl'
  obtain ⟨l, hl, hrecord⟩ := h.records id l' hl'
  rw [hsame, hrecord]
  exact hc l hl

/-- A channel that writes another instance was not registered with this one. -/
theorem Wrote.holds {w : Accepted} (h : Wrote w c s c' s' asks) (hs : s.WellFormed)
    (hc : c.Holds id s) : c'.Holds id s' := by
  intro l' hl'
  rw [registered?_eq_ok]
  refine ⟨h.state, ?_⟩
  by_cases hid : w.record.id = id
  · obtain ⟨l, hl, hrecord⟩ := h.took.held
    rw [hid] at hl
    obtain rfl : l = l' := Option.some.inj (hl.symm.trans hl')
    rw [h.current, hrecord]
  · have hl : s.lease? id = some l' := (h.took.others id (Ne.symm hid)).symm.trans hl'
    obtain ⟨hstate, hcurrent⟩ := registered?_eq_ok.mp (hc l' hl)
    rcases h.origin with hidle | ⟨-, previous, hprevious, hsame⟩
    · cases hstate.symm.trans hidle
    · obtain rfl : l'.record = previous := Option.some.inj (hcurrent.symm.trans hprevious)
      exact absurd (hsame.symm.trans (hs.id_of_lease? hl)) hid

end

section

variable {ρ : Type} (b : Backend ρ) (now : Time) (c : Channel) (d : Desk) (g : ρ)

/-- Unless it is told to unregister, a channel keeps its registration or gets a new one. -/
theorem registration_run {m : ClientMessage} (hm : m ≠ .unregister) :
    let c' := (c.run b now m d g).2.1
    (c'.state = c.state ∧ c'.current = c.current) ∨
      (c'.state = .registered ∧ c'.current ≠ none) := by
  have hran := ran_run b now m c d g
  generalize c.run b now m d g = res at hran ⊢
  have hfailed : ∀ e, (c.answerError e).state = c.state ∧ (c.answerError e).current = c.current :=
    fun e => ⟨(core_answerError c e).2.2, (core_answerError c e).2.1⟩
  cases hran with
  | refused h => exact .inl (hfailed _)
  | ignored h => exact .inl ⟨rfl, rfl⟩
  | registrationRejected idle hnext asked h => exact .inl (hfailed _)
  | @registered record next a g' idle hnext asked h =>
    obtain ⟨-, hcurrent, hstate⟩ := core_reply ((c.moveTo d .registered).1.note next) .ack
    exact .inr ⟨hstate, hcurrent ▸ nofun⟩
  | updateRejected current same hnext asked h => exact .inl (hfailed _)
  | @updated record previous next a g' current same hnext asked h =>
    obtain ⟨-, hcurrent, hstate⟩ := core_reply (c.note next) .ack
    exact .inr ⟨hstate.trans (registered?_eq_ok.mp current).1, hcurrent ▸ nofun⟩
  | unregistrationFailed current asked => exact absurd rfl hm
  | unregistered current asked h => exact absurd rfl hm
  | renewalFailed current asked => exact .inl ⟨rfl, rfl⟩
  | renewed current asked h found => exact .inl ⟨rfl, rfl⟩
  | revivalFailed current asked hnext asked' => exact .inl ⟨rfl, rfl⟩
  | revivalOvertaken current asked hnext asked' => exact .inl ⟨rfl, rfl⟩
  | revived current asked hnext asked' h =>
    exact .inr ⟨(registered?_eq_ok.mp current).1, nofun⟩

/-- Whatever a closed channel is told, it stays closed and does nothing. -/
theorem operate_of_closed (hc : c.state = .closed) (x : Inbound) :
    let res := c.operate b now x d g
    res.2.1.state = .closed ∧ res.2.2 = (d, g) := by
  have hnone : ∀ {record}, c.registered? ≠ .ok record := by
    intro record hr
    rw [(registered?_eq_ok.mp hr).1] at hc
    cases hc
  have hbusy : c.state ≠ .idle := by simp [hc]
  have hfailed : ∀ e, (c.answerError e).state = .closed :=
    fun e => (core_answerError c e).2.2.trans hc
  cases hm : x.message? with
  | none =>
    rw [operate_of_unreadable b now c d g hm]
    exact ⟨hfailed _, rfl⟩
  | some m =>
    rw [operate_of_message b now c d g hm]
    have hran := ran_run b now m c d g
    generalize c.run b now m d g = res at hran ⊢
    cases hran with
    | refused h => exact ⟨hfailed _, rfl⟩
    | ignored h => exact ⟨hc, rfl⟩
    | registrationRejected idle | registered idle => exact absurd idle hbusy
    | updateRejected current | updated current | unregistrationFailed current
    | unregistered current | renewalFailed current | renewed current | revivalFailed current
    | revivalOvertaken current | revived current => exact absurd current hnone

end

/-- Unless it is told to unregister, an open channel stays open, and holds what there is of the
instance if it did before. -/
theorem holds_operate {g : Registry} (hs : g.store.WellFormed) {x : Inbound}
    (hx : x.message? ≠ some .unregister) (now : Time) {c : Channel} (hopen : c.state ≠ .closed)
    {id : InstanceId} (hc : c.Holds id g.store) (d : Desk) :
    let (_, c', d', g') := c.operate .alone now x d g
    c'.state ≠ .closed ∧ d'.queue = d.queue ∧ c'.Holds id g'.store := by
  cases hm : x.message? with
  | none =>
    obtain ⟨-, hcurrent, hstate⟩ := core_answerError c .unexpectedFrame
    rw [operate_of_unreadable _ _ _ _ _ hm]
    refine ⟨hstate ▸ hopen, rfl, fun l hl => ?_⟩
    rw [registered?_congr hstate hcurrent]
    exact hc l hl
  | some m =>
    have hstays := registration_run .alone now c d g (m := m) (by rintro rfl; exact hx hm)
    have hwhole := quiet_or_wrote_alone hs now m c d
    rw [operate_of_message _ _ _ _ _ hm]
    generalize c.run .alone now m d g = res at hstays hwhole ⊢
    obtain ⟨result, c', d', g'⟩ := res
    obtain ⟨-, hqueue, hquiet | ⟨w, hwrote⟩⟩ := hwhole
    · have hsame : c'.state = c.state ∧ c'.current = c.current := by
        refine hstays.elim (fun h => h) fun ⟨hstate, hcurrent⟩ => ⟨?_, ?_⟩
        · exact hquiet.state.resolve_right fun hclosed => nomatch hstate.symm.trans hclosed
        · exact hquiet.current.resolve_right hcurrent
      exact ⟨hsame.1 ▸ hopen, hqueue, hquiet.holds (registered?_congr hsame.1 hsame.2) hc⟩
    · exact ⟨hwrote.state ▸ nofun, hqueue, hwrote.holds hs hc⟩

theorem connectionClosed_of_registered {c : Channel} {r : Record} (hr : c.registered? = .ok r)
    (d : Desk) (now : Time) :
    c.connectionClosed d now =
      ((c.moveTo d .closed).1, (c.moveTo d .closed).2.queueEviction r now) := by
  obtain ⟨hstate, hcurrent⟩ := registered?_eq_ok.mp hr
  simp only [connectionClosed, hstate, hcurrent]

/-- The peers of a server do not matter to its own registry. -/
theorem Host.alone_of_telling {ε : Type} (p : Peers ε) (g : Server × ε) (now : Time)
    (r : Request) :
    Backend.alone.handle g.1.coordinator.registry now r =
      (((telling p).handle g now r).1, ((telling p).handle g now r).2.1.coordinator.registry) := by
  simp only [telling, Server.run_request]
  split <;> rename_i h <;> simp only [Coordinator.perform, Prod.mk.injEq] at h <;>
    obtain ⟨ha, -, rfl⟩ := h <;> rw [← ha] <;> rfl

end Channel

/-! ## What a pass does to an entry -/

section

variable {s : Store} (hs : s.WellFormed) (p : Preservation) (q : EvictionQueue) (now : Time)
  (e : QueuedEviction)
include hs

/-- A pass adds no entry, and one that is not held back leaves none that is due. What an entry that
is taken out named is no longer stored. -/
theorem evictionPass_entry :
    let pass := evictionPass s p q now
    (e ∈ pass.2.2.2.entries → e ∈ q.entries) ∧
    (∀ ls, pass.1 = .evicted ls → e ∈ pass.2.2.2.entries → e.isDue now = false) ∧
    (e ∈ q.entries → e ∉ pass.2.2.2.entries →
      ∀ l, pass.2.1.lease? e.record.id = some l → l.version ≠ e.record.version) := by
  let due := (q.takeDue now).1
  have htaken : e ∈ (q.takeDue now).2.entries ↔ e ∈ q.entries ∧ e.isDue now = false := by
    simp [EvictionQueue.takeDue]
  have hback : e ∈ ((q.takeDue now).2.requeue due).entries ↔ e ∈ q.entries := by
    cases hdue : e.isDue now <;> simp [due, EvictionQueue.takeDue, EvictionQueue.requeue, hdue]
  rcases evictionPass_cases s p q now with ⟨p', hpass⟩ | ⟨n, verdict, p', hpass⟩
  · obtain ⟨ls, hpass⟩ : ∃ ls, evictionPass s p q now =
        (.evicted ls, (s.evictAll (s.expired now) due now).2, p', (q.takeDue now).2) := ⟨_, hpass⟩
    rw [Store.evictAll_eq_without hs (fun _ => .rfl) due] at hpass
    simp only [hpass, htaken]
    refine ⟨And.left, fun _ _ => And.right, fun hmem hout l hl hversion => ?_⟩
    have hdue : e ∈ due := by simpa [due, EvictionQueue.takeDue, hmem] using hout
    obtain ⟨hheld, hkept⟩ := hs.lease?_without.mp hl
    exact of_decide_eq_false hkept (.inr ⟨e, hdue, (hs.id_of_lease? hheld).symm, hversion.symm⟩)
  · have hpass : evictionPass s p q now =
        (.suppressed n verdict, s, p', (q.takeDue now).2.requeue due) := hpass
    simp only [hpass, hback]
    exact ⟨fun h => h, fun _ h => (by cases h), fun hmem hout => absurd hmem hout⟩

end

namespace Station

variable {ε : Type} {k : Nat} {q : Peers ε} {id : InstanceId} {s s' : Station ε}

/-- What an operation makes of the channel, the desk and the registry is what it makes of them
without peers. -/
theorem operate_alone (s : Station ε) (x : Channel.Inbound) (now : Time) (l : Latency) :
    let s' := s.operate k q x now l
    ∃ result, s.channel.operate .alone now x s.server.desk s.server.coordinator.registry =
      (result, s'.channel, s'.server.desk, s'.server.coordinator.registry) := by
  cases hm : x.message? with
  | none =>
    simp only [operate, Channel.operate_of_unreadable _ _ _ _ _ hm]
    exact ⟨_, rfl⟩
  | some m =>
    simp only [operate, Channel.operate_of_message _ _ _ _ _ hm]
    exact ⟨_, Channel.run_map (b := (Channel.Host.telling (s.peers k q l)).toBackend)
      (f := fun g => g.1.coordinator.registry)
      (fun g now r => Channel.Host.alone_of_telling _ g now r) (fun _ => rfl) now m s.channel
      s.server.desk (s.server, ⟨s.receiver, 0, []⟩, s.others)⟩

/-! ## Before the connection goes away -/

/-- The channel holds what lease there is of the instance, and nothing is queued. -/
structure Open (k : Nat) (id : InstanceId) (s : Station ε) : Prop where
  linked : s.server.Linked k id s.receiver
  isOpen : s.channel.state ≠ .closed
  held : s.channel.Holds id s.server.store
  unqueued : ∀ e ∈ s.server.desk.queue.entries, e.record.id ≠ id

theorem Open.operate (h : s.Open k id) {x : Channel.Inbound} (hx : x.message? ≠ some .unregister)
    (now : Time) (l : Latency) : (s.operate k q x now l).Open k id := by
  obtain ⟨result, halone⟩ := operate_alone (k := k) (q := q) s x now l
  have hholds := Channel.holds_operate (g := s.server.coordinator.registry) h.linked.wellFormed hx
    now h.isOpen h.held s.server.desk
  rw [halone] at hholds
  obtain ⟨hopen, hqueue, hheld⟩ := hholds
  exact ⟨linked_operate h.linked x now l, hopen, hheld, hqueue ▸ h.unqueued⟩

theorem Open.evict (h : s.Open k id) (now : Time) (l : Latency) :
    (s.evict k q now l).2.Open k id := by
  have hlinked := linked_evict (q := q) h.linked now l
  rcases evict_cases (q := q) h.linked.known now l with heq | ⟨others, heq⟩
  · rw [heq]
    exact h
  · rw [heq] at hlinked ⊢
    have hevicts := evicts_evictionPass h.linked.wellFormed
      s.server.coordinator.registry.preservation s.server.desk.queue now
    have hentry := evictionPass_entry h.linked.wellFormed
      s.server.coordinator.registry.preservation s.server.desk.queue now
    exact ⟨hlinked, h.isOpen, fun l' hl' => h.held l' (hevicts.lease?_of_some hl'),
      fun e he => h.unqueued e ((hentry e).1 he)⟩

theorem LeavesAlone.keepsOpen (ha : s.LeavesAlone id s') (h : s.Open k id) : s'.Open k id := by
  refine ⟨ha.linked h.linked, ?_, fun l hl => ?_, fun e he hid => ?_⟩
  · rw [ha.channel]
    exact h.isOpen
  · rw [ha.channel]
    exact h.held l (ha.lease ▸ hl)
  · exact h.unqueued e ((ha.entries e hid).mp he) hid

theorem Step.keepsOpen (hstep : s.Step k q id s') (h : s.Open k id) : s'.Open k id := by
  cases hstep with
  | operate x now l stays => exact h.operate stays now l
  | evict now l => exact h.evict now l
  | aside alone => exact alone.keepsOpen h

theorem Open.steps (h : s.Open k id) (hsteps : Relation.ReflTransGen (Step k q id) s s') :
    s'.Open k id := by
  induction hsteps with
  | refl => exact h
  | tail _ hstep ih => exact hstep.keepsOpen ih

/-! ## After the connection went away -/

/-- No entry of the instance is queued but `e`, and whatever lease there is has the version of that
entry. -/
structure Left (k : Nat) (e : QueuedEviction) (s : Station ε) : Prop where
  linked : s.server.Linked k e.record.id s.receiver
  closed : s.channel.state = .closed
  only : ∀ f ∈ s.server.desk.queue.entries, f.record.id = e.record.id → f = e
  held : ∀ l, s.server.store.lease? e.record.id = some l →
    e ∈ s.server.desk.queue.entries ∧ l.version = e.record.version

theorem Open.disconnect {r : Record} (h : s.Open k r.id) (hr : s.channel.registered? = .ok r)
    (now : Time) :
    (s.disconnect now).Left k ⟨r, .here, now.after s.server.desk.queue.delay⟩ := by
  obtain ⟨hwf, hwfThere, hk, hfollows⟩ := h.linked
  simp only [Station.disconnect, Channel.connectionClosed_of_registered hr]
  refine ⟨⟨hwf, hwfThere, hk, hfollows⟩, rfl, fun f hf hid => ?_, fun l hl => ⟨?_, ?_⟩⟩
  · rcases List.mem_append.mp hf with hf | hf
    · exact absurd hid (h.unqueued f hf)
    · exact List.mem_singleton.mp hf
  · exact List.mem_append_right _ (List.mem_singleton_self _)
  · obtain rfl : l.record = r := Except.ok.inj ((h.held l hl).symm.trans hr)
    rfl

/-- The closed channel does nothing any more. -/
theorem Left.operate {e : QueuedEviction} (h : s.Left k e) (x : Channel.Inbound) (now : Time)
    (l : Latency) :
    let s' := s.operate k q x now l
    s'.Left k e ∧ s'.server.desk = s.server.desk := by
  have hlinked := linked_operate (q := q) h.linked x now l
  obtain ⟨result, halone⟩ := operate_alone (k := k) (q := q) s x now l
  obtain ⟨hclosed, hsame⟩ := Channel.operate_of_closed .alone now s.channel s.server.desk
    s.server.coordinator.registry h.closed x
  rw [halone] at hclosed hsame
  obtain ⟨hdesk, hregistry⟩ := Prod.mk.inj hsame
  refine ⟨⟨hlinked, hclosed, hdesk ▸ h.only, ?_⟩, hdesk⟩
  rw [Server.store, hdesk, hregistry]
  exact h.held

/-- If the entry is taken out, then so is the lease, unless it was gone before. -/
theorem Left.evict {e : QueuedEviction} (h : s.Left k e) (now : Time) (l : Latency) :
    let (outcome, s') := s.evict k q now l
    s'.Left k e ∧
      (e ∈ s'.server.desk.queue.entries → e ∈ s.server.desk.queue.entries) ∧
      ∀ ls, outcome = some (.evicted ls) → e.isDue now = true →
        e ∉ s'.server.desk.queue.entries := by
  have hlinked := linked_evict (q := q) h.linked now l
  rcases evict_cases (q := q) h.linked.known now l with heq | ⟨others, heq⟩
  · rw [heq]
    exact ⟨h, fun he => he, nofun⟩
  · rw [heq] at hlinked ⊢
    have hevicts := evicts_evictionPass h.linked.wellFormed
      s.server.coordinator.registry.preservation s.server.desk.queue now
    have hentry := evictionPass_entry h.linked.wellFormed
      s.server.coordinator.registry.preservation s.server.desk.queue now
    obtain ⟨hmem, hdue, hgone⟩ := hentry e
    refine ⟨⟨hlinked, h.closed, fun f hf => h.only f ((hentry f).1 hf), fun l' hl' => ?_⟩, hmem,
      fun ls houtcome hnow he => ?_⟩
    · obtain ⟨he, hversion⟩ := h.held l' (hevicts.lease?_of_some hl')
      exact ⟨Decidable.byContradiction fun hout => hgone he hout l' hl' hversion, hversion⟩
    · cases (hdue ls (Option.some.inj houtcome) he).symm.trans hnow

theorem LeavesAlone.keepsLeft {e : QueuedEviction} (ha : s.LeavesAlone e.record.id s')
    (h : s.Left k e) : s'.Left k e := by
  refine ⟨ha.linked h.linked, ?_, fun f hf hid => ?_, fun l hl => ?_⟩
  · rw [ha.channel]
    exact h.closed
  · exact h.only f ((ha.entries f hid).mp hf) hid
  · obtain ⟨he, hversion⟩ := h.held l (ha.lease ▸ hl)
    exact ⟨(ha.entries e rfl).mpr he, hversion⟩

/-- An entry that is gone does not come back. -/
theorem Step.keepsLeft {e : QueuedEviction} (hstep : s.Step k q e.record.id s') (h : s.Left k e) :
    s'.Left k e ∧ (e ∈ s'.server.desk.queue.entries → e ∈ s.server.desk.queue.entries) := by
  cases hstep with
  | operate x now l stays =>
    obtain ⟨hleft, hdesk⟩ := h.operate (q := q) x now l
    exact ⟨hleft, hdesk ▸ fun he => he⟩
  | evict now l =>
    obtain ⟨hleft, hmem, -⟩ := h.evict (q := q) now l
    exact ⟨hleft, hmem⟩
  | aside alone => exact ⟨alone.keepsLeft h, (alone.entries e rfl).mp⟩

theorem Left.steps {e : QueuedEviction} (h : s.Left k e)
    (hsteps : Relation.ReflTransGen (Step k q e.record.id) s s') :
    s'.Left k e ∧ (e ∈ s'.server.desk.queue.entries → e ∈ s.server.desk.queue.entries) := by
  induction hsteps with
  | refl => exact ⟨h, fun he => he⟩
  | tail _ hstep ih =>
    obtain ⟨hleft, hmem⟩ := hstep.keepsLeft ih.1
    exact ⟨hleft, fun he => ih.2 (hmem he)⟩

/-! ## The end -/

/-- Neither server holds a lease of the instance, and no entry of it is queued. -/
structure Gone (id : InstanceId) (s : Station ε) : Prop where
  here : s.server.store.lease? id = none
  there : s.receiver.store.lease? id = none
  unqueued : s.server.desk.queue.contains id = false

theorem Left.gone {e : QueuedEviction} (h : s.Left k e)
    (he : e ∉ s.server.desk.queue.entries) : s.Gone e.record.id := by
  have hnone : s.server.store.lease? e.record.id = none :=
    Option.eq_none_iff_forall_ne_some.mpr fun l hl => he (h.held l hl).1
  have hfollows := h.linked.follows
  refine ⟨hnone, ?_, ?_⟩
  · rw [hnone] at hfollows
    generalize s.receiver.store.lease? e.record.id = slot at hfollows ⊢
    cases hfollows with
    | none => rfl
  · rw [EvictionQueue.contains, List.any_eq_false]
    intro f hf hid
    exact he (h.only f hf (beq_iff_eq.mp hid) ▸ hf)

theorem Gone.open (h : s.Gone id) (hwf : s.server.store.WellFormed)
    (hwfThere : s.receiver.store.WellFormed) (hk : k < s.server.coordinator.peers)
    (hidle : s.channel.state = .idle) : s.Open k id := by
  refine ⟨⟨hwf, hwfThere, hk, ?_⟩, by simp [hidle], fun l hl => ?_, fun e he hid => ?_⟩
  · rw [h.here, h.there]
    exact .none
  · cases h.here.symm.trans hl
  · have hnone := List.any_eq_false.mp h.unqueued e he
    exact hnone (beq_iff_eq.mpr hid)

theorem isDue_after {c t : Time} {delay : Millis} {r : Record} {source : Source}
    (hdelay : c.toNat + delay < UInt64.size) (ht : c.toNat + delay ≤ t.toNat) :
    (QueuedEviction.mk r source (c.after delay)).isDue t = true := by
  refine decide_eq_true (UInt64.le_iff_toNat_le.mpr ?_)
  have hafter : (c.after delay).toNat = c.toNat + delay := by
    rw [Time.after, UInt64.toNat_add, UInt64.toNat_ofNat', Nat.add_mod_mod, Nat.mod_eq_of_lt hdelay]
  exact hafter ▸ ht

/-- An instance that nobody held registers on the channel of a station, the connection goes away at
`c`, and nobody but the channel writes the instance. Once an eviction run at or after the time when
the entry is due is not held back, neither server holds the instance, and no entry of it is queued,
whatever happens after that. -/
theorem departed_is_evicted {s₀ s₁ s₂ s₃ : Station ε} {r : Record} {c t : Time} {l : Latency}
    {ls : List Lease} (hk : k < s₀.server.coordinator.peers)
    (hwf : s₀.server.store.WellFormed) (hwfThere : s₀.receiver.store.WellFormed)
    (hunused : s₀.Gone r.id) (hidle : s₀.channel.state = .idle)
    (hbefore : Relation.ReflTransGen (Step k q r.id) s₀ s₁)
    (hregistered : s₁.channel.registered? = .ok r)
    (hbetween : Relation.ReflTransGen (Step k q r.id) (s₁.disconnect c) s₂)
    (hdelay : c.toNat + s₁.server.desk.queue.delay < UInt64.size)
    (ht : c.toNat + s₁.server.desk.queue.delay ≤ t.toNat)
    (hrun : (s₂.evict k q t l).1 = some (.evicted ls))
    (hafter : Relation.ReflTransGen (Step k q r.id) (s₂.evict k q t l).2 s₃) : s₃.Gone r.id := by
  have hopen := (hunused.open hwf hwfThere hk hidle).steps hbefore
  obtain ⟨hleft, -⟩ := (hopen.disconnect hregistered c).steps hbetween
  obtain ⟨hleft, -, hgone⟩ := hleft.evict (q := q) t l
  obtain ⟨hend, hmem⟩ := hleft.steps hafter
  exact hend.gone fun he => hgone ls hrun (isDue_after hdelay ht) (hmem he)

/-- The lease runs out and is registered again by a heartbeat before the connection goes away. -/
theorem departed_is_evicted_revived :
    let record : Record := { Record.bare ⟨"web"⟩ "shop" with lease := ⟨40, 10⟩ }
    let l : Latency := ⟨fun _ => 0, fun _ => 0⟩
    let s₀ : Station Unit := ⟨.fresh ⟨"a", by decide⟩ 1, (Channel.openOn (.empty 90000)).1,
      .fresh ⟨"b", by decide⟩ 1, ()⟩
    let registered := s₀.operate 0 .silent (.message (.register record)) 1000 l
    let expired := (registered.evict 0 .silent 50000 l).2
    let s₁ := expired.operate 0 .silent (.message .heartbeat) 60000 l
    let s₂ := s₁.disconnect 61000
    s₁.channel.registered? = .ok (record.atVersion 2) ∧
      (s₂.receiver.store.lease? record.id).isSome = true ∧
      (s₂.evict 0 .silent 151000 l).2.Gone record.id := by
  intro record l s₀ registered expired s₁ s₂
  have hregistered : s₁.channel.registered? = .ok (record.atVersion 2) :=
    Channel.registered?_eq_ok.mpr (by decide +kernel)
  have hbefore : Relation.ReflTransGen (Step 0 .silent (record.atVersion 2).id) s₀ s₁ :=
    ((Relation.ReflTransGen.single (.operate _ _ l (by simp [Channel.Inbound.message?]))).tail
      (.evict _ l)).tail (.operate _ _ l (by simp [Channel.Inbound.message?]))
  have hleases : (s₂.evict 0 .silent 151000 l).1.map (·.leases.length) = some 1 := by
    decide +kernel
  have hgone : ∀ ls, (s₂.evict 0 .silent 151000 l).1 = some (.evicted ls) →
      (s₂.evict 0 .silent 151000 l).2.Gone (record.atVersion 2).id :=
    fun ls hrun => departed_is_evicted (by decide)
      (show s₀.server.store.WellFormed from Store.wellFormed_empty)
      (show s₀.receiver.store.WellFormed from Store.wellFormed_empty) ⟨rfl, rfl, rfl⟩ rfl hbefore
      hregistered .refl (by decide +kernel) (by decide +kernel) hrun .refl
  refine ⟨hregistered, by decide +kernel, ?_⟩
  generalize s₂.evict 0 .silent 151000 l = res at hgone hleases ⊢
  obtain ⟨_ | (ls | ⟨n, verdict⟩), s₃⟩ := res
  · cases hleases
  · exact hgone ls rfl
  · cases hleases

end Station

end LeaseRegistry
