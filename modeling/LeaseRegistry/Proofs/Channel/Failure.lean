import LeaseRegistry.Proofs.Channel.Underway

/-!
# Failed operations

A whole operation on a channel either succeeds or changes nothing but that the client hears of the
error. The reason is that a host leaves everything alone when a request takes no effect, the peers
included (`Host.Steady`), and that it never fails to renew, to unregister or to take back a valid
record.
-/

namespace LeaseRegistry

open Channel

namespace Registry

theorem handle_of_not_applied {g : Registry} {now : Time} {r : Request}
    (h : (g.handle now r).1.isApplied = false) : (g.handle now r).2 = g := by
  obtain ⟨hanswer, hstore⟩ := Prod.mk.inj (g.handle_eq_onSlot now r)
  have he := Slot.effect_handle now r (g.store.lease? r.id)
  have hslot : (Slot.handle now r (g.store.lease? r.id)).2 = g.store.lease? r.id := by
    have hrefused : (Slot.handle now r (g.store.lease? r.id)).1.isApplied = false := hanswer ▸ h
    generalize Slot.message? now r (g.store.lease? r.id) = message at he
    generalize g.store.lease? r.id = slot at he hrefused ⊢
    generalize Slot.handle now r slot = res at he hrefused ⊢
    cases he with
    | refused hn => rfl
    | added => cases hrefused
    | registered => cases hrefused
    | updated => cases hrefused
    | removed => cases hrefused
    | restated => cases hrefused
    | renewed => cases hrefused
  have hsame : (g.handle now r).2.store = g.store := by
    rw [hstore, hslot, Store.put_lease?]
  have hpreservation : (g.handle now r).2.preservation = g.preservation := by
    cases r with
    | register record source => rfl
    | update record deltas source => rfl
    | unregister id version source => rfl
    | statusUpdate id status source =>
      simp only [handle, statusUpdate]
      split <;> rfl
    | renew id source =>
      have hfound : (g.store.renew id now).1 = false := h
      simp only [handle, renew, hfound]
      rfl
  have hext : ∀ {g g' : Registry}, g.store = g'.store → g.preservation = g'.preservation →
      g = g' := by
    rintro ⟨store, preservation⟩ ⟨_, _⟩ rfl rfl
    rfl
  exact hext hsame hpreservation

end Registry

theorem Coordinator.perform_of_not_applied {c : Coordinator} {now : Time} {r : Request}
    (h : (c.perform now r).1.isApplied = false) :
    ∃ a, c.perform now r = (a, none, c) := by
  refine ⟨(c.perform now r).1, ?_⟩
  have hanswer : (c.registry.handle now r).1.isApplied = false := h
  simp only [perform, hanswer, Registry.handle_of_not_applied hanswer, Bool.false_and]
  rfl

namespace Channel

namespace Host

variable {ρ : Type}

/-- A request that takes no effect leaves all as it is, and so nobody else hears of it. -/
def Steady (h : Host ρ) : Prop :=
  ∀ g now r, (h.handle g now r).1.isApplied = false → (h.handle g now r).2 = g

theorem steady_alone : alone.Steady := fun _ _ _ hr => Registry.handle_of_not_applied hr

theorem steady_telling {ε : Type} (p : Peers ε) : (telling p).Steady := by
  rintro ⟨s, env⟩ now r hr
  have hanswer : ((telling p).handle (s, env) now r).1 = (s.coordinator.perform now r).1 := by
    simp only [telling, Server.run_request]
    split <;> rename_i heq <;> rw [heq]
  rw [hanswer] at hr
  obtain ⟨a, hperform⟩ := Coordinator.perform_of_not_applied hr
  simp only [telling, Server.run_request, hperform]

end Host

/-! ## Whole operations -/

/-- What the channel, the desk and the host are after a failed operation: as before, but for the
error that the client hears of unless its channel is closed. After a success the client hears one
acknowledgement, and nothing after a heartbeat, which never fails. -/
structure AllOrNothing {ρ : Type} (x : Inbound) (c : Channel) (d : Desk) (g : ρ)
    (res : Result × Channel × Desk × ρ) : Prop where
  closed : res.1 = .error .channelClosed → res.2 = (c, d, g)
  failed : ∀ e, res.1 = .error e → e ≠ .channelClosed → res.2 = (c.reply (.error e.message), d, g)
  acked : res.1 = .ok () → x.message? ≠ some .heartbeat →
    res.2.1.replies = (c.reply .ack).replies
  heartbeat : x.message? = some .heartbeat → res.1 = .ok () ∧ res.2.1.replies = c.replies

section

variable {ρ : Type} {h : Host ρ} {now : Time} {x : Inbound} {m : ClientMessage} {c : Channel}
  {d : Desk} {g : ρ}

theorem AllOrNothing.of_failed (e : Error) (hx : x.message? ≠ some .heartbeat) :
    AllOrNothing x c d g (.error e, c.answerError e, d, g) := by
  refine ⟨fun he => ?_, fun e' he hne => ?_, nofun, fun hm => absurd hm hx⟩
  · cases he
    rfl
  · cases he
    cases e with
    | channelClosed => exact absurd rfl hne
    | alreadyRegistered => rfl
    | notRegistered => rfl
    | protocol reason => rfl
    | registry e => rfl

theorem AllOrNothing.of_acked {c' : Channel} {d' : Desk} {g' : ρ}
    (hx : x.message? ≠ some .heartbeat) (hr : c'.replies = (c.reply .ack).replies) :
    AllOrNothing x c d g (.ok (), c', d', g') :=
  ⟨nofun, nofun, fun _ _ => hr, fun hm => absurd hm hx⟩

theorem AllOrNothing.of_beat {c' : Channel} {d' : Desk} {g' : ρ}
    (hx : x.message? = some .heartbeat) (hr : c'.replies = c.replies) :
    AllOrNothing x c d g (.ok (), c', d', g') :=
  ⟨nofun, nofun, fun _ hne => absurd hx hne, fun _ => ⟨rfl, hr⟩⟩

/-- A host takes a valid record back, or has a newer one. -/
theorem Host.not_failed_of_valid {record : Record} (hv : record.Valid) {e : RegistryError}
    {g' : ρ} : h.handle g now (.register record .here) ≠ (.failed e, g') := by
  intro asked
  obtain ⟨time, htime⟩ := h.handle_eq asked
  have hanswer := congrArg Prod.fst ((h.registry g).handle_eq_onSlot time (.register record .here))
  rw [htime] at hanswer
  simp only [Store.onSlot, Slot.handle, Slot.register_of_valid hv, Slot.write] at hanswer
  split at hanswer
  · cases hanswer
  · split at hanswer <;> cases hanswer

theorem allOrNothing_operate (hh : h.Steady) (x : Inbound) (hc : c.HoldsValid) (now : Time)
    (d : Desk) (g : ρ) : AllOrNothing x c d g (c.operate h.toBackend now x d g) := by
  have hrejected : ∀ {r : Request} {a : Answer} {g' : ρ} {what : String} {record : Record}
      {e : Error}, h.handle g now r = (a, g') → rejection? what record a = some e → g' = g := by
    intro r a g' what record e asked hr
    have hsteady := hh g now r
    rw [asked] at hsteady
    exact hsteady (isApplied_of_rejection hr)
  cases hm : x.message? with
  | none =>
    rw [operate_of_unreadable _ _ _ _ _ hm]
    exact .of_failed _ (by simp [hm])
  | some m =>
    rw [operate_of_message _ _ _ _ _ hm]
    have hran := ran_run h.toBackend now m c d g
    generalize c.run h.toBackend now m d g = res at hran ⊢
    cases hran with
    | @refused m e he =>
      have hx : m ≠ .heartbeat := by
        rintro rfl
        cases he
      exact .of_failed e (by simpa [hm] using hx)
    | ignored he => exact .of_beat hm rfl
    | @registrationRejected record next a g' e idle hnext asked hr =>
      rw [hrejected asked hr]
      exact .of_failed e (by simp [hm])
    | registered idle hnext asked hr =>
      exact .of_acked (by simp [hm]) (replies_reply (by rfl) (by rfl) .ack)
    | @updateRejected record previous next a g' e current same hnext asked hr =>
      rw [hrejected asked hr]
      exact .of_failed e (by simp [hm])
    | updated current same hnext asked hr =>
      exact .of_acked (by simp [hm]) (replies_reply (by rfl) (by rfl) .ack)
    | unregistrationFailed current asked => exact absurd asked (Host.not_failed rfl rfl)
    | unregistered current asked hn =>
      exact .of_acked (by simp [hm]) (replies_reply (by rfl) (by rfl) .ack)
    | renewalFailed current asked => exact absurd asked (Host.not_failed rfl rfl)
    | renewed current asked hn found => exact .of_beat hm rfl
    | @revivalFailed record next e g' g'' current asked hnext asked' =>
      have hvalid : next.Valid := by
        rw [hnext]
        exact hc record (registered?_eq_ok.mp current).2
      exact absurd asked' (Host.not_failed_of_valid hvalid)
    | revivalOvertaken current asked hnext asked' => exact .of_beat hm rfl
    | revived current asked hnext asked' hr => exact .of_beat hm rfl

end

/-- Whatever reaches a channel of a busy service and is dealt with as a whole. -/
def Host.FailsCleanly {ρ : Type} (h : Host ρ) : Prop :=
  ∀ g delay now acts i c x,
    let s := ((Busy.start g delay now).run h.toBackend acts).service
    s.channel? i = some c →
      AllOrNothing x c s.desk s.host (c.operate h.toBackend s.now x s.desk s.host)

/-- With or without peers, in every state that can be reached: an operation that fails leaves the
channel, the gauges, the queue, the registry and the peers as they were. -/
theorem failed_operation_isNoop {ε : Type} (p : Peers ε) :
    Host.alone.FailsCleanly ∧ (Host.telling p).FailsCleanly := by
  have hclean : ∀ {ρ : Type} (h : Host ρ), h.Steady → h.FailsCleanly := by
    intro ρ h hh g delay now acts i c x s hc
    have hsound := Busy.sound_run h g delay now acts
    exact allOrNothing_operate hh x (hsound.channels i c hc) s.now s.desk s.host
  exact ⟨hclean _ Host.steady_alone, hclean _ (Host.steady_telling p)⟩

/-- A peer hears of the registration of an instance, and of no second one on the same channel. -/
theorem failed_operation_isNoop_registeredAgain :
    let p : Peers (List PeerMessage) := ⟨fun calls now _ m => (.timedOut, now, calls ++ [m])⟩
    let c : Coordinator := ⟨⟨"a", by decide⟩, .start .standard 0, .start 0 300000, none, 1, 200,
      .standard 3⟩
    let server : Server := ⟨c, .empty 90000, false, ⟨"registry", "a:1", none⟩⟩
    let x : Inbound := .message (.register (Record.bare ⟨"web"⟩ "shop"))
    let s := ((Busy.start (server, []) 90000 0).run (Host.telling p).toBackend
      [.whole .connect, .whole (.operate 0 x)]).service
    ∃ c, s.channel? 0 = some c ∧ s.host.2.length = 1 ∧
      (c.operate (Host.telling p).toBackend s.now x s.desk s.host).2 =
        (c.reply (.error Error.alreadyRegistered.message), s.desk, s.host) := by
  intro p c server x s
  have hnoop := (failed_operation_isNoop p).2 (server, []) 90000 0
    [.whole .connect, .whole (.operate 0 x)] 0 _ x rfl
  exact ⟨_, rfl, by decide +kernel, hnoop.failed _ rfl (by intro h; cases h)⟩

end Channel

end LeaseRegistry
