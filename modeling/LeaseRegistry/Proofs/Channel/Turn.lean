import LeaseRegistry.Proofs.Channel.Host

/-!
# What an operation makes of a channel

`Turn` lists what a whole operation, on any host, can make of a channel, and which writes the
registry took for it: none or one. `turn_operate` says that there is nothing else, and that the
gauges are moved as the channel was.
-/

namespace LeaseRegistry.Channel

/-- What the client hears depends on the replies so far and on whether it is reached. -/
theorem replies_reply {c c' : Channel} (hr : c'.reachable = c.reachable)
    (hs : c'.replies = c.replies) (m : ServerMessage) :
    (c'.reply m).replies = (c.reply m).replies := by
  simp only [reply, hr, apply_ite Channel.replies, hs]

/-- The next version is newer than the channel's, unless the numbers have run out. -/
theorem lt_nextVersion {c : Channel} {stored : Option Version}
    (hc : c.version.toNat + 1 < UInt64.size)
    (hs : ∀ v, stored = some v → v < c.nextVersion stored) : c.version < c.nextVersion stored := by
  cases stored with
  | none =>
    rw [nextVersion_none]
    exact lt_succ hc
  | some v =>
    have hv := hs v rfl
    have hmax : max c.version v = if c.version ≤ v then v else c.version := rfl
    rw [nextVersion, Option.getD_some, hmax] at hv ⊢
    split
    · rename_i hle
      rw [if_pos hle] at hv
      exact UInt64.lt_of_le_of_lt hle hv
    · exact lt_succ hc

/-- The channel is new, or registered with the instance. -/
def MayWrite (c : Channel) (id : InstanceId) : Prop :=
  c.state = .idle ∨ c.state = .registered ∧ ∃ previous, c.current = some previous ∧ previous.id = id

inductive Turn (c : Channel) : Channel → List Accepted → Prop where
  | kept {c' : Channel} (state : c'.state = c.state) (current : c'.current = c.current)
      (version : c'.version = c.version) : Turn c c' []
  | ended {c' : Channel} (state : c'.state = .closed)
      (current : c'.current = c.current ∨ c'.current = none) (version : c'.version = c.version) :
    Turn c c' []
  /-- It holds a record that the registry took. -/
  | wrote {c' : Channel} {w : Accepted} (origin : c.MayWrite w.record.id)
      (state : c'.state = .registered) (current : c'.current = some w.record)
      (version : c'.version = w.record.version) (valid : w.record.Valid)
      (newer : c.version.toNat + 1 < UInt64.size → c.version < w.record.version) : Turn c c' [w]

section

variable {ρ : Type} {h : Host ρ} {now : Time} {c : Channel} {g : ρ} {log : List Asked}

theorem of_handle_listing {b : Backend ρ} {r : Request} {a : Answer} {g' : ρ × List Asked}
    (asked : b.listing.handle (g, log) now r = (a, g')) :
    b.handle g now r = (a, g'.1) ∧ g'.2 = log ++ [(r, a)] := by
  cases asked
  exact ⟨rfl, rfl⟩

theorem Host.handle_eq {r : Request} {a : Answer} {g' : ρ} (asked : h.handle g now r = (a, g')) :
    ∃ time, (h.registry g).handle time r = (a, h.registry g') := by
  obtain ⟨time, htime⟩ := h.handled g now r
  rw [asked] at htime
  exact ⟨time, htime⟩

/-- A host never fails to unregister or to renew. -/
theorem Host.not_failed {r : Request} {g' : ρ} {e : RegistryError} (hr : r.isWrite = false)
    (hof : r.isOfChannel = true) : h.handle g now r ≠ (.failed e, g') := by
  intro asked
  obtain ⟨time, htime⟩ := h.handle_eq asked
  cases r with
  | register record source => cases hr
  | update record deltas source => cases hr
  | unregister id version source => cases htime
  | statusUpdate id status source => cases hof
  | renew id source => cases htime

/-- If the registry took no write so far, it has taken what it takes of the next request. -/
theorem filterMap_accepted? {b : Backend ρ} {r : Request} {a : Answer} {g' : ρ × List Asked}
    (asked : b.listing.handle (g, log) now r = (a, g')) (hlog : log.filterMap accepted? = []) :
    g'.2.filterMap accepted? = (accepted? (r, a)).toList := by
  rw [(of_handle_listing asked).2, List.filterMap_append, hlog, List.nil_append]
  cases hw : accepted? (r, a) with
  | none => exact List.filterMap_cons_none hw
  | some w => exact List.filterMap_cons_some hw

theorem filterMap_accepted?_of_not_applied {b : Backend ρ} {r : Request} {a : Answer}
    {g' : ρ × List Asked} (asked : b.listing.handle (g, log) now r = (a, g'))
    (hlog : log.filterMap accepted? = [])
    (ha : a.isApplied = false) : g'.2.filterMap accepted? = [] := by
  rw [filterMap_accepted? asked hlog, accepted?_of_not_applied _ ha]
  rfl

/-- A write that is not rejected has taken effect. -/
theorem Host.applied_of_not_rejected {r : Request} {record : Record} {a : Answer} {g' : ρ}
    {what : String} (asked : h.handle g now r = (a, g')) (hw : r.isWrite = true)
    (hr : rejection? what record a = none) : a.isApplied = true := by
  obtain ⟨time, htime⟩ := h.handle_eq asked
  cases r with
  | register record' source =>
    obtain rfl : _ = a := congrArg Prod.fst htime
    exact isApplied_of_not_rejected hr
  | update record' deltas source =>
    obtain rfl : _ = a := congrArg Prod.fst htime
    exact isApplied_of_not_rejected hr
  | unregister id version source => cases hw
  | statusUpdate id status source => cases hw
  | renew id source => cases hw

/-- A registration or an update at the next version is taken if it is not rejected. -/
theorem Host.accepted_of_not_rejected {r : Request} {record next : Record} {a : Answer} {g' : ρ}
    {what : String} (asked : h.handle g now r = (a, g')) (hw : r.isWrite = true)
    (hrecord : ∀ w, accepted? (r, a) = some w → w.record = next) (hid : r.id = next.id)
    (hnext : next = record.atVersion (c.nextVersion (h.stored g record.id)))
    (hr : rejection? what next a = none) :
    ∃ w, accepted? (r, a) = some w ∧ w.record = next ∧ next.Valid ∧
      (c.version.toNat + 1 < UInt64.size → c.version < next.version) := by
  obtain ⟨time, htime⟩ := h.handle_eq asked
  have happlied := Host.applied_of_not_rejected asked hw hr
  obtain ⟨w, hw, hvalid, hnewer⟩ := Registry.accepted_of_applied hw htime happlied
  obtain rfl := hrecord w hw
  have hversion : w.record.version = c.nextVersion ((h.registry g).store.version? r.id) := by
    rw [← h.version, hid, hnext, Record.version_atVersion, Record.id_atVersion]
  refine ⟨w, hw, rfl, hvalid, fun hc => ?_⟩
  rw [hversion] at hnewer ⊢
  exact lt_nextVersion hc hnewer

end

theorem turn_operate {ρ : Type} (h : Host ρ) (now : Time) (x : Inbound) (c : Channel) (d : Desk)
    (g : ρ) :
    let (_, c', d', _, asks) := c.operate h.listing now x d (g, [])
    Turn c c' (asks.filterMap accepted?) ∧ d'.gauges = d.gauges.move c.state c'.state := by
  have hkept : ∀ e, Turn c (c.answerError e) [] ∧
      d.gauges = d.gauges.move c.state (c.answerError e).state := by
    intro e
    obtain ⟨hversion, hcurrent, hstate⟩ := core_answerError c e
    rw [hstate, Gauges.move_self]
    exact ⟨.kept hstate hcurrent hversion, rfl⟩
  have hsame : Turn c c [] ∧ d.gauges = d.gauges.move c.state c.state :=
    ⟨.kept rfl rfl rfl, (Gauges.move_self ..).symm⟩
  cases hm : x.message? with
  | none =>
    simp only [operate_of_unreadable _ _ _ _ _ hm]
    exact hkept _
  | some m =>
    rw [operate_of_message _ _ _ _ _ hm]
    have hran := ran_run h.listing now m c d (g, [])
    generalize c.run h.listing now m d (g, []) = res at hran ⊢
    cases hran with
    | refused h => exact hkept _
    | ignored h => exact hsame
    | registrationRejected idle hnext asked hr =>
      simp only [filterMap_accepted?_of_not_applied asked rfl (isApplied_of_rejection hr)]
      exact hkept _
    | @registered record next a g' idle hnext asked hr =>
      obtain ⟨w, hw, rfl, hvalid, hnewer⟩ := h.accepted_of_not_rejected
        (of_handle_listing asked).1 rfl (fun _ => record_of_accepted) rfl hnext hr
      obtain ⟨hversion, hcurrent, hstate⟩ :=
        core_reply ((c.moveTo d .registered).1.note w.record) .ack
      simp only [filterMap_accepted? asked rfl, hw, hstate]
      exact ⟨.wrote (.inl idle) hstate hcurrent hversion hvalid hnewer, rfl⟩
    | updateRejected current same hnext asked hr =>
      simp only [filterMap_accepted?_of_not_applied asked rfl (isApplied_of_rejection hr)]
      exact hkept _
    | @updated record previous next a g' current same hnext asked hr =>
      obtain ⟨w, hw, rfl, hvalid, hnewer⟩ := h.accepted_of_not_rejected
        (of_handle_listing asked).1 rfl (fun _ => record_of_accepted_update) rfl hnext hr
      obtain ⟨hregistered, hprevious⟩ := registered?_eq_ok.mp current
      obtain ⟨hversion, hcurrent, hstate⟩ := core_reply (c.note w.record) .ack
      have hid : previous.id = w.record.id := by
        rw [← same, hnext]
        rfl
      simp only [filterMap_accepted? asked rfl, hw, hstate]
      exact ⟨.wrote (.inr ⟨hregistered, previous, hprevious, hid⟩) (hstate.trans hregistered)
        hcurrent hversion hvalid hnewer, (Gauges.move_self ..).symm⟩
    | unregistrationFailed current asked =>
      exact absurd (of_handle_listing asked).1 (Host.not_failed rfl rfl)
    | @unregistered record a g' current asked hr =>
      obtain ⟨hversion, hcurrent, hstate⟩ :=
        core_reply ({ (c.moveTo d .closed).1 with current := none } : Channel) .ack
      simp only [filterMap_accepted? asked rfl, hstate]
      exact ⟨.ended hstate (.inr hcurrent) hversion, rfl⟩
    | renewalFailed current asked =>
      exact absurd (of_handle_listing asked).1 (Host.not_failed rfl rfl)
    | @renewed record a g' current asked hr found =>
      simp only [filterMap_accepted? asked rfl]
      exact hsame
    | @revivalFailed record next e g' g'' current asked hnext asked' =>
      obtain ⟨g', log⟩ := g'
      simp only [filterMap_accepted?_of_not_applied asked'
        (filterMap_accepted?_of_not_applied asked rfl rfl) rfl]
      exact hsame
    | @revivalOvertaken record next g' g'' current asked hnext asked' =>
      obtain ⟨g', log⟩ := g'
      simp only [filterMap_accepted?_of_not_applied asked'
        (filterMap_accepted?_of_not_applied asked rfl rfl) rfl]
      exact hsame
    | @revived record next a g' g'' current asked hnext asked' hr =>
      obtain ⟨g', log⟩ := g'
      have hlog : log.filterMap accepted? = [] := filterMap_accepted?_of_not_applied asked rfl rfl
      obtain ⟨w, hw, rfl, hvalid, hnewer⟩ := h.accepted_of_not_rejected
        (of_handle_listing asked').1 rfl (fun _ => record_of_accepted) rfl hnext hr
      obtain ⟨hregistered, hrecord⟩ := registered?_eq_ok.mp current
      have hid : record.id = w.record.id := by
        rw [hnext]
        rfl
      simp only [filterMap_accepted? asked' hlog, hw]
      exact ⟨.wrote (.inr ⟨hregistered, record, hrecord, hid⟩) hregistered rfl rfl hvalid
        hnewer, (Gauges.move_self ..).symm⟩

end LeaseRegistry.Channel
