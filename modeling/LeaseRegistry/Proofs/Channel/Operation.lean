import LeaseRegistry.Channel.Operation

/-!
# What a whole operation comes to

`Ran` lists the ways in which an operation on a channel can end when nothing comes between its
steps: what the registry was asked, what became of the channel and the desk, and the result.
`ran_run` says that there are no others, over any registry.
-/

namespace LeaseRegistry

namespace Channel

theorem Gauges.move_self (g : Gauges) (s : State) : g.move s s = g := if_pos rfl

theorem Gauges.move_move (g : Gauges) (s t : State) : (g.move s t).move t s = g := by
  by_cases h : s = t
  · simp [move, h]
  · obtain ⟨idle, registered, closed⟩ := g
    cases s <;> cases t <;> simp_all [move, leave, enter, add, Int64.add_assoc]

/-- Without a lease only the channel's own view counts. -/
theorem nextVersion_none (c : Channel) : c.nextVersion none = c.version + 1 := by
  have hmax : max c.version 0 = c.version := by
    change (if c.version ≤ 0 then 0 else c.version) = c.version
    split
    · rename_i h
      rw [UInt64.le_iff_toNat_le] at h
      exact (UInt64.toNat_inj.mp (Nat.le_zero.mp h)).symm
    · rfl
  rw [nextVersion, Option.getD_none, hmax]

/-- The last thing that the client of a failed operation hears. -/
def answerError (c : Channel) (e : Error) : Channel :=
  match e.reply? with
  | some m => c.reply m
  | none => c

/-- Why an operation is refused before the registry is asked. -/
def refusal? (c : Channel) : ClientMessage → Option Error
  | .register _ =>
    match c.state with
    | .idle => none
    | .registered => some .alreadyRegistered
    | .closed => some .channelClosed
  | .update record =>
    match c.registered? with
    | .error e => some e
    | .ok previous =>
      if record.id = previous.id then none else some (.otherInstance record.id previous.id)
  | .unregister =>
    match c.registered? with
    | .error e => some e
    | .ok _ => none
  | .heartbeat => none

/-- Why a write failed, if the registry did not take it. -/
def rejection? (what : String) (record : Record) : Answer → Option Error
  | .failed e => some (.registry e)
  | .changed .superseded => some (.overtaken what record)
  | _ => none

/-! ## The steps between two requests -/

section

variable {now : Time} {c : Channel} {d : Desk} {a : Answer} {record : Record} {e : Error}
  {stored : InstanceId → Option Version}

theorem settle_calling (call : Call) : settle now (.calling call) c d = (.calling call, c, d) := rfl

theorem settle_finished (r : Result) : settle now (.finished r) c d = (.finished r, c, d) := rfl

theorem settle_failing (e : Error) :
    settle now (.failing e) c d = (.finished (.error e), c.answerError e, d) := by
  unfold answerError Phase.failing
  cases e.reply? <;> rfl

theorem settle_registered (h : c.state ≠ .closed) :
    settle now (.taken (.register record)) c d =
      (.finished (.ok ()), (c.note record).reply .ack, d) := by
  have htaken : advance now c d (.taken (.register record)) = (.noted record, c.note record, d) :=
    rfl
  have hnoted : advance now (c.note record) d (.noted record) = (.acking, c.note record, d) :=
    if_neg h
  simp only [settle, htaken, hnoted]
  rfl

theorem settle_updated (deltas : List Delta) :
    settle now (.taken (.update record deltas)) c d =
      (.finished (.ok ()), (c.note record).reply .ack, d) := rfl

theorem settle_unregistered (version : Version) :
    settle now (.taken (.unregister record version)) c d =
      (.finished (.ok ()), ({ c with current := none } : Channel).reply .ack, d) := rfl

theorem answered_register_rejected (h : rejection? "registration" record a = some e) :
    answered (.register record) a stored now c d = (.failing e, c.giveUp d) := by
  cases a with
  | changed change =>
    cases change <;> cases h
    rfl
  | renewed b => cases h
  | failed e => cases h; rfl

theorem answered_register (h : rejection? "registration" record a = none) :
    answered (.register record) a stored now c d = (.taken (.register record), c, d) := by
  cases a with
  | changed change => cases change <;> first | rfl | cases h
  | renewed b => rfl
  | failed e => cases h

theorem answered_update_rejected {deltas : List Delta} (h : rejection? "update" record a = some e) :
    answered (.update record deltas) a stored now c d = (.failing e, c, d) := by
  cases a with
  | changed change =>
    cases change <;> cases h
    rfl
  | renewed b => cases h
  | failed e => cases h; rfl

theorem answered_update {deltas : List Delta} (h : rejection? "update" record a = none) :
    answered (.update record deltas) a stored now c d = (.taken (.update record deltas), c, d) := by
  cases a with
  | changed change => cases change <;> first | rfl | cases h
  | renewed b => rfl
  | failed e => cases h

/-- A registration that is given up leaves no trace but the reply. -/
theorem giveUp_moveTo (h : c.state = .idle) :
    (c.moveTo d .registered).1.giveUp (c.moveTo d .registered).2 = (c, d) := by
  have hregistered : (c.moveTo d .registered).1.state = .registered := rfl
  have hchannel : ({ c with state := .idle } : Channel) = c := by
    rw [← h]
  have hgauges : (d.gauges.move c.state .registered).move .registered .idle = d.gauges := by
    rw [h, Gauges.move_move]
  rw [giveUp, if_pos hregistered]
  simp only [moveTo, hchannel, hgauges]

end

/-! ## Whole operations -/

section

variable {ρ : Type}

inductive Ran (b : Backend ρ) (now : Time) (c : Channel) (d : Desk) (g : ρ) :
    ClientMessage → Result × Channel × Desk × ρ → Prop where
  | refused {m : ClientMessage} {e : Error} (h : c.refusal? m = some e) :
    Ran b now c d g m (.error e, c.answerError e, d, g)
  | ignored {e : Error} (h : c.registered? = .error e) :
    Ran b now c d g .heartbeat (.ok (), c, d, g)
  | registrationRejected {record next : Record} {a : Answer} {g' : ρ} {e : Error}
      (idle : c.state = .idle)
      (hnext : next = record.atVersion (c.nextVersion (b.stored g record.id)))
      (asked : b.handle g now (.register next .here) = (a, g'))
      (h : rejection? "registration" next a = some e) :
    Ran b now c d g (.register record) (.error e, c.answerError e, d, g')
  | registered {record next : Record} {a : Answer} {g' : ρ} (idle : c.state = .idle)
      (hnext : next = record.atVersion (c.nextVersion (b.stored g record.id)))
      (asked : b.handle g now (.register next .here) = (a, g'))
      (h : rejection? "registration" next a = none) :
    Ran b now c d g (.register record)
      (.ok (), ((c.moveTo d .registered).1.note next).reply .ack, (c.moveTo d .registered).2, g')
  | updateRejected {record previous next : Record} {a : Answer} {g' : ρ} {e : Error}
      (current : c.registered? = .ok previous) (same : record.id = previous.id)
      (hnext : next = record.atVersion (c.nextVersion (b.stored g record.id)))
      (asked : b.handle g now (.update next (next.diff previous) .here) = (a, g'))
      (h : rejection? "update" next a = some e) :
    Ran b now c d g (.update record) (.error e, c.answerError e, d, g')
  | updated {record previous next : Record} {a : Answer} {g' : ρ}
      (current : c.registered? = .ok previous) (same : record.id = previous.id)
      (hnext : next = record.atVersion (c.nextVersion (b.stored g record.id)))
      (asked : b.handle g now (.update next (next.diff previous) .here) = (a, g'))
      (h : rejection? "update" next a = none) :
    Ran b now c d g (.update record) (.ok (), (c.note next).reply .ack, d, g')
  | unregistrationFailed {record : Record} {e : RegistryError} {g' : ρ}
      (current : c.registered? = .ok record)
      (asked : b.handle g now (.unregister record.id c.version .here) = (.failed e, g')) :
    Ran b now c d g .unregister
      (.error (.registry e), (c.moveTo d .closed).1.answerError (.registry e),
        (c.moveTo d .closed).2.queueEviction record now, g')
  | unregistered {record : Record} {a : Answer} {g' : ρ} (current : c.registered? = .ok record)
      (asked : b.handle g now (.unregister record.id c.version .here) = (a, g'))
      (h : ∀ e, a ≠ .failed e) :
    Ran b now c d g .unregister
      (.ok (), ({ (c.moveTo d .closed).1 with current := none } : Channel).reply .ack,
        (c.moveTo d .closed).2, g')
  | renewalFailed {record : Record} {e : RegistryError} {g' : ρ}
      (current : c.registered? = .ok record)
      (asked : b.handle g now (.renew record.id .here) = (.failed e, g')) :
    Ran b now c d g .heartbeat (.error (.registry e), c, d, g')
  | renewed {record : Record} {a : Answer} {g' : ρ} (current : c.registered? = .ok record)
      (asked : b.handle g now (.renew record.id .here) = (a, g')) (h : ∀ e, a ≠ .failed e)
      (found : a ≠ .renewed false) :
    Ran b now c d g .heartbeat (.ok (), c, d, g')
  | revivalFailed {record next : Record} {e : RegistryError} {g' g'' : ρ}
      (current : c.registered? = .ok record)
      (asked : b.handle g now (.renew record.id .here) = (.renewed false, g'))
      (hnext : next = record.atVersion (c.nextVersion (b.stored g' record.id)))
      (asked' : b.handle g' now (.register next .here) = (.failed e, g'')) :
    Ran b now c d g .heartbeat (.error (.registry e), c, d, g'')
  | revivalOvertaken {record next : Record} {g' g'' : ρ} (current : c.registered? = .ok record)
      (asked : b.handle g now (.renew record.id .here) = (.renewed false, g'))
      (hnext : next = record.atVersion (c.nextVersion (b.stored g' record.id)))
      (asked' : b.handle g' now (.register next .here) = (.changed .superseded, g'')) :
    Ran b now c d g .heartbeat (.ok (), c, d, g'')
  | revived {record next : Record} {a : Answer} {g' g'' : ρ} (current : c.registered? = .ok record)
      (asked : b.handle g now (.renew record.id .here) = (.renewed false, g'))
      (hnext : next = record.atVersion (c.nextVersion (b.stored g' record.id)))
      (asked' : b.handle g' now (.register next .here) = (a, g''))
      (h : rejection? "registration" next a = none) :
    Ran b now c d g .heartbeat (.ok (), c.note next, d, g'')

section

variable (b : Backend ρ) (now : Time) (c : Channel) (d : Desk) (g : ρ)

theorem ran_register (record : Record) :
    Ran b now c d g (.register record) (c.run b now (.register record) d g) := by
  cases hs : c.state with
  | idle =>
    generalize hnext : record.atVersion (c.nextVersion (b.stored g record.id)) = next
    obtain ⟨a, g', hask⟩ : ∃ a g', b.handle g now (.register next .here) = (a, g') := ⟨_, _, rfl⟩
    simp only [run, begin, hs, hnext, settle_calling, askOnce, Call.request, hask]
    cases hrej : rejection? "registration" next a with
    | some e =>
      simp only [answered_register_rejected hrej, giveUp_moveTo hs, settle_failing]
      exact .registrationRejected hs hnext.symm hask hrej
    | none =>
      have hopen : (c.moveTo d .registered).1.state ≠ .closed := by simp [moveTo]
      simp only [answered_register hrej, settle_registered hopen]
      exact .registered hs hnext.symm hask hrej
  | registered =>
    have h : c.refusal? (.register record) = some .alreadyRegistered := by
      simp only [refusal?, hs]
    simp only [run, begin, hs, settle_failing, askOnce]
    exact .refused h
  | closed =>
    have h : c.refusal? (.register record) = some .channelClosed := by
      simp only [refusal?, hs]
    simp only [run, begin, hs, settle_failing, askOnce]
    exact .refused h

theorem ran_update (record : Record) :
    Ran b now c d g (.update record) (c.run b now (.update record) d g) := by
  cases hc : c.registered? with
  | error e =>
    have h : c.refusal? (.update record) = some e := by simp only [refusal?, hc]
    simp only [run, begin, hc, settle_failing, askOnce]
    exact .refused h
  | ok previous =>
    by_cases hid : record.id = previous.id
    · generalize hnext : record.atVersion (c.nextVersion (b.stored g record.id)) = next
      obtain ⟨a, g', hask⟩ : ∃ a g',
          b.handle g now (.update next (next.diff previous) .here) = (a, g') := ⟨_, _, rfl⟩
      simp only [run, begin, hc, if_pos hid, hnext, settle_calling, askOnce, Call.request, hask]
      cases hrej : rejection? "update" next a with
      | some e =>
        simp only [answered_update_rejected hrej, settle_failing]
        exact .updateRejected hc hid hnext.symm hask hrej
      | none =>
        simp only [answered_update hrej, settle_updated]
        exact .updated hc hid hnext.symm hask hrej
    · have h : c.refusal? (.update record) = some (.otherInstance record.id previous.id) := by
        simp only [refusal?, hc, if_neg hid]
      simp only [run, begin, hc, if_neg hid, settle_failing, askOnce]
      exact .refused h

theorem ran_unregister : Ran b now c d g .unregister (c.run b now .unregister d g) := by
  cases hc : c.registered? with
  | error e =>
    have h : c.refusal? .unregister = some e := by simp only [refusal?, hc]
    simp only [run, begin, hc, settle_failing, askOnce]
    exact .refused h
  | ok record =>
    obtain ⟨a, g', hask⟩ : ∃ a g',
        b.handle g now (.unregister record.id c.version .here) = (a, g') := ⟨_, _, rfl⟩
    simp only [run, begin, hc, settle_calling, askOnce, Call.request, hask]
    cases a with
    | failed e =>
      simp only [answered, settle_failing]
      exact .unregistrationFailed hc hask
    | changed change =>
      simp only [answered, settle_unregistered]
      exact .unregistered hc hask (by simp)
    | renewed found =>
      simp only [answered, settle_unregistered]
      exact .unregistered hc hask (by simp)

/-- A heartbeat whose lease is gone registers the record again. -/
theorem ran_heartbeat_of_lost {record : Record} {g' : ρ} (hc : c.registered? = .ok record)
    (hask : b.handle g now (.renew record.id .here) = (.renewed false, g')) :
    Ran b now c d g .heartbeat (c.run b now .heartbeat d g) := by
  generalize hnext : record.atVersion (c.nextVersion (b.stored g' record.id)) = next
  obtain ⟨a, g'', hask'⟩ : ∃ a g'', b.handle g' now (.register next .here) = (a, g'') :=
    ⟨_, _, rfl⟩
  simp only [run, begin, hc, settle_calling, askOnce, Call.request, hask, answered, hnext, hask']
  cases a with
  | failed e => exact .revivalFailed hc hask hnext.symm hask'
  | renewed found => exact .revived hc hask hnext.symm hask' rfl
  | changed change =>
    cases change with
    | superseded => exact .revivalOvertaken hc hask hnext.symm hask'
    | added => exact .revived hc hask hnext.symm hask' rfl
    | modified => exact .revived hc hask hnext.symm hask' rfl
    | removed => exact .revived hc hask hnext.symm hask' rfl

theorem ran_heartbeat : Ran b now c d g .heartbeat (c.run b now .heartbeat d g) := by
  cases hc : c.registered? with
  | error e =>
    simp only [run, begin, hc, settle_finished, askOnce]
    exact .ignored hc
  | ok record =>
    obtain ⟨a, g', hask⟩ : ∃ a g', b.handle g now (.renew record.id .here) = (a, g') :=
      ⟨_, _, rfl⟩
    cases a with
    | failed e =>
      simp only [run, begin, hc, settle_calling, askOnce, Call.request, hask, answered,
        settle_finished]
      exact .renewalFailed hc hask
    | changed change =>
      simp only [run, begin, hc, settle_calling, askOnce, Call.request, hask, answered,
        settle_finished]
      exact .renewed hc hask (by simp) (by simp)
    | renewed found =>
      cases found with
      | true =>
        simp only [run, begin, hc, settle_calling, askOnce, Call.request, hask, answered,
          settle_finished]
        exact .renewed hc hask (by simp) (by simp)
      | false => exact ran_heartbeat_of_lost b now c d g hc hask

end

theorem ran_run (b : Backend ρ) (now : Time) (m : ClientMessage) (c : Channel) (d : Desk) (g : ρ) :
    Ran b now c d g m (c.run b now m d g) := by
  cases m with
  | register record => exact ran_register b now c d g record
  | update record => exact ran_update b now c d g record
  | unregister => exact ran_unregister b now c d g
  | heartbeat => exact ran_heartbeat b now c d g

end

end Channel

end LeaseRegistry
