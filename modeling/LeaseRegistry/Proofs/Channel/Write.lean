import LeaseRegistry.Proofs.Channel.Operation
import LeaseRegistry.Proofs.Replication.Slot

/-!
# What a channel writes

A whole operation on a channel either writes nothing, and then no stored record changes, or it
writes one record, which the channel and the store hold afterwards. `Written` is the write as the
store sees it; `Channel.written_or_quiet` says which of the two an operation is.
-/

namespace LeaseRegistry

/-- What a channel asks of the registry, and the answer. -/
abbrev Asked := Request × Answer

/-- A record that the registry took from a channel, and whether this created the lease. -/
structure Accepted where
  record : Record
  creates : Bool
  deriving DecidableEq

/-- The write that was asked for, if the registry took it. -/
def accepted? : Asked → Option Accepted
  | (.register record _, .changed .added) => some ⟨record, true⟩
  | (.register record _, .changed .modified) => some ⟨record, false⟩
  | (.update record _ _, .changed .modified) => some ⟨record, false⟩
  | _ => none

namespace Store

variable {s s' : Store}

/-- Leases may be gone or renewed, but no record has changed. -/
def KeepsRecords (s s' : Store) : Prop :=
  ∀ id l', s'.lease? id = some l' → ∃ l, s.lease? id = some l ∧ l'.record = l.record

theorem KeepsRecords.refl (s : Store) : KeepsRecords s s := fun _ l h => ⟨l, h, rfl⟩

theorem KeepsRecords.of_slot {id : InstanceId} {slot : Slot}
    (h : ∀ k, s'.lease? k = if k = id then slot else s.lease? k)
    (hslot : ∀ l', slot = some l' → ∃ l, s.lease? id = some l ∧ l'.record = l.record) :
    KeepsRecords s s' := by
  intro k l' hl'
  rw [h] at hl'
  split at hl'
  · subst k
    exact hslot l' hl'
  · exact ⟨l', hl', rfl⟩

/-- The store took the write `w`: it created a lease, or its version is newer than the one of the
lease there was. -/
structure Took (s : Store) (w : Accepted) (s' : Store) : Prop where
  held : ∃ l, s'.lease? w.record.id = some l ∧ l.record = w.record
  others : ∀ id, id ≠ w.record.id → s'.lease? id = s.lease? id
  created : w.creates = true → s.lease? w.record.id = none
  newer : w.creates = false → ∃ l, s.lease? w.record.id = some l ∧ l.version < w.record.version

end Store

namespace Registry

variable {g : Registry} (hs : g.store.WellFormed) (now : Time) (r : Request)
include hs

theorem wellFormed_handle {a : Answer} {g' : Registry} (h : g.handle now r = (a, g')) :
    g'.store.WellFormed := by
  have hstore := congrArg Prod.snd (g.handle_eq_onSlot now r)
  simp only [h] at hstore
  rw [hstore]
  exact hs.onSlot (Slot.KeepsId.handle now r)

theorem lease?_handle (k : InstanceId) :
    (g.handle now r).2.store.lease? k =
      if k = r.id then (Slot.handle now r (g.store.lease? r.id)).2 else g.store.lease? k := by
  have h := congrArg Prod.snd (g.handle_eq_onSlot now r)
  simp only at h
  rw [h]
  exact Store.lease?_onSlot hs r.id k _

end Registry

theorem accepted?_renew (id : InstanceId) (source : Source) (a : Answer) :
    accepted? (.renew id source, a) = none := rfl

theorem accepted?_of_not_applied (r : Request) {a : Answer} (h : a.isApplied = false) :
    accepted? (r, a) = none := by
  cases a with
  | changed c =>
    cases c <;> cases h
    cases r <;> rfl
  | renewed b => cases r <;> rfl
  | failed e => cases r <;> rfl

theorem record_of_accepted {record : Record} {source : Source} {a : Answer} {w : Accepted}
    (h : accepted? (.register record source, a) = some w) : w.record = record := by
  cases a with
  | changed c => cases c <;> cases h <;> rfl
  | renewed b => cases h
  | failed e => cases h

theorem record_of_accepted_update {record : Record} {deltas : List Delta} {source : Source}
    {a : Answer} {w : Accepted} (h : accepted? (.update record deltas source, a) = some w) :
    w.record = record := by
  cases a with
  | changed c =>
    cases c <;> cases h
    rfl
  | renewed b => cases h
  | failed e => cases h

/-- Channels make requests of all kinds but one: they never change the status alone. -/
def Request.isOfChannel : Request → Bool
  | statusUpdate .. => false
  | _ => true

def Request.isWrite : Request → Bool
  | register .. | update .. => true
  | _ => false

/-- A request that takes no write leaves the records alone, and one that does stores the record. -/
theorem Registry.took_or_keeps {g g' : Registry} {now : Time} {r : Request} {a : Answer}
    (hs : g.store.WellFormed) (hr : r.isOfChannel = true) (h : g.handle now r = (a, g')) :
    (accepted? (r, a) = none ∧ g.store.KeepsRecords g'.store ∧
        (r.isWrite = true → a.isApplied = false)) ∨
      ∃ w, accepted? (r, a) = some w ∧ w.record.id = r.id ∧ g.store.Took w g'.store := by
  have he := Slot.effect_handle now r (g.store.lease? r.id)
  have ha : (Slot.handle now r (g.store.lease? r.id)).1 = a :=
    (congrArg Prod.fst (g.handle_eq_onSlot now r)).symm.trans (congrArg Prod.fst h)
  have hl := lease?_handle hs now r
  rw [h] at hl
  generalize Slot.message? now r (g.store.lease? r.id) = message at he
  generalize hslot : g.store.lease? r.id = slot at he ha hl
  generalize Slot.handle now r slot = res at he ha hl
  subst ha
  have hself := hl r.id
  rw [if_pos rfl] at hself
  have hothers : ∀ k, k ≠ r.id → g'.store.lease? k = g.store.lease? k := by
    intro k hk
    rw [hl, if_neg hk]
  cases he with
  | refused hn =>
    refine .inl ⟨accepted?_of_not_applied r hn, .of_slot hl fun l' hl' => ?_, fun _ => hn⟩
    exact ⟨l', hslot.trans hl', rfl⟩
  | @added record source valid =>
    refine .inr ⟨⟨record, true⟩, rfl, rfl, ⟨⟨_, hself, rfl⟩, hothers, fun _ => hslot, by simp⟩⟩
  | @registered record source l valid newer =>
    refine .inr ⟨⟨record, false⟩, rfl, rfl, ⟨⟨_, hself, rfl⟩, hothers, by simp, fun _ => ?_⟩⟩
    exact ⟨l, hslot, newer⟩
  | @updated record deltas source l valid newer =>
    refine .inr ⟨⟨record, false⟩, rfl, rfl, ⟨⟨_, hself, rfl⟩, hothers, by simp, fun _ => ?_⟩⟩
    exact ⟨l, hslot, newer⟩
  | removed notOlder => exact .inl ⟨rfl, .of_slot hl (by simp), fun hw => by cases hw⟩
  | restated newer => cases hr
  | @renewed id source l =>
    refine .inl ⟨rfl, .of_slot hl fun l' hl' => ⟨l, hslot, ?_⟩, fun hw => by cases hw⟩
    cases hl'
    rfl

namespace Channel

/-- The registry with the requests it was asked so far, in order. -/
def Backend.logged : Backend (Registry × List Asked) where
  handle g now request :=
    let (a, registry) := g.1.handle now request
    (a, registry, g.2 ++ [(request, a)])
  stored g id := g.1.store.version? id

/-- An operation that wrote nothing. The channel stays as it is or is closed. -/
structure Quiet (c : Channel) (s : Store) (c' : Channel) (s' : Store) (asks : List Asked) :
    Prop where
  asks : asks.filterMap accepted? = []
  version : c'.version = c.version
  current : c'.current = c.current ∨ c'.current = none
  state : c'.state = c.state ∨ c'.state = .closed
  records : s.KeepsRecords s'

/-- An operation that wrote `w`, at the next version of the channel. The channel is new, or it had
a record of the same instance. -/
structure Wrote (w : Accepted) (c : Channel) (s : Store) (c' : Channel) (s' : Store)
    (asks : List Asked) : Prop where
  asks : asks.filterMap accepted? = [w]
  version : c'.version = w.record.version
  current : c'.current = some w.record
  state : c'.state = .registered
  origin : c.state = .idle ∨
    c.state = .registered ∧ ∃ previous, c.current = some previous ∧ previous.id = w.record.id
  numbered : w.record.version = c.nextVersion (s.version? w.record.id)
  took : s.Took w s'

variable {c : Channel} {d : Desk} {g : Registry} {log : List Asked} {now : Time}
  {m : ClientMessage}

theorem of_handle_logged {request : Request} {a : Answer} {g' : Registry × List Asked}
    (h : Backend.logged.handle (g, log) now request = (a, g')) :
    g.handle now request = (a, g'.1) ∧ g'.2 = log ++ [(request, a)] := by
  cases h
  exact ⟨rfl, rfl⟩

theorem registered?_eq_ok {record : Record} :
    c.registered? = .ok record ↔ c.state = .registered ∧ c.current = some record := by
  unfold registered?
  cases c.state <;> cases c.current <;> simp

theorem core_reply (c : Channel) (m : ServerMessage) :
    (c.reply m).version = c.version ∧ (c.reply m).current = c.current ∧
      (c.reply m).state = c.state := by
  unfold reply
  split <;> exact ⟨rfl, rfl, rfl⟩

theorem core_answerError (c : Channel) (e : Error) :
    (c.answerError e).version = c.version ∧ (c.answerError e).current = c.current ∧
      (c.answerError e).state = c.state := by
  unfold answerError
  split
  · exact core_reply c _
  · exact ⟨rfl, rfl, rfl⟩

/-- A failed operation that wrote nothing leaves the channel as it is. -/
theorem Quiet.of_answerError (c : Channel) (e : Error) {s s' : Store} {asks : List Asked}
    (ha : asks.filterMap accepted? = []) (hs : s.KeepsRecords s') :
    Quiet c s (c.answerError e) s' asks := by
  obtain ⟨hversion, hcurrent, hstate⟩ := core_answerError c e
  exact ⟨ha, hversion, .inl hcurrent, .inl hstate, hs⟩

theorem isApplied_of_rejection {what : String} {record : Record} {a : Answer} {e : Error}
    (h : rejection? what record a = some e) : a.isApplied = false := by
  cases a with
  | changed change =>
    cases change <;> cases h
    rfl
  | renewed b => cases h
  | failed e => rfl

theorem isApplied_of_not_rejected {what : String} {record : Record}
    {x : Except StoreError Change} (h : rejection? what record (.ofStore x) = none) :
    (Answer.ofStore x).isApplied = true := by
  cases x with
  | ok change => cases change <;> first | rfl | cases h
  | error e => cases h

theorem took_of_applied {g' : Registry} {r : Request} {a : Answer} (hs : g.store.WellFormed)
    (hr : r.isOfChannel = true) (hwrite : r.isWrite = true) (h : g.handle now r = (a, g'))
    (ha : a.isApplied = true) :
    ∃ w, accepted? (r, a) = some w ∧ g.store.Took w g'.store := by
  rcases Registry.took_or_keeps hs hr h with ⟨-, -, hn⟩ | ⟨w, hw, -, htook⟩
  · rw [hn hwrite] at ha
    cases ha
  · exact ⟨w, hw, htook⟩

theorem took_register {g' : Registry} {next : Record} {a : Answer} (hs : g.store.WellFormed)
    (h : g.handle now (.register next .here) = (a, g'))
    (ha : rejection? "registration" next a = none) :
    ∃ w, accepted? (.register next .here, a) = some w ∧ w.record = next ∧
      g.store.Took w g'.store := by
  have happlied : a.isApplied = true := by
    obtain rfl : _ = a := congrArg Prod.fst h
    exact isApplied_of_not_rejected ha
  obtain ⟨w, hw, htook⟩ := took_of_applied hs rfl rfl h happlied
  exact ⟨w, hw, record_of_accepted hw, htook⟩

theorem took_update {g' : Registry} {next : Record} {deltas : List Delta} {a : Answer}
    (hs : g.store.WellFormed) (h : g.handle now (.update next deltas .here) = (a, g'))
    (ha : rejection? "update" next a = none) :
    ∃ w, accepted? (.update next deltas .here, a) = some w ∧ w.record = next ∧
      g.store.Took w g'.store := by
  have happlied : a.isApplied = true := by
    obtain rfl : _ = a := congrArg Prod.fst h
    exact isApplied_of_not_rejected ha
  obtain ⟨w, hw, htook⟩ := took_of_applied hs rfl rfl h happlied
  exact ⟨w, hw, record_of_accepted_update hw, htook⟩

theorem keeps_of_not_applied {g' : Registry} {r : Request} {a : Answer} (hs : g.store.WellFormed)
    (hr : r.isOfChannel = true) (h : g.handle now r = (a, g')) (ha : accepted? (r, a) = none) :
    g.store.KeepsRecords g'.store := by
  rcases Registry.took_or_keeps hs hr h with ⟨-, hkeeps, -⟩ | ⟨w, hw, -, -⟩
  · exact hkeeps
  · rw [ha] at hw
    cases hw

theorem store_of_renewed_false {g' : Registry} {id : InstanceId} {source : Source}
    (h : g.handle now (.renew id source) = (.renewed false, g')) : g'.store = g.store := by
  obtain ⟨found, s, hr⟩ : ∃ found s, g.store.renew id now = (found, s) := ⟨_, _, rfl⟩
  simp only [Registry.handle, Registry.renew, hr] at h
  cases h
  unfold Store.renew at hr
  split at hr <;> cases hr
  rfl

theorem kept_of_not_accepted {r : Request} {a : Answer} {g' : Registry × List Asked}
    (hs : g.store.WellFormed) (hr : r.isOfChannel = true)
    (asked : Backend.logged.handle (g, log) now r = (a, g')) (ha : accepted? (r, a) = none)
    (hlog : log.filterMap accepted? = []) :
    g'.1.store.WellFormed ∧ g'.2.filterMap accepted? = [] ∧
      g.store.KeepsRecords g'.1.store := by
  obtain ⟨hhandle, hasks⟩ := of_handle_logged asked
  refine ⟨Registry.wellFormed_handle hs now r hhandle, ?_, keeps_of_not_applied hs hr hhandle ha⟩
  rw [hasks, List.filterMap_append, hlog, List.filterMap_cons_none ha]
  rfl

/-- So does a renewal that found nothing, with a registration after it that is not taken. -/
theorem kept_of_not_revived {id : InstanceId} {next : Record} {a : Answer}
    {g' g'' : Registry × List Asked} (hs : g.store.WellFormed)
    (asked : Backend.logged.handle (g, []) now (.renew id .here) = (.renewed false, g'))
    (asked' : Backend.logged.handle g' now (.register next .here) = (a, g''))
    (ha : accepted? (.register next .here, a) = none) :
    g''.1.store.WellFormed ∧ g''.2.filterMap accepted? = [] ∧
      g.store.KeepsRecords g''.1.store := by
  obtain ⟨hwf, hasks, -⟩ := kept_of_not_accepted hs rfl asked (accepted?_renew ..) rfl
  have h := kept_of_not_accepted hwf rfl asked' ha hasks
  rw [store_of_renewed_false (of_handle_logged asked).1] at h
  exact h

/-- A whole operation writes nothing, or one record. It queues nothing. -/
theorem quiet_or_wrote (hs : g.store.WellFormed) (now : Time) (m : ClientMessage) (c : Channel)
    (d : Desk) :
    let (_, c', d', g', asks) := c.run .logged now m d (g, [])
    g'.store.WellFormed ∧ d'.queue = d.queue ∧
      (Quiet c g.store c' g'.store asks ∨ ∃ w, Wrote w c g.store c' g'.store asks) := by
  have h := ran_run .logged now m c d (g, [])
  generalize c.run .logged now m d (g, []) = res at h ⊢
  cases h with
  | @refused m e h => exact ⟨hs, rfl, .inl (.of_answerError c e rfl (.refl _))⟩
  | ignored h => exact ⟨hs, rfl, .inl ⟨rfl, rfl, .inl rfl, .inl rfl, .refl _⟩⟩
  | @registrationRejected record next a g' e idle hnext asked h =>
    obtain ⟨hwf, hasks, hkeeps⟩ := kept_of_not_accepted hs rfl asked
      (accepted?_of_not_applied _ (isApplied_of_rejection h)) rfl
    exact ⟨hwf, rfl, .inl (.of_answerError c e hasks hkeeps)⟩
  | @registered record next a g' idle hnext asked h =>
    obtain ⟨g', asks⟩ := g'
    obtain ⟨asked, rfl⟩ := of_handle_logged asked
    obtain ⟨w, hw, rfl, htook⟩ := took_register hs asked h
    refine ⟨Registry.wellFormed_handle hs now _ asked, rfl, .inr ⟨w, ?_⟩⟩
    obtain ⟨hversion, hcurrent, hstate⟩ :=
      core_reply ((c.moveTo d .registered).1.note w.record) .ack
    refine ⟨by simp [hw], hversion, hcurrent, hstate, .inl idle, ?_, htook⟩
    rw [hnext]
    rfl
  | @updateRejected record previous next a g' e current same hnext asked h =>
    obtain ⟨hwf, hasks, hkeeps⟩ := kept_of_not_accepted hs rfl asked
      (accepted?_of_not_applied _ (isApplied_of_rejection h)) rfl
    exact ⟨hwf, rfl, .inl (.of_answerError c e hasks hkeeps)⟩
  | @updated record previous next a g' current same hnext asked h =>
    obtain ⟨g', asks⟩ := g'
    obtain ⟨asked, rfl⟩ := of_handle_logged asked
    obtain ⟨w, hw, rfl, htook⟩ := took_update hs asked h
    obtain ⟨hstate, hcurrent⟩ := registered?_eq_ok.mp current
    obtain ⟨hversion', hcurrent', hstate'⟩ := core_reply (c.note w.record) .ack
    refine ⟨Registry.wellFormed_handle hs now _ asked, rfl, .inr ⟨w, ?_⟩⟩
    refine ⟨by simp [hw], hversion', hcurrent', hstate'.trans hstate,
      .inr ⟨hstate, previous, hcurrent, ?_⟩, ?_, htook⟩
    · rw [← same, hnext]
      rfl
    · rw [hnext]
      rfl
  | unregistrationFailed current asked => cases (of_handle_logged asked).1
  | @unregistered record a g' current asked h =>
    obtain ⟨hwf, hasks, hkeeps⟩ := kept_of_not_accepted hs rfl asked rfl rfl
    obtain ⟨hversion, hcurrent, hstate⟩ :=
      core_reply ({ (c.moveTo d .closed).1 with current := none } : Channel) .ack
    exact ⟨hwf, rfl, .inl ⟨hasks, hversion, .inr hcurrent, .inr hstate, hkeeps⟩⟩
  | renewalFailed current asked => cases (of_handle_logged asked).1
  | @renewed record a g' current asked h found =>
    obtain ⟨hwf, hasks, hkeeps⟩ := kept_of_not_accepted hs rfl asked (accepted?_renew ..) rfl
    exact ⟨hwf, rfl, .inl ⟨hasks, rfl, .inl rfl, .inl rfl, hkeeps⟩⟩
  | @revivalFailed record next e g' g'' current asked hnext asked' =>
    obtain ⟨hwf, hasks, hkeeps⟩ := kept_of_not_revived hs asked asked' rfl
    exact ⟨hwf, rfl, .inl ⟨hasks, rfl, .inl rfl, .inl rfl, hkeeps⟩⟩
  | @revivalOvertaken record next g' g'' current asked hnext asked' =>
    obtain ⟨hwf, hasks, hkeeps⟩ := kept_of_not_revived hs asked asked' rfl
    exact ⟨hwf, rfl, .inl ⟨hasks, rfl, .inl rfl, .inl rfl, hkeeps⟩⟩
  | @revived record next a g' g'' current asked hnext asked' h =>
    obtain ⟨g', asks⟩ := g'
    obtain ⟨asked, rfl⟩ := of_handle_logged asked
    obtain ⟨g'', asks⟩ := g''
    obtain ⟨asked', rfl⟩ := of_handle_logged asked'
    have hs' := Registry.wellFormed_handle hs now _ asked
    have hstore := store_of_renewed_false asked
    obtain ⟨w, hw, rfl, htook⟩ := took_register hs' asked' h
    obtain ⟨hstate, hcurrent⟩ := registered?_eq_ok.mp current
    refine ⟨Registry.wellFormed_handle hs' now _ asked', rfl, .inr ⟨w, ?_⟩⟩
    refine ⟨?_, rfl, rfl, hstate, .inr ⟨hstate, record, hcurrent, ?_⟩, ?_, hstore ▸ htook⟩
    · exact (List.filterMap_cons_none (accepted?_renew ..)).trans (List.filterMap_cons_some hw)
    · rw [hnext]
      rfl
    · rw [← hstore, hnext]
      rfl

end Channel

end LeaseRegistry
