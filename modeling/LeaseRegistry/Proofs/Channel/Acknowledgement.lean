import LeaseRegistry.Proofs.Channel.Turn
import LeaseRegistry.Proofs.Store.Invariant

/-!
# Acknowledged writes

A registration on an idle channel is acknowledged exactly if its record is valid, and an update
exactly if it also concerns the registered instance and there is still a lease to update. The number
that the channel gives a write is newer than what is stored, so nothing overtakes it
(`Slot.handle_register`, `Slot.handle_update`). What an acknowledgement promises is `Recorded`: the
lease and the channel hold that very record at the next version. `Host.AnswersTruly` says both of a
host, and `acknowledged_exactly` that it holds with and without peers.
-/

namespace LeaseRegistry

open Channel

/-! ## The next version -/

section

variable {c : Channel} {stored : Option Version}

theorem toNat_max (v w : Version) : (max v w).toNat = max v.toNat w.toNat := by
  have hmax : max v w = if v ≤ w then w else v := rfl
  rw [hmax]
  split
  · rename_i h
    exact (Nat.max_eq_right (UInt64.le_iff_toNat_le.mp h)).symm
  · rename_i h
    rw [UInt64.not_le, UInt64.lt_iff_toNat_lt] at h
    exact (Nat.max_eq_left (Nat.le_of_lt h)).symm

/-- The numbers do not run out with the next version. -/
def Channel.HasNext (c : Channel) (stored : Option Version) : Prop :=
  c.version.toNat + 1 < UInt64.size ∧ ∀ v, stored = some v → v.toNat + 1 < UInt64.size

theorem Channel.HasNext.toNat_nextVersion (h : c.HasNext stored) :
    (c.nextVersion stored).toNat = 1 + max c.version.toNat (stored.getD 0).toNat := by
  have hstored : (stored.getD 0).toNat + 1 < UInt64.size := by
    cases stored with
    | none => decide
    | some v => exact h.2 v rfl
  have hmax : (max c.version (stored.getD 0)).toNat + 1 < UInt64.size := by
    rw [toNat_max]
    have := h.1
    omega
  rw [nextVersion, toNat_succ hmax, toNat_max, Nat.add_comm]

theorem Channel.HasNext.stored_lt (h : c.HasNext stored) {v : Version} (hv : stored = some v) :
    v < c.nextVersion stored := by
  rw [UInt64.lt_iff_toNat_lt, h.toNat_nextVersion, hv, Option.getD_some]
  omega

end

theorem Record.same_but_version {record next : Record} {v : Version}
    (h : next = record.atVersion v) : next.id = record.id ∧ (next.Valid ↔ record.Valid) := by
  subst h
  exact ⟨rfl, Iff.rfl⟩

/-! ## Writes that are newer than what is stored -/

namespace Slot

/-- A slot holds a record that this server has just written. -/
def HoldsOwn (now : Time) (record : Record) (slot : Slot) : Prop :=
  ∃ l, slot = some l ∧ l.record = record ∧ l.source = .here ∧ now ≤ l.renewedAt

/-- What comes of a write of this server that nothing overtakes. An update needs a lease. -/
inductive Written (now : Time) (record : Record) (needsLease : Bool) (slot : Slot) :
    Answer × Slot → Prop where
  | invalid {fault : RecordFault} (h : record.fault? = some fault) :
    Written now record needsLease slot (.failed (.store (.invalidRecord fault.message)), slot)
  | missing (needed : needsLease = true) (absent : slot = none) :
    Written now record needsLease slot (.failed (.store (.unknownInstance record.id)), slot)
  | taken {change : Change} {slot' : Slot} (valid : record.Valid)
      (there : needsLease = true → slot ≠ none) (applied : change.isApplied = true)
      (holds : HoldsOwn now record slot') :
    Written now record needsLease slot (.changed change, slot')

section

variable {now : Time} {record : Record} {slot : Slot}
  (hnewer : ∀ v, slot.version? = some v → v < record.version)
include hnewer

theorem write_of_newer {absent : Except StoreError Change × Slot} {l : Lease} (hl : slot = some l) :
    write absent record .here now slot = (.ok .modified, some (l.replace record .here now)) := by
  subst hl
  exact if_neg (UInt64.not_le.mpr (hnewer _ rfl))

theorem handle_register :
    Written now record false slot (handle now (.register record .here) slot) := by
  cases hf : record.fault? with
  | some fault =>
    simp only [handle, register, hf]
    exact .invalid hf
  | none =>
    simp only [handle, register_of_valid hf]
    cases hslot : slot with
    | none =>
      exact .taken hf (fun h => absurd h Bool.false_ne_true) rfl
        ⟨_, rfl, rfl, rfl, UInt64.le_refl now⟩
    | some l =>
      rw [← hslot, write_of_newer hnewer hslot]
      exact .taken hf (fun h => absurd h Bool.false_ne_true) rfl
        ⟨_, rfl, rfl, rfl, (Lease.le_renewedAt_renew _ now).2⟩

theorem handle_update (deltas : List Delta) :
    Written now record true slot (handle now (.update record deltas .here) slot) := by
  cases hf : record.fault? with
  | some fault =>
    simp only [handle, update, hf]
    exact .invalid hf
  | none =>
    simp only [handle, update_of_valid hf]
    cases hslot : slot with
    | none => exact .missing rfl rfl
    | some l =>
      rw [← hslot, write_of_newer hnewer hslot]
      refine .taken hf (fun _ hnone => ?_) rfl ⟨_, rfl, rfl, rfl, (Lease.le_renewedAt_renew ..).2⟩
      cases hslot.symm.trans hnone

end

end Slot

namespace Channel

/-! ## Hosts that deal with a request at once -/

namespace Host

variable {ρ : Type}

/-- The registry deals with a request at the time at which it is asked. -/
def Prompt (h : Host ρ) : Prop :=
  ∀ g now r, (h.registry g).handle now r = ((h.handle g now r).1, h.registry (h.handle g now r).2)

theorem prompt_alone : alone.Prompt := fun _ _ _ => rfl

theorem prompt_telling {ε : Type} (p : Peers ε) : (telling p).Prompt := by
  rintro ⟨s, env⟩ now r
  simp only [telling, Server.run_request]
  split <;> rename_i h <;> simp only [Coordinator.perform, Prod.mk.injEq] at h <;>
    obtain ⟨ha, -, rfl⟩ := h <;> rw [← ha]

end Host

/-! ## What an acknowledgement says -/

section

variable {ρ : Type} {h : Host ρ} {now : Time} {record next : Record} {c : Channel} {d : Desk}
  {g g' : ρ} {a : Answer} {needed : Bool} {slot slot' : Slot} {what : String} {e : Error}

theorem rejected_of_written (hw : Slot.Written now record needed slot (a, slot'))
    (hr : rejection? what record a = some e) :
    ¬(record.Valid ∧ (needed = true → slot ≠ none)) ∧ ∃ e', e = .registry e' := by
  cases hw with
  | invalid hf =>
    cases hr
    exact ⟨fun h => (by cases hf.symm.trans h.1), _, rfl⟩
  | missing hneeded habsent =>
    cases hr
    exact ⟨fun h => h.2 hneeded habsent, _, rfl⟩
  | @taken change slot' valid there applied holds =>
    cases change with
    | superseded => cases applied
    | added => cases hr
    | modified => cases hr
    | removed => cases hr

theorem taken_of_written (hw : Slot.Written now record needed slot (a, slot'))
    (hr : rejection? what record a = none) :
    (record.Valid ∧ (needed = true → slot ≠ none)) ∧ slot'.HoldsOwn now record := by
  cases hw with
  | invalid hf => cases hr
  | missing hneeded habsent => cases hr
  | taken valid there applied holds => exact ⟨⟨valid, there⟩, holds⟩

/-- What a host makes of a request is what becomes of one slot. -/
theorem Host.written (hp : h.Prompt) (hs : (h.store g).WellFormed) {r : Request} {id : InstanceId}
    (asked : h.handle g now r = (a, g')) (hid : r.id = id)
    (hw : Slot.Written now record needed ((h.store g).lease? id)
      (Slot.handle now r ((h.store g).lease? id))) :
    Slot.Written now record needed ((h.store g).lease? id) (a, (h.store g').lease? id) ∧
      ∀ k, k ≠ id → (h.store g').lease? k = (h.store g).lease? k := by
  subst hid
  have hhandle := hp g now r
  rw [asked] at hhandle
  have hanswer := congrArg Prod.fst ((h.registry g).handle_eq_onSlot now r)
  have hlease := Registry.lease?_handle hs now r
  rw [hhandle] at hanswer hlease
  refine ⟨?_, fun id hid => (hlease id).trans (if_neg hid)⟩
  have hslot : (h.store g').lease? r.id = _ := (hlease r.id).trans (if_pos rfl)
  rw [hslot]
  obtain rfl : a = _ := hanswer
  exact hw

/-- What an acknowledged write leaves: the lease of the instance and the channel hold the record
that the client sent, at the next version, and no other lease has changed. -/
structure Recorded (h : Host ρ) (now : Time) (record : Record) (c : Channel) (g : ρ) (c' : Channel)
    (g' : ρ) : Prop where
  replies : c'.replies = (c.reply .ack).replies
  state : c'.state = .registered
  version : c'.version.toNat =
    1 + max c.version.toNat (((h.store g).version? record.id).getD 0).toNat
  current : c'.current = some (record.atVersion c'.version)
  lease : Slot.HoldsOwn now (record.atVersion c'.version) ((h.store g').lease? record.id)
  others : ∀ id, id ≠ record.id → (h.store g').lease? id = (h.store g).lease? id

theorem recorded_note {c₀ : Channel} (hreachable : c₀.reachable = c.reachable)
    (hreplies : c₀.replies = c.replies) (hstate : c₀.state = .registered)
    (hc : c.HasNext ((h.store g).version? record.id))
    (hnext : next = record.atVersion (c.nextVersion (h.stored g record.id)))
    (hlease : Slot.HoldsOwn now next ((h.store g').lease? record.id))
    (hothers : ∀ id, id ≠ record.id → (h.store g').lease? id = (h.store g).lease? id) :
    Recorded h now record c g ((c₀.note next).reply .ack) g' := by
  obtain ⟨hversion, hcurrent, hregistered⟩ := core_reply (c₀.note next) .ack
  have hv : ((c₀.note next).reply .ack).version = c.nextVersion (h.stored g record.id) := by
    rw [hversion, hnext]
    rfl
  have hsaid : ((c₀.note next).reply .ack).replies = (c.reply .ack).replies :=
    replies_reply (by exact hreachable) (by exact hreplies) .ack
  refine ⟨hsaid, hregistered.trans hstate, ?_, ?_, ?_, hothers⟩
  · rw [hv, h.version g record.id]
    exact hc.toNat_nextVersion
  · rw [hcurrent, hv, ← hnext]
    rfl
  · rw [hv, ← hnext]
    exact hlease

/-- A registration or an update is acknowledged exactly if it can be done, and then it has been. No
client ever hears that a newer version overtook its write. -/
structure Truthful (h : Host ρ) (now : Time) (m : ClientMessage) (record : Record) (c : Channel)
    (g : ρ) (res : Result × Channel × Desk × ρ) : Prop where
  registration : m = .register record → (res.1 = .ok () ↔ c.state = .idle ∧ record.Valid)
  update : m = .update record → (res.1 = .ok () ↔ c.state = .registered ∧
    (∃ previous, c.current = some previous ∧ record.id = previous.id) ∧ record.Valid ∧
    (h.store g).lease? record.id ≠ none)
  acknowledged : res.1 = .ok () → Recorded h now record c g res.2.1 res.2.2.2
  failed : ∀ e, res.1 = .error e → res.2.1 = c.answerError e ∧
    ∀ what ∈ ["registration", "update"], ∀ v, e ≠ .overtaken what (record.atVersion v)

theorem overtaken_ne_otherInstance {id id' : InstanceId}
    (hwhat : what ∈ ["registration", "update"]) :
    Error.overtaken what record ≠ .otherInstance id id' := by
  intro h
  have htext := congrArg String.toList (Error.protocol.inj h)
  simp only [List.mem_cons, List.not_mem_nil, or_false] at hwhat
  rcases hwhat with rfl | rfl <;> simp [String.toList_append] at htext

theorem ne_overtaken_of_refusal {m : ClientMessage} (hr : c.refusal? m = some e)
    (hwhat : what ∈ ["registration", "update"]) : e ≠ .overtaken what record := by
  have hregistered : ∀ {e}, c.registered? = .error e → e = .notRegistered ∨ e = .channelClosed := by
    intro e
    unfold registered?
    cases c.state <;> cases c.current <;> simp +contextual [eq_comm]
  have hopen : ∀ {e}, c.registered? = .error e → e ≠ .overtaken what record := by
    intro e he
    rcases hregistered he with rfl | rfl <;> rintro ⟨⟩
  cases m with
  | register record =>
    simp only [refusal?] at hr
    split at hr <;> cases hr <;> rintro ⟨⟩
  | update record =>
    simp only [refusal?] at hr
    split at hr
    · cases hr
      exact hopen ‹_›
    · split at hr <;> cases hr
      exact (overtaken_ne_otherInstance hwhat).symm
  | unregister =>
    simp only [refusal?] at hr
    split at hr <;> cases hr
    exact hopen ‹_›
  | heartbeat => cases hr

end

section

variable {ρ : Type} {h : Host ρ} {now : Time} {record next : Record} {c : Channel} {g g' : ρ}
  {a : Answer} {e : Error} {what : String} {needed : Bool}

/-- A write at the channel's next version is newer than what is stored. -/
theorem newer_of_next (hc : c.HasNext ((h.store g).version? record.id))
    (hnext : next = record.atVersion (c.nextVersion (h.stored g record.id))) :
    ∀ v, Slot.version? ((h.store g).lease? record.id) = some v → v < next.version := by
  intro v hv
  rw [hnext, h.version g record.id]
  exact hc.stored_lt hv

theorem Truthful.of_refused {m : ClientMessage} {d : Desk}
    (hm : m = .register record ∨ m = .update record) (hr : c.refusal? m = some e) :
    Truthful h now m record c g (.error e, c.answerError e, d, g) := by
  refine ⟨fun hregister => ⟨nofun, ?_⟩, fun hupdate => ⟨nofun, ?_⟩, nofun, fun e' he => ?_⟩
  · rintro ⟨hidle, -⟩
    subst hregister
    simp only [refusal?, hidle] at hr
    cases hr
  · rintro ⟨hregistered, ⟨previous, hcurrent, hid⟩, -⟩
    subst hupdate
    simp only [refusal?, registered?_eq_ok.mpr ⟨hregistered, hcurrent⟩, if_pos hid] at hr
    cases hr
  · cases he
    exact ⟨rfl, fun what hwhat v => ne_overtaken_of_refusal hr hwhat⟩

theorem truthful_register (hp : h.Prompt) (now : Time) (d : Desk)
    (hs : (h.store g).WellFormed) (hc : c.HasNext ((h.store g).version? record.id)) :
    Truthful h now (.register record) record c g
      (c.run h.toBackend now (.register record) d g) := by
  have hran := ran_register h.toBackend now c d g record
  generalize c.run h.toBackend now (.register record) d g = res at hran ⊢
  cases hran with
  | @refused _ e hr => exact .of_refused (.inl rfl) hr
  | @registrationRejected _ next a g' e hidle hnext asked hr =>
    obtain ⟨hid, hvalid⟩ := Record.same_but_version hnext
    obtain ⟨hwritten, -⟩ := Host.written hp hs asked hid
      (Slot.handle_register (newer_of_next hc hnext))
    obtain ⟨hnot, e', rfl⟩ := rejected_of_written hwritten hr
    refine ⟨fun _ => ⟨nofun, fun hok => ?_⟩, nofun, nofun, fun e' he => ?_⟩
    · exact absurd ⟨hvalid.mpr hok.2, nofun⟩ hnot
    · cases he
      exact ⟨rfl, fun what hwhat v => nofun⟩
  | @registered _ next a g' hidle hnext asked hr =>
    obtain ⟨hid, hvalid⟩ := Record.same_but_version hnext
    obtain ⟨hwritten, hothers⟩ := Host.written hp hs asked hid
      (Slot.handle_register (newer_of_next hc hnext))
    obtain ⟨hok, hlease⟩ := taken_of_written hwritten hr
    refine ⟨fun _ => ⟨fun _ => ⟨hidle, hvalid.mp hok.1⟩, fun _ => rfl⟩, nofun, fun _ => ?_, nofun⟩
    exact recorded_note rfl rfl rfl hc hnext hlease hothers

theorem truthful_update (hp : h.Prompt) (now : Time) (d : Desk)
    (hs : (h.store g).WellFormed) (hc : c.HasNext ((h.store g).version? record.id)) :
    Truthful h now (.update record) record c g
      (c.run h.toBackend now (.update record) d g) := by
  have hran := ran_update h.toBackend now c d g record
  generalize c.run h.toBackend now (.update record) d g = res at hran ⊢
  cases hran with
  | @refused _ e hr => exact .of_refused (.inr rfl) hr
  | @updateRejected _ previous next a g' e hcurrent hsame hnext asked hr =>
    obtain ⟨hid, hvalid⟩ := Record.same_but_version hnext
    obtain ⟨hwritten, -⟩ := Host.written hp hs asked hid
      (Slot.handle_update (newer_of_next hc hnext) _)
    obtain ⟨hnot, e', rfl⟩ := rejected_of_written hwritten hr
    refine ⟨nofun, fun _ => ⟨nofun, fun hok => ?_⟩, nofun, fun e' he => ?_⟩
    · exact absurd ⟨hvalid.mpr hok.2.2.1, fun _ => hok.2.2.2⟩ hnot
    · cases he
      exact ⟨rfl, fun what hwhat v => nofun⟩
  | @updated _ previous next a g' hcurrent hsame hnext asked hr =>
    obtain ⟨hid, hvalid⟩ := Record.same_but_version hnext
    obtain ⟨hstate, hprevious⟩ := registered?_eq_ok.mp hcurrent
    obtain ⟨hwritten, hothers⟩ := Host.written hp hs asked hid
      (Slot.handle_update (newer_of_next hc hnext) _)
    obtain ⟨hok, hlease⟩ := taken_of_written hwritten hr
    have hcan : c.state = .registered ∧
        (∃ previous, c.current = some previous ∧ record.id = previous.id) ∧ record.Valid ∧
        (h.store g).lease? record.id ≠ none :=
      ⟨hstate, ⟨previous, hprevious, hsame⟩, hvalid.mp hok.1, hok.2 rfl⟩
    refine ⟨nofun, fun _ => ⟨fun _ => hcan, fun _ => rfl⟩, fun _ => ?_, nofun⟩
    exact recorded_note rfl rfl hstate hc hnext hlease hothers

/-- Whatever is stored and whatever the channel has seen, as long as the numbers do not run out. -/
def Host.AnswersTruly (h : Host ρ) : Prop :=
  ∀ now x m record c d g, x.message? = some m → m = .register record ∨ m = .update record →
    (h.store g).WellFormed → c.HasNext ((h.store g).version? record.id) →
      Truthful h now m record c g (c.operate h.toBackend now x d g)

theorem Host.Prompt.answersTruly (hp : h.Prompt) : h.AnswersTruly := by
  intro now x m record c d g hx hm hs hc
  rw [operate_of_message _ _ _ _ _ hx]
  rcases hm with rfl | rfl
  · exact truthful_register hp now d hs hc
  · exact truthful_update hp now d hs hc

end

/-- With or without peers: a registration on an idle channel is acknowledged exactly if its record
is valid, an update on a registered one exactly if it is about the registered instance, its record
is valid and the lease is still there. What is acknowledged is stored and held as the client sent
it. -/
theorem acknowledged_exactly {ε : Type} (p : Peers ε) :
    Host.alone.AnswersTruly ∧ (Host.telling p).AnswersTruly :=
  ⟨Host.prompt_alone.answersTruly, (Host.prompt_telling p).answersTruly⟩

/-- A registration goes on from the version that is stored. -/
theorem acknowledged_exactly_continued :
    let record := Record.bare ⟨"web"⟩ "shop"
    let g := ((Registry.start .standard 0).handle 0 (.register (record.atVersion 7) .here)).2
    let (c, d) := openOn (.empty 90000)
    let res := c.operate Host.alone.toBackend 5 (.message (.register record)) d g
    res.1 = .ok () ∧ Recorded Host.alone 5 record c g res.2.1 res.2.2.2 ∧
      res.2.1.version.toNat = 8 := by
  intro record g
  let p : Peers Unit := ⟨fun _ now _ _ => (.timedOut, now, ())⟩
  have hs : g.store.WellFormed :=
    Registry.wellFormed_handle (g := .start .standard 0) Store.wellFormed_empty 0
      (.register (record.atVersion 7) .here) rfl
  have hstored : g.store.version? record.id = some 7 := by decide +kernel
  have hnumbers : (openOn (.empty 90000)).1.HasNext (g.store.version? record.id) := by
    refine ⟨by decide, fun v hv => ?_⟩
    cases hstored.symm.trans hv
    decide
  have htruth := (acknowledged_exactly p).1 5 (.message (.register record)) _ record
    (openOn (.empty 90000)).1 (openOn (.empty 90000)).2 g rfl (.inl rfl) hs hnumbers
  have hok := (htruth.registration rfl).mpr ⟨rfl, by decide⟩
  have hrecorded := htruth.acknowledged hok
  refine ⟨hok, hrecorded, hrecorded.version.trans ?_⟩
  simp only [Host.store, Host.alone, hstored]
  rfl

end Channel

end LeaseRegistry
