import LeaseRegistry.Proofs.Channel.Turn

/-!
# A channel and its frames

`Channel.handleAll` lets a channel handle one frame after the other until it is closed, and writes
down what became of each. Over a registry that gives `Genuine` answers every frame but a heartbeat
is replied to once (`Served`), and what the channel holds in the end is read off what was accepted
(`Stands`).
-/

namespace LeaseRegistry

namespace Channel

/-! ## What was said before -/

/-- The channel after other replies. -/
def said (rs : List ServerMessage) (c : Channel) : Channel := { c with replies := rs ++ c.replies }

section

variable (rs : List ServerMessage) (c : Channel) (d : Desk)

theorem reply_said (m : ServerMessage) : (c.said rs).reply m = (c.reply m).said rs := by
  have hreachable : (c.said rs).reachable = c.reachable := rfl
  simp only [reply, hreachable]
  split
  · simp [said]
  · rfl

theorem giveUp_said : (c.said rs).giveUp d = ((c.giveUp d).1.said rs, (c.giveUp d).2) := by
  have hstate : (c.said rs).state = c.state := rfl
  simp only [giveUp, hstate]
  split <;> rfl

theorem begin_said (m : ClientMessage) (stored : InstanceId → Option Version) :
    (c.said rs).begin m stored d =
      ((c.begin m stored d).1, (c.begin m stored d).2.1.said rs, (c.begin m stored d).2.2) := by
  have hstate : (c.said rs).state = c.state := rfl
  have hregistered : (c.said rs).registered? = c.registered? := rfl
  cases m with
  | register record =>
    simp only [begin, hstate]
    cases c.state <;> rfl
  | update record =>
    simp only [begin, hregistered]
    cases c.registered? with
    | error e => rfl
    | ok previous =>
      simp only
      split <;> rfl
  | unregister =>
    simp only [begin, hregistered]
    cases c.registered? <;> rfl
  | heartbeat =>
    simp only [begin, hregistered]
    cases c.registered? <;> rfl

theorem answered_said (call : Call) (a : Answer) (stored : InstanceId → Option Version)
    (now : Time) :
    (c.said rs).answered call a stored now d =
      ((c.answered call a stored now d).1, (c.answered call a stored now d).2.1.said rs,
        (c.answered call a stored now d).2.2) := by
  cases call with
  | register record =>
    cases a with
    | failed e => simp only [answered, giveUp_said]
    | renewed found => rfl
    | changed change => cases change <;> first | rfl | simp only [answered, giveUp_said]
  | update record deltas =>
    cases a with
    | failed e => rfl
    | renewed found => rfl
    | changed change => cases change <;> rfl
  | unregister record version => cases a <;> rfl
  | renew record =>
    cases a with
    | failed e => rfl
    | renewed found => cases found <;> rfl
    | changed change => rfl
  | revive record =>
    cases a with
    | failed e => rfl
    | renewed found => rfl
    | changed change => cases change <;> rfl

theorem advance_said (now : Time) (p : Phase) :
    advance now (c.said rs) d p =
      ((advance now c d p).1, (advance now c d p).2.1.said rs, (advance now c d p).2.2) := by
  cases p with
  | calling call => rfl
  | taken call => cases call <;> rfl
  | noted record =>
    have hstate : (c.said rs).state = c.state := rfl
    simp only [advance, hstate]
    split <;> rfl
  | replying reply result =>
    cases reply with
    | none => rfl
    | some m => simp only [advance, reply_said]
  | finished result => rfl

theorem settle_said (now : Time) (p : Phase) :
    settle now p (c.said rs) d =
      ((settle now p c d).1, (settle now p c d).2.1.said rs, (settle now p c d).2.2) := by
  simp only [settle, advance_said]

theorem askOnce_said {ρ : Type} (b : Backend ρ) (now : Time) (p : Phase) (g : ρ) :
    askOnce b now (p, c.said rs, d, g) =
      ((askOnce b now (p, c, d, g)).1, (askOnce b now (p, c, d, g)).2.1.said rs,
        (askOnce b now (p, c, d, g)).2.2.1, (askOnce b now (p, c, d, g)).2.2.2) := by
  cases p with
  | calling call => simp only [askOnce, answered_said, settle_said]
  | taken call => rfl
  | noted record => rfl
  | replying reply result => rfl
  | finished result => rfl

/-- What a channel replied before does not matter. -/
theorem runFrame_said {ρ : Type} (b : Backend ρ) (now : Time) (frame : List UInt8) (g : ρ) :
    (c.said rs).runFrame b now frame d g =
      ((c.runFrame b now frame d g).1, (c.runFrame b now frame d g).2.1.said rs,
        (c.runFrame b now frame d g).2.2) := by
  simp only [runFrame]
  cases ClientMessage.parse? frame with
  | none => simp only [settle_said]
  | some m => simp only [run, begin_said, settle_said, askOnce_said]

end

/-! ## One frame after the other -/

instance : DecidableEq Result
  | .ok (), .ok () => isTrue rfl
  | .ok (), .error _ => isFalse nofun
  | .error _, .ok () => isFalse nofun
  | .error e, .error e' => decidable_of_iff (e = e') (by simp)

/-- A frame that a channel handled, with the result and the writes that the registry took for it. -/
structure Handled where
  frame : List UInt8
  result : Result
  accepted : List Accepted
  deriving DecidableEq

/-- What the client is told about a frame: nothing about a heartbeat, and one reply about any
other. -/
def Handled.reply? (h : Handled) : Option ServerMessage :=
  match ClientMessage.parse? h.frame, h.result with
  | some .heartbeat, _ => none
  | _, .ok () => some .ack
  | _, .error e => some (.error e.message)

def Handled.Registers (h : Handled) : Prop :=
  ∃ r, ClientMessage.parse? h.frame = some (.register r) ∧ h.result = .ok ()

def Handled.Unregisters (h : Handled) : Prop :=
  ClientMessage.parse? h.frame = some .unregister ∧ h.result = .ok ()

def lastAccepted (hs : List Handled) : Option Record :=
  (hs.flatMap (·.accepted)).getLast?.map (·.record)

/-- Handles one frame after the other, each at its time, until the channel is closed. -/
def handleAll {ρ : Type} (b : Backend ρ) (c : Channel) (d : Desk) (g : ρ) :
    List (Time × List UInt8) → List Handled × Channel × Desk × ρ
  | [] => ([], c, d, g)
  | (now, frame) :: frames =>
    if c.state = .closed then ([], c, d, g)
    else
      let (result, c', d', g') := c.runFrame b now frame d g
      let (rest, last) := handleAll b c' d' g' frames
      (⟨frame, result, c.accepted b now (.frame frame) d g⟩ :: rest, last)

section

variable {ρ : Type} (b : Backend ρ) (c : Channel) (d : Desk) (g : ρ)

theorem handleAll_of_closed (h : c.state = .closed) (frames : List (Time × List UInt8)) :
    handleAll b c d g frames = ([], c, d, g) := by
  cases frames with
  | nil => rfl
  | cons frame frames => exact if_pos h

theorem handleAll_cons (h : c.state ≠ .closed) (now : Time) (frame : List UInt8)
    (frames : List (Time × List UInt8)) :
    handleAll b c d g ((now, frame) :: frames) =
      (⟨frame, (c.runFrame b now frame d g).1, c.accepted b now (.frame frame) d g⟩ ::
          (handleAll b (c.runFrame b now frame d g).2.1 (c.runFrame b now frame d g).2.2.1
            (c.runFrame b now frame d g).2.2.2 frames).1,
        (handleAll b (c.runFrame b now frame d g).2.1 (c.runFrame b now frame d g).2.2.1
          (c.runFrame b now frame d g).2.2.2 frames).2) :=
  if_neg h

end

/-! ## What becomes of a frame -/

/-- Every answer is one that a registry could give, whatever else happens to what is kept. -/
def Backend.Genuine {ρ : Type} (b : Backend ρ) : Prop :=
  ∀ g now r, ∃ g₀ time, (Registry.handle g₀ time r).1 = (b.handle g now r).1

theorem Host.genuine {ρ : Type} (h : Host ρ) : h.Genuine := fun g now r => by
  obtain ⟨time, htime⟩ := h.handled g now r
  exact ⟨h.registry g, time, congrArg Prod.fst htime⟩

section

variable {ρ : Type} {b : Backend ρ} (hb : b.Genuine) {g g' : ρ} {now : Time} {r : Request}
  {a : Answer}
include hb

theorem Backend.Genuine.answers (asked : b.handle g now r = (a, g')) :
    ∃ g₀ time g₁, Registry.handle g₀ time r = (a, g₁) := by
  obtain ⟨g₀, time, h⟩ := hb g now r
  rw [asked] at h
  exact ⟨g₀, time, _, Prod.ext h rfl⟩

theorem Backend.Genuine.not_failed (hr : r.isWrite = false) (hof : r.isOfChannel = true)
    {e : RegistryError} : b.handle g now r ≠ (.failed e, g') := by
  intro asked
  obtain ⟨g₀, time, g₁, h⟩ := hb.answers asked
  have hfailed : Host.alone.handle g₀ time r = (.failed e, g₁) := h
  exact Host.not_failed hr hof hfailed

/-- A write that is not rejected is taken. -/
theorem Backend.Genuine.took (asked : b.handle g now r = (a, g')) (hw : r.isWrite = true)
    {what : String} {record : Record} (hr : rejection? what record a = none) :
    ∃ w, accepted? (r, a) = some w := by
  obtain ⟨g₀, time, g₁, h⟩ := hb.answers asked
  have hasked : Host.alone.handle g₀ time r = (a, g₁) := h
  obtain ⟨w, hw, -⟩ := Registry.accepted_of_applied hw h (Host.applied_of_not_rejected hasked hw hr)
  exact ⟨w, hw⟩

end

/-- What a frame makes of the state of a channel that is open. -/
inductive Step (c : Channel) (h : Handled) : Channel → Prop where
  | kept {c' : Channel} (state : c'.state = c.state) (current : c'.current = c.current)
      (accepted : h.accepted = []) (registers : ¬h.Registers) (unregisters : ¬h.Unregisters) :
    Step c h c'
  /-- It holds a record that was accepted. -/
  | wrote {c' : Channel} {w : Accepted} (origin : c.state = .registered ∨ h.Registers)
      (state : c'.state = .registered) (current : c'.current = some w.record)
      (accepted : h.accepted = [w]) (unregisters : ¬h.Unregisters) : Step c h c'
  | ended {c' : Channel} (origin : c.state = .registered) (state : c'.state = .closed)
      (unregisters : h.Unregisters) : Step c h c'

/-- A frame is replied to as it should be, and nothing is queued. -/
structure Served (c : Channel) (d : Desk) (h : Handled) (c' : Channel) (d' : Desk) : Prop where
  step : Step c h c'
  reachable : c'.reachable = true
  replies : c'.replies = c.replies ++ h.reply?.toList
  queue : d'.queue = d.queue
  gauges : d'.gauges = d.gauges.move c.state c'.state

theorem reachable_reply (c : Channel) (m : ServerMessage) :
    (c.reply m).reachable = c.reachable := by
  unfold reply
  split <;> rfl

theorem answerError_eq {c : Channel} {e : Error} (he : e ≠ .channelClosed) :
    c.answerError e = c.reply (.error e.message) := by
  cases e with
  | channelClosed => exact absurd rfl he
  | alreadyRegistered => rfl
  | notRegistered => rfl
  | protocol reason => rfl
  | registry e => rfl

theorem ne_closed_of_rejection {what : String} {record : Record} {a : Answer} {e : Error}
    (h : rejection? what record a = some e) : e ≠ .channelClosed := by
  cases a with
  | changed change =>
    cases change <;> cases h
    rintro ⟨⟩
  | renewed found => cases h
  | failed e => cases h; rintro ⟨⟩

section

variable {c c₁ : Channel} {d d' : Desk} {frame : List UInt8} {m : ClientMessage} {e : Error}
  {result : Result} {ws : List Accepted}

theorem ne_closed_of_registered? (h : c.registered? = .error e) (hopen : c.state ≠ .closed) :
    e ≠ .channelClosed := by
  unfold registered? at h
  split at h <;> cases h
  · rintro ⟨⟩
  · exact absurd ‹_› hopen
  · rintro ⟨⟩

theorem ne_closed_of_refusal (h : c.refusal? m = some e) (hopen : c.state ≠ .closed) :
    e ≠ .channelClosed := by
  cases m with
  | register record =>
    simp only [refusal?] at h
    split at h <;> cases h
    · rintro ⟨⟩
    · exact absurd ‹_› hopen
  | update record =>
    simp only [refusal?] at h
    cases hr : c.registered? with
    | error e' =>
      rw [hr] at h
      cases h
      exact ne_closed_of_registered? hr hopen
    | ok previous =>
      rw [hr] at h
      simp only at h
      split at h <;> cases h
      rintro ⟨⟩
  | unregister =>
    simp only [refusal?] at h
    cases hr : c.registered? with
    | error e' =>
      rw [hr] at h
      cases h
      exact ne_closed_of_registered? hr hopen
    | ok previous =>
      rw [hr] at h
      cases h
  | heartbeat => cases h

theorem Handled.reply?_of_ne (hm : ClientMessage.parse? frame ≠ some .heartbeat) :
    Handled.reply? ⟨frame, result, ws⟩ =
      some (match result with | .ok () => .ack | .error e => .error e.message) := by
  simp only [Handled.reply?]
  cases hp : ClientMessage.parse? frame with
  | none => cases result <;> rfl
  | some m =>
    cases m with
    | register record => cases result <;> rfl
    | update record => cases result <;> rfl
    | unregister => cases result <;> rfl
    | heartbeat => exact absurd hp hm

variable (hc : c.reachable = true)
include hc

/-- The client hears about an error, and nothing else happens. -/
theorem Served.failed (d : Desk) (hm : ClientMessage.parse? frame ≠ some .heartbeat)
    (he : e ≠ .channelClosed) : Served c d ⟨frame, .error e, []⟩ (c.answerError e) d := by
  rw [answerError_eq he]
  obtain ⟨-, hcurrent, hstate⟩ := core_reply c (.error e.message)
  refine ⟨.kept hstate hcurrent rfl (by simp [Handled.Registers]) (by simp [Handled.Unregisters]),
    (reachable_reply c _).trans hc, ?_, rfl, ?_⟩
  · rw [Handled.reply?_of_ne hm, reply, if_pos hc]
    rfl
  · rw [hstate, Gauges.move_self]

/-- The client hears nothing about a heartbeat. -/
theorem Served.beat (hm : ClientMessage.parse? frame = some .heartbeat)
    (step : Step c ⟨frame, result, ws⟩ c₁) (hstate : c₁.state = c.state)
    (hreachable : c₁.reachable = c.reachable) (hreplies : c₁.replies = c.replies) (d : Desk) :
    Served c d ⟨frame, result, ws⟩ c₁ d := by
  refine ⟨step, hreachable.trans hc, ?_, rfl, by rw [hstate, Gauges.move_self]⟩
  rw [Handled.reply?, hm, hreplies]
  exact (List.append_nil c.replies).symm

theorem Served.acked (hm : ClientMessage.parse? frame ≠ some .heartbeat)
    (step : Step c ⟨frame, .ok (), ws⟩ (c₁.reply .ack)) (hreachable : c₁.reachable = c.reachable)
    (hreplies : c₁.replies = c.replies) (queue : d'.queue = d.queue)
    (gauges : d'.gauges = d.gauges.move c.state c₁.state) :
    Served c d ⟨frame, .ok (), ws⟩ (c₁.reply .ack) d' := by
  obtain ⟨-, -, hstate⟩ := core_reply c₁ .ack
  refine ⟨step, ((reachable_reply c₁ _).trans hreachable).trans hc, ?_, queue, hstate ▸ gauges⟩
  rw [Handled.reply?_of_ne hm, reply, if_pos (hreachable.trans hc), hreplies]
  rfl

end

/-- Whatever frame comes in while a channel is open, it is handled as it should be. -/
theorem served_runFrame {ρ : Type} {b : Backend ρ} (hb : b.Genuine) {c : Channel}
    (hc : c.reachable = true) (hopen : c.state ≠ .closed) (now : Time) (frame : List UInt8)
    (d : Desk) (g : ρ) :
    let res := c.runFrame b now frame d g
    Served c d ⟨frame, res.1, c.accepted b now (.frame frame) d g⟩ res.2.1 res.2.2.1 := by
  intro res
  have hres : res = c.operate b now (.frame frame) d g := rfl
  rw [hres, c.operate_listing b now d g (.frame frame) [], accepted]
  cases hm : ClientMessage.parse? frame with
  | none =>
    have hnone : Inbound.message? (.frame frame) = none := hm
    rw [operate_of_unreadable _ _ _ _ _ hnone]
    exact .failed hc d (by simp [hm]) nofun
  | some m =>
    have hsome : Inbound.message? (.frame frame) = some m := hm
    rw [operate_of_message _ _ _ _ _ hsome]
    have hran := ran_run b.listing now m c d (g, [])
    generalize c.run b.listing now m d (g, []) = res at hran ⊢
    have hanswered : ∀ {g g' : ρ × List Asked} {r : Request} {a : Answer},
        b.listing.handle g now r = (a, g') → b.handle g.1 now r = (a, g'.1) :=
      fun asked => (of_handle_listing asked).1
    cases hran with
    | refused h =>
      have hne : m ≠ .heartbeat := by
        rintro rfl
        cases h
      exact .failed hc d (by simpa [hm] using hne) (ne_closed_of_refusal h hopen)
    | ignored h =>
      exact .beat hc hm (.kept rfl rfl rfl (by simp [Handled.Registers, hm])
        (by simp [Handled.Unregisters, hm])) rfl rfl rfl d
    | registrationRejected idle hnext asked h =>
      rw [filterMap_accepted?_of_not_applied asked rfl (isApplied_of_rejection h)]
      exact .failed hc d (by simp [hm]) (ne_closed_of_rejection h)
    | @registered record next a g' idle hnext asked h =>
      obtain ⟨w, hw⟩ := hb.took (hanswered asked) rfl h
      obtain rfl := record_of_accepted hw
      obtain ⟨-, hcurrent, hstate⟩ := core_reply ((c.moveTo d .registered).1.note w.record) .ack
      rw [filterMap_accepted? asked rfl, hw]
      exact .acked hc (by simp [hm]) (.wrote (.inr ⟨record, hm, rfl⟩) hstate hcurrent rfl
        (by simp [Handled.Unregisters, hm])) rfl rfl rfl rfl
    | updateRejected current same hnext asked h =>
      rw [filterMap_accepted?_of_not_applied asked rfl (isApplied_of_rejection h)]
      exact .failed hc d (by simp [hm]) (ne_closed_of_rejection h)
    | @updated record previous next a g' current same hnext asked h =>
      obtain ⟨w, hw⟩ := hb.took (hanswered asked) rfl h
      obtain rfl := record_of_accepted_update hw
      obtain ⟨hregistered, -⟩ := registered?_eq_ok.mp current
      obtain ⟨-, hcurrent, hstate⟩ := core_reply (c.note w.record) .ack
      rw [filterMap_accepted? asked rfl, hw]
      exact .acked hc (by simp [hm]) (.wrote (.inl hregistered) (hstate.trans hregistered) hcurrent
        rfl (by simp [Handled.Unregisters, hm])) rfl rfl rfl (Gauges.move_self ..).symm
    | unregistrationFailed current asked =>
      exact absurd (hanswered asked) (hb.not_failed rfl rfl)
    | @unregistered record a g' current asked h =>
      obtain ⟨hregistered, -⟩ := registered?_eq_ok.mp current
      obtain ⟨-, -, hstate⟩ :=
        core_reply ({ (c.moveTo d .closed).1 with current := none } : Channel) .ack
      exact .acked hc (by simp [hm]) (.ended hregistered hstate ⟨hm, rfl⟩) rfl rfl rfl rfl
    | renewalFailed current asked => exact absurd (hanswered asked) (hb.not_failed rfl rfl)
    | @renewed record a g' current asked h found =>
      rw [filterMap_accepted? asked rfl, accepted?_renew]
      exact .beat hc hm (.kept rfl rfl rfl (by simp [Handled.Registers, hm])
        (by simp [Handled.Unregisters, hm])) rfl rfl rfl d
    | @revivalFailed record next e g' g'' current asked hnext asked' =>
      obtain ⟨g', log⟩ := g'
      rw [filterMap_accepted?_of_not_applied asked'
        (filterMap_accepted?_of_not_applied asked rfl rfl) rfl]
      exact .beat hc hm (.kept rfl rfl rfl (by simp [Handled.Registers, hm])
        (by simp [Handled.Unregisters, hm])) rfl rfl rfl d
    | @revivalOvertaken record next g' g'' current asked hnext asked' =>
      obtain ⟨g', log⟩ := g'
      rw [filterMap_accepted?_of_not_applied asked'
        (filterMap_accepted?_of_not_applied asked rfl rfl) rfl]
      exact .beat hc hm (.kept rfl rfl rfl (by simp [Handled.Registers, hm])
        (by simp [Handled.Unregisters, hm])) rfl rfl rfl d
    | @revived record next a g' g'' current asked hnext asked' h =>
      obtain ⟨g', log⟩ := g'
      have hlog : log.filterMap accepted? = [] := filterMap_accepted?_of_not_applied asked rfl rfl
      obtain ⟨w, hw⟩ := hb.took (hanswered asked') rfl h
      obtain rfl := record_of_accepted hw
      obtain ⟨hregistered, -⟩ := registered?_eq_ok.mp current
      rw [filterMap_accepted? asked' hlog, hw]
      have hstep : Step c ⟨frame, .ok (), [w]⟩ (c.note w.record) :=
        .wrote (.inl hregistered) hregistered rfl rfl (by simp [Handled.Unregisters, hm])
      exact .beat hc hm hstep rfl rfl rfl d

/-! ## What becomes of a channel -/

theorem Gauges.leave_move (g : Gauges) (s t : State) : (g.move s t).leave t = g.leave s := by
  by_cases h : s = t
  · simp [move, h]
  · obtain ⟨idle, registered, closed⟩ := g
    cases s <;> cases t <;> simp_all [move, leave, enter, add, Int64.add_assoc]

theorem Gauges.leave_enter (g : Gauges) (s : State) : (g.enter s).leave s = g := by
  obtain ⟨idle, registered, closed⟩ := g
  cases s <;> simp [leave, enter, add, Int64.add_assoc]

/-- What a channel that handled some frames holds, by what was accepted. -/
inductive Stands (c : Channel) (hs : List Handled) : Prop where
  | idle (state : c.state = .idle) (registers : ∀ h ∈ hs, ¬h.Registers)
      (unregisters : ∀ h ∈ hs, ¬h.Unregisters)
  | registered {r : Record} (state : c.state = .registered) (current : c.current = some r)
      (registers : ∃ h ∈ hs, h.Registers) (unregisters : ∀ h ∈ hs, ¬h.Unregisters)
      (last : lastAccepted hs = some r)
  | closed (state : c.state = .closed) (unregisters : ∃ h ∈ hs, h.Unregisters)

theorem lastAccepted_append (hs : List Handled) (h : Handled) :
    lastAccepted (hs ++ [h]) = (h.accepted.getLast?.map (·.record)).or (lastAccepted hs) := by
  simp only [lastAccepted, List.flatMap_append, List.flatMap_singleton, List.getLast?_append]
  cases h.accepted.getLast? <;> rfl

theorem Stands.step {c c' : Channel} {hs : List Handled} {h : Handled} (hc : c.Stands hs)
    (hopen : c.state ≠ .closed) (step : Step c h c') : c'.Stands (hs ++ [h]) := by
  have hnone : ∀ {P : Handled → Prop}, (∀ x ∈ hs, ¬P x) → ¬P h → ∀ x ∈ hs ++ [h], ¬P x :=
    fun hall hlast => List.forall_mem_append.mpr ⟨hall, by simpa using hlast⟩
  have hsome : ∀ {P : Handled → Prop}, (∃ x ∈ hs, P x) → ∃ x ∈ hs ++ [h], P x :=
    fun ⟨x, hx, hP⟩ => ⟨x, List.mem_append_left _ hx, hP⟩
  have hself : ∀ {P : Handled → Prop}, P h → ∃ x ∈ hs ++ [h], P x :=
    fun hP => ⟨h, List.mem_append_right _ List.mem_cons_self, hP⟩
  cases hc with
  | idle state registers unregisters =>
    cases step with
    | kept state' current' accepted registers' unregisters' =>
      exact .idle (state'.trans state) (hnone registers registers')
        (hnone unregisters unregisters')
    | wrote origin state' current' accepted unregisters' =>
      have hregisters : h.Registers := origin.resolve_left (by simp [state])
      refine .registered state' current' (hself hregisters) (hnone unregisters unregisters') ?_
      rw [lastAccepted_append, accepted]
      rfl
    | ended origin state' unregisters' =>
      rw [state] at origin
      cases origin
  | registered state current registers unregisters last =>
    cases step with
    | kept state' current' accepted registers' unregisters' =>
      refine .registered (state'.trans state) (current'.trans current) (hsome registers)
        (hnone unregisters unregisters') ?_
      rw [lastAccepted_append, accepted]
      exact last
    | wrote origin state' current' accepted unregisters' =>
      refine .registered state' current' (hsome registers) (hnone unregisters unregisters') ?_
      rw [lastAccepted_append, accepted]
      rfl
    | ended origin state' unregisters' => exact .closed state' (hself unregisters')
  | closed state unregisters => exact absurd state hopen

/-- All frames are handled as they should be, and the channel stands as it should. -/
structure Course (c : Channel) (d : Desk) (hs : List Handled) (c' : Channel) (d' : Desk) :
    Prop where
  replies : c'.replies = c.replies ++ hs.filterMap Handled.reply?
  queue : d'.queue = d.queue
  gauges : d'.gauges.leave c'.state = d.gauges.leave c.state
  stands : ∀ before, c.Stands before → c'.Stands (before ++ hs)

theorem course_handleAll {ρ : Type} {b : Backend ρ} (hb : b.Genuine)
    (frames : List (Time × List UInt8)) {c : Channel} (hc : c.reachable = true) (d : Desk) (g : ρ) :
    let (hs, c', d', _) := handleAll b c d g frames
    Course c d hs c' d' := by
  have hrefl : ∀ (c : Channel) (d : Desk), Course c d [] c d := fun c d =>
    ⟨(List.append_nil c.replies).symm, rfl, rfl, fun before h => by rwa [List.append_nil]⟩
  induction frames generalizing c d g with
  | nil => exact hrefl c d
  | cons first frames ih =>
    obtain ⟨now, frame⟩ := first
    by_cases hopen : c.state = .closed
    · rw [handleAll_of_closed _ _ _ _ hopen]
      exact hrefl c d
    · have hserved := served_runFrame hb hc hopen now frame d g
      rw [handleAll_cons _ _ _ _ hopen]
      generalize c.accepted b now (.frame frame) d g = ws at hserved ⊢
      generalize c.runFrame b now frame d g = res at hserved ⊢
      obtain ⟨result, c₁, d₁, g₁⟩ := res
      have hrest := ih hserved.reachable d₁ g₁
      generalize handleAll b c₁ d₁ g₁ frames = all at hrest ⊢
      refine ⟨?_, hrest.queue.trans hserved.queue, ?_, fun before h => ?_⟩
      · rw [hrest.replies, hserved.replies, List.append_assoc]
        simp only [List.filterMap_cons]
        cases Handled.reply? ⟨frame, result, ws⟩ <;> rfl
      · rw [hrest.gauges, hserved.gauges, Gauges.leave_move]
      · have h₁ := hrest.stands _ (h.step hopen hserved.step)
        rwa [List.append_assoc] at h₁

end Channel

end LeaseRegistry
