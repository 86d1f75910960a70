import LeaseRegistry.Proofs.Channel.Undertaking

/-!
# Writes whose connection is lost

The connection of a channel may go away while an operation on the channel is under way. What the
channel holds at that moment is queued for eviction. A record that the registry takes is handed to
the channel only after its answer has arrived, so a connection that is lost before then queues an
older record or none. A registration looks at its channel once more after that and makes up for it.
An update and a heartbeat do not, and what the registry took from them stays unqueued:
`Undertaking.write_queued_iff`.

As long as a call is open the channel holds what it held before (`Waiting`), and once it holds the
record that was taken it keeps it (`Holding`).
-/

namespace LeaseRegistry

open Channel

namespace Undertaking

variable {ρ : Type} {b : Backend ρ} {m : ClientMessage} {before : Channel} {u : Undertaking ρ}
  {call : Channel.Call} {r : Record}

/-! ## Where an operation stands -/

/-- A call is open. The channel holds what it held before the operation, and nothing else was
queued. -/
structure Waiting (m : ClientMessage) (before : Channel) (u : Undertaking ρ) (call : Channel.Call) :
    Prop where
  isOpen : u.stage.openCall? = some call
  kind : call.isRegistration = m.isRegistration
  current : u.channel.current = before.current
  registered : u.lost = none → call.isUnregistration = false → u.channel.state = .registered
  record : ∀ r, u.taken = some r → call.record? = some r
  taken : ∀ r, u.taken = some r → u.stage = .next (.taken call) ∨ u.stage.taken? = some r
  early : ∀ s, u.lost = some s → s.openCall? ≠ none
  queued : ∀ q ∈ u.queued, before.current = some q.record
  left : u.lost ≠ none → call.isUnregistration = false → ∀ r, before.current = some r →
    ∃ q ∈ u.queued, q.record = r

/-- The channel holds the record that the registry took. -/
structure Holding (m : ClientMessage) (before : Channel) (u : Undertaking ρ) (r : Record) :
    Prop where
  settled : u.stage.openCall? = none
  taken : u.taken = some r
  current : u.channel.current = some r
  registered : u.lost = none → u.channel.state = .registered
  noted : ∀ record, u.stage = .next (.noted record) → record = r ∧ m.isRegistration = true
  queued : ∀ s, u.lost = some s →
    m.isRegistration = true ∨ s.openCall? = none ∨ before.current = some r →
    u.stage = .next (.noted r) ∨ ∃ q ∈ u.queued, q.record = r
  only : ∀ q ∈ u.queued, before.current = some q.record ∨
    q.record = r ∧ (m.isRegistration = true ∨ ∃ s, u.lost = some s ∧ s.openCall? = none)

inductive Stands (m : ClientMessage) (before : Channel) (u : Undertaking ρ) : Prop where
  | waiting {call : Channel.Call} (h : Waiting m before u call)
  | holding {r : Record} (h : Holding m before u r)
  /-- The registry took nothing, and no call is open. -/
  | idle (settled : u.stage.openCall? = none) (taken : u.taken = none)

/-! ## The steps of the operation -/

section

variable {now : Time} {stage : Stage} {c : Channel} {d : Desk} {g : ρ}

theorem step_proceed (h : u.stage.proceed b now u.channel u.desk u.host = (stage, c, d, g)) :
    u.step b (.proceed now) =
      { u with
        stage, channel := c, desk := d, host := g
        taken := u.taken.or stage.taken?
        queued := u.queued ++ u.desk.entriesSince d } := by
  simp only [step, h]

theorem Waiting.start (hkind : call.isRegistration = m.isRegistration)
    (hcurrent : c.current = before.current)
    (hregistered : call.isUnregistration = false → c.state = .registered) (d : Desk) (g : ρ) :
    Waiting m before ⟨.next (.calling call), c, d, g, none, [], none⟩ call where
  isOpen := rfl
  kind := hkind
  current := hcurrent
  registered _ := hregistered
  record _ hr := by cases hr
  taken _ hr := by cases hr
  early _ hs := by cases hs
  queued _ hq := absurd hq List.not_mem_nil
  left hlost := absurd rfl hlost

theorem stands_begin (m : ClientMessage) (c : Channel) (d : Desk) (g : ρ) :
    Stands m c (begin b m c d g) := by
  cases m with
  | register record =>
    cases hs : c.state with
    | idle =>
      have hcurrent : (c.moveTo d .registered).1.current = c.current := rfl
      simp only [begin, Channel.begin, hs]
      exact .waiting (.start rfl hcurrent (fun _ => rfl) _ g)
    | registered =>
      simp only [begin, Channel.begin, hs]
      exact .idle rfl rfl
    | closed =>
      simp only [begin, Channel.begin, hs]
      exact .idle rfl rfl
  | update record =>
    cases hr : c.registered? with
    | error e =>
      simp only [begin, Channel.begin, hr]
      exact .idle rfl rfl
    | ok previous =>
      by_cases hid : record.id = previous.id
      · simp only [begin, Channel.begin, hr, if_pos hid]
        exact .waiting (.start rfl rfl (fun _ => (registered?_eq_ok.mp hr).1) d g)
      · simp only [begin, Channel.begin, hr, if_neg hid]
        exact .idle rfl rfl
  | unregister =>
    cases hr : c.registered? with
    | error e =>
      simp only [begin, Channel.begin, hr]
      exact .idle rfl rfl
    | ok record =>
      have hcurrent : (c.moveTo d .closed).1.current = c.current := rfl
      simp only [begin, Channel.begin, hr]
      refine .waiting (.start rfl hcurrent (fun hcall => ?_) _ g)
      cases hcall
  | heartbeat =>
    cases hr : c.registered? with
    | error e =>
      simp only [begin, Channel.begin, hr]
      exact .idle rfl rfl
    | ok record =>
      simp only [begin, Channel.begin, hr]
      exact .waiting (.start rfl rfl (fun _ => (registered?_eq_ok.mp hr).1) d g)

theorem Waiting.ask (h : Waiting m before u call) (hstage : u.stage = .next (.calling call))
    (now : Time) : Stands m before (u.step b (.proceed now)) := by
  obtain ⟨a, g, hask⟩ : ∃ a g, b.handle u.host now call.request = (a, g) := ⟨_, _, rfl⟩
  have hproceed : u.stage.proceed b now u.channel u.desk u.host =
      (.answered call a, u.channel, u.desk, g) := by
    simp only [hstage, Stage.proceed, hask]
  have htaken : u.taken = none := by
    refine Option.eq_none_iff_forall_ne_some.mpr fun r hr => ?_
    rcases h.taken r hr with hnext | hanswered
    · rw [hstage] at hnext
      cases hnext
    · rw [hstage] at hanswered
      cases hanswered
  rw [step_proceed hproceed, htaken, Option.none_or, Desk.entriesSince_self, List.append_nil]
  exact .waiting ⟨rfl, h.kind, h.current, h.registered, fun r hr => record?_of_taken? hr,
    fun r hr => .inr hr, h.early, h.queued, h.left⟩

/-- A call of the same kind is open as long as the registry has taken nothing. -/
theorem Waiting.again (h : Waiting m before u call) {call' : Channel.Call} {stage : Stage}
    (hopen : stage.openCall? = some call') (hreg : call'.isRegistration = call.isRegistration)
    (hunreg : call'.isUnregistration = call.isUnregistration) :
    Waiting m before { u with stage, taken := none } call' where
  isOpen := hopen
  kind := hreg.trans h.kind
  current := h.current
  registered hlost hcall := h.registered hlost (hunreg.symm.trans hcall)
  record _ hr := by cases hr
  taken _ hr := by cases hr
  early := h.early
  queued := h.queued
  left hlost hcall := h.left hlost (hunreg.symm.trans hcall)

theorem Waiting.hear (h : Waiting m before u call) {a : Answer}
    (hstage : u.stage = .answered call a) (now : Time) :
    Stands m before (u.step b (.proceed now)) := by
  obtain ⟨p, c, d, hanswered⟩ : ∃ p c d,
      u.channel.answered call a (b.stored u.host) now u.desk = (p, c, d) := ⟨_, _, _, rfl⟩
  have hproceed : u.stage.proceed b now u.channel u.desk u.host = (.next p, c, d, u.host) := by
    simp only [hstage, Stage.proceed, hanswered]
  rw [step_proceed hproceed]
  cases htaken : u.taken with
  | some r =>
    have hnow : (Stage.answered call a).taken? = some r := by
      rcases h.taken r htaken with hnext | hanswered
      · rw [hstage] at hnext
        cases hnext
      · rw [hstage] at hanswered
        exact hanswered
    rw [answered_of_taken? hnow] at hanswered
    cases hanswered
    rw [Option.some_or, Desk.entriesSince_self, List.append_nil]
    refine .waiting ⟨rfl, h.kind, h.current, h.registered, fun r' hr' => ?_, fun _ _ => .inl rfl,
      h.early, h.queued, h.left⟩
    exact h.record r' (htaken.trans hr')
  | none =>
    have hheard := heard_answered call a (b.stored u.host) now u.channel u.desk
    rw [hanswered] at hheard
    cases hheard with
    | taken =>
      rw [Desk.entriesSince_self, List.append_nil]
      exact .waiting (h.again rfl rfl rfl)
    | again hcall =>
      subst hcall
      rw [Desk.entriesSince_self, List.append_nil]
      exact .waiting (h.again rfl rfl rfl)
    | ended settled orderly => exact .idle settled rfl

/-- The channel learns that the call has ended well. A record that the registry took is handed to
it. -/
theorem Waiting.note (h : Waiting m before u call) (hstage : u.stage = .next (.taken call))
    (now : Time) : Stands m before (u.step b (.proceed now)) := by
  have hends : ∀ {p : Phase} {record : Record}, call.record? = some record →
      call.isUnregistration = false → (Stage.next p).openCall? = none →
      (∀ r, Stage.next p = .next (.noted r) → r = record ∧ m.isRegistration = true) →
      (m.isRegistration = true → p = .noted record) →
      (Stage.next (.taken call)).proceed b now u.channel u.desk u.host =
        (.next p, u.channel.note record, u.desk, u.host) →
      Stands m before (u.step b (.proceed now)) := by
    intro p record hrecord hunreg hover hnoted hreg hproceed
    rw [← hstage] at hproceed
    rw [step_proceed hproceed, Desk.entriesSince_self, List.append_nil]
    cases htaken : u.taken with
    | none => exact .idle hover rfl
    | some r =>
      obtain rfl : record = r := Option.some.inj (hrecord.symm.trans (h.record r htaken))
      refine .holding (r := record) ⟨hover, rfl, rfl, fun hlost => h.registered hlost hunreg,
        hnoted, fun s hs hqueued => ?_, fun q hq => .inl (h.queued q hq)⟩
      rcases hqueued with hm | hlate | hsame
      · exact .inl (congrArg Stage.next (hreg hm))
      · exact absurd hlate (h.early s hs)
      · exact .inr (h.left (fun hnone => by rw [hs] at hnone; cases hnone) hunreg record hsame)
  -- The registry takes no record from these two.
  have hnothing : ∀ {p : Phase} {c : Channel}, call.record? = none →
      (Stage.next p).openCall? = none →
      (Stage.next (.taken call)).proceed b now u.channel u.desk u.host =
        (.next p, c, u.desk, u.host) →
      Stands m before (u.step b (.proceed now)) := by
    intro p c hrecord hover hproceed
    rw [← hstage] at hproceed
    rw [step_proceed hproceed]
    refine .idle hover ?_
    cases htaken : u.taken with
    | none => rfl
    | some r => cases hrecord.symm.trans (h.record r htaken)
  have hkind := h.kind
  have hother : call.isRegistration = false → m.isRegistration ≠ true := by
    intro hcall hm
    rw [hcall, hm] at hkind
    cases hkind
  cases call with
  | register record =>
    refine hends (p := .noted record) rfl rfl rfl (fun r hr => ?_) (fun _ => rfl) rfl
    cases hr
    exact ⟨rfl, hkind.symm⟩
  | update record deltas =>
    exact hends (p := .acking) rfl rfl rfl (fun r hr => by cases hr)
      (fun hm => absurd hm (hother rfl)) rfl
  | revive record =>
    exact hends (p := .finished (.ok ())) rfl rfl rfl (fun r hr => by cases hr)
      (fun hm => absurd hm (hother rfl)) rfl
  | unregister record version => exact hnothing (p := .acking) rfl rfl rfl
  | renew record => exact hnothing (p := .finished (.ok ())) rfl rfl rfl

theorem settled_advance (now : Time) (c : Channel) (d : Desk) {p : Phase}
    (h : (Stage.next p).openCall? = none) :
    (Stage.next (advance now c d p).1).openCall? = none := by
  cases p with
  | calling call => cases h
  | taken call => cases h
  | noted record =>
    simp only [advance]
    split <;> rfl
  | replying reply result => cases reply <;> rfl
  | finished result => rfl

/-- An operation whose calls are over goes on by itself. -/
theorem proceed_of_settled {p : Phase} (h : (Stage.next p).openCall? = none) :
    (Stage.next p).proceed b now c d g =
      (.next (advance now c d p).1, (advance now c d p).2.1, (advance now c d p).2.2, g) := by
  cases p with
  | calling call => cases h
  | taken call => cases h
  | noted record => rfl
  | replying reply result => rfl
  | finished result => rfl

/-- A registration looks at its channel again. The other operations only reply. -/
theorem Holding.proceed (h : Holding m before u r) (ht : u.Tidy) (now : Time) :
    Stands m before (u.step b (.proceed now)) := by
  obtain ⟨stage, c, d, g, taken, queued, lost⟩ := u
  obtain ⟨settled, rfl, current, registered, noted, hqueued, only⟩ := h
  cases stage with
  | answered call a => cases settled
  | next p =>
    rw [step_proceed (proceed_of_settled settled)]
    simp only at current registered noted hqueued only settled
    cases p with
    | calling call => cases settled
    | taken call => cases settled
    | noted record =>
      obtain ⟨rfl, hm⟩ := noted record rfl
      by_cases hclosed : c.state = .closed
      · simp only [advance, if_pos hclosed, Desk.entriesSince_queueEviction]
        refine .holding (r := record) ⟨rfl, rfl, current, registered, fun r hr => (by cases hr),
          fun s hs _ => .inr ⟨_, List.mem_append_right _ (List.mem_singleton_self _), rfl⟩,
          fun q hq => ?_⟩
        rcases List.mem_append.mp hq with hq | hq
        · exact only q hq
        · rw [List.mem_singleton.mp hq]
          exact .inr ⟨rfl, .inl hm⟩
      · have hlost : lost = none := ht.lost_eq_none hclosed
        simp only [advance, if_neg hclosed, Desk.entriesSince_self, List.append_nil]
        refine .holding (r := record) ⟨rfl, rfl, current, registered, fun r hr => (by cases hr),
          fun s hs => ?_, only⟩
        rw [hlost] at hs
        cases hs
    | replying reply result =>
      have hleft : ∀ s, lost = some s → m.isRegistration = true ∨ s.openCall? = none ∨
          before.current = some r → ∃ q ∈ queued, q.record = r := by
        intro s hs hwhy
        rcases hqueued s hs hwhy with hnoted | hq
        · cases hnoted
        · exact hq
      cases reply with
      | none =>
        simp only [advance, Desk.entriesSince_self, List.append_nil]
        exact .holding ⟨rfl, rfl, current, registered, fun r hr => (by cases hr),
          fun s hs hwhy => .inr (hleft s hs hwhy), only⟩
      | some reply =>
        obtain ⟨-, hcurrent, hstate⟩ := core_reply c reply
        simp only [advance, Desk.entriesSince_self, List.append_nil]
        exact .holding ⟨rfl, rfl, hcurrent.trans current,
          fun hlost => hstate.trans (registered hlost), fun r hr => (by cases hr),
          fun s hs hwhy => .inr (hleft s hs hwhy), only⟩
    | finished result =>
      simp only [advance, Desk.entriesSince_self, List.append_nil]
      exact .holding ⟨rfl, rfl, current, registered, noted, hqueued, only⟩

theorem Stands.proceed (h : Stands m before u) (ht : u.Tidy) (now : Time) :
    Stands m before (u.step b (.proceed now)) := by
  cases h with
  | waiting h =>
    have hopen := h.isOpen
    cases hstage : u.stage with
    | answered call a =>
      rw [hstage] at hopen
      cases hopen
      exact h.hear hstage now
    | next p =>
      rw [hstage] at hopen
      cases p with
      | calling call =>
        cases hopen
        exact h.ask hstage now
      | taken call =>
        cases hopen
        exact h.note hstage now
      | noted record => cases hopen
      | replying reply result => cases hopen
      | finished result => cases hopen
  | holding h => exact h.proceed ht now
  | idle settled taken =>
    cases hstage : u.stage with
    | answered call a =>
      rw [hstage] at settled
      cases settled
    | next p =>
      rw [hstage] at settled
      have hproceed : u.stage.proceed b now u.channel u.desk u.host = _ :=
        hstage ▸ proceed_of_settled settled
      rw [step_proceed hproceed, taken]
      exact .idle (settled_advance now u.channel u.desk settled) rfl

end

/-! ## Losing the connection -/

theorem lost_disconnect (u : Undertaking ρ) (now : Time) :
    (u.step b (.disconnect now)).lost ≠ none := by
  show u.lost.or (some u.stage) ≠ none
  cases u.lost <;> exact Option.some_ne_none _

theorem lost_disconnect_eq_some {now : Time} {s : Stage} :
    (u.step b (.disconnect now)).lost = some s ↔
      u.lost = some s ∨ u.lost = none ∧ u.stage = s := by
  show u.lost.or (some u.stage) = some s ↔ _
  cases u.lost with
  | none => simp only [Option.none_or, Option.some.injEq, reduceCtorEq, true_and, false_or]
  | some s' => simp only [Option.some_or, Option.some.injEq, reduceCtorEq, false_and, or_false]

/-- What the channel holds is queued, if it is registered. -/
theorem mem_entriesSince_connectionClosed {c : Channel} {d : Desk} {now : Time} :
    (∃ q ∈ d.entriesSince (c.connectionClosed d now).2, q.record = r) ↔
      c.state = .registered ∧ c.current = some r := by
  rw [← List.mem_map, records_connectionClosed, Option.mem_toList, left?_eq_some]

theorem Waiting.disconnect (h : Waiting m before u call) (now : Time) :
    Waiting m before (u.step b (.disconnect now)) call where
  isOpen := h.isOpen
  kind := h.kind
  current := (congrArg Channel.current (connectionClosed_fst ..)).trans h.current
  registered hlost := absurd hlost (lost_disconnect u now)
  record := h.record
  taken := h.taken
  early s hs := by
    rcases lost_disconnect_eq_some.mp hs with hs | ⟨-, rfl⟩
    · exact h.early s hs
    · rw [h.isOpen]
      exact Option.some_ne_none call
  queued q hq := by
    rcases List.mem_append.mp hq with hq | hq
    · exact h.queued q hq
    · exact h.current ▸ (mem_entriesSince_connectionClosed.mp ⟨q, hq, rfl⟩).2
  left _ hunreg r hr := by
    by_cases hlost : u.lost = none
    · obtain ⟨q, hq, hqr⟩ := mem_entriesSince_connectionClosed.mpr
        ⟨h.registered hlost hunreg, h.current.trans hr⟩
      exact ⟨q, List.mem_append_right _ hq, hqr⟩
    · obtain ⟨q, hq, hqr⟩ := h.left hlost hunreg r hr
      exact ⟨q, List.mem_append_left _ hq, hqr⟩

theorem Holding.disconnect (h : Holding m before u r) (ht : u.Tidy) (now : Time) :
    Holding m before (u.step b (.disconnect now)) r where
  settled := h.settled
  taken := h.taken
  current := (congrArg Channel.current (connectionClosed_fst ..)).trans h.current
  registered hlost := absurd hlost (lost_disconnect u now)
  noted := h.noted
  queued s hs hwhy := by
    rcases lost_disconnect_eq_some.mp hs with hs | ⟨hlost, rfl⟩
    · refine (h.queued s hs hwhy).imp_right ?_
      rintro ⟨q, hq, hqr⟩
      exact ⟨q, List.mem_append_left _ hq, hqr⟩
    · obtain ⟨q, hq, hqr⟩ := mem_entriesSince_connectionClosed.mpr
        ⟨h.registered hlost, h.current⟩
      exact .inr ⟨q, List.mem_append_right _ hq, hqr⟩
  only q hq := by
    rcases List.mem_append.mp hq with hq | hq
    · refine (h.only q hq).imp_right (And.imp_right (Or.imp_right ?_))
      rintro ⟨s, hs, hlate⟩
      exact ⟨s, lost_disconnect_eq_some.mpr (.inl hs), hlate⟩
    · obtain ⟨hstate, hcurrent⟩ := mem_entriesSince_connectionClosed.mp ⟨q, hq, rfl⟩
      have hlost : u.lost = none := ht.lost_eq_none (by rw [hstate]; nofun)
      exact .inr ⟨Option.some.inj (hcurrent.symm.trans h.current),
        .inr ⟨u.stage, lost_disconnect_eq_some.mpr (.inr ⟨hlost, rfl⟩), h.settled⟩⟩

/-! ## Whole operations -/

theorem Stands.step (h : Stands m before u) (ht : u.Tidy) (a : Move ρ) :
    Stands m before (u.step b a) := by
  cases a with
  | proceed now => exact h.proceed ht now
  | disconnect now => cases h with
    | waiting h => exact .waiting (h.disconnect now)
    | holding h => exact .holding (h.disconnect ht now)
    | idle settled taken => exact .idle settled taken
  | reachable _ | elsewhere _ => cases h with
    | waiting h => exact .waiting ⟨h.isOpen, h.kind, h.current, h.registered, h.record, h.taken,
        h.early, h.queued, h.left⟩
    | holding h => exact .holding ⟨h.settled, h.taken, h.current, h.registered, h.noted, h.queued,
        h.only⟩
    | idle settled taken => exact .idle settled taken

theorem stands_run (b : Backend ρ) (m : ClientMessage) (c : Channel) (d : Desk) (g : ρ)
    (moves : List (Move ρ)) :
    Stands m c ((begin b m c d g).run b moves) ∧ ((begin b m c d g).run b moves).Tidy := by
  have hstands := stands_begin (b := b) m c d g
  have htidy := tidy_begin (b := b) m c d g
  generalize begin b m c d g = u at hstands htidy ⊢
  induction moves generalizing u with
  | nil => exact ⟨hstands, htidy⟩
  | cons a moves ih => exact ih (u.step b a) (hstands.step htidy a) (htidy.step a)

/-- The registry took a record from an operation during which the connection went away. The channel
is closed in the end. The record is queued as one of this server if the operation is a registration,
or if the channel had seen the end of the call before the connection went away. Otherwise it is not
queued, unless the channel held this very record before. -/
theorem write_queued_iff (b : Backend ρ) (m : ClientMessage) (c : Channel) (d : Desk) (g : ρ)
    (moves : List (Move ρ)) {result : Result} {r : Record} {s : Stage}
    (hend : ((begin b m c d g).run b moves).stage = .next (.finished result))
    (htaken : ((begin b m c d g).run b moves).taken = some r)
    (hlost : ((begin b m c d g).run b moves).lost = some s) :
    let u := (begin b m c d g).run b moves
    u.channel.state = .closed ∧
      ((∃ q ∈ u.queued, q.record = r ∧ q.source = .here) ↔
        m.isRegistration = true ∨ s.openCall? = none ∨ c.current = some r) ∧
      ((∀ a ∈ moves, a.KeepsEntries) → u.queued ⊆ u.desk.queue.entries) := by
  obtain ⟨hstands, htidy⟩ := stands_run b m c d g moves
  have hentries : (∀ a ∈ moves, a.KeepsEntries) → ((begin b m c d g).run b moves).queued ⊆
      ((begin b m c d g).run b moves).desk.queue.entries :=
    fun hmoves => entries_run hmoves (List.nil_subset _)
  generalize (begin b m c d g).run b moves = u at *
  have hclosed : u.channel.state = .closed := htidy.closed (by rw [hlost]; nofun)
  refine ⟨hclosed, ?_, hentries⟩
  cases hstands with
  | waiting h =>
    have hopen := h.isOpen
    rw [hend] at hopen
    cases hopen
  | idle settled taken => cases taken.symm.trans htaken
  | holding h =>
    obtain rfl := Option.some.inj (htaken.symm.trans h.taken)
    constructor
    · rintro ⟨q, hq, rfl, -⟩
      rcases h.only q hq with hbefore | ⟨-, hm | ⟨s', hs', hlate⟩⟩
      · exact .inr (.inr hbefore)
      · exact .inl hm
      · obtain rfl := Option.some.inj (hlost.symm.trans hs')
        exact .inr (.inl hlate)
    · intro hwhy
      rcases h.queued s hlost hwhy with hnoted | ⟨q, hq, hqr⟩
      · cases hend.symm.trans hnoted
      · exact ⟨q, hq, hqr, htidy.here q hq⟩

/-- A registration looks at its channel after its write. -/
theorem write_queued_iff_registration :
    let record := Record.bare ⟨"web"⟩ "shop"
    let (c, d) := Channel.openOn (.empty 90000)
    let u := (begin .alone (.register record) c d (.start .standard 0)).run .alone
      [.proceed 0, .disconnect 0, .proceed 0, .proceed 0, .proceed 0]
    u.channel.state = .closed ∧
      ∃ q ∈ u.queued, q.record = record.atVersion 1 ∧ q.source = .here := by
  intro record
  obtain ⟨hclosed, hqueued, -⟩ := write_queued_iff .alone (.register record)
    (Channel.openOn (.empty 90000)).1 (Channel.openOn (.empty 90000)).2 (.start .standard 0)
    [.proceed 0, .disconnect 0, .proceed 0, .proceed 0, .proceed 0] rfl rfl rfl
  exact ⟨hclosed, hqueued.mpr (.inl rfl)⟩

/-- If the connection goes away during the operation, the record that the registry took from it is
queued. -/
def QueuesItsWrite (b : Backend ρ) (m : ClientMessage) (c : Channel) (d : Desk) (g : ρ)
    (moves : List (Move ρ)) : Prop :=
  let u := (begin b m c d g).run b moves
  ∀ result r, u.stage = .next (.finished result) → u.taken = some r → u.lost ≠ none →
    u.channel.state = .closed ∧ ∃ q ∈ u.queued, q.record = r ∧ q.source = .here

/-- The connection goes away while an update waits for the registry. -/
theorem not_queuesItsWrite_update :
    let record := Record.bare ⟨"web"⟩ "shop"
    let (_, c, d, g) := (Channel.openOn (.empty 90000)).1.run .alone 0 (.register record)
      (Channel.openOn (.empty 90000)).2 (.start .standard 0)
    ¬QueuesItsWrite .alone (.update { record with app := "store" }) c d g
      [.proceed 0, .disconnect 0, .proceed 0, .proceed 0, .proceed 0] := by
  intro record h
  obtain ⟨-, q, hq, hrecord, -⟩ := h _ _ rfl rfl (by rintro ⟨⟩)
  revert q
  decide +kernel

end Undertaking

end LeaseRegistry
