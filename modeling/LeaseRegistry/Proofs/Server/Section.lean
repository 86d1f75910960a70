import LeaseRegistry.Server.Traffic

/-!
# Activities from wait to wait

While an activity does not wait nothing else happens to its server. `Activity.Sections R` says of
each such stretch that it leads from one server to another as `R` allows; what happens to the server
while the activity waits is left open. `Traffic.stepped_step` is what follows for a server with any
errands: in a move the server takes in a message of a peer, or one errand goes on as it may, or
nothing happens to the server.
-/

namespace LeaseRegistry

/-! ## One activity -/

namespace Activity

variable {α β : Type}

def result? : Activity α → Option α
  | done a => some a
  | _ => none

/-- An activity that has come from the server `s₀` without waiting, and goes on at the server that
follows: each of its stretches leads from a server to a server, and with the last one to the result,
as `R` says. -/
def Sections (R : Server → Option α → Server → Prop) : Activity α → Server → Server → Prop
  | done a, s₀, s => R s₀ (some a) s
  | look next, s₀, s => ∀ now, (next now s).Sections R s₀ s
  | put s next, s₀, _ => next.Sections R s₀ s
  | announce _ next, s₀, s => R s₀ none s ∧ ∀ s, next.Sections R s s
  | fetch _ next, s₀, s => R s₀ none s ∧ ∀ r s, (next r).Sections R s s
  | pause _ next, s₀, s => R s₀ none s ∧ ∀ s, next.Sections R s s

/-- The same of an activity that waits, or is over. -/
def Waits (R : Server → Option α → Server → Prop) : Activity α → Prop
  | announce _ next | pause _ next => ∀ s, next.Sections R s s
  | fetch _ next => ∀ r s, (next r).Sections R s s
  | done _ | look _ | put .. => True

variable {R : Server → Option α → Server → Prop} {Q : Server → Option β → Server → Prop}
  {s₀ s : Server}

theorem Sections.advance {a : Activity α} (h : a.Sections R s₀ s) (now : Time) :
    R s₀ (a.advance now s).1.result? (a.advance now s).2 ∧ (a.advance now s).1.Waits R := by
  induction a generalizing s with
  | done a => exact ⟨h, trivial⟩
  | look next ih => exact ih now s (h now)
  | put s' next ih => exact ih h
  | announce m next => exact ⟨h.1, h.2⟩
  | fetch peer next => exact ⟨h.1, h.2⟩
  | pause d next => exact ⟨h.1, h.2⟩

/-- The stretch in which the first activity ends and the second begins is one. -/
theorem Sections.andThen {a : Activity β} {f : β → Activity α} (h : a.Sections Q s₀ s)
    (hwait : ∀ s₀ s, Q s₀ none s → R s₀ none s)
    (hdone : ∀ s₀ b s, Q s₀ (some b) s → (f b).Sections R s₀ s) :
    (a.andThen f).Sections R s₀ s := by
  induction a generalizing s₀ s with
  | done b => exact hdone s₀ b s h
  | look next ih => exact fun now => ih now s (h now)
  | put s' next ih => exact ih h
  | announce m next ih => exact ⟨hwait s₀ s h.1, fun s => ih (h.2 s)⟩
  | fetch peer next ih => exact ⟨hwait s₀ s h.1, fun r s => ih r (h.2 r s)⟩
  | pause d next ih => exact ⟨hwait s₀ s h.1, fun s => ih (h.2 s)⟩

theorem sections_announceAny {next : Activity α} (hwait : R s₀ none s)
    (h : ∀ s, next.Sections R s s) (hnow : next.Sections R s₀ s) (m : Option PeerMessage) :
    (announceAny m next).Sections R s₀ s := by
  cases m with
  | none => exact hnow
  | some m => exact ⟨hwait, h⟩

theorem sections_announceAll {next : Activity α} (hwait : ∀ s, R s none s)
    (h : ∀ s, next.Sections R s s) (ms : List PeerMessage) (hstart : R s₀ none s)
    (hnow : next.Sections R s₀ s) : (announceAll ms next).Sections R s₀ s := by
  induction ms generalizing s₀ s with
  | nil => exact hnow
  | cons m ms ih => exact ⟨hstart, fun s => ih (hwait s) (h s)⟩

end Activity

/-! ## One errand -/

namespace Errand

variable {τ α : Type} {R : Server → Option α → Server → Prop} {e : Errand τ α} {s : Server}

/-- What a turn may make of an errand and its server. -/
inductive Moved (R : Server → Option α → Server → Prop) (e : Errand τ α) (s : Server) :
    Errand τ α × Server → Prop where
  | still {e' : Errand τ α} (task : e'.task = e.task) (result : e'.result? = e.result?) :
    Moved R e s (e', s)
  | on {e' : Errand τ α} {s' : Server} (task : e'.task = e.task) (waited : e.result? = none)
      (goes : R s e'.result? s') : Moved R e s (e', s')

theorem moved_goOn {next : Activity α} (hwaited : e.result? = none) (h : next.Sections R s s)
    (now : Time) :
    Moved R e s (e.goOn next now s) ∧ (e.goOn next now s).1.rest.Waits R :=
  ⟨.on rfl hwaited (h.advance now).1, (h.advance now).2⟩

theorem moved_hear (h : e.rest.Waits R) (peer : Nat) (r : CallResult) (now : Time) (s : Server) :
    Moved R e s (e.hear peer r now s) ∧ (e.hear peer r now s).1.rest.Waits R := by
  obtain ⟨task, announcements, rest⟩ := e
  cases rest with
  | done | look | put | announce | pause => exact ⟨.still rfl rfl, h⟩
  | fetch p next =>
    unfold hear
    by_cases hp : p = peer
    · simp only [hp, if_true]
      exact moved_goOn rfl (h r s) now
    · simp only [hp, if_false]
      exact ⟨.still rfl rfl, h⟩

theorem moved_resume (h : e.rest.Waits R) (now : Time) (s : Server) :
    Moved R e s (e.resume now s) ∧ (e.resume now s).1.rest.Waits R := by
  obtain ⟨task, announcements, rest⟩ := e
  cases rest with
  | done | look | put | fetch => exact ⟨.still rfl rfl, h⟩
  | announce m next =>
    unfold resume
    by_cases hover : (talks ⟨task, announcements, .announce m next⟩).all Talk.isOver = true
    · simp only [hover, if_true]
      exact moved_goOn rfl (h s) now
    · simp only [hover]
      exact ⟨.still rfl rfl, h⟩
  | pause d next => exact moved_goOn rfl (h s) now

end Errand

/-! ## All errands -/

namespace Traffic

variable {τ α : Type} {program : τ → Activity α} {R : τ → Server → Option α → Server → Prop}
  {t : Traffic τ α}

/-- Whatever is under way goes on as `R` says. -/
def Underway (R : τ → Server → Option α → Server → Prop) (t : Traffic τ α) : Prop :=
  ∀ e ∈ t.errands, e.rest.Waits (R e.task)

/-- What a move may come to. -/
inductive Stepped (R : τ → Server → Option α → Server → Prop) (t : Traffic τ α) :
    Traffic τ α → Prop where
  | idle : Stepped R t t
  | received (now : Time) (origin : ServerId) (m : PeerMessage) :
    Stepped R t { t with server := { t.server with
      coordinator := (t.server.coordinator.receive now origin m).2 } }
  | begun {e : Errand τ α} {s : Server} (goes : R e.task t.server e.result? s) :
    Stepped R t ⟨s, t.errands ++ [e]⟩
  | moved {n : Nat} {e e' : Errand τ α} {s : Server} (found : t.errands[n]? = some e)
      (moves : e.Moved (R e.task) t.server (e', s)) : Stepped R t ⟨s, t.errands.set n e'⟩

theorem stepped_onErrand (h : t.Underway R) (n : Nat)
    {f : Errand τ α → Server → Errand τ α × Server}
    (hf : ∀ e, e.rest.Waits (R e.task) →
      e.Moved (R e.task) t.server (f e t.server) ∧ (f e t.server).1.rest.Waits (R e.task)) :
    Stepped R t (t.onErrand n f) ∧ (t.onErrand n f).Underway R := by
  unfold onErrand
  cases hn : t.errands[n]? with
  | none => exact ⟨.idle, h⟩
  | some e =>
    obtain ⟨hmoves, hwaits⟩ := hf e (h e (List.mem_of_getElem? hn))
    have htask : (f e t.server).1.task = e.task := by
      generalize f e t.server = res at hmoves
      cases hmoves with
      | still task | on task => exact task
    refine ⟨.moved hn hmoves, fun e' he' => ?_⟩
    rcases List.mem_or_eq_of_mem_set he' with hold | rfl
    · exact h e' hold
    · rwa [htask]

theorem stepped_step (hprogram : ∀ task s, (program task).Sections (R task) s s)
    (h : t.Underway R) (move : Move τ) :
    Stepped R t (t.step program move) ∧ (t.step program move).Underway R := by
  cases move with
  | begin now task =>
    obtain ⟨hgoes, hwaits⟩ := (hprogram task t.server).advance now
    refine ⟨.begun hgoes, fun e he => ?_⟩
    rcases List.mem_append.mp he with hold | hnew
    · exact h e hold
    · rw [List.mem_singleton.mp hnew]
      exact hwaits
  | receive now origin m => exact ⟨.received now origin m, h⟩
  | hear n peer r now => exact stepped_onErrand h n fun e he => Errand.moved_hear he peer r now _
  | resume n now => exact stepped_onErrand h n fun e he => Errand.moved_resume he now _

end Traffic

end LeaseRegistry
