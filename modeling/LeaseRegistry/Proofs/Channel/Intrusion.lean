import LeaseRegistry.Proofs.Channel.Failure
import LeaseRegistry.Proofs.Channel.Script

/-!
# Scripts as runs of a busy service

Also a script with intrusions is a run of a service, of one with operations under way, as long as no
intrusion makes a call fail: `Office.mirrors_script`. So what holds in every state of a busy service
(`Underway`, `Rise`) holds after every script, and `Office.allOrNothing_script` carries over what an
operation does that fails.
-/

namespace LeaseRegistry

open Channel

theorem Service.set_channel {s : Service Registry} {i : Nat} {c : Channel}
    (there : s.channel? i = some c) : s.channels.set i (some c) = s.channels := by
  obtain ⟨hi, he⟩ := channel?_eq_some there
  rw [← he, List.set_getElem_self]

namespace Busy

variable {s s' s'' : Busy Registry} {i j k : Nat}

/-- A run leads from `s` to `s'`, and the first `k` operations under way make no step in it. -/
structure Reaches (k : Nat) (s s' : Busy Registry) : Prop where
  run : ∃ acts, s.run .alone acts = s'
  grows : s.underway.length ≤ s'.underway.length
  waits : ∀ j < k, s'.underway[j]? = s.underway[j]?

theorem Reaches.refl (k : Nat) (s : Busy Registry) : s.Reaches k s :=
  ⟨⟨[], rfl⟩, Nat.le_refl _, fun _ _ => rfl⟩

theorem Reaches.trans (h : s.Reaches k s') (h' : s'.Reaches k s'') : s.Reaches k s'' := by
  obtain ⟨acts, hacts⟩ := h.run
  obtain ⟨acts', hacts'⟩ := h'.run
  refine ⟨⟨acts ++ acts', ?_⟩, Nat.le_trans h.grows h'.grows, fun j hj => ?_⟩
  · rw [Busy.run, List.foldl_append, ← hacts', ← hacts]
    rfl
  · rw [h'.waits j hj, h.waits j hj]

theorem Reaches.mono (h : s.Reaches k s') (hj : j ≤ k) : s.Reaches j s' :=
  ⟨h.run, h.grows, fun i hi => h.waits i (Nat.lt_of_lt_of_le hi hj)⟩

theorem reaches_whole (k : Nat) (s : Busy Registry) (a : Service.Act Registry) :
    s.Reaches k { s with service := s.service.act .alone a } :=
  ⟨⟨[.whole a], rfl⟩, Nat.le_refl _, fun _ _ => rfl⟩

theorem reaches_begin {c c' : Channel} {m : ClientMessage} {p : Phase} {d : Desk}
    (there : s.service.channel? i = some c)
    (hbegin : c.begin m (Backend.alone.stored s.service.host) s.service.desk = (p, c', d)) :
    s.Reaches s.underway.length
      ⟨put s.service i c' d s.service.host, s.underway ++ [(i, .next p)]⟩ := by
  refine ⟨⟨[.begin i m], ?_⟩, ?_, fun j hj => List.getElem?_append_left hj⟩
  · simp only [run, List.foldl_cons, List.foldl_nil, Busy.act, there, hbegin]
  · rw [List.length_append]
    exact Nat.le_add_right _ _

theorem reaches_proceed {c c' : Channel} {stage stage' : Stage} {d : Desk} {g : Registry}
    (there : s.service.channel? i = some c) (hk : s.underway[k]? = some (i, stage))
    (hproceed : stage.proceed .alone s.service.now c s.service.desk s.service.host =
      (stage', c', d, g)) :
    s.Reaches k ⟨put s.service i c' d g, s.underway.set k (i, stage')⟩ := by
  refine ⟨⟨[.proceed k], ?_⟩, ?_, fun j hj => List.getElem?_set_ne (Nat.ne_of_gt hj)⟩
  · simp only [run, List.foldl_cons, List.foldl_nil, Busy.act, hk, there, hproceed]
  · exact Nat.le_of_eq List.length_set.symm

theorem put_self {s : Service Registry} {c : Channel} (there : s.channel? i = some c) :
    put s i c s.desk s.host = s := by
  simp only [put, Service.set_channel there]

theorem put_put {s : Service Registry} (c c' : Channel) (d d' : Desk) (g g' : Registry) :
    put (put s i c d g) i c' d' g' = put s i c' d' g' := by
  simp only [put, List.set_set]

theorem channel?_put {s : Service Registry} {c : Channel} (there : s.channel? i = some c)
    (c' : Channel) (d : Desk) (g : Registry) : (put s i c' d g).channel? i = some c' := by
  have hset : (put s i c' d g).channels = s.channels.set i (some c') := rfl
  rw [Service.channel?_of_set there hset, if_pos rfl]

/-- An operation that does not wait for the registry makes its next step. -/
theorem reaches_advance {c c' : Channel} {p p' : Phase} {d : Desk}
    (there : s.service.channel? i = some c) (hk : s.underway[k]? = some (i, .next p))
    (hadvance : advance s.service.now c s.service.desk p = (p', c', d)) :
    ∃ s', s.Reaches k s' ∧ s'.service = put s.service i c' d s.service.host ∧
      s'.underway[k]? = some (i, .next p') := by
  have hlt : k < s.underway.length := (List.getElem?_eq_some_iff.mp hk).1
  have hstep : (Stage.next p).proceed .alone s.service.now c s.service.desk s.service.host =
      (.next p', c', d, s.service.host) →
      ∃ s', s.Reaches k s' ∧ s'.service = put s.service i c' d s.service.host ∧
        s'.underway[k]? = some (i, .next p') :=
    fun hproceed => ⟨_, reaches_proceed there hk hproceed, rfl, List.getElem?_set_self hlt⟩
  cases p with
  | calling call =>
    -- The operation waits for the registry, and does not go on by itself.
    cases hadvance
    exact ⟨s, .refl k s, (put_self there).symm, hk⟩
  | taken call => exact hstep (by simp only [Stage.proceed, hadvance])
  | noted record => exact hstep (by simp only [Stage.proceed, hadvance])
  | replying reply result => exact hstep (by simp only [Stage.proceed, hadvance])
  | finished result => exact hstep (by simp only [Stage.proceed, hadvance])

theorem reaches_settle {c c' : Channel} {p p' : Phase} {d : Desk}
    (there : s.service.channel? i = some c) (hk : s.underway[k]? = some (i, .next p))
    (hsettle : Channel.settle s.service.now p c s.service.desk = (p', c', d)) :
    ∃ s', s.Reaches k s' ∧ s'.service = put s.service i c' d s.service.host ∧
      s'.underway[k]? = some (i, .next p') := by
  obtain ⟨p₁, c₁, d₁, h₁⟩ : ∃ p₁ c₁ d₁,
      advance s.service.now c s.service.desk p = (p₁, c₁, d₁) := ⟨_, _, _, rfl⟩
  obtain ⟨p₂, c₂, d₂, h₂⟩ : ∃ p₂ c₂ d₂, advance s.service.now c₁ d₁ p₁ = (p₂, c₂, d₂) :=
    ⟨_, _, _, rfl⟩
  have h₃ : advance s.service.now c₂ d₂ p₂ = (p', c', d) := by
    simpa only [Channel.settle, h₁, h₂] using hsettle
  obtain ⟨s₁, hreach₁, hs₁, hk₁⟩ := reaches_advance there hk h₁
  have there₁ : s₁.service.channel? i = some c₁ := hs₁ ▸ channel?_put there ..
  obtain ⟨s₂, hreach₂, hs₂, hk₂⟩ := reaches_advance (d := d₂) there₁ hk₁ (by rw [hs₁]; exact h₂)
  have there₂ : s₂.service.channel? i = some c₂ := hs₂ ▸ channel?_put there₁ ..
  obtain ⟨s₃, hreach₃, hs₃, hk₃⟩ :=
    reaches_advance (d := d) there₂ hk₂ (by rw [hs₂, hs₁]; exact h₃)
  refine ⟨s₃, (hreach₁.trans hreach₂).trans hreach₃, ?_, hk₃⟩
  rw [hs₃, hs₂, put_put, hs₁, put_put]
  rfl

end Busy

namespace Channel

theorem Place.operated?_of_channel? {p : Place} {c : Channel} (h : p.channel? = some c) :
    p.operated? = some c := by
  cases p with
  | held c' => exact h
  | leaving c' => cases h
  | empty => cases h

/-- No intrusion in the step makes a call fail. -/
inductive Act.Faultless : Act → Prop where
  | intrude {method : Method} {before after : List Act} (hbefore : ∀ a ∈ before, a.Faultless)
      (hafter : ∀ a ∈ after, a.Faultless) : Faultless (.intrude method none before after)
  | other {a : Act}
      (h : ∀ method failure before after, a ≠ .intrude method failure before after) : Faultless a

/-- Neither the intrusion nor one within it makes a call fail. -/
structure Intrusion.Faultless (x : Intrusion) : Prop where
  failure : x.failure = none
  before : ∀ a ∈ x.before, a.Faultless
  after : ∀ a ∈ x.after, a.Faultless

namespace Office

theorem mem_of_takeIntrusion (m : Method) (xs : List Intrusion) :
    (∀ x, (takeIntrusion m xs).1 = some x → x ∈ xs) ∧ ∀ x ∈ (takeIntrusion m xs).2, x ∈ xs := by
  induction xs with
  | nil => exact ⟨fun x hx => (by cases hx), fun x hx => hx⟩
  | cons y ys ih =>
    obtain ⟨hfound, hrest⟩ := ih
    unfold takeIntrusion
    split
    · refine ⟨fun x hx => ?_, fun x hx => List.mem_cons_of_mem y hx⟩
      cases hx
      exact List.mem_cons_self
    · refine ⟨fun x hx => List.mem_cons_of_mem y (hfound x hx), fun x hx => ?_⟩
      rcases List.mem_cons.mp hx with rfl | hx
      · exact List.mem_cons_self
      · exact List.mem_cons_of_mem y (hrest x hx)

/-- The office is as the busy service. A dropped channel stays as long as an operation on it runs,
and the intrusions that wait make no call fail. -/
structure Mirrors (o : Office) (s : Busy Registry) : Prop extends o.Shares s.service where
  channels : o.channels.map Place.operated? = s.service.channels
  present : ∀ i ∈ o.running, s.service.channel? i ≠ none
  faultless : ∀ x ∈ o.intrusions, x.Faultless

namespace Mirrors

variable {o : Office} {s : Busy Registry} {i : Nat} {c : Channel}

theorem operated? (h : o.Mirrors s) (i : Nat) : (o.place i).operated? = s.service.channel? i := by
  rw [place, Service.channel?, ← h.channels, List.getElem?_map]
  cases o.channels[i]? <;> rfl

/-- What an operation does to a channel and what it works on. -/
theorem put (h : o.Mirrors s) (there : s.service.channel? i = some c) (c' : Channel) (d : Desk)
    {s' : Busy Registry} (hs' : s'.service = Busy.put s.service i c' d s.service.host) :
    (o.put i c' d).Mirrors s' := by
  have hplace := h.operated? i
  rw [there] at hplace
  have hset : s'.service.channels = s.service.channels.set i (some c') := by
    rw [hs']
    rfl
  refine ⟨?_, ?_, fun k hk => ?_, h.faultless⟩
  · rw [hs']
    exact ⟨h.registry, h.now, rfl⟩
  · rw [hset, ← h.channels, Office.put]
    refine List.ext_getElem? fun k => ?_
    rw [List.getElem?_map, List.getElem?_modify, List.getElem?_set, List.length_map,
      List.getElem?_map]
    by_cases hk : i = k
    · subst hk
      rw [place] at hplace
      cases hp : o.channels[i]? with
      | none =>
        rw [hp] at hplace
        cases hplace
      | some p =>
        rw [hp] at hplace
        have hlt : i < o.channels.length := (List.getElem?_eq_some_iff.mp hp).1
        cases p with
        | held c => simp [hlt, Place.map, Place.operated?]
        | leaving c => simp [hlt, Place.map, Place.operated?]
        | empty => cases hplace
    · simp [hk]
  · rw [Service.channel?_of_set there hset]
    split
    · exact Option.some_ne_none c'
    · exact h.present k hk

end Mirrors

/-- A service that is as the first office becomes as the second one in some run. The operations that
ran before still run, and no others do. -/
def Followed (o o' : Office) : Prop :=
  ∀ s, o.Mirrors s →
    ∃ s', s.Reaches s.underway.length s' ∧ o'.Mirrors s' ∧ o'.running = o.running

/-- An operation has gone on to a phase: the one at `k` on the channel at `i`. -/
def WentOn (k i : Nat) (o : Office) (s : Busy Registry) (res : Phase × Office) : Prop :=
  ∃ s', s.Reaches k s' ∧ res.2.Mirrors s' ∧ s'.underway[k]? = some (i, .next res.1) ∧
    res.2.running = o.running

section

variable {o o' : Office} {s s' : Busy Registry} {i k : Nat} {p : Phase}

theorem WentOn.andThen {res res' : Phase × Office} (h : WentOn k i o s res) (hi : i ∈ o.running)
    (hnext : ∀ s', res.2.Mirrors s' → i ∈ res.2.running →
      s'.underway[k]? = some (i, .next res.1) → WentOn k i res.2 s' res') :
    WentOn k i o s res' := by
  obtain ⟨s', hreach, hmirrors, hk, hrunning⟩ := h
  obtain ⟨s'', hreach', hmirrors', hk', hrunning'⟩ := hnext s' hmirrors (hrunning ▸ hi) hk
  exact ⟨s'', hreach.trans hreach', hmirrors', hk', hrunning'.trans hrunning⟩

theorem Mirrors.settle (h : o.Mirrors s) (hi : i ∈ o.running)
    (hk : s.underway[k]? = some (i, .next p)) : WentOn k i o s (o.settle i p) := by
  obtain ⟨c, hc⟩ := Option.ne_none_iff_exists'.mp (h.present i hi)
  obtain ⟨p', c', d, hsettle⟩ : ∃ p' c' d, Channel.settle o.now p c o.desk = (p', c', d) :=
    ⟨_, _, _, rfl⟩
  have heq : o.settle i p = (p', o.put i c' d) := by
    simp only [Office.settle, onOperated, h.operated? i, hc, hsettle]
  rw [h.now, h.desk] at hsettle
  obtain ⟨s', hreach, hs', hk'⟩ := Busy.reaches_settle hc hk hsettle
  rw [heq]
  exact ⟨s', hreach, h.put hc c' d hs', hk', rfl⟩

/-- The steps of an intrusion leave an operation where it is. -/
theorem Followed.between (hf : Followed o o') (h : o.Mirrors s) {stage : Stage}
    (hk : s.underway[k]? = some (i, stage)) :
    ∃ s', s.Reaches k s' ∧ o'.Mirrors s' ∧ s'.underway[k]? = some (i, stage) ∧
      o'.running = o.running := by
  obtain ⟨s', hreach, hmirrors, hrunning⟩ := hf s h
  have hlt : k < s.underway.length := (List.getElem?_eq_some_iff.mp hk).1
  exact ⟨s', hreach.mono (Nat.le_of_lt hlt), hmirrors, (hreach.waits k hlt).trans hk, hrunning⟩

theorem Mirrors.ask (h : o.Mirrors s) (hi : i ∈ o.running) {call : Call} {a : Answer}
    {registry : Registry} (hk : s.underway[k]? = some (i, .next (.calling call)))
    (hask : o.registry.handle o.now call.request = (a, registry)) :
    ∃ s', s.Reaches k s' ∧ { o with registry }.Mirrors s' ∧
      s'.underway[k]? = some (i, .answered call a) := by
  obtain ⟨c, hc⟩ := Option.ne_none_iff_exists'.mp (h.present i hi)
  have hlt : k < s.underway.length := (List.getElem?_eq_some_iff.mp hk).1
  have hproceed : (Stage.next (.calling call)).proceed .alone s.service.now c s.service.desk
      s.service.host = (.answered call a, c, s.service.desk, registry) := by
    rw [h.registry, h.now] at hask
    have hask' : Backend.alone.handle s.service.host s.service.now call.request = (a, registry) :=
      hask
    simp only [Stage.proceed, hask']
  have hput : Busy.put s.service i c s.service.desk registry =
      { s.service with host := registry } :=
    congrArg (fun t : Service Registry => { t with host := registry }) (Busy.put_self hc)
  refine ⟨_, Busy.reaches_proceed hc hk hproceed, ?_, List.getElem?_set_self hlt⟩
  rw [hput]
  exact ⟨⟨rfl, h.now, h.desk⟩, h.channels, h.present, h.faultless⟩

theorem Mirrors.hear (h : o.Mirrors s) (hi : i ∈ o.running) {call : Call} {a : Answer}
    (hk : s.underway[k]? = some (i, .answered call a)) :
    WentOn k i o s (o.onOperated i p fun c d => c.answered call a o.stored o.now d) := by
  obtain ⟨c, hc⟩ := Option.ne_none_iff_exists'.mp (h.present i hi)
  have hlt : k < s.underway.length := (List.getElem?_eq_some_iff.mp hk).1
  obtain ⟨p', c', d, hanswered⟩ : ∃ p' c' d,
      c.answered call a o.stored o.now o.desk = (p', c', d) := ⟨_, _, _, rfl⟩
  have heq : o.onOperated i p (fun c d => c.answered call a o.stored o.now d) =
      (p', o.put i c' d) := by
    simp only [onOperated, h.operated? i, hc, hanswered]
  have hproceed : (Stage.answered call a).proceed .alone s.service.now c s.service.desk
      s.service.host = (.next p', c', d, s.service.host) := by
    have hstored : o.stored = Backend.alone.stored s.service.host := by
      rw [← h.registry]
      rfl
    rw [hstored, h.now, h.desk] at hanswered
    simp only [Stage.proceed, hanswered]
  rw [heq]
  exact ⟨_, Busy.reaches_proceed hc hk hproceed, h.put hc c' d rfl, List.getElem?_set_self hlt,
    rfl⟩

/-- The steps of an intrusion, if there is one. -/
theorem followed_steps {acts : List Act → Office → Office}
    (hacts : ∀ script, (∀ a ∈ script, a.Faultless) → ∀ o, Followed o (acts script o))
    {found : Option Intrusion} (hfound : ∀ x ∈ found, x.Faultless) {steps : Intrusion → List Act}
    (hsteps : ∀ x, x.Faultless → ∀ a ∈ steps x, a.Faultless) (o : Office) :
    Followed o (acts ((found.map steps).getD []) o) := by
  refine hacts _ ?_ o
  cases found with
  | none => exact fun a ha => absurd ha List.not_mem_nil
  | some x => exact hsteps x (hfound x rfl)

/-- An operation that waits for the registry goes on once its call is answered, whatever steps come
before and after the call. -/
theorem Mirrors.call {acts : List Act → Office → Office}
    (hacts : ∀ script, (∀ a ∈ script, a.Faultless) → ∀ o, Followed o (acts script o))
    (h : o.Mirrors s) (hi : i ∈ o.running) (hk : s.underway[k]? = some (i, .next p)) :
    WentOn k i o s (o.call acts i p) := by
  cases p with
  | calling call =>
    obtain ⟨found, rest, htake⟩ : ∃ found rest,
        takeIntrusion call.method o.intrusions = (found, rest) := ⟨_, _, rfl⟩
    have htaken := mem_of_takeIntrusion call.method o.intrusions
    rw [htake] at htaken
    have hfound : ∀ x ∈ found, x.Faultless := fun x hx => h.faultless x (htaken.1 x hx)
    have hbefore := fun o => followed_steps hacts hfound (fun _ hx => hx.before) o
    have hafter := fun o => followed_steps hacts hfound (fun _ hx => hx.after) o
    have hfailure : found.bind (·.failure) = none := by
      cases found with
      | none => rfl
      | some x => exact (hfound x rfl).failure
    let o₁ : Office := { o with intrusions := rest, calls := o.calls ++ [call.request] }
    have h₁ : o₁.Mirrors s := ⟨⟨h.registry, h.now, h.desk⟩, h.channels, h.present,
      fun x hx => h.faultless x (htaken.2 x hx)⟩
    obtain ⟨s₂, hreach₂, h₂, hk₂, hrunning₂⟩ := (hbefore o₁).between h₁ hk
    generalize ho₂ : acts ((found.map (·.before)).getD []) o₁ = o₂ at h₂ hrunning₂
    have hi₂ : i ∈ o₂.running := hrunning₂ ▸ hi
    obtain ⟨a, registry, hask⟩ : ∃ a registry,
        o₂.registry.handle o₂.now call.request = (a, registry) := ⟨_, _, rfl⟩
    obtain ⟨s₃, hreach₃, h₃, hk₃⟩ := h₂.ask hi₂ hk₂ hask
    obtain ⟨s₄, hreach₄, h₄, hk₄, hrunning₄⟩ := (hafter _).between h₃ hk₃
    generalize ho₄ : acts ((found.map (·.after)).getD []) { o₂ with registry } = o₄
      at h₄ hrunning₄
    have hi₄ : i ∈ o₄.running := hrunning₄ ▸ hi₂
    obtain ⟨p₅, o₅, hanswered⟩ : ∃ p₅ o₅, o₄.onOperated i (.calling call)
        (fun c d => c.answered call a o₄.stored o₄.now d) = (p₅, o₅) := ⟨_, _, rfl⟩
    have hcall : o.call acts i (.calling call) = o₅.settle i p₅ := by
      simp only [Office.call, htake, hfailure]
      rw [ho₂]
      simp only [hask, ho₄, hanswered]
    rw [hcall]
    have hheard : WentOn k i o s (p₅, o₅) := by
      obtain ⟨s₅, hreach₅, h₅, hk₅, hrunning₅⟩ := h₄.hear hi₄ hk₄
      rw [hanswered] at h₅ hk₅ hrunning₅
      exact ⟨s₅, ((hreach₂.trans hreach₃).trans hreach₄).trans hreach₅, h₅, hk₅,
        hrunning₅.trans (hrunning₄.trans hrunning₂)⟩
    exact hheard.andThen hi fun s' h' hi' hk' => h'.settle hi' hk'
  | taken call => exact ⟨s, .refl k s, h, hk, rfl⟩
  | noted record => exact ⟨s, .refl k s, h, hk, rfl⟩
  | replying reply result => exact ⟨s, .refl k s, h, hk, rfl⟩
  | finished result => exact ⟨s, .refl k s, h, hk, rfl⟩

theorem Followed.refl (o : Office) : Followed o o := fun s h => ⟨s, .refl _ s, h, rfl⟩

theorem Followed.trans {o'' : Office} (h : Followed o o') (h' : Followed o' o'') :
    Followed o o'' := by
  intro s hs
  obtain ⟨s', hreach, hs', hrunning⟩ := h s hs
  obtain ⟨s'', hreach', hs'', hrunning'⟩ := h' s' hs'
  exact ⟨s'', hreach.trans (hreach'.mono hreach.grows), hs'', hrunning'.trans hrunning⟩

theorem followed_drop (o : Office) (i : Nat) : Followed o (o.drop i) := by
  intro s h
  have hplace := h.operated? i
  cases hc : s.service.channel? i with
  | none =>
    rw [hc] at hplace
    have hdrop : o.drop i = o := by simp only [Office.drop, hplace]
    rw [hdrop]
    exact Followed.refl o s h
  | some c =>
    rw [hc] at hplace
    by_cases hi : i ∈ o.running
    · -- The channel stays for the operation that runs on it.
      have hdrop : o.drop i = { o with channels := o.channels.set i (.leaving c) } := by
        simp only [Office.drop, hplace, if_pos hi]
      rw [hdrop]
      refine ⟨s, .refl _ s, ⟨⟨h.registry, h.now, h.desk⟩, ?_, h.present, h.faultless⟩, rfl⟩
      simp only [List.map_set, h.channels, Place.operated?, Service.set_channel hc]
    · have hdrop : o.drop i =
          { o with channels := o.channels.set i .empty, desk := c.drop o.desk } := by
        simp only [Office.drop, hplace, if_neg hi]
      have hact : s.service.act .alone (.drop i) = { s.service with
          desk := c.drop s.service.desk, channels := s.service.channels.set i none } := by
        simp only [Service.act, Service.onChannel, hc]
      have hset : (s.service.act .alone (.drop i)).channels = s.service.channels.set i none :=
        congrArg (·.channels) hact
      rw [hdrop]
      refine ⟨_, Busy.reaches_whole _ s (.drop i), ?_, rfl⟩
      refine ⟨?_, ?_, fun k hk => ?_, h.faultless⟩
      · rw [hact]
        exact ⟨h.registry, h.now, congrArg c.drop h.desk⟩
      · simp only [hset, List.map_set, h.channels, Place.operated?]
      · have hne : i ≠ k := fun he => hi (he ▸ hk)
        rw [Service.channel?_of_set hc hset, if_neg hne]
        exact h.present k hk

theorem followed_onChannel (o : Office) (i : Nat) (step : Channel → Desk → Channel × Desk)
    (a : Service.Act Registry)
    (ha : ∀ s : Service Registry, o.now = s.now →
      s.act .alone a = s.onChannel i fun c d g => (some (step c d).1, (step c d).2, g)) :
    Followed o (o.onChannel i step) := by
  intro s h
  cases hplace : (o.place i).channel? with
  | none =>
    have hstep : o.onChannel i step = o := by simp only [Office.onChannel, hplace]
    rw [hstep]
    exact Followed.refl o s h
  | some c =>
    have hc := (h.operated? i).symm.trans (Place.operated?_of_channel? hplace)
    have hstep : o.onChannel i step = o.put i (step c o.desk).1 (step c o.desk).2 := by
      simp only [Office.onChannel, hplace]
    rw [hstep]
    refine ⟨_, Busy.reaches_whole _ s a, h.put hc _ _ ?_, rfl⟩
    simp only [ha s.service h.now, Service.onChannel, hc, h.desk]
    rfl

theorem Mirrors.finish (h : o.Mirrors s) (i : Nat) :
    ∃ s', s.Reaches s.underway.length s' ∧ (o.finish i).Mirrors s' ∧
      (o.finish i).running = o.running.erase i := by
  let o₁ : Office := { o with running := o.running.erase i }
  have h₁ : o₁.Mirrors s := ⟨⟨h.registry, h.now, h.desk⟩, h.channels,
    fun k hk => h.present k (List.mem_of_mem_erase hk), h.faultless⟩
  have ho₁ : { o with running := o.running.erase i } = o₁ := rfl
  cases hplace : o₁.place i with
  | leaving c =>
    have hfinish : o.finish i = o₁.drop i := by simp only [Office.finish, ho₁, hplace]
    rw [hfinish]
    exact followed_drop o₁ i s h₁
  | held c =>
    have hfinish : o.finish i = o₁ := by simp only [Office.finish, ho₁, hplace]
    rw [hfinish]
    exact Followed.refl o₁ s h₁
  | empty =>
    have hfinish : o.finish i = o₁ := by simp only [Office.finish, ho₁, hplace]
    rw [hfinish]
    exact Followed.refl o₁ s h₁

/-- An operation runs, if steps reach its channel. -/
theorem followed_operate (o : Office) (i : Nat) {steps : Office → Phase × Office}
    (hsteps : ∀ o, i ∈ o.running → Followed o (steps o).2) :
    Followed o (o.operate i steps).2 := by
  intro s h
  cases hplace : (o.place i).channel? with
  | none =>
    have hstep : (o.operate i steps).2 = o := by simp only [operate, hplace]
    rw [hstep]
    exact Followed.refl o s h
  | some c =>
    have hc := (h.operated? i).symm.trans (Place.operated?_of_channel? hplace)
    let o₁ : Office := { o with running := i :: o.running }
    have h₁ : o₁.Mirrors s := by
      refine ⟨⟨h.registry, h.now, h.desk⟩, h.channels, fun k hk => ?_, h.faultless⟩
      rcases List.mem_cons.mp hk with rfl | hk
      · rw [hc]
        exact Option.some_ne_none c
      · exact h.present k hk
    obtain ⟨s', hreach, h', hrunning⟩ := hsteps o₁ List.mem_cons_self s h₁
    obtain ⟨s'', hreach', h'', hrunning'⟩ := h'.finish i
    have hoperate : (o.operate i steps).2 = (steps o₁).2.finish i := by
      simp only [operate, hplace, o₁]
    rw [hoperate]
    refine ⟨s'', hreach.trans (hreach'.mono hreach.grows), h'', ?_⟩
    rw [hrunning', hrunning]
    exact List.erase_cons_head ..

theorem followed_message {acts : List Act → Office → Office}
    (hacts : ∀ script, (∀ a ∈ script, a.Faultless) → ∀ o, Followed o (acts script o)) (o : Office)
    (i : Nat) (m : ClientMessage) : Followed o (o.message acts i m).2 := by
  refine followed_operate o i fun o hi s h => ?_
  let k := s.underway.length
  obtain ⟨c, hc⟩ := Option.ne_none_iff_exists'.mp (h.present i hi)
  obtain ⟨p, c', d, hbegin⟩ : ∃ p c' d, c.begin m o.stored o.desk = (p, c', d) := ⟨_, _, _, rfl⟩
  have hbegun : o.onOperated i (.finished (.ok ())) (fun c d => c.begin m o.stored d) =
      (p, o.put i c' d) := by
    simp only [onOperated, h.operated? i, hc, hbegin]
  have hbegin' : c.begin m (Backend.alone.stored s.service.host) s.service.desk = (p, c', d) := by
    rw [← h.registry, ← h.desk]
    exact hbegin
  have hbegan : WentOn k i o s (p, o.put i c' d) :=
    ⟨_, Busy.reaches_begin hc hbegin', h.put hc c' d rfl, List.getElem?_concat_length, rfl⟩
  have hsettled := hbegan.andThen hi fun _ h' hi' hk' => h'.settle hi' hk'
  have hcalled := hsettled.andThen hi fun _ h' hi' hk' => h'.call hacts hi' hk'
  have hover := hcalled.andThen hi fun _ h' hi' hk' => h'.call hacts hi' hk'
  simp only [hbegun]
  obtain ⟨s', hreach, h', -, hrunning⟩ := hover
  exact ⟨s', hreach, h', hrunning⟩

/-- A frame that holds no message is dealt with at once. -/
theorem followed_unreadable (o : Office) (i : Nat) {bytes : List UInt8}
    (hp : ClientMessage.parse? bytes = none) :
    Followed o (o.operate i fun o => o.settle i (.failing .unexpectedFrame)).2 := by
  refine followed_operate o i fun o hi s h => ?_
  obtain ⟨c, hc⟩ := Option.ne_none_iff_exists'.mp (h.present i hi)
  have hsettle : (o.settle i (.failing .unexpectedFrame)).2 =
      o.put i (c.answerError .unexpectedFrame) o.desk := by
    simp only [Office.settle, onOperated, h.operated? i, hc, settle_failing]
  have hoperate : c.operate .alone s.service.now (.frame bytes) s.service.desk s.service.host =
      (.error .unexpectedFrame, c.answerError .unexpectedFrame, s.service.desk, s.service.host) :=
    operate_of_unreadable _ _ _ _ _ hp
  rw [hsettle, h.desk]
  refine ⟨_, Busy.reaches_whole _ s (.operate i (.frame bytes)), h.put hc _ _ ?_, rfl⟩
  simp only [Service.act, Service.onChannel, hc, hoperate]
  rfl

theorem followed_aside (o : Office) (a : Act) (ha : a.IsAside)
    (acts : List Act → Office → Office) : Followed o (o.actWith acts a).2 := by
  intro s h
  obtain ⟨a', hwhole⟩ : ∃ a', a.whole? s.service.now = some a' := by
    cases a <;> first | exact ⟨_, rfl⟩ | cases ha
  obtain ⟨hshares, hchannels', hchannels, hrunning, hintrusions⟩ :=
    h.toShares.aside hwhole ha acts
  refine ⟨_, Busy.reaches_whole _ s a', ⟨hshares, ?_, fun k hk => ?_, ?_⟩, hrunning⟩
  · rw [hchannels, h.channels, hchannels']
  · rw [hrunning] at hk
    rw [Service.channel?, hchannels']
    exact h.present k hk
  · rw [hintrusions]
    exact h.faultless

theorem followed_openChannel (o : Office) : Followed o o.openChannel := by
  intro s h
  have hdesk := congrArg (fun d => (openOn d).2) h.desk
  refine ⟨_, Busy.reaches_whole _ s .connect, ⟨⟨h.registry, h.now, hdesk⟩, ?_, fun k hk => ?_,
    h.faultless⟩, rfl⟩
  · simp only [openChannel, Service.act, List.map_append, List.map_cons, List.map_nil, h.channels,
      h.desk, Place.operated?]
  · have happend : (s.service.act .alone .connect).channels =
        s.service.channels ++ [some (openOn s.service.desk).1] := rfl
    rw [Service.channel?_of_append happend]
    split
    · exact Option.some_ne_none _
    · exact h.present k hk

/-- Each step is a run of the busy service if each list of steps within it is one. -/
theorem followed_actWith {acts : List Act → Office → Office}
    (hacts : ∀ script, (∀ a ∈ script, a.Faultless) → ∀ o, Followed o (acts script o)) (o : Office)
    {a : Act} (ha : a.Faultless) : Followed o (o.actWith acts a).2 := by
  cases a with
  | openChannel => exact followed_openChannel o
  | frame i bytes =>
    cases hp : ClientMessage.parse? bytes with
    | none =>
      simp only [actWith, hp]
      exact followed_unreadable o i hp
    | some m =>
      simp only [actWith, hp]
      exact followed_message hacts o i m
  | message i m => exact followed_message hacts o i m
  | connectionClosed i =>
    refine followed_onChannel o i (fun c d => c.connectionClosed d o.now) (.disconnect i) ?_
    intro s hnow
    simp only [Service.act, hnow]
  | drop i => exact followed_drop o i
  | reachable i b =>
    exact followed_onChannel o i (fun c d => ({ c with reachable := b }, d)) (.reachable i b)
      fun s _ => rfl
  | clock now => exact followed_aside o (.clock now) trivial acts
  | evictionPass => exact followed_aside o .evictionPass trivial acts
  | request r => exact followed_aside o (.request r) trivial acts
  | evictVersion id version => exact followed_aside o (.evictVersion id version) trivial acts
  | look id => exact followed_aside o (.look id) trivial acts
  | intrude method failure before after =>
    intro s h
    refine ⟨s, .refl _ s, ⟨⟨h.registry, h.now, h.desk⟩, h.channels, h.present, fun x hx => ?_⟩, rfl⟩
    rcases List.mem_append.mp hx with hx | hx
    · exact h.faultless x hx
    · obtain rfl := List.mem_singleton.mp hx
      cases ha with
      | intrude hbefore hafter => exact ⟨rfl, hbefore, hafter⟩
      | other hother => exact absurd rfl (hother method failure before after)

theorem followed_foldl (f : Office → Act → Office) (hf : ∀ o a, a.Faultless → Followed o (f o a))
    (script : List Act) (hs : ∀ a ∈ script, a.Faultless) (o : Office) :
    Followed o (script.foldl f o) := by
  induction script generalizing o with
  | nil => exact .refl o
  | cons a script ih =>
    exact (hf o a (hs a List.mem_cons_self)).trans
      (ih (fun b hb => hs b (List.mem_cons_of_mem a hb)) (f o a))

theorem followed_acts (depth : Nat) (script : List Act) (hs : ∀ a ∈ script, a.Faultless)
    (o : Office) : Followed o (acts depth script o) := by
  induction depth generalizing script o with
  | zero => exact .refl o
  | succ depth ih =>
    exact followed_foldl _ (fun o a ha => followed_actWith ih o ha) script hs o

end

section

variable (settings : Preservation.Settings) (delay : Millis) (now : Time) (depth : Nat)
  {script : List Act} (hs : ∀ a ∈ script, a.Faultless)

include hs

/-- A script in which no call is made to fail leads to the state of a busy service that some run of
it leads to. -/
theorem mirrors_script :
    ∃ acts, (script.foldl (fun o a => (o.act depth a).2) (start settings delay now)).Mirrors
      ((Busy.start (.start settings now) delay now).run .alone acts) := by
  have hstart : (start settings delay now).Mirrors
      (Busy.start (Registry.start settings now) delay now) :=
    ⟨⟨rfl, rfl, rfl⟩, rfl, fun k hk => absurd hk List.not_mem_nil,
      fun x hx => absurd hx List.not_mem_nil⟩
  obtain ⟨s', hreach, hmirrors, -⟩ := followed_foldl _
    (fun o a ha => followed_actWith (followed_acts depth) o ha) script hs _ _ hstart
  obtain ⟨acts, rfl⟩ := hreach.run
  exact ⟨acts, hmirrors⟩

/-- So a whole operation that comes after it does all or nothing. -/
theorem allOrNothing_script {i : Nat} {c : Channel} (x : Inbound) :
    let o := script.foldl (fun o a => (o.act depth a).2) (start settings delay now)
    (o.place i).channel? = some c →
      AllOrNothing x c o.desk o.registry (c.operate .alone o.now x o.desk o.registry) := by
  intro o hc
  obtain ⟨acts, hmirrors⟩ := mirrors_script settings delay now depth hs
  have hsound := Busy.sound_run Host.alone (Registry.start settings now) delay now acts
  have there := (hmirrors.operated? i).symm.trans (Place.operated?_of_channel? hc)
  exact allOrNothing_operate Host.steady_alone x (hsound.channels i c there) ..

end

end Office

end Channel

end LeaseRegistry
