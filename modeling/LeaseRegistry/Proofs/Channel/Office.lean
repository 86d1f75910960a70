import LeaseRegistry.Channel.Interleaving
import LeaseRegistry.Proofs.Channel.Node

/-!
# Offices without intrusions

An `Office` runs scripts in which steps may come between the phases of an operation. Nothing else is
proved of it directly: it does what a `Service` or a `Busy` one does, and what holds in all their
runs holds after every script. This is where it starts: as long as nothing comes between its phases,
an operation is a whole one (`Office.message_of_held`).
-/

namespace LeaseRegistry

namespace Channel.Office

variable {o : Office} {i : Nat} {c : Channel} {p : Phase}

/-- The office once an operation has worked on a channel, the desk and the registry. -/
def worked (o : Office) (i : Nat) (c : Channel) (d : Desk) (g : Registry) (calls : List Request) :
    Office :=
  { o with registry := g, desk := d, channels := o.channels.set i (.held c), calls }

theorem worked_worked (c' : Channel) (d d' : Desk) (g g' : Registry) (calls calls' : List Request) :
    (o.worked i c d g calls).worked i c' d' g' calls' = o.worked i c' d' g' calls' := by
  simp only [worked, List.set_set]

theorem worked_self (h : o.channels[i]? = some (.held c)) :
    o.worked i c o.desk o.registry o.calls = o := by
  have hset : o.channels.set i (.held c) = o.channels := by
    obtain ⟨hi, he⟩ := List.getElem?_eq_some_iff.mp h
    rw [← he, List.set_getElem_self]
  simp only [worked, hset]

theorem channels_worked (h : o.channels[i]? = some (.held c)) (c' : Channel) (d : Desk)
    (g : Registry) (calls : List Request) :
    (o.worked i c' d g calls).channels[i]? = some (.held c') := by
  simp only [worked, List.getElem?_set_self (List.getElem?_eq_some_iff.mp h).1]

theorem place_of_held (h : o.channels[i]? = some (.held c)) : o.place i = .held c := by
  rw [place, h]
  rfl

theorem put_of_held (h : o.channels[i]? = some (.held c)) (c' : Channel) (d : Desk) :
    o.put i c' d = o.worked i c' d o.registry o.calls := by
  have hmodify : o.channels.modify i (·.map fun _ => c') = o.channels.set i (.held c') := by
    obtain ⟨hi, he⟩ := List.getElem?_eq_some_iff.mp h
    refine List.ext_getElem? fun j => ?_
    rw [List.getElem?_modify, List.getElem?_set]
    by_cases hj : i = j
    · subst hj
      simp [hi, he, Place.map]
    · simp [hj]
  simp only [put, worked, hmodify]

/-- A running operation works on the channel it began with. -/
theorem onOperated_of_held (h : o.channels[i]? = some (.held c))
    (step : Channel → Desk → Phase × Channel × Desk) {p' : Phase} {c' : Channel} {d' : Desk}
    (hstep : step c o.desk = (p', c', d')) :
    o.onOperated i p step = (p', o.worked i c' d' o.registry o.calls) := by
  simp only [onOperated, place_of_held h, Place.operated?, hstep, put_of_held h]

theorem call_of_held {acts : List Act → Office → Office} (hacts : ∀ o, acts [] o = o)
    (h : o.channels[i]? = some (.held c)) (hi : o.intrusions = []) {p' : Phase} {c' : Channel}
    {d' : Desk} {g' : Registry}
    (hask : askOnce .alone o.now (p, c, o.desk, o.registry) = (p', c', d', g')) :
    ∃ calls, o.call acts i p = (p', o.worked i c' d' g' calls) := by
  cases p with
  | calling call =>
    let o₁ : Office := { o with
      registry := (o.registry.handle o.now call.request).2
      calls := o.calls ++ [call.request] }
    obtain ⟨p₁, c₁, d₁, hanswered⟩ : ∃ p₁ c₁ d₁,
        c.answered call (o.registry.handle o.now call.request).1 o₁.stored o₁.now o₁.desk =
          (p₁, c₁, d₁) := ⟨_, _, _, rfl⟩
    obtain ⟨p₂, c₂, d₂, hsettle⟩ : ∃ p₂ c₂ d₂, Channel.settle o.now p₁ c₁ d₁ = (p₂, c₂, d₂) :=
      ⟨_, _, _, rfl⟩
    have hasked : askOnce .alone o.now (.calling call, c, o.desk, o.registry) =
        (p₂, c₂, d₂, o₁.registry) := by
      have hanswered' : c.answered call (Backend.alone.handle o.registry o.now call.request).1
          (Backend.alone.stored (Backend.alone.handle o.registry o.now call.request).2) o.now
            o.desk = (p₁, c₁, d₁) := hanswered
      simp only [askOnce, hanswered', hsettle]
      rfl
    rw [hasked] at hask
    cases hask
    have hcall : o.call acts i (.calling call) =
        (o₁.onOperated i (.calling call) fun c d =>
          c.answered call (o.registry.handle o.now call.request).1 o₁.stored o₁.now d).2.settle i
        (o₁.onOperated i (.calling call) fun c d =>
          c.answered call (o.registry.handle o.now call.request).1 o₁.stored o₁.now d).1 := by
      have ho₁ : { o₁ with intrusions := [] } = o₁ := by
        rw [← hi]
      rw [← ho₁]
      simp only [Office.call, hi, takeIntrusion, Option.map_none, Option.getD_none, hacts,
        Option.bind_none]
      rfl
    refine ⟨o₁.calls, ?_⟩
    rw [hcall, onOperated_of_held (o := o₁) h _ hanswered]
    exact (onOperated_of_held (channels_worked (o := o₁) h ..) _ hsettle).trans
      (congrArg (Prod.mk _) (worked_worked (o := o₁) ..))
  | taken call =>
    cases hask
    exact ⟨o.calls, by simp only [Office.call, worked_self h]⟩
  | noted record =>
    cases hask
    exact ⟨o.calls, by simp only [Office.call, worked_self h]⟩
  | replying reply result =>
    cases hask
    exact ⟨o.calls, by simp only [Office.call, worked_self h]⟩
  | finished result =>
    cases hask
    exact ⟨o.calls, by simp only [Office.call, worked_self h]⟩

theorem finish_worked (h : o.channels[i]? = some (.held c)) (c' : Channel) (d : Desk)
    (g : Registry) (calls : List Request) (running : List Nat) :
    ({ o with running := i :: running }.worked i c' d g calls).finish i =
      { o with running }.worked i c' d g calls := by
  have hplace := place_of_held (channels_worked (o := { o with running }) h c' d g calls)
  simp only [finish, worked, List.erase_cons_head]
  simp only [worked] at hplace
  rw [hplace]

theorem message_of_held {acts : List Act → Office → Office} (hacts : ∀ o, acts [] o = o)
    (h : o.channels[i]? = some (.held c)) (hi : o.intrusions = []) {m : ClientMessage} {r : Result}
    {c' : Channel} {d' : Desk} {g' : Registry}
    (hrun : c.run .alone o.now m o.desk o.registry = (r, c', d', g')) :
    ∃ calls, (o.message acts i m).2 = o.worked i c' d' g' calls := by
  let o₁ : Office := { o with running := i :: o.running }
  obtain ⟨p₁, c₁, d₁, hbegin⟩ : ∃ p₁ c₁ d₁, c.begin m o₁.stored o₁.desk = (p₁, c₁, d₁) :=
    ⟨_, _, _, rfl⟩
  obtain ⟨p₂, c₂, d₂, hsettle⟩ : ∃ p₂ c₂ d₂, Channel.settle o.now p₁ c₁ d₁ = (p₂, c₂, d₂) :=
    ⟨_, _, _, rfl⟩
  obtain ⟨p₃, c₃, d₃, g₃, hfirst⟩ : ∃ p₃ c₃ d₃ g₃,
      askOnce .alone o.now (p₂, c₂, d₂, o.registry) = (p₃, c₃, d₃, g₃) := ⟨_, _, _, _, rfl⟩
  obtain ⟨p₄, c₄, d₄, g₄, hsecond⟩ : ∃ p₄ c₄ d₄ g₄,
      askOnce .alone o.now (p₃, c₃, d₃, g₃) = (p₄, c₄, d₄, g₄) := ⟨_, _, _, _, rfl⟩
  have hwhole : c.run .alone o.now m o.desk o.registry = (p₄.result, c₄, d₄, g₄) := by
    have hbegin' : c.begin m (Backend.alone.stored o.registry) o.desk = (p₁, c₁, d₁) := hbegin
    simp only [Channel.run, hbegin', hsettle, hfirst, hsecond]
  obtain ⟨rfl, rfl, rfl, rfl⟩ : p₄.result = r ∧ c₄ = c' ∧ d₄ = d' ∧ g₄ = g' := by
    simpa using hwhole.symm.trans hrun
  -- The channel stays where it is from one phase to the next.
  have hheld₁ : o₁.channels[i]? = some (.held c) := h
  have hbegun := onOperated_of_held (p := .finished (.ok ())) hheld₁
    (fun c d => c.begin m o₁.stored d) hbegin
  have hsettled : (o₁.worked i c₁ d₁ o₁.registry o₁.calls).settle i p₁ =
      (p₂, o₁.worked i c₂ d₂ o₁.registry o₁.calls) :=
    (onOperated_of_held (channels_worked hheld₁ ..) _ hsettle).trans
      (congrArg (Prod.mk p₂) (worked_worked ..))
  obtain ⟨calls₁, hcall₁⟩ : ∃ calls, (o₁.worked i c₂ d₂ o₁.registry o₁.calls).call acts i p₂ =
      (p₃, (o₁.worked i c₂ d₂ o₁.registry o₁.calls).worked i c₃ d₃ g₃ calls) :=
    call_of_held hacts (channels_worked hheld₁ ..) hi hfirst
  rw [worked_worked] at hcall₁
  obtain ⟨calls₂, hcall₂⟩ : ∃ calls, (o₁.worked i c₃ d₃ g₃ calls₁).call acts i p₃ =
      (p₄, (o₁.worked i c₃ d₃ g₃ calls₁).worked i c₄ d₄ g₄ calls) :=
    call_of_held hacts (channels_worked hheld₁ ..) hi hsecond
  rw [worked_worked] at hcall₂
  have hplace : (o.place i).channel? = some c := congrArg Place.channel? (place_of_held h)
  refine ⟨calls₂, ?_⟩
  have ho₁ : { o with running := i :: o.running } = o₁ := rfl
  simp only [message, operate, hplace, ho₁, hbegun, hsettled, hcall₁, hcall₂]
  exact finish_worked h ..

theorem acts_nil (depth : Nat) (o : Office) : acts depth [] o = o := by
  cases depth with
  | zero => rfl
  | succ depth => rfl

end Channel.Office

end LeaseRegistry
