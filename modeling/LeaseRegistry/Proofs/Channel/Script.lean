import LeaseRegistry.Proofs.Channel.Office
import LeaseRegistry.Proofs.Channel.Unregister

/-!
# Scripts as runs of a service

A script in which no step comes between the phases of an operation is a run of a service: the
office is as the service after every step (`Office.runsAs_script`), in its registry, queue, channels
and replies. Whatever the steps do behind the channels' back leaves a well-formed store. So the
script does what the theory of services says, on unregistered leases (`Unregister`) and on all that
a channel goes through (`Lifecycle`). A node is such a service too (`Office.runsAs_node`), which
carries the history of its writes and evictions (`History`, `Cancellation`) over to scripts.
-/

namespace LeaseRegistry

namespace Channel

/-- The act of a service that a step is at a time, unless it is an intrusion. -/
def Act.whole? (now : Time) : Act → Option (Service.Act Registry)
  | .openChannel => some .connect
  | .frame n bytes => some (.operate n (.frame bytes))
  | .message n m => some (.operate n (.message m))
  | .connectionClosed n => some (.disconnect n)
  | .drop n => some (.drop n)
  | .reachable n b => some (.reachable n b)
  | .clock now => some (.clock now)
  | .evictionPass => some <| .elsewhere fun (g, queue) =>
    let (_, store, preservation, queue) :=
      LeaseRegistry.evictionPass g.store g.preservation queue now
    (⟨store, preservation⟩, queue)
  | .request r => some <| .elsewhere fun (g, queue) => ((g.handle now r).2, queue)
  | .evictVersion id version => some <| .elsewhere fun (g, queue) =>
    ({ g with store := (g.store.evictIfVersion id version now).2 }, queue)
  | .look _ => some (.elsewhere id)
  | .intrude .. => none

/-- The steps that the channels have no part in. -/
def Act.IsAside : Act → Prop
  | .clock _ | .evictionPass | .request _ | .evictVersion .. | .look _ => True
  | _ => False

theorem Act.keepsWellFormed_whole? {now : Time} {a : Act} {a' : Service.Act Registry}
    (h : a.whole? now = some a') : a'.KeepsWellFormed .alone := by
  cases a with
  | openChannel => cases h; trivial
  | frame n bytes => cases h; trivial
  | message n m => cases h; trivial
  | connectionClosed n => cases h; trivial
  | drop n => cases h; trivial
  | reachable n b => cases h; trivial
  | clock now => cases h; trivial
  | evictionPass =>
    cases h
    exact fun x hx => (evicts_evictionPass hx x.1.preservation x.2 now).wellFormed
  | request r =>
    cases h
    exact fun x hx => Registry.wellFormed_handle hx now r rfl
  | evictVersion id version =>
    cases h
    exact fun x hx => (Evicts.evictIf hx id (fun l => l.version == version) now).wellFormed
  | look id =>
    cases h
    exact fun x hx => hx
  | intrude method failure before after => cases h

namespace Office

def placeOf : Option Channel → Place
  | some c => .held c
  | none => .empty

/-- The office works on the same as the service. -/
structure Shares (o : Office) (s : Service Registry) : Prop where
  registry : o.registry = s.host
  now : o.now = s.now
  desk : o.desk = s.desk

theorem Shares.aside {o : Office} {s : Service Registry} (h : o.Shares s) {a : Act}
    {a' : Service.Act Registry} (hwhole : a.whole? s.now = some a') (ha : a.IsAside)
    (acts : List Act → Office → Office) :
    (o.actWith acts a).2.Shares (s.act .alone a') ∧
      (s.act .alone a').channels = s.channels ∧
      (o.actWith acts a).2.channels = o.channels ∧
      (o.actWith acts a).2.running = o.running ∧
      (o.actWith acts a).2.intrusions = o.intrusions := by
  have hsame : (o.actWith acts a).2.Shares (s.act .alone a') := by
    cases a with
    | clock now =>
      cases hwhole
      exact ⟨h.registry, rfl, h.desk⟩
    | evictionPass =>
      cases hwhole
      simp only [actWith, Service.act, h.registry, h.desk, h.now]
      exact ⟨rfl, rfl, rfl⟩
    | request r =>
      cases hwhole
      simp only [actWith, Service.act, h.registry, h.now]
      exact ⟨rfl, rfl, h.desk⟩
    | evictVersion id version =>
      cases hwhole
      simp only [actWith, Service.act, h.registry, h.now]
      exact ⟨rfl, rfl, h.desk⟩
    | look id =>
      cases hwhole
      exact ⟨h.registry, h.now, h.desk⟩
    | openChannel | frame | message | connectionClosed | drop | reachable | intrude => cases ha
  refine ⟨hsame, ?_⟩
  cases a with
  | clock | evictionPass | request | evictVersion | look =>
    cases hwhole
    exact ⟨rfl, rfl, rfl, rfl⟩
  | openChannel | frame | message | connectionClosed | drop | reachable | intrude => cases ha

/-- The office is as the service, with no operation running and no intrusion waiting. -/
structure RunsAs (o : Office) (s : Service Registry) : Prop extends o.Shares s where
  channels : o.channels = s.channels.map placeOf
  idle : o.running = []
  undisturbed : o.intrusions = []

namespace RunsAs

variable {o : Office} {s : Service Registry} {i : Nat} {c : Channel}

theorem getElem?_eq_some (h : o.RunsAs s) (hc : s.channel? i = some c) :
    o.channels[i]? = some (.held c) := by
  obtain ⟨hi, he⟩ := Service.channel?_eq_some hc
  rw [h.channels, List.getElem?_map, List.getElem?_eq_getElem hi, he]
  rfl

theorem place_eq_empty (h : o.RunsAs s) (hc : s.channel? i = none) : o.place i = .empty := by
  rw [place, h.channels, List.getElem?_map]
  unfold Service.channel? at hc
  cases he : s.channels[i]? with
  | none => rfl
  | some p =>
    rw [he, Option.join_some] at hc
    rw [hc]
    rfl

theorem worked (h : o.RunsAs s) (i : Nat) (c : Channel) (d : Desk) (g : Registry)
    (calls : List Request) :
    (o.worked i c d g calls).RunsAs
      { s with host := g, desk := d, channels := s.channels.set i (some c) } := by
  refine ⟨⟨rfl, h.now, rfl⟩, ?_, h.idle, h.undisturbed⟩
  simp only [Office.worked, h.channels, List.map_set, placeOf]

theorem message (h : o.RunsAs s) (depth i : Nat) (m : ClientMessage) :
    (o.message (acts depth) i m).2.RunsAs (s.act .alone (.operate i (.message m))) := by
  cases hc : s.channel? i with
  | none =>
    simp only [Office.message, operate, h.place_eq_empty hc, Place.channel?, Service.act,
      Service.onChannel, hc]
    exact h
  | some c =>
    obtain ⟨r, c', d', g', hrun⟩ : ∃ r c' d' g',
        c.run .alone o.now m o.desk o.registry = (r, c', d', g') := ⟨_, _, _, _, rfl⟩
    obtain ⟨calls, hcalls⟩ :=
      message_of_held (acts_nil depth) (h.getElem?_eq_some hc) h.undisturbed hrun
    rw [h.now, h.desk, h.registry] at hrun
    simp only [hcalls, Service.act, Service.onChannel, hc, Channel.operate, hrun]
    exact h.worked ..

theorem unreadable (h : o.RunsAs s) (i : Nat) {bytes : List UInt8}
    (hp : ClientMessage.parse? bytes = none) :
    (o.operate i fun o => o.settle i (.failing .unexpectedFrame)).2.RunsAs
      (s.act .alone (.operate i (.frame bytes))) := by
  cases hc : s.channel? i with
  | none =>
    simp only [operate, h.place_eq_empty hc, Place.channel?, Service.act, Service.onChannel, hc]
    exact h
  | some c =>
    have hheld := h.getElem?_eq_some hc
    have hplace : (o.place i).channel? = some c := congrArg Place.channel? (place_of_held hheld)
    let o₁ : Office := { o with running := i :: o.running }
    have hsettle : o₁.settle i (.failing .unexpectedFrame) =
        (.finished (.error .unexpectedFrame),
          o₁.worked i (c.answerError .unexpectedFrame) o.desk o.registry o.calls) :=
      onOperated_of_held (o := o₁) hheld _ (settle_failing _)
    have ho₁ : { o with running := i :: o.running } = o₁ := rfl
    have hoperate : c.operate .alone s.now (.frame bytes) s.desk s.host =
        (.error .unexpectedFrame, c.answerError .unexpectedFrame, s.desk, s.host) :=
      operate_of_unreadable _ _ _ _ _ hp
    have hfinish : (o₁.worked i (c.answerError .unexpectedFrame) o.desk o.registry
        o.calls).finish i =
          o.worked i (c.answerError .unexpectedFrame) o.desk o.registry o.calls :=
      finish_worked hheld ..
    simp only [operate, hplace, ho₁, hsettle, hfinish, Service.act, Service.onChannel, hc,
      hoperate]
    rw [← h.desk, ← h.registry]
    exact h.worked ..

theorem connectionClosed (h : o.RunsAs s) (i : Nat) :
    (o.onChannel i fun c d => c.connectionClosed d o.now).RunsAs
      (s.act .alone (.disconnect i)) := by
  cases hc : s.channel? i with
  | none =>
    simp only [onChannel, h.place_eq_empty hc, Place.channel?, Service.act, Service.onChannel, hc]
    exact h
  | some c =>
    have hheld := h.getElem?_eq_some hc
    simp only [onChannel, place_of_held hheld, Place.channel?, put_of_held hheld, Service.act,
      Service.onChannel, hc]
    rw [h.now, h.desk, h.registry]
    exact h.worked ..

theorem reachable (h : o.RunsAs s) (i : Nat) (b : Bool) :
    (o.onChannel i fun c d => ({ c with reachable := b }, d)).RunsAs
      (s.act .alone (.reachable i b)) := by
  cases hc : s.channel? i with
  | none =>
    simp only [onChannel, h.place_eq_empty hc, Place.channel?, Service.act, Service.onChannel, hc]
    exact h
  | some c =>
    have hheld := h.getElem?_eq_some hc
    simp only [onChannel, place_of_held hheld, Place.channel?, put_of_held hheld, Service.act,
      Service.onChannel, hc]
    rw [h.desk, h.registry]
    exact h.worked ..

theorem drop (h : o.RunsAs s) (i : Nat) : (o.drop i).RunsAs (s.act .alone (.drop i)) := by
  cases hc : s.channel? i with
  | none =>
    simp only [Office.drop, h.place_eq_empty hc, Place.operated?, Service.act, Service.onChannel,
      hc]
    exact h
  | some c =>
    have hrunning : i ∉ o.running := by
      rw [h.idle]
      exact List.not_mem_nil
    simp only [Office.drop, place_of_held (h.getElem?_eq_some hc), Place.operated?, Service.act,
      Service.onChannel, hc]
    rw [if_neg hrunning]
    refine ⟨⟨h.registry, h.now, congrArg c.drop h.desk⟩, ?_, h.idle, h.undisturbed⟩
    simp only [h.channels, List.map_set, placeOf]

theorem aside (h : o.RunsAs s) {a : Act} {a' : Service.Act Registry}
    (hwhole : a.whole? s.now = some a') (ha : a.IsAside) (depth : Nat) :
    (o.act depth a).2.RunsAs (s.act .alone a') := by
  obtain ⟨hshares, hchannels', hchannels, hrunning, hintrusions⟩ :=
    h.toShares.aside hwhole ha (acts depth)
  refine ⟨hshares, ?_, hrunning.trans h.idle, hintrusions.trans h.undisturbed⟩
  rw [hchannels']
  exact hchannels.trans h.channels

/-- One step of the script is one act of the service. -/
theorem act (h : o.RunsAs s) (depth : Nat) {a : Act} {a' : Service.Act Registry}
    (ha : a.whole? s.now = some a') : (o.act depth a).2.RunsAs (s.act .alone a') := by
  cases a with
  | openChannel =>
    cases ha
    refine ⟨⟨h.registry, h.now, congrArg (fun d => (openOn d).2) h.desk⟩, ?_, h.idle,
      h.undisturbed⟩
    simp only [Office.act, actWith, openChannel, Service.act, h.channels, h.desk, List.map_append,
      List.map_cons, List.map_nil, placeOf]
  | frame n bytes =>
    cases ha
    cases hp : ClientMessage.parse? bytes with
    | none =>
      simp only [Office.act, actWith, hp]
      exact h.unreadable n hp
    | some m =>
      have hsame : s.act .alone (.operate n (.frame bytes)) =
          s.act .alone (.operate n (.message m)) := by
        simp only [Service.act, Channel.operate, runFrame, hp]
      simp only [Office.act, actWith, hp]
      rw [hsame]
      exact h.message depth n m
  | message n m =>
    cases ha
    exact h.message depth n m
  | connectionClosed n =>
    cases ha
    exact h.connectionClosed n
  | drop n =>
    cases ha
    exact h.drop n
  | reachable n b =>
    cases ha
    exact h.reachable n b
  | clock now => exact h.aside ha trivial depth
  | evictionPass => exact h.aside ha trivial depth
  | request r => exact h.aside ha trivial depth
  | evictVersion id version => exact h.aside ha trivial depth
  | look id => exact h.aside ha trivial depth
  | intrude method failure before after => cases ha

end RunsAs

/-- A script without intrusions leads to the state of the service that some acts lead to. What they
do elsewhere leaves a well-formed store. -/
theorem runsAs_script (settings : Preservation.Settings) (delay : Millis) (now : Time)
    (depth : Nat) (script : List Act)
    (hs : ∀ a ∈ script, ∀ method failure before after, a ≠ .intrude method failure before after) :
    ∃ acts : List (Service.Act Registry), (∀ a ∈ acts, a.KeepsWellFormed .alone) ∧
      (script.foldl (fun o a => (o.act depth a).2) (start settings delay now)).RunsAs
        ((Service.start (.start settings now) delay now).run .alone acts) := by
  have hstart : (start settings delay now).RunsAs
      (Service.start (.start settings now) delay now) := ⟨⟨rfl, rfl, rfl⟩, rfl, rfl, rfl⟩
  generalize start settings delay now = o at hstart ⊢
  generalize Service.start (Registry.start settings now) delay now = s at hstart ⊢
  induction script generalizing o s with
  | nil => exact ⟨[], by simp, hstart⟩
  | cons a script ih =>
    obtain ⟨a', ha'⟩ : ∃ a', a.whole? s.now = some a' := by
      have ha := hs a List.mem_cons_self
      cases a <;> first | exact ⟨_, rfl⟩ | exact absurd rfl (ha _ _ _ _)
    obtain ⟨acts, hacts, hruns⟩ := ih (fun b hb => hs b (List.mem_cons_of_mem _ hb)) _ _
      (hstart.act depth ha')
    refine ⟨a' :: acts, fun b hb => ?_, hruns⟩
    rcases List.mem_cons.mp hb with rfl | hb
    · exact Act.keepsWellFormed_whole? ha'
    · exact hacts b hb

end Office

end Channel

/-! ## Nodes -/

namespace Node

/-- The step of a script that does the same. -/
def Act.step : Act → Channel.Act
  | .connect => .openChannel
  | .message i m => .message i m
  | .disconnect i => .connectionClosed i
  | .clock now => .clock now
  | .evict => .evictionPass

/-- A node is a service that drops no channel. -/
def service (n : Node) : Service Registry := ⟨n.registry, n.desk, n.now, n.channels.map some⟩

theorem channel?_service (n : Node) (i : Nat) : n.service.channel? i = n.channels[i]? := by
  rw [Service.channel?, service, List.getElem?_map]
  cases n.channels[i]? <;> rfl

theorem service_act (n : Node) (a : Act) :
    ∃ a', a.step.whole? n.now = some a' ∧ (n.act a).service = n.service.act .alone a' := by
  cases a with
  | connect =>
    refine ⟨_, rfl, ?_⟩
    simp only [act, service, Service.act, List.map_append, List.map_cons, List.map_nil]
  | message i m =>
    refine ⟨_, rfl, ?_⟩
    cases hc : n.channels[i]? with
    | none => simp only [act, Service.act, Service.onChannel, channel?_service, hc]
    | some c =>
      have hc' : n.service.channel? i = some c := (n.channel?_service i).trans hc
      simp only [act, Service.act, Service.onChannel, hc, hc', Channel.operate]
      simp only [service, List.map_set]
  | disconnect i =>
    refine ⟨_, rfl, ?_⟩
    cases hc : n.channels[i]? with
    | none => simp only [act, Service.act, Service.onChannel, channel?_service, hc]
    | some c =>
      have hc' : n.service.channel? i = some c := (n.channel?_service i).trans hc
      simp only [act, Service.act, Service.onChannel, hc, hc']
      simp only [service, List.map_set]
  | clock now => exact ⟨_, rfl, rfl⟩
  | evict => exact ⟨_, rfl, rfl⟩

end Node

/-- Scripts of whole operations do what the acts of a node do. -/
theorem Channel.Office.runsAs_node (settings : Preservation.Settings) (delay : Millis) (now : Time)
    (depth : Nat) (acts : List Node.Act) :
    (acts.foldl (fun o a => (o.act depth a.step).2) (start settings delay now)).RunsAs
      ((Node.start settings delay now).run acts).service := by
  have hstart : (start settings delay now).RunsAs (Node.start settings delay now).service :=
    ⟨⟨rfl, rfl, rfl⟩, rfl, rfl, rfl⟩
  generalize start settings delay now = o at hstart ⊢
  generalize Node.start settings delay now = n at hstart ⊢
  induction acts generalizing o n with
  | nil => exact hstart
  | cons a acts ih =>
    obtain ⟨a', hwhole, hact⟩ := n.service_act a
    refine ih _ (n.act a) ?_
    rw [hact]
    exact hstart.act depth hwhole

end LeaseRegistry
