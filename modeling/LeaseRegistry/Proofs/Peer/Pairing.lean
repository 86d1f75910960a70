import LeaseRegistry.Proofs.Peer.Numbering
import LeaseRegistry.Proofs.Peer.Wire

/-!
# Replies belong to their requests

In every dialogue the connection of a call stands to it as `Wire.Stands` says, and one that the
client holds is quiet (`Dialogue.Sound`). Each move keeps that, so a reply that a call gets is
always the answer to its own request (`Dialogue.replies_paired`).
-/

namespace LeaseRegistry

def CallStage.wire? : CallStage → Option Nat
  | .dialing => none
  | .greeting k | .greeted k | .asking k | .asked k => some k

namespace Dialogue

variable {ρ : Type}

structure Sound (P : Parties ρ) (d : Dialogue ρ) : Prop where
  /-- Nothing is held during a call. -/
  alone : ∀ c, d.call = some c → d.client.held = none
  underway : ∀ c k, d.call = some c → c.stage.wire? = some k →
    ∃ w, d.wires[k]? = some w ∧ w.Stands P d.answers c
  held : ∀ k, d.client.held = some k → ∃ w, d.wires[k]? = some w ∧ w.Quiet P
  /-- Connections that are given up stand as in the call that gave them up. -/
  each : ∀ w ∈ d.wires, ∃ c, w.Stands P d.answers c
  answers : ∀ a ∈ d.answers, a.Genuine P
  ends : ∀ x ∈ d.ends, ∀ r, x.result = .ok r →
    ∃ a ∈ d.answers, a.To x.number x.message ∧ a.reply = r

variable {P : Parties ρ} {d : Dialogue ρ} {c : Call} {k : Nat} {w w' : Wire}

theorem sound_start (desk : Desk) (registry : ρ) : (start desk registry).Sound P where
  alone _ h := by cases h
  underway _ _ h := by cases h
  held _ h := by cases h
  each _ h := by cases h
  answers _ h := by cases h
  ends _ h := by cases h

/-- One connection changes, by what the server does or by what happens to it. -/
theorem Sound.serve (h : d.Sound P) (hw : d.wires[k]? = some w) {log : List (Answered ρ)}
    (hstands : ∀ c, w.Stands P d.answers c → w'.Stands P log c) (hquiet : w.Quiet P → w'.Quiet P)
    (hlog : ∀ a ∈ d.answers, a ∈ log) (hgenuine : ∀ a ∈ log, a.Genuine P) (desk : Desk)
    (registry : ρ) :
    ({ d with wires := d.wires.set k w', desk, registry, answers := log } : Dialogue ρ).Sound
      P where
  alone := h.alone
  underway c j hc hj := by
    obtain ⟨v, hv, hstand⟩ := h.underway c j hc hj
    by_cases hjk : k = j
    · subst hjk
      obtain rfl := Option.some.inj (hw.symm.trans hv)
      exact ⟨w', getElem?_set_of_eq_some hw _, hstands c hstand⟩
    · exact ⟨v, by rw [List.getElem?_set_ne hjk]; exact hv, hstand.mono hlog⟩
  held j hj := by
    obtain ⟨v, hv, hquiet'⟩ := h.held j hj
    by_cases hjk : k = j
    · subst hjk
      obtain rfl := Option.some.inj (hw.symm.trans hv)
      exact ⟨w', getElem?_set_of_eq_some hw _, hquiet hquiet'⟩
    · exact ⟨v, by rw [List.getElem?_set_ne hjk]; exact hv, hquiet'⟩
  each v hv := by
    rcases List.mem_or_eq_of_mem_set hv with hv | rfl
    · obtain ⟨c, hstand⟩ := h.each v hv
      exact ⟨c, hstand.mono hlog⟩
    · obtain ⟨c, hstand⟩ := h.each w (List.mem_of_getElem? hw)
      exact ⟨c, hstands c hstand⟩
  answers := hgenuine
  ends x hx r hr := by
    obtain ⟨a, ha, hto⟩ := h.ends x hx r hr
    exact ⟨a, hlog a ha, hto⟩

theorem Sound.proceed (h : d.Sound P) (hw : d.wires[k]? = some w)
    (hstands : w'.Stands P d.answers c) (hwire : c.stage.wire? = some k)
    (client : PeerClient Nat) (hheld : client.held = none) :
    ({ d with wires := d.wires.set k w', client, call := some c } : Dialogue ρ).Sound P where
  alone _ _ := hheld
  underway c' j hc hj := by
    obtain rfl := Option.some.inj hc
    obtain rfl := Option.some.inj (hwire.symm.trans hj)
    exact ⟨w', getElem?_set_of_eq_some hw _, hstands⟩
  held j hj := by
    rw [hheld] at hj
    cases hj
  each v hv := by
    rcases List.mem_or_eq_of_mem_set hv with hv | rfl
    · exact h.each v hv
    · exact ⟨c, hstands⟩
  answers := h.answers
  ends := h.ends

theorem Sound.giveUp (h : d.Sound P) {client : PeerClient Nat} (hheld : client.held = none)
    {ends : List CallEnd}
    (hends : ∀ x ∈ ends, x ∈ d.ends ∨ ∃ e, x.result = .error e) :
    ({ d with client, call := none, ends } : Dialogue ρ).Sound P where
  alone _ hc := by cases hc
  underway _ _ hc := by cases hc
  held j hj := by
    rw [hheld] at hj
    cases hj
  each := h.each
  answers := h.answers
  ends x hx r hr := by
    rcases hends x hx with hx | ⟨e, he⟩
    · exact h.ends x hx r hr
    · rw [he] at hr
      cases hr

theorem Sound.fail (h : d.Sound P) (client : PeerClient Nat) (hheld : client.held = none)
    (c : Call) (e : PeerClient.Failure) : (d.goOn c (.finished (.error e), client)).Sound P := by
  refine h.giveUp hheld fun x hx => ?_
  rcases List.mem_append.mp hx with hx | hx
  · exact .inl hx
  · exact .inr ⟨e, by rw [List.mem_singleton.mp hx]⟩

/-- The call has got its reply, and the client holds the connection. -/
theorem Sound.succeed (h : d.Sound P) (hw : d.wires[k]? = some w) (hquiet : w'.Quiet P)
    (client : PeerClient Nat) (hheld : client.held = some k) {a : Answered ρ} (ha : a ∈ d.answers)
    (hto : a.To c.number c.message) :
    (({ d with wires := d.wires.set k w' } : Dialogue ρ).goOn c
      (.finished (.ok a.reply), client)).Sound P where
  alone _ hc := by cases hc
  underway _ _ hc := by cases hc
  held j hj := by
    obtain rfl := Option.some.inj (hheld.symm.trans hj)
    exact ⟨w', getElem?_set_of_eq_some hw _, hquiet⟩
  each v hv := by
    rcases List.mem_or_eq_of_mem_set hv with hv | rfl
    · exact h.each v hv
    · exact ⟨{ c with stage := .asking k }, hquiet.stands rfl⟩
  answers := h.answers
  ends x hx r hr := by
    rcases List.mem_append.mp hx with hx | hx
    · exact h.ends x hx r hr
    · rw [List.mem_singleton.mp hx] at hr ⊢
      cases hr
      exact ⟨a, ha, hto, rfl⟩

/-! ## Moves -/

theorem Sound.onWire (h : d.Sound P) (k : Nat) {f : Wire → Wire}
    (hstands : ∀ w c, w.Stands P d.answers c → (f w).Stands P d.answers c)
    (hquiet : ∀ w, w.Quiet P → (f w).Quiet P) : (d.onWire k f).Sound P := by
  cases hw : d.wires[k]? with
  | none =>
    have hwires : d.wires.modify k f = d.wires :=
      List.modify_eq_self (List.getElem?_eq_none_iff.mp hw)
    rw [Dialogue.onWire, hwires]
    exact h
  | some w =>
    rw [onWire_eq hw]
    exact h.serve hw (hstands w) (hquiet w) (fun a ha => ha) h.answers d.desk d.registry

theorem Sound.begin (h : d.Sound P) (now : Time) (m : PeerMessage) :
    (d.begin P now m).Sound P := by
  unfold Dialogue.begin
  cases hcall : d.call with
  | some c => exact h
  | none =>
    have h' : ({ d with begun := d.begun + 1 } : Dialogue ρ).Sound P :=
      ⟨h.alone, h.underway, h.held, h.each, h.answers, h.ends⟩
    simp only [PeerClient.begin]
    cases hheld : d.client.held with
    | some k =>
      obtain ⟨w, hw, hquiet⟩ := h.held k hheld
      have hself : d.wires.set k w = d.wires := by
        obtain ⟨hk, rfl⟩ := List.getElem?_eq_some_iff.mp hw
        exact List.set_getElem_self hk
      have hnext := h'.proceed (c := ⟨d.begun, m, .asking k⟩) hw (hquiet.stands rfl) rfl
        { d.client with held := none } rfl
      simp only [hself] at hnext
      exact hnext
    | none =>
      dsimp only
      split_ifs with hdue
      · exact {
          alone := fun _ _ => rfl
          underway := fun c k hc hk => by
            cases hc
            cases hk
          held := fun k hk => by cases hk
          each := h.each
          answers := h.answers
          ends := h.ends }
      · exact h'.fail _ hheld _ _

theorem Sound.dialed (h : d.Sound P) (hc : d.call = some c) (failure : Option LinkError) :
    (d.dialed P failure c).Sound P := by
  have hheld := h.alone c hc
  unfold Dialogue.dialed
  split
  · have hnew : (Wire.accepted P.server).Stands P d.answers
        { c with stage := .greeting d.wires.length } :=
      Wire.Stands.accepted c.number c.message d.wires.length
    exact {
      alone := fun _ _ => hheld
      underway := fun c' k hc' hk => by
        obtain rfl := Option.some.inj hc'
        obtain rfl := Option.some.inj hk
        exact ⟨_, List.getElem?_concat_length, hnew⟩
      held := fun k hk => by
        obtain ⟨w, hw, hquiet⟩ := h.held k hk
        have hlt := (List.getElem?_eq_some_iff.mp hw).1
        exact ⟨w, by rw [List.getElem?_append_left hlt]; exact hw, hquiet⟩
      each := fun w hw => by
        rcases List.mem_append.mp hw with hw | hw
        · exact h.each w hw
        · rw [List.mem_singleton.mp hw]
          exact ⟨_, hnew⟩
      answers := h.answers
      ends := h.ends }
  · exact h.fail _ hheld c _
  · exact h

theorem Sound.send (h : d.Sound P) (hc : d.call = some c) (now : Time) (refusal : Option String) :
    (d.send P now refusal c).Sound P := by
  have hheld := h.alone c hc
  unfold Dialogue.send
  split
  · rename_i k hstage
    obtain ⟨w, hw, hstand⟩ := h.underway c k hc (by rw [hstage]; rfl)
    rw [onWire_eq hw]
    exact h.proceed hw (hstand.introduce hstage) rfl _ hheld
  · exact h.fail _ hheld c _
  · rename_i k hstage
    obtain ⟨w, hw, hstand⟩ := h.underway c k hc (by rw [hstage]; rfl)
    rw [onWire_eq hw]
    exact h.proceed hw (hstand.ask hstage) rfl _ hheld
  · exact h.fail { d.client with reconnect := d.client.reconnect.schedule P.delay now } hheld c _
  · exact h

theorem Sound.skip (h : d.Sound P) (hw : d.wires[k]? = some w) {p : Parcel} {down : List Parcel}
    (hdown : w.down = p :: down) (hp : p.data? = none) :
    ({ d with wires := d.wires.set k { w with down } } : Dialogue ρ).Sound P :=
  h.serve hw (fun _ hstand => hstand.skip hdown hp)
    (fun hquiet => hquiet.keep (.inl rfl) rfl (Wire.told_of_none hdown hp)) (fun _ ha => ha)
    h.answers d.desk d.registry

/-- The call is over without a reply, which it cannot get on its connection any more. -/
theorem Sound.failOn (h : d.Sound P) {c' : Call} (hstands : w'.Stands P d.answers c')
    {client : PeerClient Nat} (hheld : client.held = none) (k : Nat) (c : Call)
    (e : PeerClient.Failure) :
    (({ d with wires := d.wires.set k w' } : Dialogue ρ).goOn c
      (.finished (.error e), client)).Sound P where
  alone _ hc := by cases hc
  underway _ _ hc := by cases hc
  held j hj := by
    have hnone : client.held = some j := hj
    rw [hheld] at hnone
    cases hnone
  each v hv := by
    rcases List.mem_or_eq_of_mem_set hv with hv | rfl
    · exact h.each v hv
    · exact ⟨c', hstands⟩
  answers := h.answers
  ends := (h.fail client hheld c e).ends

theorem Sound.read (h : d.Sound P) (hc : d.call = some c) (now : Time) :
    (d.read P now c).Sound P := by
  have hheld := h.alone c hc
  -- The connection of the call is the one that it takes an item from.
  have hstand {k : Nat} {w : Wire} (hw : d.wires[k]? = some w) (hk : c.stage.wire? = some k) :
      w.Stands P d.answers c := by
    obtain ⟨v, hv, hstand⟩ := h.underway c k hc hk
    rwa [Option.some.inj (hw.symm.trans hv)]
  have hheard := heard_read P now d c
  generalize d.read P now c = d' at hheard ⊢
  cases hheard with
  | nothing => exact h
  | passed hw hdown htaken => exact h.skip hw hdown (Parcel.data?_of_none htaken)
  | lost hw hdown htaken hclient =>
    exact (h.skip hw hdown (Parcel.data?_of_error htaken)).fail _ (hclient.trans hheld) c _
  | @unmet k w p down frame hstage hw hdown htaken failure =>
    have hgreeted := (hstand hw (by rw [hstage]; rfl)).greet hstage hdown
      (Parcel.data?_of_ok htaken)
    exact h.failOn hgreeted hheld k c failure
  | @met k w p down frame hstage hw hdown htaken id =>
    have hgreeted := (hstand hw (by rw [hstage]; rfl)).greet hstage hdown
      (Parcel.data?_of_ok htaken)
    exact h.proceed hw hgreeted rfl _ hheld
  | @replied k w p down frame hstage hw hdown htaken =>
    rcases (hstand hw (by rw [hstage]; rfl)).hear hstage hdown (Parcel.data?_of_ok htaken) with
      ⟨hread, hstands⟩ | ⟨a, ha, hto, hread, hquiet⟩
    · rw [hread, PeerClient.exchanged]
      refine h.failOn hstands ?_ k c _
      exact hheld
    · rw [hread]
      exact h.succeed hw hquiet { d.client with held := some k } rfl ha hto

theorem Sound.step (h : d.Sound P) (m : Move ρ) : (d.step P m).Sound P := by
  have onCall {f : Call → Dialogue ρ} (hf : ∀ c, d.call = some c → (f c).Sound P) :
      ((d.call.map f).getD d).Sound P := by
    cases hc : d.call with
    | none => exact h
    | some c => exact hf c hc
  cases m with
  | begin now m => exact h.begin now m
  | dialed failure => exact onCall fun c hc => h.dialed hc failure
  | send now refusal => exact onCall fun c hc => h.send hc now refusal
  | read now => exact onCall fun c hc => h.read hc now
  | abandon =>
    cases hc : d.call with
    | none =>
      have hsame : d.step P .abandon = d := by
        obtain ⟨client, call, begun, ends, wires, desk, registry, answers⟩ := d
        cases hc
        rfl
      rw [hsame]
      exact h
    | some c => exact h.giveUp (h.alone c hc) fun x hx => .inl hx
  | handle k now =>
    simp only [Dialogue.step, Dialogue.handle]
    cases hw : d.wires[k]? with
    | none => exact h
    | some w =>
      obtain ⟨c, hstand⟩ := h.each w (List.mem_of_getElem? hw)
      have hgenuine := (hstand.handle now d.desk d.registry).2
      refine h.serve hw (fun c hstand => (hstand.handle now d.desk d.registry).1)
        (fun hquiet => hquiet.handle now d.desk d.registry)
        (fun a ha => List.mem_append_left _ ha) (fun a ha => ?_) _ _
      exact (List.mem_append.mp ha).elim (h.answers a) (hgenuine a)
  | hangUp k now =>
    simp only [Dialogue.step, Dialogue.hangUp]
    cases hw : d.wires[k]? with
    | none => exact h
    | some w =>
      exact h.serve hw (fun c hstand => hstand.hangUp now d.desk)
        (fun hquiet => hquiet.hangUp now d.desk) (fun a ha => ha) h.answers _ d.registry
  | cut k ups downs e =>
    exact h.onWire k (fun w c hstand => hstand.cut ups downs e)
      fun w hquiet => hquiet.cut ups downs e
  | control k toServer pong bytes =>
    have hp : Parcel.data? ⟨none, .ok (if pong then .pong bytes else .ping bytes)⟩ = none := by
      cases pong <;> rfl
    cases toServer with
    | true =>
      exact h.onWire k (fun w c hstand => hstand.sendUp_noise hp)
        fun w hquiet => hquiet.sendUp_noise hp
    | false =>
      exact h.onWire k (fun w c hstand => hstand.sendDown_noise hp)
        fun w hquiet => hquiet.sendDown_noise hp
  | elsewhere desk registry => exact ⟨h.alone, h.underway, h.held, h.each, h.answers, h.ends⟩

theorem Sound.run (h : d.Sound P) (moves : List (Move ρ)) : (d.run P moves).Sound P := by
  induction moves generalizing d with
  | nil => exact h
  | cons m moves ih => exact ih (h.step m)

/-- Whatever happens in whatever order, a reply that a call gets is the one answer that the server
gave to the request of that very call; and on a connection that the client holds between calls, no
request waits for an answer and no answer waits to be read. -/
theorem replies_paired (P : Parties ρ) (desk : Desk) (registry : ρ) (moves : List (Move ρ)) :
    let d := (start desk registry).run P moves
    (d.ends.map (·.number)).Nodup ∧
    (∀ x ∈ d.ends, ∀ r, x.result = .ok r → ∃ a ∈ d.answers,
      a.call = some x.number ∧ (∀ b ∈ d.answers, b.call = some x.number → b = a) ∧
      a.frame = x.message.encode ∧ a.reply = r ∧
      r = (P.endpoint.receive a.before a.time P.client x.message).1) ∧
    ∀ k, d.client.held = some k → ∃ w, d.wires[k]? = some w ∧ w.asked = [] ∧ w.told = [] := by
  intro d
  have h : d.Sound P := (sound_start desk registry).run moves
  have hnumbered : d.Numbered := (numbered_start desk registry).run moves
  refine ⟨hnumbered.ends, fun x hx r hr => ?_, fun k hk => ?_⟩
  · obtain ⟨a, ha, hto, hreply⟩ := h.ends x hx r hr
    exact ⟨a, ha, hto.1, fun b hb hcall => hnumbered.answer_eq hb ha hcall hto.1, hto.2, hreply,
      hreply ▸ (h.answers a ha).reply_eq hto⟩
  · obtain ⟨w, hw, hquiet⟩ := h.held k hk
    exact ⟨w, hw, hquiet.up, hquiet.down⟩

/-- A request is abandoned and answered too late; the next call connects again and gets its own
reply. -/
example :
    let counting : Endpoint Nat :=
      { handle := fun n _ _ => (.renewed true, n)
        stored := fun _ _ => none
        receive := fun n _ _ _ => (if n = 0 then .ack else .error "again", n + 1) }
    let P : Parties Nat := ⟨⟨"a", by decide⟩, ⟨"b", by decide⟩, counting, fun _ => 0⟩
    let m := PeerMessage.heartbeat ⟨"web"⟩
    let ask (k : Nat) : List (Move Nat) :=
      [.begin 0 m, .dialed none, .send 0 none, .handle k 0, .read 0, .send 0 none]
    let d := (start (.empty 0) 0).run P (ask 0 ++ [.abandon, .handle 0 0] ++ ask 1 ++
      [.handle 1 0, .read 0])
    d.ends.map (fun x => (x.number, x.result.toOption)) = [(1, some (.error "again"))] ∧
      d.client.held = some 1 ∧ d.wires.map (·.told.length) = [1, 0] := by
  decide +kernel

end Dialogue

end LeaseRegistry
