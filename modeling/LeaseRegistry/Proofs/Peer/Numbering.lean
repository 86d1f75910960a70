import LeaseRegistry.Proofs.Peer.Dialogue
import Mathlib.Algebra.GroupWithZero.Nat

/-!
# One answer to each request

Every call has a number of its own. Its request is sent once at most, and each frame that the server
takes is answered once at most, so no request is answered twice (`Dialogue.Numbered.answer_eq`).
-/

namespace LeaseRegistry

variable {ρ : Type} {n : Nat}

/-- How many copies of the request of call `n` are on their way. -/
def Wire.requests (n : Nat) (w : Wire) : Nat := w.up.countP fun p => p.call == some n

/-- How many answers there are to it. -/
def Answered.countTo (n : Nat) (log : List (Answered ρ)) : Nat :=
  log.countP fun a => a.call == some n

/-- The request that a call has still to send, if it is call `n`. -/
def Call.unsent (n : Nat) (c : Call) : Nat :=
  match c.stage with
  | .dialing | .greeting _ | .greeted _ | .asking _ => if c.number = n then 1 else 0
  | .asked _ => 0

/-! ## Connections -/

namespace Wire

theorem requests_cut_le (w : Wire) (ups downs : Nat) (e : WireError) :
    (w.cut ups downs e).requests n ≤ w.requests n := by
  have htake := (List.take_sublist ups w.up).countP_le (p := fun p => p.call == some n)
  simpa [requests, cut] using htake

theorem requests_sendUp_le (w : Wire) (p : Parcel) :
    (w.sendUp p).requests n ≤ w.requests n + if p.call = some n then 1 else 0 := by
  unfold sendUp
  split
  · exact Nat.le_add_right _ _
  · simp [requests]

@[simp] theorem requests_sendDown (w : Wire) (ps : List Parcel) :
    (w.sendDown ps).requests n = w.requests n := by
  unfold sendDown
  split <;> rfl

theorem requests_hangUp (w : Wire) (now : Time) (d : Desk) :
    (w.hangUp now d).1.requests n = w.requests n := by
  simp only [hangUp, requests_sendDown]
  rfl

/-- A frame is answered once at most. -/
theorem length_answers_feed_le (e : Endpoint ρ) (now : Time) (s : Session) (frame : List UInt8)
    (d : Desk) (g : ρ) (call : Option Nat) :
    ((s.feed e now frame d g).1.filterMap (Answered.of? call frame now g)).length ≤ 1 := by
  have hmessages (ms : List ServerMessage) :
      (ms.map ServerFrame.message).filterMap (Answered.of? call frame now g) = [] := by
    rw [List.filterMap_map]
    exact List.filterMap_eq_nil_iff.mpr fun _ _ => rfl
  cases s with
  | opening =>
    simp only [Session.feed, Session.identify]
    split
    · exact Nat.zero_le 1
    · split <;> exact Nat.zero_le 1
  | client c =>
    simp only [Session.feed, Session.feedChannel]
    split
    · rw [hmessages]
      exact Nat.zero_le 1
    · rw [hmessages]
      exact Nat.zero_le 1
  | peer o => exact Nat.le_refl 1
  | ended => exact Nat.zero_le 1

theorem countTo_feed_le (e : Endpoint ρ) (now : Time) (s : Session) (frame : List UInt8) (d : Desk)
    (g : ρ) (call : Option Nat) :
    Answered.countTo n ((s.feed e now frame d g).1.filterMap (Answered.of? call frame now g)) ≤
      if call = some n then 1 else 0 := by
  split
  · exact Nat.le_trans List.countP_le_length (length_answers_feed_le e now s frame d g call)
  · rename_i hother
    refine Nat.le_of_eq (List.countP_eq_zero.mpr fun a ha heq => hother ?_)
    obtain ⟨f, -, hf⟩ := List.mem_filterMap.mp ha
    have hcall : a.call = call := by
      cases f with
      | reply r =>
        cases hf
        rfl
      | handshake h | message m => cases hf
    rw [← hcall]
    simpa using heq

/-- The answer takes the place of the request. -/
theorem requests_handle_le (e : Endpoint ρ) (now : Time) (w : Wire) (d : Desk) (g : ρ) :
    (w.handle e now d g).2.1.requests n + Answered.countTo n (w.handle e now d g).1 ≤
      w.requests n := by
  cases hup : w.up with
  | nil => simp only [handle, hup, Answered.countTo, List.countP_nil, Nat.add_zero, Nat.le_refl]
  | cons p up =>
    have hrequests :
        w.requests n = requests n { w with up } + if p.call = some n then 1 else 0 := by
      simp [requests, hup, List.countP_cons]
    simp only [handle, hup]
    split
    · rw [hrequests]
      exact Nat.le_add_right _ _
    · rw [hrequests]
      exact Nat.le_add_right _ _
    · rename_i frame _
      have hanswers := countTo_feed_le (n := n) e now w.session frame d g p.call
      have hleft : requests n { w with up, session := (w.session.feed e now frame d g).2.1 } =
          requests n { w with up } := rfl
      rw [hrequests, requests_sendDown, hleft]
      exact Nat.add_le_add_left hanswers _

end Wire

/-! ## Dialogues -/

namespace Dialogue

/-- How many requests or answers of call `n` there are or may still be. -/
def load (n : Nat) (d : Dialogue ρ) : Nat :=
  Answered.countTo n d.answers + (d.wires.map (·.requests n)).sum +
    (d.call.map (·.unsent n)).getD 0

theorem sum_requests_set_le {wires : List Wire} {k : Nat} {w w' : Wire} (hw : wires[k]? = some w)
    (more less : Nat) (h : w'.requests n + less ≤ w.requests n + more) :
    ((wires.set k w').map (·.requests n)).sum + less ≤ (wires.map (·.requests n)).sum + more := by
  induction wires generalizing k with
  | nil => cases hw
  | cons v wires ih =>
    cases k with
    | zero =>
      cases hw
      simp only [List.set_cons_zero, List.map_cons, List.sum_cons]
      omega
    | succ k =>
      have hrest := ih (k := k) hw
      simp only [List.set_cons_succ, List.map_cons, List.sum_cons]
      omega

theorem sum_requests_onWire_le (d : Dialogue ρ) (k : Nat) {f : Wire → Wire} (more : Nat)
    (h : ∀ w, (f w).requests n ≤ w.requests n + more) :
    ((d.onWire k f).wires.map (·.requests n)).sum ≤ (d.wires.map (·.requests n)).sum + more := by
  cases hw : d.wires[k]? with
  | none =>
    have hsame : d.wires.modify k f = d.wires :=
      List.modify_eq_self (List.getElem?_eq_none_iff.mp hw)
    simp only [onWire, hsame]
    exact Nat.le_add_right _ _
  | some w =>
    rw [onWire_eq hw]
    exact sum_requests_set_le hw more 0 (h w)

variable {P : Parties ρ} {d d' : Dialogue ρ} {c : Call}

/-- Every call has a number of its own, and there is one request of it and one answer at most. -/
structure Numbered (d : Dialogue ρ) : Prop where
  once : ∀ n, d.load n ≤ 1
  unused : ∀ n, d.begun ≤ n → d.load n = 0
  call : ∀ c, d.call = some c → c.number < d.begun
  ends : (d.ends.map (·.number)).Nodup
  ended : ∀ x ∈ d.ends, x.number < d.begun ∧ ∀ c, d.call = some c → x.number ≠ c.number

theorem numbered_start (desk : Desk) (registry : ρ) : (start desk registry).Numbered where
  once _ := Nat.zero_le 1
  unused _ _ := rfl
  call _ h := by cases h
  ends := List.nodup_nil
  ended _ h := by cases h

/-- Nothing happens but to the call that is under way, which may come to its end. -/
theorem Numbered.keep (h : d.Numbered) (hbegun : d'.begun = d.begun)
    (hload : ∀ n, d'.load n ≤ d.load n)
    (hcall : ∀ c', d'.call = some c' → ∃ c, d.call = some c ∧ c.number = c'.number)
    (hends : d'.ends = d.ends ∨ ∃ c x, d.call = some c ∧ d'.call = none ∧
      d'.ends = d.ends ++ [x] ∧ x.number = c.number) : d'.Numbered := by
  refine ⟨fun n => Nat.le_trans (hload n) (h.once n), fun n hn => ?_, fun c' hc' => ?_, ?_, ?_⟩
  · have hzero := h.unused n (hbegun ▸ hn)
    exact Nat.le_zero.mp (hzero ▸ hload n)
  · obtain ⟨c, hc, hnumber⟩ := hcall c' hc'
    rw [hbegun, ← hnumber]
    exact h.call c hc
  · rcases hends with heq | ⟨c, x, hc, -, heq, hnumber⟩
    · rw [heq]
      exact h.ends
    · rw [heq, List.map_append, List.map_singleton, hnumber]
      refine List.nodup_append.mpr ⟨h.ends, List.pairwise_singleton _ _, fun a ha b hb => ?_⟩
      obtain ⟨y, hy, rfl⟩ := List.mem_map.mp ha
      rw [List.mem_singleton.mp hb]
      exact (h.ended y hy).2 c hc
  · rcases hends with heq | ⟨c, x, hc, hnone, heq, hnumber⟩
    · intro y hy
      rw [heq] at hy
      refine ⟨hbegun ▸ (h.ended y hy).1, fun c' hc' => ?_⟩
      obtain ⟨c, hc, hnumber⟩ := hcall c' hc'
      rw [← hnumber]
      exact (h.ended y hy).2 c hc
    · intro y hy
      rw [heq] at hy
      refine ⟨?_, fun c' hc' => by rw [hnone] at hc'; cases hc'⟩
      rw [hbegun]
      rcases List.mem_append.mp hy with hy | hy
      · exact (h.ended y hy).1
      · rw [List.mem_singleton.mp hy, hnumber]
        exact h.call c hc

theorem Numbered.finish (h : d.Numbered) (hc : d.call = some c) {wires : List Wire}
    (hwires : ∀ n, (wires.map (·.requests n)).sum ≤ (d.wires.map (·.requests n)).sum)
    (r : Except PeerClient.Failure PeerReply) (client : PeerClient Nat) :
    (({ d with wires } : Dialogue ρ).goOn c (.finished r, client)).Numbered := by
  refine h.keep rfl (fun n => ?_) (fun c' hc' => by cases hc') (.inr ⟨c, _, hc, rfl, rfl, rfl⟩)
  have hsum := hwires n
  simp only [load, goOn, hc, Option.map_none, Option.map_some, Option.getD_none, Option.getD_some]
  omega

theorem Numbered.proceed (h : d.Numbered) (hc : d.call = some c) (c' : Call)
    (hnumber : c'.number = c.number) {wires : List Wire}
    (hwires : ∀ n, (wires.map (·.requests n)).sum + c'.unsent n ≤
      (d.wires.map (·.requests n)).sum + c.unsent n) (client : PeerClient Nat) :
    ({ d with wires, client, call := some c' } : Dialogue ρ).Numbered := by
  refine h.keep rfl (fun n => ?_) (fun c'' hc'' => ?_) (.inl rfl)
  · have hsum := hwires n
    simp only [load, hc, Option.map_some, Option.getD_some]
    omega
  · cases hc''
    exact ⟨c, hc, hnumber.symm⟩

theorem Numbered.wires (h : d.Numbered) {wires : List Wire}
    (hwires : ∀ n, (wires.map (·.requests n)).sum ≤ (d.wires.map (·.requests n)).sum)
    {desk : Desk} : ({ d with wires, desk } : Dialogue ρ).Numbered := by
  refine h.keep rfl (fun n => ?_) (fun c hc => ⟨c, hc, rfl⟩) (.inl rfl)
  have hsum := hwires n
  simp only [load]
  omega

theorem Numbered.onWire (h : d.Numbered) (k : Nat) {f : Wire → Wire}
    (hf : ∀ n w, (f w).requests n ≤ w.requests n) : (d.onWire k f).Numbered := by
  refine h.keep rfl (fun n => ?_) (fun c hc => ⟨c, hc, rfl⟩) (.inl rfl)
  have hsum := d.sum_requests_onWire_le k 0 (hf n)
  simp only [load, Dialogue.onWire] at hsum ⊢
  omega

/-! ## Moves -/

/-- A new call takes the next number. It has its request to send at most. -/
theorem Numbered.open (h : d.Numbered) (hcall : d.call = none) (m : PeerMessage) (stage : CallStage)
    (client : PeerClient Nat) :
    ({ d with begun := d.begun + 1, client, call := some ⟨d.begun, m, stage⟩ } :
      Dialogue ρ).Numbered := by
  have hunsent (n : Nat) : Call.unsent n ⟨d.begun, m, stage⟩ ≤ if d.begun = n then 1 else 0 := by
    cases stage with
    | asked k => exact Nat.zero_le _
    | dialing | greeting k | greeted k | asking k => exact Nat.le_refl _
  have hrest (n : Nat) :
      Answered.countTo n d.answers + (d.wires.map (·.requests n)).sum = d.load n := by
    simp only [load, hcall, Option.map_none, Option.getD_none, Nat.add_zero]
  refine ⟨fun n => ?_, fun n hn => ?_, fun c hc => ?_, h.ends, fun x hx => ?_⟩
  · have hnew := Nat.add_le_add_left (hunsent n) (d.load n)
    have honce := h.once n
    have hunused := h.unused n
    rw [← hrest] at hnew honce hunused
    simp only [load, Option.map_some, Option.getD_some]
    split at hnew <;> omega
  · have hnew := Nat.add_le_add_left (hunsent n) (d.load n)
    have hlt : d.begun < n := hn
    have hunused := h.unused n (Nat.le_of_lt hlt)
    rw [if_neg (Nat.ne_of_lt hlt)] at hnew
    rw [← hrest] at hnew hunused
    simp only [load, Option.map_some, Option.getD_some]
    omega
  · cases hc
    exact Nat.lt_succ_self _
  · have hlt := (h.ended x hx).1
    refine ⟨Nat.lt_succ_of_lt hlt, fun c hc => ?_⟩
    cases hc
    exact Nat.ne_of_lt hlt

theorem Numbered.begin (h : d.Numbered) (now : Time) (m : PeerMessage) :
    (d.begin P now m).Numbered := by
  unfold Dialogue.begin
  cases hcall : d.call with
  | some c => exact h
  | none =>
    simp only [PeerClient.begin]
    cases d.client.held with
    | some k => exact h.open hcall m _ _
    | none =>
      dsimp only
      split
      · exact h.open hcall m _ _
      · exact (h.open hcall m .dialing d.client).finish rfl (fun n => Nat.le_refl _) _ _

theorem Numbered.dialed (h : d.Numbered) (hc : d.call = some c) (failure : Option LinkError) :
    (d.dialed P failure c).Numbered := by
  unfold Dialogue.dialed
  split
  · rename_i hstage
    refine h.proceed hc { c with stage := .greeting d.wires.length } rfl (fun n => ?_)
      d.client
    have hnone : (Wire.accepted P.server).requests n = 0 := rfl
    simp [hnone, Call.unsent, hstage]
  · exact h.finish hc (fun n => Nat.le_refl _) _ _
  · exact h

theorem Numbered.send (h : d.Numbered) (hc : d.call = some c) (now : Time)
    (refusal : Option String) : (d.send P now refusal c).Numbered := by
  unfold Dialogue.send
  split
  · rename_i k hstage
    refine h.proceed hc { c with stage := .greeted k } rfl (fun n => ?_) d.client
    have hsum := d.sum_requests_onWire_le k 0 fun w => Wire.requests_sendUp_le (n := n) w
      (.binary none (Handshake.peer P.client).toJson.bytes)
    simp only [Call.unsent, hstage, Dialogue.onWire] at hsum ⊢
    omega
  · exact h.finish hc (fun n => Nat.le_refl _) _ _
  · rename_i k hstage
    refine h.proceed hc { c with stage := .asked k } rfl (fun n => ?_) d.client
    have hsum := d.sum_requests_onWire_le k _ fun w => Wire.requests_sendUp_le (n := n) w
      (.binary (some c.number) c.message.encode)
    simp only [Call.unsent, hstage, Dialogue.onWire, Parcel.binary, Option.some.injEq] at hsum ⊢
    omega
  · exact h.finish hc (fun n => Nat.le_refl _) _ _
  · exact h

theorem Numbered.read (h : d.Numbered) (hc : d.call = some c) (now : Time) :
    (d.read P now c).Numbered := by
  have hdown {k : Nat} {w : Wire} (hw : d.wires[k]? = some w) (down : List Parcel) (n : Nat) :
      ((d.wires.set k { w with down }).map (·.requests n)).sum ≤
        (d.wires.map (·.requests n)).sum :=
    sum_requests_set_le hw 0 0 (Nat.le_refl _)
  have hheard := heard_read P now d c
  generalize d.read P now c = d' at hheard ⊢
  cases hheard with
  | nothing => exact h
  | passed hw => exact h.wires (hdown hw _)
  | lost hw | unmet _ hw => exact h.finish hc (hdown hw _) _ _
  | @met k w p down frame hstage hw =>
    refine h.proceed hc { c with stage := .asking k } rfl (fun n => ?_) _
    have hsum := hdown hw down n
    simp only [Call.unsent, hstage]
    omega
  | @replied k w p down frame _ hw =>
    unfold PeerClient.exchanged
    cases PeerClient.readReply frame with
    | ok reply => exact h.finish hc (hdown hw down) _ _
    | error e => exact h.finish hc (hdown hw down) _ _

theorem Numbered.step (h : d.Numbered) (m : Move ρ) : (d.step P m).Numbered := by
  have onCall {f : Call → Dialogue ρ} (hf : ∀ c, d.call = some c → (f c).Numbered) :
      ((d.call.map f).getD d).Numbered := by
    cases hc : d.call with
    | none => exact h
    | some c => exact hf c hc
  cases m with
  | begin now m => exact h.begin now m
  | dialed failure => exact onCall fun c hc => h.dialed hc failure
  | send now refusal => exact onCall fun c hc => h.send hc now refusal
  | read now => exact onCall fun c hc => h.read hc now
  | abandon =>
    refine h.keep rfl (fun n => ?_) (fun c hc => by cases hc) (.inl rfl)
    simp only [load, Dialogue.step, Option.map_none, Option.getD_none]
    omega
  | handle k now =>
    simp only [Dialogue.step, Dialogue.handle]
    cases hw : d.wires[k]? with
    | none => exact h
    | some w =>
      dsimp only
      have hsum (n : Nat) := sum_requests_set_le hw 0 _
        (w.requests_handle_le (n := n) P.endpoint now d.desk d.registry)
      generalize w.handle P.endpoint now d.desk d.registry = handled at hsum ⊢
      obtain ⟨new, w', desk, registry⟩ := handled
      refine h.keep rfl (fun n => ?_) (fun c hc => ⟨c, hc, rfl⟩) (.inl rfl)
      have hle := hsum n
      simp only [load, Answered.countTo, List.countP_append] at hle ⊢
      omega
  | hangUp k now =>
    simp only [Dialogue.step, Dialogue.hangUp]
    cases hw : d.wires[k]? with
    | none => exact h
    | some w =>
      refine h.wires fun n => sum_requests_set_le hw 0 0 ?_
      exact Nat.le_of_eq (w.requests_hangUp now d.desk)
  | cut k ups downs e => exact h.onWire k fun n w => w.requests_cut_le ups downs e
  | control k toServer pong bytes =>
    refine h.onWire k fun n w => ?_
    cases toServer with
    | true => exact w.requests_sendUp_le ⟨none, _⟩
    | false => exact Nat.le_of_eq (w.requests_sendDown _)
  | elsewhere desk registry => exact ⟨h.once, h.unused, h.call, h.ends, h.ended⟩

theorem Numbered.run (h : d.Numbered) (moves : List (Move ρ)) : (d.run P moves).Numbered := by
  induction moves generalizing d with
  | nil => exact h
  | cons m moves ih => exact ih (h.step m)

/-- Two answers to one request are one. -/
theorem Numbered.answer_eq (h : d.Numbered) {a b : Answered ρ} (ha : a ∈ d.answers)
    (hb : b ∈ d.answers) (hcall : a.call = some n) (hsame : b.call = some n) : a = b := by
  have hcount : Answered.countTo n d.answers ≤ 1 := by
    have honce := h.once n
    simp only [load] at honce
    omega
  rw [Answered.countTo, List.countP_eq_length_filter] at hcount
  have hmem {x : Answered ρ} (hx : x ∈ d.answers) (hn : x.call = some n) :
      x ∈ d.answers.filter (·.call == some n) :=
    List.mem_filter.mpr ⟨hx, by simp [hn]⟩
  have ha' := hmem ha hcall
  have hb' := hmem hb hsame
  generalize d.answers.filter (·.call == some n) = l at hcount ha' hb'
  match l, hcount with
  | [], _ => cases ha'
  | [x], _ => rw [List.mem_singleton.mp ha', List.mem_singleton.mp hb']
  | x :: y :: l, hcount => exact absurd hcount (by simp)

end Dialogue

end LeaseRegistry
