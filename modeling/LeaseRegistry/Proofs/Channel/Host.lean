import LeaseRegistry.Proofs.Channel.Node
import LeaseRegistry.Server.Run

/-!
# What channels are opened on

A `Host` is a registry together with whatever goes along with it, such as peers that are told about
its writes. In a whole operation of a channel its registry deals with requests of channels only, one
after the other (`serves_operate`); the list of them is kept along without changing anything
(`operate_listing`).
-/

namespace LeaseRegistry

namespace Registry

/-- The registry dealt with some requests of channels, one after the other. -/
inductive Serves : Registry → List Asked → Registry → Prop where
  | nil {g : Registry} : Serves g [] g
  | cons {g g' g'' : Registry} {time : Time} {r : Request} {a : Answer} {asks : List Asked}
      (ofChannel : r.isOfChannel = true) (first : g.handle time r = (a, g'))
      (rest : Serves g' asks g'') : Serves g ((r, a) :: asks) g''

theorem Serves.trans {g g' g'' : Registry} {asks asks' : List Asked} (h : Serves g asks g')
    (h' : Serves g' asks' g'') : Serves g (asks ++ asks') g'' := by
  induction h with
  | nil => exact h'
  | cons ofChannel first _ ih => exact .cons ofChannel first (ih h')

/-- A write that takes effect is valid and newer than what was stored. -/
theorem accepted_of_applied {g g' : Registry} {time : Time} {r : Request} {a : Answer}
    (hw : r.isWrite = true) (h : g.handle time r = (a, g')) (ha : a.isApplied = true) :
    ∃ w, accepted? (r, a) = some w ∧ w.record.Valid ∧
      ∀ v, g.store.version? r.id = some v → v < w.record.version := by
  have he := Slot.effect_handle time r (g.store.lease? r.id)
  have hanswer : (Slot.handle time r (g.store.lease? r.id)).1 = a :=
    (congrArg Prod.fst (g.handle_eq_onSlot time r)).symm.trans (congrArg Prod.fst h)
  rw [Store.version?_eq]
  generalize Slot.message? time r (g.store.lease? r.id) = message at he
  generalize g.store.lease? r.id = slot at he hanswer ⊢
  generalize Slot.handle time r slot = res at he hanswer
  subst hanswer
  cases he with
  | refused hn => exact absurd ha (by rw [hn]; exact Bool.false_ne_true)
  | @added record source valid => exact ⟨⟨record, true⟩, rfl, valid, by simp [Slot.version?]⟩
  | @registered record source l valid newer =>
    refine ⟨⟨record, false⟩, rfl, valid, fun v hv => ?_⟩
    cases hv
    exact newer
  | @updated record deltas source l valid newer =>
    refine ⟨⟨record, false⟩, rfl, valid, fun v hv => ?_⟩
    cases hv
    exact newer
  | removed notOlder => cases hw
  | restated newer => cases hw
  | renewed => cases hw

end Registry

namespace Channel

/-! ## Hosts -/

structure Host (ρ : Type) extends Backend ρ where
  registry : ρ → Registry
  /-- A request is dealt with as the registry alone deals with it, at some time. -/
  handled (g : ρ) (now : Time) (r : Request) :
    ∃ time, (registry g).handle time r = ((handle g now r).1, registry (handle g now r).2)
  version (g : ρ) (id : InstanceId) : stored g id = (registry g).store.version? id

namespace Host

variable {ρ : Type}

def store (h : Host ρ) (g : ρ) : Store := (h.registry g).store

def alone : Host Registry where
  toBackend := .alone
  registry g := g
  handled _ now _ := ⟨now, rfl⟩
  version _ _ := rfl

end Host

end Channel

theorem Server.run_request {ε : Type} (p : Peers ε) (r : Request) (now : Time) (s : Server)
    (env : ε) :
    (request r).run p now s env =
      match s.coordinator.perform now r with
      | (a, none, coordinator) => (a, now, { s with coordinator }, env)
      | (a, some m, coordinator) =>
        let (now, env) := p.deliverAll coordinator m env now (List.range coordinator.peers)
        (a, now, { s with coordinator }, env) := by
  obtain ⟨a, message, coordinator, h⟩ : ∃ a message coordinator,
      s.coordinator.perform now r = (a, message, coordinator) := ⟨_, _, _, rfl⟩
  simp only [request, Activity.run, h]
  cases message with
  | none => rfl
  | some m => rfl

namespace Channel

/-- A server that tells its peers about what takes effect. The channels share the desk that is
passed along with them. -/
def Host.telling {ε : Type} (p : Peers ε) : Host (Server × ε) where
  handle g now r :=
    let (a, _, s, env) := (Server.request r).run p now g.1 g.2
    (a, s, env)
  stored g id := g.1.store.version? id
  registry g := g.1.coordinator.registry
  handled g now r := by
    refine ⟨now, ?_⟩
    simp only [Server.run_request]
    split <;> rename_i h <;> simp only [Coordinator.perform, Prod.mk.injEq] at h <;>
      obtain ⟨ha, -, rfl⟩ := h <;> rw [← ha]
  version _ _ := rfl

/-! ## Whole operations -/

/-- What reaches a channel: a message, or a frame that may hold one. -/
inductive Inbound where
  | message (m : ClientMessage)
  | frame (bytes : List UInt8)

def Inbound.message? : Inbound → Option ClientMessage
  | message m => some m
  | frame bytes => ClientMessage.parse? bytes

section

variable {ρ : Type} (b : Backend ρ) (now : Time) (x : Inbound) (c : Channel) (d : Desk) (g : ρ)

/-- The whole operation that deals with it. -/
def operate : Result × Channel × Desk × ρ :=
  match x with
  | .message m => c.run b now m d g
  | .frame bytes => c.runFrame b now bytes d g

/-- The registry with the requests it was asked so far, in order. -/
def Backend.listing : Backend (ρ × List Asked) where
  handle g now r :=
    let (a, g') := b.handle g.1 now r
    (a, g', g.2 ++ [(r, a)])
  stored g id := b.stored g.1 id

/-- The writes that the registry takes in an operation. -/
def accepted : List Accepted :=
  (c.operate b.listing now x d (g, [])).2.2.2.2.filterMap accepted?

variable {x}

theorem operate_of_message {m : ClientMessage} (h : x.message? = some m) :
    c.operate b now x d g = c.run b now m d g := by
  cases x with
  | message m' =>
    cases h
    rfl
  | frame bytes =>
    have hparse : ClientMessage.parse? bytes = some m := h
    simp only [operate, runFrame, hparse]

theorem operate_of_unreadable (h : x.message? = none) :
    c.operate b now x d g = (.error .unexpectedFrame, c.answerError .unexpectedFrame, d, g) := by
  cases x with
  | message m' => cases h
  | frame bytes =>
    have hparse : ClientMessage.parse? bytes = none := h
    simp only [operate, runFrame, hparse, settle_failing]
    rfl

/-- What is written down changes nothing. -/
theorem operate_listing (x : Inbound) (log : List Asked) :
    c.operate b now x d g =
      ((c.operate b.listing now x d (g, log)).1, (c.operate b.listing now x d (g, log)).2.1,
        (c.operate b.listing now x d (g, log)).2.2.1,
        (c.operate b.listing now x d (g, log)).2.2.2.1) := by
  cases hm : x.message? with
  | none => simp only [operate_of_unreadable _ _ _ _ _ hm]
  | some m =>
    simp only [operate_of_message _ _ _ _ _ hm]
    exact run_map (b := b.listing) (f := Prod.fst) (fun _ _ _ => rfl) (fun _ => rfl) now m c d
      (g, log)

end

/-! ## The registry in an operation -/

theorem Call.isOfChannel_request (call : Call) : call.request.isOfChannel = true := by
  cases call <;> rfl

/-- A whole operation preserves what each call of a channel preserves. -/
theorem operate_preserves {ρ : Type} {b : Backend ρ} {P : ρ → Prop} {now : Time}
    (hP : ∀ g (call : Call), P g → P (b.handle g now call.request).2) (x : Inbound) (c : Channel)
    (d : Desk) {g : ρ} (hg : P g) : P (c.operate b now x d g).2.2.2 := by
  have hask : ∀ p c d g, P g → P (askOnce b now (p, c, d, g)).2.2.2 := by
    intro p c d g hg
    cases p with
    | calling call => exact hP g call hg
    | taken call => exact hg
    | noted record => exact hg
    | replying reply result => exact hg
    | finished result => exact hg
  cases hm : x.message? with
  | none =>
    rw [operate_of_unreadable b now c d g hm]
    exact hg
  | some m =>
    rw [operate_of_message b now c d g hm]
    exact hask _ _ _ _ (hask _ _ _ _ hg)

section

variable {ρ : Type} (h : Host ρ) (now : Time) (c : Channel) (d : Desk) (g : ρ)

theorem serves_askOnce (p : Phase) (log : List Asked) :
    let after := askOnce h.listing now (p, c, d, g, log)
    ∃ asks, after.2.2.2.2 = log ++ asks ∧
      (h.registry g).Serves asks (h.registry after.2.2.2.1) := by
  cases p with
  | calling call =>
    obtain ⟨time, htime⟩ := h.handled g now call.request
    exact ⟨[_], rfl, .cons call.isOfChannel_request htime .nil⟩
  | taken call => exact ⟨[], (List.append_nil log).symm, .nil⟩
  | noted record => exact ⟨[], (List.append_nil log).symm, .nil⟩
  | replying reply result => exact ⟨[], (List.append_nil log).symm, .nil⟩
  | finished result => exact ⟨[], (List.append_nil log).symm, .nil⟩

theorem serves_operate (x : Inbound) :
    let after := c.operate h.listing now x d (g, [])
    (h.registry g).Serves after.2.2.2.2 (h.registry after.2.2.2.1) := by
  cases hm : x.message? with
  | none =>
    simp only [operate_of_unreadable _ _ _ _ _ hm]
    exact .nil
  | some m =>
    simp only [operate_of_message _ _ _ _ _ hm, run]
    obtain ⟨p, c, d, hbegin⟩ : ∃ p c' d', settle now (c.begin m (h.listing.stored (g, [])) d).1
        (c.begin m (h.listing.stored (g, [])) d).2.1 (c.begin m (h.listing.stored (g, [])) d).2.2 =
          (p, c', d') := ⟨_, _, _, rfl⟩
    simp only [hbegin]
    obtain ⟨asks, hlog, hserves⟩ := serves_askOnce h now c d g p []
    generalize askOnce h.listing now (p, c, d, g, []) = after at hlog hserves ⊢
    obtain ⟨p, c, d, g', log⟩ := after
    obtain ⟨asks', hlog', hserves'⟩ := serves_askOnce h now c d g' p log
    obtain rfl : log = asks := hlog
    rw [hlog']
    exact hserves.trans hserves'

end

end Channel

end LeaseRegistry
