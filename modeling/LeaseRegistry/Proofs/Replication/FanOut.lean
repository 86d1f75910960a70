import LeaseRegistry.Proofs.Replication.Slot
import LeaseRegistry.Server.Run
import LeaseRegistry.Server.Traffic

/-!
# What requests tell the peers

Requests and messages of peers come in while others still wait for peers. `Registry.serve` is the
registry without peers that deals with the same requests and messages. `fanOut_exact` says that the
server does the same, whatever its peers answer, and which calls it makes for which request.
-/

namespace LeaseRegistry

/-! ## The registry alone -/

namespace Registry

/-- What a registry is to deal with. -/
inductive Input where
  | request (now : Time) (r : Request)
  | message (now : Time) (origin : ServerId) (m : PeerMessage)

/-- A request that was dealt with, and the stores before and after it. -/
structure Dealing where
  request : Request
  answer : Answer
  before : Store
  after : Store

/-- What a message of a peer makes of the registry: the write that it stands for. -/
def apply (g : Registry) (now : Time) (origin : ServerId) : PeerMessage → Registry
  | .register record => (g.register record (.replicated origin) now).2
  | .update id base version deltas => (g.applyDeltas id base version deltas origin now).2
  | .unregister id version => (g.unregister id version).2
  | .statusUpdate id status version =>
    (g.write (·.statusUpdate id status version (.replicated origin) now)).2
  | .heartbeat id => (g.renew id now).2
  | .fetchSnapshot => g

def deal (g : Registry) (now : Time) (r : Request) : Dealing × Registry :=
  (⟨r, (g.handle now r).1, g.store, (g.handle now r).2.store⟩, (g.handle now r).2)

def serve (g : Registry) : List Input → List Dealing × Registry
  | [] => ([], g)
  | .request now r :: inputs =>
    let (d, g) := g.deal now r
    let (ds, g) := g.serve inputs
    (d :: ds, g)
  | .message now origin m :: inputs => (g.apply now origin m).serve inputs

namespace Dealing

/-- The request took effect and was made on this server, not on a peer. -/
def ToldToPeers (d : Dealing) : Prop := d.answer.isApplied = true ∧ d.request.source = .here

/-- The message that describes a request which took effect. -/
inductive DescribedBy : Dealing → PeerMessage → Prop where
  | register {record : Record} {source : Source} {answer : Answer} {before after : Store} :
    DescribedBy ⟨.register record source, answer, before, after⟩ (.register record)
  | update {record previous : Record} {deltas : List Delta} {source : Source} {answer : Answer}
      {before after : Store} (replaced : before.record? record.id = some previous) :
    DescribedBy ⟨.update record deltas source, answer, before, after⟩
      (.update record.id previous.version record.version (record.diff previous))
  | unregister {id : InstanceId} {version : Version} {source : Source} {answer : Answer}
      {before after : Store} :
    DescribedBy ⟨.unregister id version source, answer, before, after⟩ (.unregister id version)
  | statusUpdate {id : InstanceId} {status : Status} {version : Version} {source : Source}
      {answer : Answer} {before after : Store} (stored : after.version? id = some version) :
    DescribedBy ⟨.statusUpdate id status source, answer, before, after⟩
      (.statusUpdate id status version)
  | renew {id : InstanceId} {source : Source} {answer : Answer} {before after : Store} :
    DescribedBy ⟨.renew id source, answer, before, after⟩ (.heartbeat id)

end Dealing

end Registry

open Registry

theorem Source.fansOut_eq (source : Source) : source.fansOut = decide (source = .here) := by
  cases source <;> rfl

/-- The requests that take effect are the ones that a message describes. -/
theorem announcing_describes {g : Registry} {now : Time} {r : Request}
    (h : (g.handle now r).1.isApplied = true) :
    ∃ m, PeerMessage.announcing g.store (g.handle now r).2.store r = some m ∧
      (g.deal now r).1.DescribedBy m := by
  unfold deal
  have heq := g.handle_eq_onSlot now r
  obtain ⟨hanswer, hstore⟩ := Prod.mk.inj heq
  rw [hanswer] at h ⊢
  rw [hstore]
  generalize hs : g.store.lease? r.id = slot at h ⊢
  have he := Slot.effect_handle now r slot
  generalize Slot.message? now r slot = message at he
  generalize Slot.handle now r slot = res at he h ⊢
  cases he with
  | refused hr => exact absurd h (by rw [hr]; exact Bool.false_ne_true)
  | added => exact ⟨_, rfl, .register⟩
  | registered => exact ⟨_, rfl, .register⟩
  | @updated record _ _ l =>
    have hprev : g.store.record? record.id = some l.record := by
      rw [Store.record?_eq, show g.store.lease? record.id = some l from hs]
      rfl
    exact ⟨_, by simp only [PeerMessage.announcing, hprev], .update hprev⟩
  | removed => exact ⟨_, rfl, .unregister⟩
  | @restated id status source l =>
    have hnew : (g.store.put id (some (l.replace ((l.record.withStatus status).atVersion
        (l.version + 1)) source now))).version? id = some (l.version + 1) := by
      rw [Store.version?_eq, Store.lease?_put_some]
      rfl
    exact ⟨_, by simp only [PeerMessage.announcing, Request.id, hnew]; rfl, .statusUpdate hnew⟩
  | renewed => exact ⟨_, rfl, .renew⟩

namespace Coordinator

variable (c : Coordinator) {now : Time} {r : Request}

theorem message_of_told (h : (c.registry.deal now r).1.ToldToPeers) :
    ∃ m, (c.perform now r).2.1 = some m ∧ (c.registry.deal now r).1.DescribedBy m := by
  obtain ⟨m, hm, hdescribed⟩ := announcing_describes h.1
  refine ⟨m, ?_, hdescribed⟩
  simp only [perform, Source.fansOut_eq]
  rw [if_pos (by rw [Bool.and_eq_true, decide_eq_true_iff]; exact h), hm]

theorem message_of_not_told (h : ¬(c.registry.deal now r).1.ToldToPeers) :
    (c.perform now r).2.1 = none := by
  simp only [perform, Source.fansOut_eq]
  rw [if_neg (by rw [Bool.and_eq_true, decide_eq_true_iff]; exact h)]

end Coordinator

/-! ## One talk -/

/-- The peer has no lease of the instance, or not the record that the message started from. -/
def CallResult.Lacks (result : CallResult) (id : InstanceId) : Prop :=
  result = .replied (.unknownInstance id) ∨ result = .replied (.stale id)

/-- The talk that `m` begins once these results were heard from the peer, each with the store that
the server had then. If the first says that the peer lacks an instance that is still stored, the
record of that instance follows, and ends with the second. Nothing else is ever said. -/
inductive Talk.Exact (m : PeerMessage) : List (CallResult × Store) → Talk → Prop where
  | calling : Exact m [] [⟨m, none⟩]
  | content {result : CallResult} {store : Store} {rest : List (CallResult × Store)}
      (h : ∀ id, result.Lacks id → store.record? id = none) :
    Exact m ((result, store) :: rest) [⟨m, some (result, store)⟩]
  | repaired {result : CallResult} {store : Store} {rest : List (CallResult × Store)}
      {id : InstanceId} {record : Record} (lacks : result.Lacks id)
      (stored : store.record? id = some record) :
    Exact m ((result, store) :: rest)
      [⟨m, some (result, store)⟩, ⟨.register record, rest.head?⟩]

theorem CallResult.missing?_eq_some_iff {result : CallResult} {id : InstanceId} :
    result.reply?.bind PeerReply.missing? = some id ↔ result.Lacks id := by
  cases result with
  | replied reply =>
    cases reply <;> simp [reply?, PeerReply.missing?, Lacks]
  | failed e => simp [reply?, Lacks]
  | timedOut => simp [reply?, Lacks]

namespace Talk.Exact

variable {m : PeerMessage} {heard : List (CallResult × Store)} {t : Talk}

/-- A result ends the call that is under way, and the registration that it calls for begins. -/
theorem hear (h : t.Exact m heard) (c : Coordinator) (result : CallResult) :
    (t.hear c result).Exact m (heard ++ [(result, c.registry.store)]) := by
  cases h with
  | calling =>
    have hrepair : result.reply?.bind c.repair? = (result.reply?.bind PeerReply.missing?).bind
        fun id => (c.store.record? id).map .register := by
      cases result.reply? <;> rfl
    simp only [Talk.hear, hrepair, List.nil_append]
    cases hid : result.reply?.bind PeerReply.missing? with
    | none =>
      refine .content fun id hlacks => ?_
      rw [CallResult.missing?_eq_some_iff.mpr hlacks] at hid
      cases hid
    | some id =>
      have hlacks : result.Lacks id := CallResult.missing?_eq_some_iff.mp hid
      cases hr : c.store.record? id with
      | none =>
        simp only [Option.bind_some, hr, Option.map_none, Option.toList_none, List.map_nil]
        refine .content fun id' hlacks' => ?_
        rw [CallResult.missing?_eq_some_iff.mpr hlacks'] at hid
        cases hid
        exact hr
      | some record =>
        simp only [Option.bind_some, hr, Option.map_some, Option.toList_some, List.map_cons,
          List.map_nil]
        exact .repaired hlacks hr
  | content hcontent => exact .content hcontent
  | @repaired _ _ rest _ _ hlacks hr =>
    cases rest with
    | nil => exact .repaired hlacks hr
    | cons second rest => exact .repaired hlacks hr

/-- A talk is over once all its calls have been answered, and it has at most two. -/
theorem isOver_iff (h : t.Exact m heard) :
    t.length ≤ 2 ∧ (t.isOver = true ↔ t.length ≤ heard.length) := by
  cases h with
  | calling => simp [Talk.isOver, Talk.pending?]
  | content => simp [Talk.isOver, Talk.pending?]
  | @repaired _ _ rest => cases rest <;> simp [Talk.isOver, Talk.pending?]

/-- What comes after the end of a talk is not heard. -/
theorem of_isOver (h : t.Exact m heard) (hover : t.isOver = true)
    (more : List (CallResult × Store)) : t.Exact m (heard ++ more) := by
  cases h with
  | calling => cases hover
  | content hcontent => exact .content hcontent
  | @repaired _ _ rest _ _ hlacks hr =>
    cases rest with
    | nil => cases hover
    | cons second rest => exact .repaired hlacks hr

end Talk.Exact

/-- The peer is told `m`, and nothing else but what it lacks. -/
def Talk.Tells (m : PeerMessage) (t : Talk) : Prop := ∃ heard, t.Exact m heard

theorem Talk.Tells.hear {m : PeerMessage} {t : Talk} (h : t.Tells m) (c : Coordinator)
    (result : CallResult) : (t.hear c result).Tells m := by
  obtain ⟨heard, h⟩ := h
  exact ⟨_, h.hear c result⟩

theorem Talk.tells_opening (m : PeerMessage) : (Talk.opening m).Tells m := ⟨[], .calling⟩

/-! ## One errand -/

namespace Errand

/-- How far the errand of a request can have come when these results were heard from each peer. Its
answer is settled when it begins; all that it may wait for is that its peers have been told. -/
inductive Follows (peers : Nat) (d : Dealing) (heard : Nat → List (CallResult × Store)) :
    Errand Request Answer → Prop where
  | quiet (h : ¬d.ToldToPeers) : Follows peers d heard ⟨d.request, [], .done d.answer⟩
  | telling {m : PeerMessage} {talks : List Talk} {rest : Activity Answer} (h : d.ToldToPeers)
      (describes : d.DescribedBy m) (each : talks.length = peers)
      (exact : ∀ (k : Nat) (talk : Talk), talks[k]? = some talk → talk.Exact m (heard k))
      (ends : rest = .announce m (.done d.answer) ∨
        rest = .done d.answer ∧ talks.all Talk.isOver = true) :
    Follows peers d heard ⟨d.request, [talks], rest⟩

theorem advance_request (r : Request) (now : Time) (s : Server) :
    (Server.request r).advance now s =
      (.announceAny (s.coordinator.perform now r).2.1 (.done (s.coordinator.perform now r).1),
        { s with coordinator := (s.coordinator.perform now r).2.2 }) := by
  simp only [Server.request, Activity.advance]
  cases (s.coordinator.perform now r).2.1 <;> rfl

theorem server_begin (r : Request) (now : Time) (s : Server) :
    (begin r (Server.request r) now s).2 =
      { s with coordinator := (s.coordinator.perform now r).2.2 } := by
  simp only [begin, goOn, advance_request]

theorem follows_begin (r : Request) (now : Time) (s : Server) :
    Follows s.coordinator.peers (s.coordinator.registry.deal now r).1 (fun _ => [])
      (begin r (Server.request r) now s).1 := by
  simp only [begin, goOn, advance_request]
  by_cases htold : (s.coordinator.registry.deal now r).1.ToldToPeers
  · obtain ⟨m, hm, hdescribed⟩ := s.coordinator.message_of_told htold
    rw [hm]
    refine .telling htold hdescribed List.length_replicate (fun k talk htalk => ?_) (.inl rfl)
    rw [List.eq_of_mem_replicate (List.mem_of_getElem? htalk)]
    exact .calling
  · rw [s.coordinator.message_of_not_told htold]
    exact .quiet htold

variable {peers : Nat} {d : Dealing} {heard : Nat → List (CallResult × Store)}
  {e : Errand Request Answer}

theorem Follows.hear (h : Follows peers d heard e) (peer : Nat) (result : CallResult) (now : Time)
    (s : Server) :
    Follows peers d
      (fun k => heard k ++ if peer = k then [(result, s.coordinator.registry.store)] else [])
      (e.hear peer result now s).1 ∧ (e.hear peer result now s).2 = s := by
  cases h with
  | quiet h => exact ⟨.quiet h, rfl⟩
  | @telling m talks rest h hm hlen hex hends =>
    rcases hends with rfl | ⟨rfl, hover⟩
    · refine ⟨.telling h hm ?_ (fun k talk htalk => ?_) (.inl rfl), rfl⟩
      · rw [List.length_modify, hlen]
      · rw [List.getElem?_modify] at htalk
        obtain ⟨talk', htalk', rfl⟩ := Option.map_eq_some_iff.mp htalk
        by_cases hpeer : peer = k
        · simp only [if_pos hpeer]
          exact (hex k talk' htalk').hear s.coordinator result
        · simp only [if_neg hpeer, List.append_nil]
          exact hex k talk' htalk'
    · refine ⟨.telling h hm hlen (fun k talk htalk => ?_) (.inr ⟨rfl, hover⟩), rfl⟩
      have htalkOver := List.all_eq_true.mp hover talk (List.mem_of_getElem? htalk)
      exact (hex k talk htalk).of_isOver htalkOver _

theorem Follows.resume (h : Follows peers d heard e) (now : Time) (s : Server) :
    Follows peers d heard (e.resume now s).1 ∧ (e.resume now s).2 = s := by
  cases h with
  | quiet h => exact ⟨.quiet h, rfl⟩
  | @telling m talks rest h hm hlen hex hends =>
    rcases hends with rfl | ⟨rfl, hover⟩
    · simp only [Errand.resume]
      split
      · exact ⟨.telling h hm hlen hex (.inr ⟨rfl, ‹_›⟩), rfl⟩
      · exact ⟨.telling h hm hlen hex (.inl rfl), rfl⟩
    · exact ⟨.telling h hm hlen hex (.inr ⟨rfl, hover⟩), rfl⟩

/-- The errand is over once it goes on after all its talks are. -/
theorem Follows.resumes (h : Follows peers d heard e)
    (hover : ∀ talk ∈ e.talks, talk.isOver = true) (now : Time) (s : Server) :
    (e.resume now s).1.result? = some d.answer := by
  cases h with
  | quiet h => rfl
  | @telling m talks rest h hm hlen hex hends =>
    rcases hends with rfl | ⟨rfl, -⟩
    · have hall : talks.all Talk.isOver = true := List.all_eq_true.mpr hover
      simp only [Errand.resume, Errand.talks, List.head?_cons, Option.getD_some, hall]
      rfl
    · rfl

/-- No peer has more to answer than twice. -/
theorem Follows.isOver_of_twice (h : Follows peers d heard e)
    (htwice : ∀ peer < peers, 2 ≤ (heard peer).length) :
    ∀ talk ∈ e.talks, talk.isOver = true := by
  intro talk htalk
  cases h with
  | quiet h => cases htalk
  | @telling m talks rest h hm hlen hex hends =>
    obtain ⟨peer, hpeer⟩ := List.mem_iff_getElem?.mp htalk
    have hin : peer < peers := hlen ▸ (List.getElem?_eq_some_iff.mp hpeer).1
    obtain ⟨hshort, hiff⟩ := (hex peer talk hpeer).isOver_iff
    exact hiff.mpr (Nat.le_trans hshort (htwice peer hin))

theorem Follows.eq_answer (h : Follows peers d heard e) {answer : Answer}
    (ha : e.result? = some answer) : answer = d.answer := by
  cases h with
  | quiet h => exact (Option.some.inj ha).symm
  | @telling m talks rest h hm hlen hex hends =>
    rcases hends with rfl | ⟨rfl, -⟩
    · cases ha
    · exact (Option.some.inj ha).symm

end Errand

/-! ## All errands -/

namespace Traffic

/-- What a move gives the registry to deal with. What comes of calls is not among it. -/
def Move.input? : Move Request → Option Input
  | .begin now r => some (.request now r)
  | .receive now origin m => some (.message now origin m)
  | .hear .. | .resume .. => none

/-- The results of the calls to a peer that come in for request number `n`, each with the store of
the registry then. `begun` requests were begun before; what comes in for later ones is nothing. -/
def heard (n peer : Nat) (g : Registry) (begun : Nat) :
    List (Move Request) → List (CallResult × Store)
  | [] => []
  | .begin now r :: moves => heard n peer (g.deal now r).2 (begun + 1) moves
  | .receive now origin m :: moves => heard n peer (g.apply now origin m) begun moves
  | .hear n' peer' result _ :: moves =>
    if n' = n ∧ n < begun ∧ peer' = peer then (result, g.store) :: heard n peer g begun moves
    else heard n peer g begun moves
  | .resume .. :: moves => heard n peer g begun moves

theorem heard_hear (n peer : Nat) (result : CallResult) (now : Time) (n' k : Nat) (g : Registry)
    (begun : Nat) (moves : List (Move Request)) :
    heard n' k g begun (.hear n peer result now :: moves) =
      (if n = n' ∧ n' < begun then if peer = k then [(result, g.store)] else [] else []) ++
        heard n' k g begun moves := by
  rw [heard]
  by_cases hmine : n = n' ∧ n' < begun
  · by_cases hpeer : peer = k
    · simp only [hmine, hpeer, and_self, ↓reduceIte, List.singleton_append]
    · simp only [hmine, hpeer, and_self, and_false, ↓reduceIte, List.nil_append]
  · rw [if_neg hmine, if_neg fun h => hmine ⟨h.1, h.2.1⟩, List.nil_append]

/-- The server holds the registry `g`, and its errands are those of the requests dealt with, to each
of which its peers have answered this. -/
structure Serves (peers : Nat) (ds : List Dealing) (g : Registry)
    (told : Nat → Nat → List (CallResult × Store)) (t : Traffic Request Answer) : Prop where
  registry : t.server.coordinator.registry = g
  many : t.server.coordinator.peers = peers
  length : t.errands.length = ds.length
  fresh : ∀ n peer, ds.length ≤ n → told n peer = []
  follows : ∀ (n : Nat) (e : Errand Request Answer) (d : Dealing),
    t.errands[n]? = some e → ds[n]? = some d → Errand.Follows peers d (told n) e

variable {peers : Nat} {ds : List Dealing} {g : Registry}
  {told : Nat → Nat → List (CallResult × Store)} {t : Traffic Request Answer}

theorem serves_start (s : Server) :
    Serves s.coordinator.peers [] s.coordinator.registry (fun _ _ => []) (start s) :=
  ⟨rfl, rfl, rfl, fun _ _ _ => rfl, fun _ _ _ he => by cases he⟩

theorem Serves.begin (h : Serves peers ds g told t) (now : Time) (r : Request) :
    Serves peers (ds ++ [(g.deal now r).1]) (g.deal now r).2 told
      (t.step Server.request (.begin now r)) := by
  obtain ⟨rfl, rfl, hlen, hfresh, hfollows⟩ := h
  have hnew := Errand.follows_begin r now t.server
  have hserver := Errand.server_begin r now t.server
  refine ⟨?_, ?_, ?_, fun n peer hn => ?_, fun n e d he hd => ?_⟩
  · simp only [step, hserver]
    rfl
  · simp only [step, hserver]
    rfl
  · simp only [step, List.length_append, hlen, List.length_singleton]
  · rw [List.length_append] at hn
    exact hfresh n peer (Nat.le_of_add_right_le hn)
  · simp only [step] at he
    rw [List.getElem?_append] at he hd
    rw [hlen] at he
    split at he
    · rw [if_pos ‹_›] at hd
      exact hfollows n e d he hd
    · rw [if_neg ‹_›] at hd
      have hnone : told n = fun _ => [] := funext fun peer => hfresh n peer (Nat.not_lt.mp ‹_›)
      rw [List.getElem?_singleton] at he hd
      split at he
      · rw [if_pos ‹_›] at hd
        cases he
        cases hd
        exact hnone ▸ hnew
      · cases he

theorem Serves.receive (h : Serves peers ds g told t) (now : Time) (origin : ServerId)
    (m : PeerMessage) :
    Serves peers ds (g.apply now origin m) told (t.step Server.request (.receive now origin m)) := by
  obtain ⟨rfl, hp, hlen, hfresh, hfollows⟩ := h
  refine ⟨?_, ?_, hlen, hfresh, hfollows⟩ <;> cases m <;> first | rfl | exact hp

/-- An errand goes on in a way that leaves the server alone, and hears this of its peers. -/
theorem Serves.onErrand (h : Serves peers ds g told t) (n : Nat)
    {f : Errand Request Answer → Server → Errand Request Answer × Server}
    (gain : Nat → List (CallResult × Store))
    (hf : ∀ d heard e s, s.coordinator.registry = g → Errand.Follows peers d heard e →
      Errand.Follows peers d (fun k => heard k ++ gain k) (f e s).1 ∧ (f e s).2 = s) :
    Serves peers ds g (fun n' k => told n' k ++ if n = n' ∧ n' < ds.length then gain k else [])
      (t.onErrand n f) := by
  obtain ⟨hg, hp, hlen, hfresh, hfollows⟩ := h
  have hfresh' : ∀ n' k, ds.length ≤ n' →
      (told n' k ++ if n = n' ∧ n' < ds.length then gain k else []) = [] := fun n' k hn' => by
    rw [hfresh n' k hn', if_neg fun h => Nat.not_lt.mpr hn' h.2, List.append_nil]
  unfold Traffic.onErrand
  cases hn : t.errands[n]? with
  | none =>
    refine ⟨hg, hp, hlen, hfresh', fun n' e d he hd => ?_⟩
    have hother : ¬(n = n' ∧ n' < ds.length) := by
      rintro ⟨rfl, -⟩
      rw [hn] at he
      cases he
    simp only [if_neg hother, List.append_nil]
    exact hfollows n' e d he hd
  | some e =>
    have hin : n < ds.length := hlen ▸ (List.getElem?_eq_some_iff.mp hn).1
    have hd := List.getElem?_eq_getElem hin
    obtain ⟨hnext, hserver⟩ := hf ds[n] (told n) e t.server hg (hfollows n e _ hn hd)
    refine ⟨?_, ?_, ?_, hfresh', fun k e' d' he hd' => ?_⟩
    · simp only [hserver, hg]
    · simp only [hserver, hp]
    · simp only [List.length_set, hlen]
    · simp only at he
      rw [List.getElem?_set] at he
      split at he
      · subst n
        rw [hd] at hd'
        rw [if_pos (hlen ▸ hin)] at he
        cases he
        cases hd'
        simp only [true_and, if_pos hin]
        exact hnext
      · simp only [‹¬n = k›, false_and, ↓reduceIte, List.append_nil]
        exact hfollows k e' d' he hd'

theorem Serves.run (h : Serves peers ds g told t) (moves : List (Move Request)) :
    Serves peers (ds ++ (g.serve (moves.filterMap Move.input?)).1)
      (g.serve (moves.filterMap Move.input?)).2
      (fun n peer => told n peer ++ heard n peer g ds.length moves)
      (t.run Server.request moves) := by
  induction moves generalizing ds g told t with
  | nil =>
    simpa only [run, List.foldl_nil, List.filterMap_nil, serve, heard, List.append_nil] using h
  | cons move moves ih =>
    cases move with
    | begin now r =>
      have hrest := ih (h.begin now r)
      rw [List.append_assoc, List.length_append] at hrest
      exact hrest
    | receive now origin m => exact ih (h.receive now origin m)
    | hear n peer result now =>
      have hrest := ih (h.onErrand n (f := fun e s => e.hear peer result now s)
        (fun k => if peer = k then [(result, g.store)] else [])
        fun d heard e s hg he => hg ▸ he.hear peer result now s)
      simp only [List.append_assoc, ← heard_hear n peer result now] at hrest
      exact hrest
    | resume n now =>
      have hrest := ih (h.onErrand n (f := fun e s => e.resume now s) (fun _ => [])
        fun d heard e s _ he => by simpa only [List.append_nil] using he.resume now s)
      simp only [ite_self, List.append_nil] at hrest
      exact hrest

end Traffic

/-- Requests of all kinds and messages of peers come in at any times, also while earlier requests
wait for their peers, which answer or fail in any order. The registry then is the one that has dealt
with the same requests and messages and has no peers, and each request has the answer that it gave,
or has it as soon as its peers are done, which is at the latest when each was heard twice. A request
that was refused, changed nothing or came from a peer has told the peers nothing. Any other has told
each peer what it did, in one message, and if that peer answered that it lacks an instance which was
still stored then, nothing but its record has followed; the peer is done once it has answered that
much. -/
theorem Traffic.fanOut_exact (s : Server) (moves : List (Traffic.Move Request)) :
    let inputs := moves.filterMap Traffic.Move.input?
    let dealings := (s.coordinator.registry.serve inputs).1
    let heard := fun n peer => Traffic.heard n peer s.coordinator.registry 0 moves
    let t := (Traffic.start s).run Server.request moves
    t.server.coordinator.registry = (s.coordinator.registry.serve inputs).2 ∧
    t.errands.length = dealings.length ∧
    ∀ (n : Nat) (e : Errand Request Answer) (d : Dealing),
      t.errands[n]? = some e → dealings[n]? = some d →
      e.task = d.request ∧
      (∀ answer, e.result? = some answer → answer = d.answer) ∧
      ((∀ talk ∈ e.talks, talk.isOver = true) →
        ∀ now s, (e.resume now s).1.result? = some d.answer) ∧
      ((∀ peer < s.coordinator.peers, 2 ≤ (heard n peer).length) →
        ∀ now s, (e.resume now s).1.result? = some d.answer) ∧
      (¬d.ToldToPeers → e.announcements = [] ∧ e.result? = some d.answer) ∧
      (d.ToldToPeers → ∃ m talks, d.DescribedBy m ∧ e.announcements = [talks] ∧
        talks.length = s.coordinator.peers ∧
        (∀ (peer : Nat) (talk : Talk), talks[peer]? = some talk → talk.Exact m (heard n peer) ∧
          (talk.isOver = true ↔ talk.length ≤ (heard n peer).length)) ∧
        (e.result?.isSome → ∀ talk ∈ talks, talk.isOver = true)) := by
  intro inputs dealings heard t
  have h : Traffic.Serves s.coordinator.peers dealings
      (s.coordinator.registry.serve inputs).2 heard t := by
    have hrun := (Traffic.serves_start s).run moves
    simp only [List.nil_append] at hrun
    exact hrun
  refine ⟨h.registry, h.length, fun n e d he hd => ?_⟩
  have hfollows := h.follows n e d he hd
  have htask : e.task = d.request := by
    cases hfollows <;> rfl
  refine ⟨htask, fun _ => hfollows.eq_answer, hfollows.resumes,
    fun htwice => hfollows.resumes (hfollows.isOver_of_twice htwice), ?_⟩
  cases hfollows with
  | quiet hquiet => exact ⟨fun _ => ⟨rfl, rfl⟩, fun htold => absurd htold hquiet⟩
  | @telling m talks rest htold hm heach hexact hends =>
    refine ⟨fun hquiet => absurd htold hquiet, fun _ => ⟨m, talks, hm, rfl, heach,
      fun peer talk htalk => ⟨hexact peer talk htalk, (hexact peer talk htalk).isOver_iff.2⟩,
      fun hdone => ?_⟩⟩
    rcases hends with rfl | ⟨rfl, hover⟩
    · cases hdone
    · exact List.all_eq_true.mp hover

/-! ## A request without interruption -/

/-- A call to a peer that is over. -/
structure Called where
  peer : Nat
  message : PeerMessage
  result : CallResult

/-- The same peers, with a list of the calls to them and of what came of each. -/
def Peers.listing {ε : Type} (p : Peers ε) : Peers (ε × List Called) where
  call env now peer m :=
    let (result, now, after) := p.call env.1 now peer m
    (result, now, after, env.2 ++ [⟨peer, m, result⟩])

namespace Talk

/-- The calls of a talk with a peer that are over. -/
def calls (t : Talk) (peer : Nat) : List Called :=
  t.filterMap fun e => e.outcome.map fun outcome => ⟨peer, e.message, outcome.1⟩

/-- A whole talk with a peer: what it said follows from what came of its own calls. -/
def Whole (m : PeerMessage) (store : Store) (t : Talk) : Prop :=
  t.isOver = true ∧ (∀ e ∈ t, ∀ outcome ∈ e.outcome, outcome.2 = store) ∧
    t.Exact m (t.filterMap (·.outcome))

end Talk

namespace Peers

variable {ε : Type} (p : Peers ε) (c : Coordinator) (m : PeerMessage)

theorem deliver_listing (env : ε) (calls : List Called) (now : Time)
    (peer : Nat) :
    ∃ talk : Talk, talk.Whole m c.registry.store ∧
      (p.listing.deliver c m (env, calls) now peer).2.2 = calls ++ talk.calls peer := by
  generalize hfirst : p.call env now peer m = first
  obtain ⟨result, now', env'⟩ := first
  have hexact := (Talk.Exact.calling (m := m)).hear c result
  simp only [deliver, listing, hfirst]
  simp only [Talk.hear, List.nil_append] at hexact
  cases hr : result.reply?.bind c.repair? with
  | none =>
    rw [hr] at hexact
    refine ⟨[⟨m, some (result, c.registry.store)⟩], ⟨rfl, ?_, hexact⟩, rfl⟩
    rintro _ (_ | ⟨_, ⟨⟩⟩) _ ⟨⟩
    rfl
  | some repair =>
    rw [hr] at hexact
    let second := (p.call env' now' peer repair).1
    refine ⟨[⟨m, some (result, c.registry.store)⟩, ⟨repair, some (second, c.registry.store)⟩],
      ⟨rfl, ?_, hexact.hear c second⟩, List.append_assoc ..⟩
    simp

theorem deliverAll_listing (env : ε) (calls : List Called) (now : Time)
    (peers : List Nat) :
    ∃ talks : List Talk, talks.length = peers.length ∧
      (∀ talk ∈ talks, talk.Whole m c.registry.store) ∧
      (p.listing.deliverAll c m (env, calls) now peers).2.2 =
        calls ++ (peers.zip talks).flatMap fun (peer, talk) => talk.calls peer := by
  induction peers generalizing env calls with
  | nil => exact ⟨[], rfl, fun _ h => (List.not_mem_nil h).elim, (List.append_nil _).symm⟩
  | cons peer peers ih =>
    obtain ⟨talk, hwhole, hcalls⟩ := p.deliver_listing c m env calls now peer
    generalize hd : p.listing.deliver c m (env, calls) now peer = first at hcalls
    obtain ⟨ends, env', calls'⟩ := first
    obtain ⟨talks, hlen, hall, hrest⟩ := ih env' calls'
    refine ⟨talk :: talks, congrArg (· + 1) hlen, List.forall_mem_cons.mpr ⟨hwhole, hall⟩, ?_⟩
    simp only [deliverAll, hd, hrest, List.zip_cons_cons, List.flatMap_cons, ← List.append_assoc]
    rw [← hcalls]

end Peers

/-- If nothing comes in before its peers are done, a request makes the same calls: in this order,
one talk after the other, each led to its end by what its peer answers. -/
theorem Server.calls_request {ε : Type} (p : Peers ε) (s : Server) (now : Time) (r : Request)
    (env : ε) :
    let (answer, _, after, _, calls) := (Server.request r).run p.listing now s (env, [])
    let (d, g) := s.coordinator.registry.deal now r
    answer = d.answer ∧ after.coordinator.registry = g ∧ (¬d.ToldToPeers → calls = []) ∧
      (d.ToldToPeers → ∃ (m : PeerMessage) (talks : List Talk), d.DescribedBy m ∧
        talks.length = s.coordinator.peers ∧ (∀ talk ∈ talks, talk.Whole m g.store) ∧
        calls = ((List.range s.coordinator.peers).zip talks).flatMap fun (peer, talk) =>
          talk.calls peer) := by
  simp only [Server.request, Activity.run]
  by_cases htold : (s.coordinator.registry.deal now r).1.ToldToPeers
  · obtain ⟨m, hm, hdescribed⟩ := s.coordinator.message_of_told htold
    obtain ⟨talks, hlen, hwhole, hcalls⟩ := p.deliverAll_listing
      (s.coordinator.perform now r).2.2 m env [] now (List.range s.coordinator.peers)
    simp only [hm, Activity.announceAny, Activity.run]
    exact ⟨rfl, rfl, fun h => absurd htold h, fun _ => ⟨m, talks, hdescribed,
      hlen.trans List.length_range, hwhole, hcalls⟩⟩
  · rw [s.coordinator.message_of_not_told htold]
    exact ⟨rfl, rfl, fun _ => rfl, fun h => absurd h htold⟩

end LeaseRegistry
