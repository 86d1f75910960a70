import LeaseRegistry.Proofs.Channel.Failure
import LeaseRegistry.Proofs.Channel.Unregister
import LeaseRegistry.Proofs.Replication.Delivery
import LeaseRegistry.Proofs.Replication.FanOut

/-!
# One channel, one instance

A client may name any instance in any message. What its channel changes in the store, tells the
peers or queues for eviction is `Confined` to one instance all the same, that of the one
registration that is ever accepted (`Service.confined_to_registered`). The reason is that a channel
which is `Bound` to an instance asks the registry about no other (`tied_run`).
-/

namespace LeaseRegistry

open Channel

/-- A server and its peers, with a list of the calls to them. -/
abbrev Overheard (ε : Type) := Server × ε × List Called

/-- From the server `g` and the queue `q` on, nothing was changed in the store, told to peers or
queued but about `ids`. -/
structure Confined {ε : Type} (ids : List InstanceId) (g : Overheard ε) (q : EvictionQueue)
    (g' : Overheard ε) (q' : EvictionQueue) : Prop where
  leases : ∀ id, id ∉ ids → g'.1.store.lease? id = g.1.store.lease? id
  calls : ∃ new, g'.2.2 = g.2.2 ++ new ∧ ∀ call ∈ new, ∃ id ∈ ids, call.message.instanceId? = some id
  entries : ∃ new, q' = { q with entries := q.entries ++ new } ∧ ∀ e ∈ new, e.record.id ∈ ids

namespace Confined

variable {ε : Type} {ids ids' : List InstanceId} {g g' g'' : Overheard ε}
  {q q' q'' : EvictionQueue}

theorem refl (ids : List InstanceId) (g : Overheard ε) (q : EvictionQueue) :
    Confined ids g q g q :=
  ⟨fun _ _ => rfl, ⟨[], by simp⟩, [], by simp⟩

theorem trans (h : Confined ids g q g' q') (h' : Confined ids g' q' g'' q'') :
    Confined ids g q g'' q'' := by
  obtain ⟨calls, hcalls, habout⟩ := h.calls
  obtain ⟨calls', hcalls', habout'⟩ := h'.calls
  obtain ⟨entries, rfl, hentries⟩ := h.entries
  obtain ⟨entries', rfl, hentries'⟩ := h'.entries
  refine ⟨fun id hid => (h'.leases id hid).trans (h.leases id hid), ?_, ?_⟩
  · refine ⟨calls ++ calls', by rw [hcalls', hcalls, List.append_assoc], ?_⟩
    exact List.forall_mem_append.mpr ⟨habout, habout'⟩
  · refine ⟨entries ++ entries', by simp, ?_⟩
    exact List.forall_mem_append.mpr ⟨hentries, hentries'⟩

theorem mono (h : Confined ids g q g' q') (hids : ids ⊆ ids') : Confined ids' g q g' q' := by
  obtain ⟨calls, hcalls, habout⟩ := h.calls
  obtain ⟨entries, rfl, hentries⟩ := h.entries
  refine ⟨fun id hid => h.leases id fun hmem => hid (hids hmem), ⟨calls, hcalls, ?_⟩,
    entries, rfl, fun e he => hids (hentries e he)⟩
  intro call hcall
  obtain ⟨id, hid, habout⟩ := habout call hcall
  exact ⟨id, hids hid, habout⟩

theorem queued {r : Record} (hr : r.id ∈ ids) (g : Overheard ε) (q : EvictionQueue)
    (source : Source) (now : Time) : Confined ids g q g (q.add r source now) :=
  ⟨fun _ _ => rfl, ⟨[], by simp⟩, [⟨r, source, now.after q.delay⟩], rfl, by simpa using hr⟩

end Confined

/-! ## What peers are told -/

namespace Peers

variable {ε : Type} {p : Peers ε}

/-- A peer that lacks an instance says so only of the instance that it was told about. -/
def Honest (p : Peers ε) : Prop :=
  ∀ env now peer m id, (p.call env now peer m).1.Lacks id → m.instanceId? = some id

section

variable (hp : p.Honest) {c : Coordinator} (hc : c.store.WellFormed) {m : PeerMessage}
  {id : InstanceId} (hm : m.instanceId? = some id)
include hp hc hm

/-- What follows a message is the record of the same instance. -/
theorem calls_deliver (env : ε) (calls : List Called) (now : Time) (peer : Nat) :
    ∃ new, (p.listing.deliver c m (env, calls) now peer).2.2 = calls ++ new ∧
      ∀ call ∈ new, call.message.instanceId? = some id := by
  simp only [deliver, listing]
  cases hr : (p.call env now peer m).1.reply?.bind c.repair? with
  | none => exact ⟨[⟨peer, m, _⟩], rfl, by simpa using hm⟩
  | some repair =>
    obtain ⟨reply, hreply, hrepair⟩ := Option.bind_eq_some_iff.mp hr
    obtain ⟨lacking, hlacking, hstored⟩ := Option.bind_eq_some_iff.mp hrepair
    obtain ⟨record, hrecord, rfl⟩ := Option.map_eq_some_iff.mp hstored
    have hlacks : (p.call env now peer m).1.Lacks lacking :=
      CallResult.missing?_eq_some_iff.mp (Option.bind_eq_some_iff.mpr ⟨reply, hreply, hlacking⟩)
    obtain rfl : id = lacking := Option.some.inj (hm.symm.trans (hp _ _ _ _ _ hlacks))
    have hid : record.id = id := hc.id_of_record? hrecord
    have hrepair : (PeerMessage.register record).instanceId? = some id := congrArg some hid
    exact ⟨[⟨peer, m, _⟩, ⟨peer, .register record, _⟩], List.append_assoc .., by simp [hm, hrepair]⟩

theorem calls_deliverAll (env : ε) (calls : List Called) (now : Time)
    (peers : List Nat) :
    ∃ new, (p.listing.deliverAll c m (env, calls) now peers).2.2 = calls ++ new ∧
      ∀ call ∈ new, call.message.instanceId? = some id := by
  induction peers generalizing env calls with
  | nil => exact ⟨[], (List.append_nil calls).symm, by simp⟩
  | cons peer peers ih =>
    obtain ⟨first, hfirst, habout⟩ := calls_deliver hp hc hm env calls now peer
    generalize hd : p.listing.deliver c m (env, calls) now peer = after at hfirst
    obtain ⟨ends, env', calls'⟩ := after
    obtain ⟨rest, hrest, habout'⟩ := ih env' calls'
    refine ⟨first ++ rest, ?_, List.forall_mem_append.mpr ⟨habout, habout'⟩⟩
    obtain rfl : calls' = calls ++ first := hfirst
    simp only [deliverAll, hd, hrest, List.append_assoc]

end

end Peers

namespace Channel

section

variable {ε : Type} {p : Peers ε} {g : Overheard ε} {now : Time} {r : Request}

theorem Host.wellFormed_handle {ρ : Type} {h : Host ρ} {g g' : ρ} (hg : (h.store g).WellFormed)
    {a : Answer} (asked : h.handle g now r = (a, g')) : (h.store g').WellFormed := by
  obtain ⟨time, htime⟩ := h.handle_eq asked
  exact Registry.wellFormed_handle hg time r htime

/-- A request is about one instance, and so is all that peers are told because of it. -/
theorem confined_handle (hp : p.Honest) (hg : g.1.store.WellFormed) {a : Answer} {g' : Overheard ε}
    (asked : (Host.telling p.listing).handle g now r = (a, g')) (q : EvictionQueue) :
    Confined [r.id] g q g' q := by
  obtain ⟨s, env, calls⟩ := g
  have hwf := Coordinator.wellFormed_perform (c := s.coordinator) hg now r
  have hlease := Coordinator.lease?_perform (c := s.coordinator) hg now r
  have hmessage := s.coordinator.perform_message now r hg
  simp only [Host.telling, Server.run_request] at asked
  generalize s.coordinator.perform now r = res at asked hwf hlease hmessage
  obtain ⟨b, message, after⟩ := res
  have hleases : ∀ id, id ∉ [r.id] → after.store.lease? id = s.coordinator.store.lease? id := by
    intro id hid
    rw [hlease id, if_neg (by simpa using hid)]
  have hentries : ∃ new : List QueuedEviction,
      q = { q with entries := q.entries ++ new } ∧ ∀ e ∈ new, e.record.id ∈ [r.id] :=
    ⟨[], by simp⟩
  cases message with
  | none =>
    cases asked
    exact ⟨hleases, ⟨[], by simp⟩, hentries⟩
  | some m =>
    have hm : m.instanceId? = some r.id := by
      simp only at hmessage
      split at hmessage
      · exact Slot.instanceId?_of_message? hmessage.symm
      · cases hmessage
    obtain ⟨new, hnew, habout⟩ := Peers.calls_deliverAll hp (c := after) hwf hm env calls now
      (List.range after.peers)
    cases asked
    exact ⟨hleases, ⟨new, hnew, fun call hcall =>
      ⟨r.id, List.mem_singleton_self _, habout call hcall⟩⟩, hentries⟩

end

/-! ## What a channel is bound to -/

/-- The instance that an operation registers, if it succeeds. -/
def registers? (m : ClientMessage) (result : Result) : Option InstanceId :=
  match m, result with
  | .register r, .ok () => some r.id
  | _, _ => none

/-- The channel was registered with `ids`: with none while it is idle, and with that of its record
from then on. -/
structure Bound (c : Channel) (ids : List InstanceId) : Prop where
  one : ids.length ≤ 1
  idle : c.state = .idle → ids = []
  current : ∀ r, c.current = some r → r.id ∈ ids

section

variable {ε : Type} {p : Peers ε} {c c' : Channel} {ids : List InstanceId}

theorem Bound.kept (h : c.Bound ids) (hs : c'.state = c.state) (hc : c'.current = c.current) :
    c'.Bound ids :=
  ⟨h.one, fun hi => h.idle (hs ▸ hi), fun r hr => h.current r (hc ▸ hr)⟩

/-- The channel is not idle and holds nothing or a record of its instance. -/
theorem Bound.moved (h : c.Bound ids) (hs : c'.state ≠ .idle)
    (hc : ∀ r, c'.current = some r → r.id ∈ ids) : c'.Bound ids :=
  ⟨h.one, fun hi => absurd hi hs, hc⟩

theorem Bound.answerError (h : c.Bound ids) (e : Error) : (c.answerError e).Bound ids :=
  h.kept (core_answerError c e).2.2 (core_answerError c e).2.1

theorem Bound.reply (h : c.Bound ids) (m : ServerMessage) : (c.reply m).Bound ids :=
  h.kept (core_reply c m).2.2 (core_reply c m).2.1

theorem Bound.note (h : c.Bound ids) {r : Record} (hs : c.state ≠ .idle) (hr : r.id ∈ ids) :
    (c.note r).Bound ids := by
  refine h.moved hs fun r' hr' => ?_
  cases hr'
  exact hr

/-- After an operation that may have registered an instance the channel is bound to it, and
nothing was done but about what the channel is bound to. -/
structure Tied (registered : Option InstanceId) (ids : List InstanceId) (g : Overheard ε)
    (d : Desk) (res : Channel × Desk × Overheard ε) : Prop where
  bound : res.1.Bound (ids ++ registered.toList)
  confined : Confined (ids ++ registered.toList) g d.queue res.2.2 res.2.1.queue

theorem Tied.of_none {registered : Option InstanceId} {g g' : Overheard ε} {d d' : Desk}
    (hnone : registered = none) (hc : c'.Bound ids) (hg : Confined ids g d.queue g' d'.queue) :
    Tied registered ids g d (c', d', g') := by
  subst hnone
  exact ⟨by rwa [Option.toList_none, List.append_nil],
    by rwa [Option.toList_none, List.append_nil]⟩

/-- A channel asks about the instance that it is bound to, and about another one only to register
it while it is bound to none. If that fails it remains so. -/
theorem tied_run (hp : p.Honest) (m : ClientMessage) (hc : c.Bound ids) {g : Overheard ε}
    (hg : g.1.store.WellFormed) (now : Time) (d : Desk) :
    let res := c.run (Host.telling p.listing).toBackend now m d g
    Tied (registers? m res.1) ids g d res.2 := by
  have hran := ran_run (Host.telling p.listing).toBackend now m c d g
  generalize c.run (Host.telling p.listing).toBackend now m d g = res at hran ⊢
  -- What is asked about an instance that the channel is bound to.
  have hask : ∀ {g g' : Overheard ε} {r : Request} {a : Answer}, g.1.store.WellFormed →
      (Host.telling p.listing).handle g now r = (a, g') → r.id ∈ ids →
        g'.1.store.WellFormed ∧ Confined ids g d.queue g' d.queue :=
    fun hg asked hr => ⟨Host.wellFormed_handle (h := Host.telling p.listing) hg asked,
      (confined_handle hp hg asked d.queue).mono
        (List.cons_subset.mpr ⟨hr, List.nil_subset ids⟩)⟩
  have hrefused : ∀ {g' : Overheard ε} {r : Request} {a : Answer},
      (Host.telling p.listing).handle g now r = (a, g') → a.isApplied = false → g' = g := by
    intro g' r a asked ha
    have hsteady := Host.steady_telling p.listing g now r
    rw [asked] at hsteady
    exact hsteady ha
  have hcurrent : ∀ {r : Record}, c.registered? = .ok r → r.id ∈ ids ∧ c.state ≠ .idle := by
    intro r hr
    obtain ⟨hstate, hr⟩ := registered?_eq_ok.mp hr
    exact ⟨hc.current r hr, by simp [hstate]⟩
  cases hran with
  | refused h => exact .of_none (by cases m <;> rfl) (hc.answerError _) (.refl ids g d.queue)
  | ignored h => exact .of_none rfl hc (.refl ids g d.queue)
  | registrationRejected idle hnext asked h =>
    obtain rfl := hrefused asked (isApplied_of_rejection h)
    exact .of_none rfl (hc.answerError _) (.refl ids _ d.queue)
  | @registered record next a g' idle hnext asked h =>
    have hid : next.id = record.id := by rw [hnext, Record.id_atVersion]
    have hconfined := confined_handle hp hg asked d.queue
    obtain rfl := hc.idle idle
    have hbound : ((c.moveTo d .registered).1.note next).Bound [record.id] := by
      refine ⟨Nat.le_refl 1, nofun, fun r hr => ?_⟩
      cases hr
      exact List.mem_singleton.mpr hid
    rw [show (Request.register next .here).id = record.id from hid] at hconfined
    exact ⟨hbound.reply .ack, hconfined⟩
  | updateRejected current same hnext asked h =>
    obtain rfl := hrefused asked (isApplied_of_rejection h)
    exact .of_none rfl (hc.answerError _) (.refl ids _ d.queue)
  | @updated record previous next a g' current same hnext asked h =>
    obtain ⟨hmem, hstate⟩ := hcurrent current
    have hid : next.id ∈ ids := by rwa [hnext, Record.id_atVersion, same]
    exact .of_none rfl ((hc.note hstate hid).reply .ack) (hask hg asked hid).2
  | unregistrationFailed current asked => exact absurd asked (Host.not_failed rfl rfl)
  | unregistered current asked h =>
    have hbound : ({ (c.moveTo d .closed).1 with current := none } : Channel).Bound ids :=
      hc.moved nofun nofun
    exact .of_none rfl (hbound.reply .ack) (hask hg asked (hcurrent current).1).2
  | renewalFailed current asked => exact absurd asked (Host.not_failed rfl rfl)
  | renewed current asked h found =>
    exact .of_none rfl hc (hask hg asked (hcurrent current).1).2
  | revivalFailed current asked hnext asked' =>
    obtain ⟨hmem, -⟩ := hcurrent current
    obtain ⟨hwf, hrenew⟩ := hask hg asked hmem
    exact .of_none rfl hc (hrenew.trans (hask hwf asked' (by rw [hnext]; exact hmem)).2)
  | revivalOvertaken current asked hnext asked' =>
    obtain ⟨hmem, -⟩ := hcurrent current
    obtain ⟨hwf, hrenew⟩ := hask hg asked hmem
    exact .of_none rfl hc (hrenew.trans (hask hwf asked' (by rw [hnext]; exact hmem)).2)
  | @revived record next a g' g'' current asked hnext asked' h =>
    obtain ⟨hmem, hstate⟩ := hcurrent current
    have hid : next.id ∈ ids := by rwa [hnext]
    obtain ⟨hwf, hrenew⟩ := hask hg asked hmem
    exact .of_none rfl (hc.note hstate hid) (hrenew.trans (hask hwf asked' hid).2)

/-- The instance that an operation on a frame or a message registers, if it succeeds. -/
def Inbound.registers? (x : Inbound) (result : Result) : Option InstanceId :=
  x.message?.bind fun m => Channel.registers? m result

theorem tied_operate (hp : p.Honest) (x : Inbound) (hc : c.Bound ids) {g : Overheard ε}
    (hg : g.1.store.WellFormed) (now : Time) (d : Desk) :
    let res := c.operate (Host.telling p.listing).toBackend now x d g
    Tied (x.registers? res.1) ids g d res.2 := by
  cases hm : x.message? with
  | none =>
    simp only [operate_of_unreadable _ _ _ _ _ hm, Inbound.registers?, hm]
    exact .of_none rfl (hc.answerError .unexpectedFrame) (.refl ids g d.queue)
  | some m =>
    simp only [operate_of_message _ _ _ _ _ hm, Inbound.registers?, hm]
    exact tied_run hp m hc hg now d

theorem tied_connectionClosed (hc : c.Bound ids) (g : Overheard ε) (d : Desk) (now : Time) :
    Tied none ids g d ((c.connectionClosed d now).1, (c.connectionClosed d now).2, g) := by
  have hclosed : (c.connectionClosed d now).1 = { c with state := .closed } :=
    connectionClosed_fst ..
  refine .of_none rfl ?_ ?_
  · rw [hclosed]
    exact hc.moved nofun hc.current
  · simp only [connectionClosed]
    split
    · rename_i record hs hr
      exact .queued (hc.current record hr) g d.queue .here now
    · exact .refl ids g d.queue

end

end Channel

/-! ## A channel from its creation to its end -/

namespace Service

def Act.OfChannel {ρ : Type} (i : Nat) : Act ρ → Prop
  | .operate j _ | .disconnect j | .drop j | .reachable j _ => j = i
  | .connect | .clock _ | .elsewhere _ => False

section

variable {ρ : Type} (b : Backend ρ) (i : Nat)

/-- The instance that an act registers on a channel, if the registration is accepted. -/
def registers? (s : Service ρ) : Act ρ → Option InstanceId
  | .operate j x =>
    if j = i then
      (s.channel? j).bind fun c => x.registers? (c.operate b s.now x s.desk s.host).1
    else none
  | _ => none

/-- The instances that a channel registers, in order. -/
def registrations (s : Service ρ) : List (Act ρ) → List InstanceId
  | [] => []
  | a :: acts => (s.registers? b i a).toList ++ (s.act b a).registrations acts

variable {b i}

theorem registrations_append (s : Service ρ) (acts acts' : List (Act ρ)) :
    s.registrations b i (acts ++ acts') =
      s.registrations b i acts ++ (s.run b acts).registrations b i acts' := by
  induction acts generalizing s with
  | nil => rfl
  | cons a acts ih =>
    simp only [List.cons_append, registrations, ih, List.append_assoc]
    rfl

end

variable {ε : Type} {p : Peers ε} {i : Nat} {s : Service (Overheard ε)} {ids : List InstanceId}

/-- What channel `i` has registered so far is `ids`. -/
structure Bound (i : Nat) (s : Service (Overheard ε)) (ids : List InstanceId) : Prop where
  wellFormed : s.host.1.store.WellFormed
  one : ids.length ≤ 1
  unopened : s.channels.length ≤ i → ids = []
  channel : ∀ c, s.channel? i = some c → c.Bound ids

/-- Other acts than the channel's own do not change what it is bound to. -/
theorem Bound.aside (h : s.Bound i ids) {s' : Service (Overheard ε)}
    (hwf : s'.host.1.store.WellFormed) (hl : s'.channels.length = s.channels.length)
    (hc : s'.channel? i = s.channel? i) : s'.Bound i ids :=
  ⟨hwf, h.one, fun hi => h.unopened (hl ▸ hi), fun c hc' => h.channel c (hc ▸ hc')⟩

/-- Whatever is put in the place of another channel does not change what the channel is bound to. -/
theorem Bound.elsewhere (h : s.Bound i ids) {j : Nat} {c : Channel} (hc : s.channel? j = some c)
    (hj : j ≠ i) (place : Option Channel) (d : Desk) {g : Overheard ε}
    (hwf : g.1.store.WellFormed) : Bound i ⟨g, d, s.now, s.channels.set j place⟩ ids := by
  refine h.aside hwf (List.length_set ..) ?_
  have hset : Service.channel? ⟨g, d, s.now, s.channels.set j place⟩ i =
      if j = i then place else s.channel? i := channel?_of_set hc rfl i
  rw [hset, if_neg hj]

theorem Bound.of_own {c : Channel} (hc : s.channel? i = some c) {place : Option Channel}
    (hplace : ∀ c', place = some c' → c'.Bound ids)
    (hone : ids.length ≤ 1) (d : Desk) {g : Overheard ε} (hwf : g.1.store.WellFormed) :
    Bound i ⟨g, d, s.now, s.channels.set i place⟩ ids := by
  refine ⟨hwf, hone, fun hi => ?_, fun c' hc' => hplace c' ?_⟩
  · obtain ⟨hlt, -⟩ := channel?_eq_some hc
    rw [List.length_set] at hi
    exact absurd hlt (Nat.not_lt.mpr hi)
  · have hset : Service.channel? ⟨g, d, s.now, s.channels.set i place⟩ i =
        if i = i then place else s.channel? i := channel?_of_set hc rfl i
    rwa [hset, if_pos rfl] at hc'

/-- What an act makes of the channel's bonds, and what the channel does in an act of its own. -/
structure Tied (b : Backend (Overheard ε)) (i : Nat) (s : Service (Overheard ε))
    (ids : List InstanceId) (a : Act (Overheard ε)) : Prop where
  bound : (s.act b a).Bound i (ids ++ (s.registers? b i a).toList)
  confined : a.OfChannel i → Confined (ids ++ (s.registers? b i a).toList) s.host s.desk.queue
    (s.act b a).host (s.act b a).desk.queue

section

variable {b : Backend (Overheard ε)} {a : Act (Overheard ε)}

theorem Tied.of_none (hnone : s.registers? b i a = none) (hbound : (s.act b a).Bound i ids)
    (hconfined : a.OfChannel i →
      Confined ids s.host s.desk.queue (s.act b a).host (s.act b a).desk.queue) :
    Tied b i s ids a := by
  have hids : ids ++ (s.registers? b i a).toList = ids := by
    rw [hnone, Option.toList_none, List.append_nil]
  exact ⟨by rwa [hids], by rwa [hids]⟩

/-- An act on a channel, which may register an instance, is all about what this channel is bound to
afterwards, and leaves another channel's bonds alone. -/
theorem Tied.onChannel (h : s.Bound i ids) {j : Nat}
    (f : Channel → Desk → Overheard ε → Option Channel × Desk × Overheard ε)
    (hact : s.act b a = s.onChannel j f) (howner : a.OfChannel i → j = i)
    (registered : Channel → Option InstanceId)
    (hregisters : s.registers? b i a = if j = i then (s.channel? j).bind registered else none)
    (hwf : ∀ c, (f c s.desk s.host).2.2.1.store.WellFormed)
    (hown : ∀ c, c.Bound ids →
      (∀ c', (f c s.desk s.host).1 = some c' → c'.Bound (ids ++ (registered c).toList)) ∧
        (ids ++ (registered c).toList).length ≤ 1 ∧
        Confined (ids ++ (registered c).toList) s.host s.desk.queue (f c s.desk s.host).2.2
          (f c s.desk s.host).2.1.queue) : Tied b i s ids a := by
  cases hc : s.channel? j with
  | none =>
    have hsame : s.act b a = s := by rw [hact, Service.onChannel, hc]
    have hnone : s.registers? b i a = none := by
      rw [hregisters, hc]
      exact ite_self none
    refine .of_none hnone (by rwa [hsame]) fun _ => ?_
    rw [hsame]
    exact .refl ids s.host s.desk.queue
  | some c =>
    have hafter : s.act b a = ⟨(f c s.desk s.host).2.2, (f c s.desk s.host).2.1, s.now,
        s.channels.set j (f c s.desk s.host).1⟩ := by rw [hact, Service.onChannel, hc]
    by_cases hj : j = i
    · subst hj
      obtain ⟨hbound, hone, hconfined⟩ := hown c (h.channel c hc)
      rw [if_pos rfl, hc, Option.bind_some] at hregisters
      refine ⟨?_, fun _ => ?_⟩
      · rw [hregisters, hafter]
        exact .of_own hc hbound hone _ (hwf c)
      · rw [hregisters, hafter]
        exact hconfined
    · refine .of_none (hregisters.trans (if_neg hj)) ?_ fun ha => absurd (howner ha) hj
      rw [hafter]
      exact h.elsewhere hc hj _ _ (hwf c)

end

theorem registers?_none (c : Option Channel) (j : Nat) :
    (none : Option InstanceId) = if j = i then c.bind fun _ => none else none := by
  rw [Option.bind_fun_none, ite_self]

theorem tied_act (hp : p.Honest) (h : s.Bound i ids) {a : Act (Overheard ε)}
    (ha : a.KeepsWellFormed (Host.telling p.listing)) :
    Tied (Host.telling p.listing).toBackend i s ids a := by
  have hwf := h.wellFormed
  cases a with
  | connect =>
    have hnew : ∀ j, (s.act (Host.telling p.listing).toBackend .connect).channel? j =
        if j = s.channels.length then some (openOn s.desk).1 else s.channel? j :=
      channel?_of_append rfl
    refine .of_none rfl ⟨hwf, h.one, fun hi => h.unopened ?_, fun c hc => ?_⟩ False.elim
    · exact Nat.le_trans (by simp [act]) hi
    · rw [hnew] at hc
      split at hc
      · rename_i hi
        obtain rfl := h.unopened (Nat.le_of_eq hi.symm)
        cases hc
        exact ⟨Nat.zero_le 1, fun _ => rfl, fun r hr => by cases hr⟩
      · exact h.channel c hc
  | operate j x =>
    let result (c : Channel) (d : Desk) (g : Overheard ε) :=
      c.operate (Host.telling p.listing).toBackend s.now x d g
    refine .onChannel h (fun c d g => (some (result c d g).2.1, (result c d g).2.2)) rfl id
      (fun c => x.registers? (result c s.desk s.host).1) rfl (fun c => ?_) fun c hc => ?_
    · exact operate_preserves (P := fun g : Overheard ε => g.1.store.WellFormed)
        (fun g _ hg => Host.wellFormed_handle (h := Host.telling p.listing) hg rfl) x c s.desk hwf
    · have htied := tied_operate hp x hc hwf s.now s.desk
      exact ⟨fun c' hc' => Option.some.inj hc' ▸ htied.bound, htied.bound.one, htied.confined⟩
  | disconnect j =>
    refine .onChannel h (fun c d g => (some (c.connectionClosed d s.now).1,
      (c.connectionClosed d s.now).2, g)) rfl id (fun _ => none) (registers?_none _ j)
      (fun _ => hwf) fun c hc => ?_
    have htied := tied_connectionClosed hc s.host s.desk s.now
    exact ⟨fun c' hc' => Option.some.inj hc' ▸ htied.bound, htied.bound.one, htied.confined⟩
  | drop j =>
    refine .onChannel h (fun c d g => (none, c.drop d, g)) rfl id (fun _ => none)
      (registers?_none _ j) (fun _ => hwf) fun c hc => ?_
    rw [Option.toList_none, List.append_nil]
    exact ⟨fun c' hc' => (by cases hc'), hc.one, .refl ids s.host s.desk.queue⟩
  | reachable j reachable =>
    refine .onChannel h (fun c d g => (some { c with reachable }, d, g)) rfl id (fun _ => none)
      (registers?_none _ j) (fun _ => hwf) fun c hc => ?_
    rw [Option.toList_none, List.append_nil]
    exact ⟨fun c' hc' => Option.some.inj hc' ▸ hc.kept rfl rfl, hc.one,
      .refl ids s.host s.desk.queue⟩
  | clock now => exact .of_none rfl (h.aside hwf rfl rfl) False.elim
  | elsewhere change =>
    exact .of_none rfl (h.aside (ha (s.host, s.desk.queue) hwf) rfl rfl) False.elim

theorem bound_run (hp : p.Honest) (h : s.Bound i ids) {acts : List (Act (Overheard ε))}
    (hacts : ∀ a ∈ acts, a.KeepsWellFormed (Host.telling p.listing)) :
    (s.run (Host.telling p.listing).toBackend acts).Bound i
      (ids ++ s.registrations (Host.telling p.listing).toBackend i acts) := by
  induction acts generalizing s ids with
  | nil =>
    rw [registrations, List.append_nil]
    exact h
  | cons a acts ih =>
    have hstep := (tied_act hp h (hacts a List.mem_cons_self)).bound
    simp only [registrations, ← List.append_assoc]
    exact ih hstep fun a ha => hacts a (List.mem_cons_of_mem _ ha)

/-- A channel registers one instance at most, and all that it ever changes in the store, tells peers
or queues for eviction is about the instance that it has registered by then. -/
theorem confined_to_registered (hp : p.Honest) (hs : s.host.1.store.WellFormed)
    (new : s.channel? i = none) {acts : List (Act (Overheard ε))}
    (hacts : ∀ a ∈ acts, a.KeepsWellFormed (Host.telling p.listing)) :
    let b := (Host.telling p.listing).toBackend
    (s.registrations b i acts).length ≤ 1 ∧
      ∀ before a after, acts = before ++ a :: after → a.OfChannel i →
        let t := s.run b before
        let t' := t.act b a
        Confined (s.registrations b i (before ++ [a])) t.host t.desk.queue t'.host
          t'.desk.queue := by
  intro b
  have hstart : s.Bound i [] := ⟨hs, Nat.zero_le 1, fun _ => rfl, fun c hc => by
    rw [new] at hc
    cases hc⟩
  refine ⟨(bound_run hp hstart hacts).one, fun before a after hsplit hown => ?_⟩
  subst hsplit
  have hbefore : (s.run b before).Bound i (s.registrations b i before) :=
    bound_run hp hstart fun a ha => hacts a (List.mem_append_left _ ha)
  have htied := tied_act hp hbefore
    (hacts a (List.mem_append_right before List.mem_cons_self))
  simp only [registrations_append, registrations, List.append_nil]
  exact htied.confined hown

/-- Channel 0 is registered as `api` and sends an update of `web`, which channel 1 has registered,
while the peer says of all that it hears about that it lacks it. -/
theorem confined_to_registered_otherInstance :
    let p : Peers Unit := ⟨fun env now _ m =>
      ((m.instanceId?.map fun id => .replied (.unknownInstance id)).getD .timedOut, now, env)⟩
    let web := Record.bare ⟨"web"⟩ "shop"
    let s : Service (Overheard Unit) := start (.fresh ⟨"a", by decide⟩ 1, (), []) 90000 0
    let before : List (Act (Overheard Unit)) := [.connect, .connect,
      .operate 1 (.message (.register web)),
      .operate 0 (.message (.register (Record.bare ⟨"api"⟩ "shop")))]
    let t := s.run (Host.telling p.listing).toBackend before
    let t' := t.act (Host.telling p.listing).toBackend (.operate 0 (.message (.update web)))
    t'.host.1.store.lease? web.id = t.host.1.store.lease? web.id ∧
      (t.host.1.store.lease? web.id).isSome ∧ t.host.2.2.length = 4 := by
  intro p web s before t t'
  have hp : p.Honest := by
    intro env now peer m id h
    have hcall : (p.call env now peer m).1 =
        (m.instanceId?.map fun id => .replied (.unknownInstance id)).getD .timedOut := rfl
    rw [hcall] at h
    cases hm : m.instanceId? with
    | none =>
      rw [hm] at h
      rcases h with h | h <;> cases h
    | some id' =>
      rw [hm] at h
      rcases h with h | h <;> cases h
      rfl
  have hacts : ∀ a ∈ before ++ [.operate 0 (.message (.update web))],
      a.KeepsWellFormed (Host.telling p.listing) := by
    intro a ha
    simp only [before, List.cons_append, List.nil_append, List.mem_cons, List.not_mem_nil,
      or_false] at ha
    rcases ha with rfl | rfl | rfl | rfl | rfl <;> trivial
  have hconfined := (confined_to_registered (i := 0) hp (s := s) Store.wellFormed_empty rfl
    hacts).2 before _ [] rfl rfl
  have hregistered : s.registrations (Host.telling p.listing).toBackend 0
      (before ++ [.operate 0 (.message (.update web))]) = [⟨"api"⟩] := by
    decide +kernel
  refine ⟨hconfined.leases web.id ?_, by decide +kernel, by decide +kernel⟩
  rw [hregistered]
  decide

end Service

end LeaseRegistry
