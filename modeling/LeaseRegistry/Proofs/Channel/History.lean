import LeaseRegistry.Proofs.Channel.Node
import LeaseRegistry.Proofs.Eviction.Pass

/-!
# The writes of a node

The writes that the store of a node took, the latest first, and how they are numbered: one into a
lease gets a newer version than the write before it, and one that creates a lease gets the version
after the last write of its own channel (`Numbered`). Nothing in this keeps a new lease from
getting a version that the instance has had before.
-/

namespace LeaseRegistry

/-- A write of a channel that the store took. -/
structure Write where
  channel : Nat
  record : Record
  /-- It created the lease. -/
  creates : Bool
  deriving DecidableEq

namespace Write

def version (w : Write) : Version := w.record.version

end Write

def Event.write? : Event → Option Write
  | .asked i _ x => (accepted? x).map fun w => ⟨i, w.record, w.creates⟩
  | .queued .. | .taken .. => none

namespace History

def allWrites (events : List Event) : List Write := events.filterMap Event.write?

def about (id : InstanceId) (ws : List Write) : List Write := ws.filter (·.record.id = id)

def writes (id : InstanceId) (events : List Event) : List Write := about id (allWrites events)

def lastOf (i : Nat) (ws : List Write) : Option Write := ws.find? (·.channel = i)

/-- The highest version that a channel has had accepted. -/
def view (i : Nat) (ws : List Write) : Version := ((lastOf i ws).map (·.version)).getD 0

theorem allWrites_append (es es' : List Event) :
    allWrites (es ++ es') = allWrites es ++ allWrites es' := List.filterMap_append

theorem writes_append (id : InstanceId) (es es' : List Event) :
    writes id (es ++ es') = writes id es ++ writes id es' := by
  rw [writes, allWrites_append, about, List.filter_append]
  rfl

theorem about_cons_self {id : InstanceId} {w : Write} (h : w.record.id = id) (ws : List Write) :
    about id (w :: ws) = w :: about id ws := by
  simp [about, h]

theorem about_cons_of_ne {id : InstanceId} {w : Write} (h : w.record.id ≠ id) (ws : List Write) :
    about id (w :: ws) = about id ws := by
  simp [about, h]

theorem lastOf_cons_self (w : Write) (ws : List Write) : lastOf w.channel (w :: ws) = some w := by
  simp [lastOf]

theorem lastOf_cons_of_ne {i : Nat} {w : Write} (h : w.channel ≠ i) (ws : List Write) :
    lastOf i (w :: ws) = lastOf i ws := by
  simp [lastOf, h]

/-- A channel that only wrote one instance looks the same among the writes of that instance. -/
theorem lastOf_about {i : Nat} {id : InstanceId} {ws : List Write}
    (h : ∀ w, lastOf i ws = some w → w.record.id = id) : lastOf i (about id ws) = lastOf i ws := by
  cases hl : lastOf i ws with
  | none =>
    rw [lastOf, List.find?_eq_none] at hl ⊢
    intro w hw
    exact hl w (List.mem_filter.mp hw).1
  | some w =>
    have hid := h w hl
    induction ws with
    | nil => cases hl
    | cons v ws ih =>
      by_cases hv : v.channel = i
      · subst hv
        rw [lastOf_cons_self] at hl
        cases hl
        rw [about_cons_self hid, lastOf_cons_self]
      · rw [lastOf_cons_of_ne hv] at hl h
        by_cases hvid : v.record.id = id
        · rw [about_cons_self hvid, lastOf_cons_of_ne hv]
          exact ih h hl
        · rw [about_cons_of_ne hvid]
          exact ih h hl

/-! ## Numbering -/

/-- How the writes of one instance are numbered. -/
inductive Numbered : List Write → Prop where
  | nil : Numbered []
  | changed {w v : Write} {ws : List Write} (rest : Numbered (v :: ws)) (old : w.creates = false)
      (newer : v.version < w.version) : Numbered (w :: v :: ws)
  | created {w : Write} {ws : List Write} (rest : Numbered ws) (new : w.creates = true)
      (next : w.version = view w.channel ws + 1) : Numbered (w :: ws)

theorem Numbered.tail {w : Write} {ws : List Write} (h : Numbered (w :: ws)) : Numbered ws := by
  cases h with
  | changed rest _ _ => exact rest
  | created rest _ _ => exact rest

theorem Numbered.lt_of_changed {w v : Write} {ws : List Write} (h : Numbered (w :: v :: ws))
    (hw : w.creates = false) : v.version < w.version := by
  cases h with
  | changed _ _ hlt => exact hlt
  | created _ hnew _ =>
    rw [hw] at hnew
    cases hnew

/-- As long as no write creates the lease, the versions increase. -/
theorem Numbered.lt_of_not_created {newer older : List Write} {w : Write}
    (h : Numbered (newer ++ w :: older)) (hc : ∀ v ∈ newer, v.creates = false) :
    ∀ v ∈ newer, w.version < v.version := by
  induction newer with
  | nil => simp
  | cons v newer ih =>
    have ih := ih h.tail fun u hu => hc u (List.mem_cons_of_mem _ hu)
    have hv := hc v List.mem_cons_self
    intro u hu
    rcases List.mem_cons.mp hu with rfl | hu
    · cases newer with
      | nil => exact h.lt_of_changed hv
      | cons x newer => exact UInt64.lt_trans (ih x List.mem_cons_self) (h.lt_of_changed hv)
    · exact ih u hu

end History

open History

/-! ## What a node knows of its writes -/

/-- Channel number `i` remembers the last write that it made. -/
structure Channel.Remembers (c : Channel) (i : Nat) (ws : List Write) : Prop where
  version : c.version = view i ws
  current : ∀ record, c.current = some record → ∃ w, lastOf i ws = some w ∧ w.record = record
  idle : c.state = .idle → lastOf i ws = none

/-- A store and its channels as the writes `ws` left them. -/
structure Tally (s : Store) (channels : List Channel) (ws : List Write) : Prop where
  wellFormed : s.WellFormed
  latest : ∀ id l, s.lease? id = some l → ∃ w, (about id ws).head? = some w ∧ w.record = l.record
  remembers : ∀ (i : Nat) (c : Channel), channels[i]? = some c → c.Remembers i ws
  unopened : ∀ i, channels.length ≤ i → lastOf i ws = none
  numbered : ∀ id, Numbered (about id ws)

namespace Tally

variable {s s' : Store} {channels : List Channel} {ws : List Write} {c c' : Channel} {i : Nat}
  {asks : List Asked}

theorem empty : Tally .empty [] [] := by
  refine ⟨Store.wellFormed_empty, fun id l hl => ?_, by simp, fun _ _ => rfl, fun _ => .nil⟩
  cases hl

theorem keeps (h : Tally s channels ws) (hs' : s'.WellFormed) (hk : s.KeepsRecords s') :
    Tally s' channels ws := by
  refine ⟨hs', fun id l' hl' => ?_, h.remembers, h.unopened, h.numbered⟩
  obtain ⟨l, hl, hr⟩ := hk id l' hl'
  obtain ⟨w, hw, hwr⟩ := h.latest id l hl
  exact ⟨w, hw, hwr.trans hr.symm⟩

theorem connect (h : Tally s channels ws) (d : Desk) :
    Tally s (channels ++ [(Channel.openOn d).1]) ws := by
  refine ⟨h.wellFormed, h.latest, fun i c hc => ?_, fun i hi => ?_, h.numbered⟩
  · by_cases hi : i < channels.length
    · rw [List.getElem?_append_left hi] at hc
      exact h.remembers i c hc
    · have hnone := h.unopened i (Nat.le_of_not_lt hi)
      rw [List.getElem?_append_right (Nat.le_of_not_lt hi), List.getElem?_singleton] at hc
      split at hc <;> cases hc
      refine ⟨?_, fun r hr => (by cases hr), fun _ => hnone⟩
      rw [view, hnone]
      rfl
  · refine h.unopened i ?_
    rw [List.length_append] at hi
    omega

theorem quiet (h : Tally s channels ws) (hc : channels[i]? = some c) (hs' : s'.WellFormed)
    (hq : Channel.Quiet c s c' s' asks) : Tally s' (channels.set i c') ws := by
  have hk := h.keeps hs' hq.records
  have hremembers := h.remembers i c hc
  refine ⟨hs', hk.latest, fun j cj hj => ?_, fun j hj => ?_, hk.numbered⟩
  · rw [List.getElem?_set] at hj
    split at hj
    · subst j
      split at hj <;> cases hj
      refine ⟨hq.version.trans hremembers.version, fun r hr => ?_, fun hs => ?_⟩
      · rcases hq.current with hcur | hcur
        · exact hremembers.current r (hcur.symm.trans hr)
        · rw [hcur] at hr
          cases hr
      · rcases hq.state with hst | hst
        · exact hremembers.idle (hst.symm.trans hs)
        · rw [hst] at hs
          cases hs
    · exact h.remembers j cj hj
  · rw [List.length_set] at hj
    exact h.unopened j hj

theorem lastOf_of_wrote {w : Accepted} (h : Tally s channels ws) (hc : channels[i]? = some c)
    (hw : Channel.Wrote w c s c' s' asks) :
    ∀ v, lastOf i ws = some v → v.record.id = w.record.id := by
  intro v hv
  rcases hw.origin with hidle | ⟨-, previous, hprevious, hid⟩
  · rw [(h.remembers i c hc).idle hidle] at hv
    cases hv
  · obtain ⟨v', hv', rfl⟩ := (h.remembers i c hc).current previous hprevious
    rw [hv] at hv'
    cases hv'
    exact hid

theorem numbered_of_wrote {w : Accepted} (h : Tally s channels ws) (hc : channels[i]? = some c)
    (hw : Channel.Wrote w c s c' s' asks) (id : InstanceId) :
    Numbered (about id (⟨i, w.record, w.creates⟩ :: ws)) := by
  by_cases hid : w.record.id = id
  · subst hid
    have habout : about w.record.id (⟨i, w.record, w.creates⟩ :: ws) =
        ⟨i, w.record, w.creates⟩ :: about w.record.id ws := about_cons_self rfl ws
    rw [habout]
    cases hcreates : w.creates with
    | true =>
      refine .created (h.numbered _) rfl ?_
      have hview : view i (about w.record.id ws) = c.version := by
        rw [view, lastOf_about (h.lastOf_of_wrote hc hw), (h.remembers i c hc).version]
        rfl
      have hnone : s.version? w.record.id = none := by
        rw [Store.version?_eq, hw.took.created hcreates]
        rfl
      rw [hview]
      refine hw.numbered.trans ?_
      rw [hnone, Channel.nextVersion_none]
    | false =>
      obtain ⟨l, hl, hlt⟩ := hw.took.newer hcreates
      obtain ⟨v, hv, hvr⟩ := h.latest _ l hl
      obtain ⟨rest, hrest⟩ := List.head?_eq_some_iff.mp hv
      have hnumbered := h.numbered w.record.id
      rw [hrest] at hnumbered ⊢
      refine .changed hnumbered rfl ?_
      have hversion : v.version = l.version := congrArg Record.version hvr
      exact hversion ▸ hlt
  · rw [about_cons_of_ne hid]
    exact h.numbered id

theorem wrote {w : Accepted} (h : Tally s channels ws) (hc : channels[i]? = some c)
    (hs' : s'.WellFormed) (hw : Channel.Wrote w c s c' s' asks) :
    Tally s' (channels.set i c') (⟨i, w.record, w.creates⟩ :: ws) := by
  have hi : i < channels.length := (List.getElem?_eq_some_iff.mp hc).1
  refine ⟨hs', fun id l' hl' => ?_, fun j cj hj => ?_, fun j hj => ?_, h.numbered_of_wrote hc hw⟩
  · by_cases hid : id = w.record.id
    · subst hid
      obtain ⟨l, hl, hr⟩ := hw.took.held
      rw [hl] at hl'
      cases hl'
      refine ⟨⟨i, w.record, w.creates⟩, ?_, hr.symm⟩
      rw [about_cons_self (w := ⟨i, w.record, w.creates⟩) rfl]
      rfl
    · rw [hw.took.others id hid] at hl'
      rw [about_cons_of_ne (w := ⟨i, w.record, w.creates⟩) (Ne.symm hid)]
      exact h.latest id l' hl'
  · rw [List.getElem?_set] at hj
    split at hj
    · subst j
      cases hj
      have hlast := lastOf_cons_self ⟨i, w.record, w.creates⟩ ws
      refine ⟨?_, fun r hr => ?_, fun hs => ?_⟩
      · rw [view, hlast]
        exact hw.version
      · rw [hw.current] at hr
        cases hr
        exact ⟨_, hlast, rfl⟩
      · rw [hw.state] at hs
        cases hs
    · rename_i hij
      have hlast := lastOf_cons_of_ne (w := ⟨i, w.record, w.creates⟩) hij ws
      obtain ⟨hversion, hcurrent, hidle⟩ := h.remembers j cj hj
      refine ⟨?_, fun r hr => ?_, fun hs => ?_⟩
      · rw [hversion, view, view, hlast]
      · rw [hlast]
        exact hcurrent r hr
      · rw [hlast]
        exact hidle hs
  · rw [List.length_set] at hj
    have hij : i ≠ j := by omega
    rw [lastOf_cons_of_ne (w := ⟨i, w.record, w.creates⟩) hij]
    exact h.unopened j hj

end Tally

/-! ## Along a run -/

namespace Channel

variable {c : Channel} {now : Time} {m : ClientMessage} {d : Desk} {g : Registry}

theorem run_alone (c : Channel) (now : Time) (m : ClientMessage) (d : Desk) (g : Registry) :
    (c.run .alone now m d g).2 = ((c.run .logged now m d (g, [])).2.1,
      (c.run .logged now m d (g, [])).2.2.1, (c.run .logged now m d (g, [])).2.2.2.1) :=
  congrArg Prod.snd (run_logged now m c d g [])

theorem quiet_or_wrote_alone (hs : g.store.WellFormed) (now : Time) (m : ClientMessage)
    (c : Channel) (d : Desk) :
    let (_, c', d', g') := c.run .alone now m d g
    g'.store.WellFormed ∧ d'.queue = d.queue ∧
      (Quiet c g.store c' g'.store (c.asks now m d g) ∨
        ∃ w, Wrote w c g.store c' g'.store (c.asks now m d g)) := by
  have h := quiet_or_wrote hs now m c d
  simp only [run_alone, asks]
  exact h

end Channel

theorem allWrites_asked (i : Nat) (m : ClientMessage) (asks : List Asked) (es : List Event) :
    allWrites ((asks.map (.asked i m)).reverse ++ es) =
      ((asks.filterMap accepted?).map fun w => ⟨i, w.record, w.creates⟩).reverse ++
        allWrites es := by
  rw [allWrites_append, allWrites, List.filterMap_reverse, List.filterMap_map, List.map_filterMap]
  rfl

theorem mem_takings {now : Time} {s : Store} {due : List Tagged} {x : Event}
    (h : x ∈ takings now s due) : ∃ i e l, x = .taken i e l := by
  induction due generalizing s with
  | nil => cases h
  | cons t due ih =>
    rcases List.mem_append.mp h with h | h
    · obtain ⟨l, -, rfl⟩ := List.mem_map.mp h
      exact ⟨_, _, l, rfl⟩
    · exact ih h

theorem allWrites_takings (now : Time) (s : Store) (due : List Tagged) (es : List Event) :
    allWrites ((takings now s due).reverse ++ es) = allWrites es := by
  have hnone : allWrites (takings now s due).reverse = [] := by
    refine List.filterMap_eq_nil_iff.mpr fun x hx => ?_
    obtain ⟨i, e, l, rfl⟩ := mem_takings (List.mem_reverse.mp hx)
    rfl
  rw [allWrites_append, hnone, List.nil_append]

def Event.lease? : Event → Option Lease
  | .taken _ _ l => some l
  | _ => none

theorem leases_takings (now : Time) (s : Store) (due : List Tagged) :
    (takings now s due).filterMap Event.lease? = (s.evictQueued (due.map (·.2)) now).1 := by
  induction due generalizing s with
  | nil => rfl
  | cons t due ih =>
    have hone : ∀ lease : Option Lease,
        (lease.toList.map (.taken t.1 t.2)).filterMap Event.lease? = lease.toList := by
      rintro (_ | lease) <;> rfl
    simp only [takings, List.filterMap_append, ih, hone]
    rfl

theorem Channel.connectionClosed_fst (c : Channel) (d : Desk) (now : Time) :
    (c.connectionClosed d now).1 = { c with state := .closed } := by
  simp only [connectionClosed, moveTo]
  split <;> rfl

theorem Channel.Quiet.of_closed (c : Channel) (s : Store) :
    Quiet c s { c with state := .closed } s [] :=
  ⟨rfl, rfl, .inl rfl, .inr rfl, .refl s⟩

theorem Evicts.keepsRecords {now : Time} {s s' : Store} {ls : List Lease} (h : Evicts now s ls s') :
    s.KeepsRecords s' :=
  fun _ l' hl' => ⟨l', h.lease?_of_some hl', rfl⟩

namespace Chronicle

def Tallies (h : Chronicle) : Prop :=
  Tally h.node.registry.store h.node.channels (allWrites h.events)

theorem tallies_start (settings : Preservation.Settings) (delay : Millis) (now : Time) :
    (start settings delay now).Tallies := .empty

theorem Tallies.act {h : Chronicle} (hh : h.Tallies) (a : Node.Act) : (h.act a).Tallies := by
  cases a with
  | connect => exact hh.connect h.node.desk
  | message i m =>
    simp only [Tallies, Chronicle.act, Node.act]
    cases hc : h.node.channels[i]? with
    | none => exact hh
    | some c =>
      obtain ⟨hs', -, hq | ⟨w, hw⟩⟩ :=
        Channel.quiet_or_wrote_alone hh.wellFormed h.node.now m c h.node.desk
      · rw [allWrites_asked, hq.asks]
        exact hh.quiet hc hs' hq
      · rw [allWrites_asked, hw.asks]
        exact hh.wrote hc hs' hw
  | disconnect i =>
    simp only [Tallies, node_act, Node.act]
    cases hc : h.node.channels[i]? with
    | none =>
      simp only [Chronicle.act, hc, Option.bind_none]
      exact hh
    | some c =>
      have hevents : allWrites (h.act (.disconnect i)).events = allWrites h.events := by
        simp only [Chronicle.act]
        split <;> rfl
      rw [hevents]
      simp only [Channel.connectionClosed_fst]
      exact hh.quiet hc hh.wellFormed (.of_closed c _)
  | clock now => exact hh
  | evict =>
    have hevents : allWrites (h.act .evict).events = allWrites h.events := by
      simp only [Chronicle.act]
      split
      · rfl
      · exact allWrites_takings ..
    simp only [Tallies, node_act, Node.act]
    rw [hevents]
    have he := evicts_evictionPass hh.wellFormed h.node.registry.preservation h.node.desk.queue
      h.node.now
    exact hh.keeps he.wellFormed he.keepsRecords

theorem Tallies.run {h : Chronicle} (hh : h.Tallies) (acts : List Node.Act) :
    (h.run acts).Tallies := by
  induction acts generalizing h with
  | nil => exact hh
  | cons a acts ih => exact ih (hh.act a)

/-! ## The queue and what it takes

A chronicle writes the queue down once more, with the channel of each entry, and what its entries
take. Both are those of the node: the entries that wait are the same, and the leases written down as
taken are the ones that a pass evicts apart from the expired. What `Cancellation` says of the one is
said of the other.
-/

/-- The queue that is written down is the queue of the node. -/
def Queues (h : Chronicle) : Prop := h.queue.map (·.2) = h.node.desk.queue.entries

variable {h : Chronicle}

theorem Queues.disconnect (hq : h.Queues) (i : Nat) : (h.act (.disconnect i)).Queues := by
  unfold Queues at hq ⊢
  rw [node_act]
  cases hc : h.node.channels[i]? with
  | none => simpa only [Chronicle.act, Node.act, hc, Option.bind_none] using hq
  | some c =>
    simp only [Chronicle.act, Node.act, hc, Option.bind_some, Channel.left?,
      Channel.connectionClosed]
    cases hs : c.state <;> cases hr : c.current <;>
      simp [hq, Channel.moveTo, hs, Desk.queueEviction, EvictionQueue.add]

theorem Queues.evict (hq : h.Queues) : (h.act .evict).Queues := by
  unfold Queues at hq ⊢
  rcases evictionPass_cases h.node.registry.store h.node.registry.preservation h.node.desk.queue
    h.node.now with ⟨p, hpass⟩ | ⟨n, verdict, p, hpass⟩
  · simp only [Chronicle.act, Node.act, hpass, ← hq, List.filter_map]
    rfl
  · simp only [Chronicle.act, Node.act, hpass, EvictionQueue.requeue, ← hq, List.filter_map,
      List.map_append]
    rfl

theorem Queues.act (hq : h.Queues) (hh : h.Tallies) (a : Node.Act) : (h.act a).Queues := by
  cases a with
  | connect => exact hq
  | message i m =>
    unfold Queues at hq ⊢
    rw [node_act]
    cases hc : h.node.channels[i]? with
    | none => simpa only [Chronicle.act, Node.act, hc] using hq
    | some c =>
      obtain ⟨-, hqueue, -⟩ :=
        Channel.quiet_or_wrote_alone hh.wellFormed h.node.now m c h.node.desk
      simp only [Chronicle.act, Node.act, hc]
      exact hq.trans (congrArg EvictionQueue.entries hqueue.symm)
  | disconnect i => exact hq.disconnect i
  | clock now => exact hq
  | evict => exact hq.evict

theorem queues_run (settings : Preservation.Settings) (delay : Millis) (now : Time)
    (acts : List Node.Act) : ((start settings delay now).run acts).Queues := by
  have hstart : (start settings delay now).Queues := rfl
  have htallies := tallies_start settings delay now
  generalize start settings delay now = h at *
  induction acts generalizing h with
  | nil => exact hstart
  | cons a acts ih => exact ih (h.act a) (hstart.act htallies a) (htallies.act a)

/-- A pass evicts the expired leases and those that are written down as taken. -/
theorem leases_of_evicted (hq : h.Queues) {leases : List Lease}
    (ho : (evictionPass h.node.registry.store h.node.registry.preservation h.node.desk.queue
      h.node.now).1 = .evicted leases) :
    ∃ taken : List Event, (h.act .evict).events = taken.reverse ++ h.events ∧
      leases = (h.node.registry.store.evictExpired
        (h.node.registry.store.expired h.node.now) h.node.now).1 ++
          taken.filterMap Event.lease? := by
  unfold Queues at hq
  have hevents : (h.act .evict).events = (takings h.node.now (h.node.registry.store.evictExpired
      (h.node.registry.store.expired h.node.now) h.node.now).2
        (h.queue.filter (·.2.isDue h.node.now))).reverse ++ h.events := by
    simp only [Chronicle.act, ho]
  refine ⟨_, hevents, ?_⟩
  rw [leases_takings]
  rcases evictionPass_cases h.node.registry.store h.node.registry.preservation h.node.desk.queue
    h.node.now with ⟨p, hpass⟩ | ⟨n, verdict, p, hpass⟩
  · rw [hpass] at ho
    cases ho
    simp only [← hq, List.filter_map]
    rfl
  · rw [hpass] at ho
    cases ho

end Chronicle

end LeaseRegistry
