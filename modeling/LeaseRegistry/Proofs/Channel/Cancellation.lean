import LeaseRegistry.Proofs.Channel.History

/-!
# What an entry of the queue takes

An entry takes a lease that stands at the version it was queued with. `Taking` is what is known at
that moment of the channel that queued it. If the lease is still the one that the channel wrote,
nothing was registered since; only if it was created anew in the meantime can the entry take a lease
that was registered after it was queued.
-/

namespace LeaseRegistry

def Event.registers (id : InstanceId) : Event → Bool
  | .asked _ (.register _) x => (accepted? x).any (·.record.id = id)
  | _ => false

namespace History

/-- What happened after `x` did for the last time. -/
def since (x : Event) (events : List Event) : List Event := events.takeWhile (· ≠ x)

/-- The lease was created after the last write of channel `i`. -/
def CreatedAnew (i : Nat) (id : InstanceId) (events : List Event) : Prop :=
  ∃ w ∈ (writes id events).takeWhile (·.channel ≠ i), w.creates = true

/-- No entry takes a lease that was registered after it was queued. -/
def Cancelled (events : List Event) : Prop :=
  ∀ later i e l earlier, events = later ++ .taken i e l :: earlier →
    ∀ x ∈ since (.queued i e.record) earlier, x.registers e.record.id = false

/-- The record that channel `i` had queued is the last one it wrote. -/
structure Queued (i : Nat) (record : Record) (events : List Event) : Prop where
  queued : .queued i record ∈ events
  written : ∃ w, lastOf i (allWrites events) = some w ∧ w.record = record
  silent : ∀ x ∈ since (.queued i record) events, ∀ w, x.write? = some w → w.channel ≠ i

/-- An entry of channel `i` took the lease `l` after `events`. -/
structure Taking (i : Nat) (e : QueuedEviction) (l : Lease) (events : List Event) : Prop where
  entry : Queued i e.record events
  latest : ∃ w, (writes e.record.id events).head? = some w ∧ w.record = l.record
  version : l.version = e.record.version
  numbered : Numbered (writes e.record.id events)

/-- Every entry that took a lease took it so. -/
def Accounted : List Event → Prop
  | [] => True
  | x :: events => (∀ i e l, x = .taken i e l → Taking i e l events) ∧ Accounted events

theorem Accounted.taking {events later earlier : List Event} {i : Nat} {e : QueuedEviction}
    {l : Lease} (h : Accounted events) (heq : events = later ++ .taken i e l :: earlier) :
    Taking i e l earlier := by
  induction later generalizing events with
  | nil =>
    subst heq
    exact h.1 i e l rfl
  | cons x later ih =>
    subst heq
    exact ih h.2 rfl

/-! ## One entry -/

variable {i : Nat} {record : Record} {e : QueuedEviction} {l : Lease} {es events : List Event}

theorem write?_of_registers {id : InstanceId} {x : Event} (h : x.registers id = true) :
    ∃ w, x.write? = some w ∧ w.record.id = id := by
  cases x with
  | asked i m x =>
    cases m with
    | register record =>
      simp only [Event.registers] at h
      cases ha : accepted? x with
      | none =>
        rw [ha] at h
        cases h
      | some w =>
        rw [ha] at h
        refine ⟨⟨i, w.record, w.creates⟩, ?_, by simpa using h⟩
        simp only [Event.write?, ha, Option.map_some]
    | update record => cases h
    | unregister => cases h
    | heartbeat => cases h
  | queued i record => cases h
  | taken i e l => cases h

theorem lastOf_allWrites_append (hw : ∀ x ∈ es, ∀ w, x.write? = some w → w.channel ≠ i) :
    lastOf i (allWrites (es ++ events)) = lastOf i (allWrites events) := by
  have hnone : lastOf i (allWrites es) = none := by
    refine List.find?_eq_none.mpr fun w hmem => ?_
    obtain ⟨x, hx, hxw⟩ := List.mem_filterMap.mp hmem
    simpa using hw x hx w hxw
  rw [allWrites_append, lastOf, List.find?_append]
  rw [lastOf] at hnone
  rw [hnone]
  rfl

/-- What happens afterwards changes nothing for an entry, if the channel does nothing more. -/
theorem Queued.append (h : Queued i record events) (es : List Event)
    (hq : .queued i record ∉ es) (hw : ∀ x ∈ es, ∀ w, x.write? = some w → w.channel ≠ i) :
    Queued i record (es ++ events) := by
  have hsince :
      since (.queued i record) (es ++ events) = es ++ since (.queued i record) events := by
    refine List.takeWhile_append_of_pos fun x hx => ?_
    simp only [ne_eq, decide_not, Bool.not_eq_eq_eq_not, Bool.not_true, decide_eq_false_iff_not]
    rintro rfl
    exact hq hx
  refine ⟨List.mem_append_right _ h.queued, ?_, fun x hx w hxw => ?_⟩
  · rw [lastOf_allWrites_append hw]
    exact h.written
  · rw [hsince] at hx
    rcases List.mem_append.mp hx with hx | hx
    · exact hw x hx w hxw
    · exact h.silent x hx w hxw

/-- If the instance was registered since the entry was queued, the last write is not the one of the
entry's channel. -/
theorem Queued.head_of_registers (h : Queued i record events) {id : InstanceId} {x : Event}
    (hx : x ∈ since (.queued i record) events) (hr : x.registers id = true) :
    ∃ w ws, writes id events = w :: ws ∧ w.channel ≠ i := by
  obtain ⟨w, hw, hid⟩ := write?_of_registers hr
  have hmem : w ∈ writes id (since (.queued i record) events) := by
    simp only [writes, about, List.mem_filter, decide_eq_true_eq]
    exact ⟨List.mem_filterMap.mpr ⟨x, hx, hw⟩, hid⟩
  obtain ⟨a, as, has⟩ := List.exists_cons_of_ne_nil (List.ne_nil_of_mem hmem)
  have hsplit : since (.queued i record) events ++ events.dropWhile (· ≠ .queued i record) =
      events := List.takeWhile_append_dropWhile
  refine ⟨a, as ++ writes id (events.dropWhile (· ≠ .queued i record)), ?_, ?_⟩
  · conv => lhs; rw [← hsplit, writes_append, has]
    rfl
  · have ha : a ∈ writes id (since (.queued i record) events) := has ▸ List.mem_cons_self
    obtain ⟨y, hy, hya⟩ := List.mem_filterMap.mp (List.mem_filter.mp ha).1
    exact h.silent y hy a hya

/-- If the instance was registered since the entry was queued, the last write has the version of the
entry's channel without being its own. -/
theorem Taking.versionAgain (h : Taking i e l events) {x : Event}
    (hx : x ∈ since (.queued i e.record) events) (hr : x.registers e.record.id = true) :
    ∃ a newer v older, writes e.record.id events = a :: newer ++ v :: older ∧
      (writes e.record.id events).takeWhile (·.channel ≠ i) = a :: newer ∧
      a.version = v.version := by
  obtain ⟨a, ws, hws, ha⟩ := h.entry.head_of_registers hx hr
  obtain ⟨v, hv, hvrecord⟩ := h.entry.written
  have hlast : lastOf i (writes e.record.id events) = some v := by
    rw [writes, lastOf_about, hv]
    intro u hu
    rw [hv] at hu
    cases hu
    rw [hvrecord]
  have hsame : a.version = v.version := by
    obtain ⟨u, hu, hul⟩ := h.latest
    rw [hws] at hu
    cases hu
    have hal : a.version = l.version := congrArg Record.version hul
    have hve : v.version = e.record.version := congrArg Record.version hvrecord
    rw [hal, hve, h.version]
  obtain ⟨hchannel, newer, older, hsplit, hnewer⟩ := List.find?_eq_some_iff_append.mp hlast
  have htake : (writes e.record.id events).takeWhile (·.channel ≠ i) = newer := by
    rw [hsplit, List.takeWhile_append_of_pos (by simpa using hnewer),
      List.takeWhile_cons_of_neg (by simpa using hchannel), List.append_nil]
  cases newer with
  | nil =>
    rw [hws] at hsplit
    cases hsplit
    exact absurd (by simpa using hchannel) ha
  | cons b newer =>
    obtain rfl : a = b := (List.cons.inj (hws.symm.trans hsplit)).1
    exact ⟨a, newer, v, older, hsplit, htake, hsame⟩

theorem Taking.createdAnew (h : Taking i e l events) {x : Event}
    (hx : x ∈ since (.queued i e.record) events) (hr : x.registers e.record.id = true) :
    CreatedAnew i e.record.id events := by
  obtain ⟨a, newer, v, older, hsplit, htake, hsame⟩ := h.versionAgain hx hr
  rw [CreatedAnew, htake]
  by_cases hnew : ∃ w ∈ a :: newer, w.creates = true
  · exact hnew
  · have hlt : v.version < a.version := by
      refine (hsplit ▸ h.numbered).lt_of_not_created (fun u hu => ?_) a List.mem_cons_self
      exact Bool.not_eq_true _ ▸ fun hcreates => hnew ⟨u, hu, hcreates⟩
    rw [hsame] at hlt
    exact absurd hlt (UInt64.lt_irrefl _)

/-- An instance whose versions are all different was not registered since the entry was queued. -/
theorem Taking.not_registers_of_nodup (h : Taking i e l events)
    (hn : ((writes e.record.id events).map (·.version)).Nodup) {x : Event}
    (hx : x ∈ since (.queued i e.record) events) : x.registers e.record.id = false := by
  rw [← Bool.not_eq_true]
  intro hr
  obtain ⟨a, newer, v, older, hsplit, -, hsame⟩ := h.versionAgain hx hr
  rw [hsplit, List.cons_append, List.map_cons, hsame] at hn
  exact (List.nodup_cons.mp hn).1 (List.mem_map.mpr ⟨v, by simp, rfl⟩)

theorem Queued.append_asked (h : Queued i record events) {j : Nat} {m : ClientMessage}
    {asks : List Asked} (hj : asks.filterMap accepted? ≠ [] → j ≠ i) :
    Queued i record ((asks.map (.asked j m)).reverse ++ events) := by
  refine h.append _ (by simp) fun x hx w hxw => ?_
  obtain ⟨y, hy, rfl⟩ := List.mem_map.mp (List.mem_reverse.mp hx)
  obtain ⟨v, hv, rfl⟩ := Option.map_eq_some_iff.mp hxw
  exact hj (List.ne_nil_of_mem (List.mem_filterMap.mpr ⟨y, hy, hv⟩))

theorem Queued.append_takings (h : Queued i record events) (now : Time) (s : Store)
    (due : List Tagged) : Queued i record ((takings now s due).reverse ++ events) := by
  refine h.append _ (fun hx => ?_) fun x hx w hxw => ?_
  · obtain ⟨j, e, l, he⟩ := mem_takings (List.mem_reverse.mp hx)
    cases he
  · obtain ⟨j, e, l, rfl⟩ := mem_takings (List.mem_reverse.mp hx)
    cases hxw

theorem Accounted.append (h : Accounted events) (hes : ∀ x ∈ es, ∀ i e l, x ≠ .taken i e l) :
    Accounted (es ++ events) := by
  induction es with
  | nil => exact h
  | cons x es ih =>
    refine ⟨fun i e l hx => absurd hx (hes x List.mem_cons_self i e l), ih fun y hy => ?_⟩
    exact hes y (List.mem_cons_of_mem _ hy)

theorem evictIf_eq_some {s : Store} {id : InstanceId} {due : Lease → Bool} {now : Time}
    (h : (s.evictIf id due now).1 = some l) :
    ∃ m, s.lease? id = some m ∧ due m = true ∧ l = m.markEvicted now := by
  unfold Store.evictIf at h
  split at h
  · cases h
  · split at h
    · cases h
      exact ⟨_, ‹_›, ‹_›, rfl⟩
    · cases h

/-- A pass adds takings only. -/
theorem Accounted.takings {s : Store} {due : List Tagged} (h : Accounted events)
    (hs : s.WellFormed)
    (hlatest : ∀ id l, s.lease? id = some l →
      ∃ w, (writes id events).head? = some w ∧ w.record = l.record)
    (hnumbered : ∀ id, Numbered (writes id events))
    (hdue : ∀ t ∈ due, Queued t.1 t.2.record events) (now : Time) :
    Accounted ((takings now s due).reverse ++ events) := by
  induction due generalizing s events with
  | nil => exact h
  | cons t due ih =>
    obtain ⟨i, e⟩ := t
    have he := Evicts.evictIf hs e.record.id (fun l => l.version == e.record.version) now
    have hkeeps := he.keepsRecords
    have hlatest' : ∀ id l,
        (s.evictIfVersion e.record.id e.record.version now).2.lease? id = some l →
        ∃ w, (writes id events).head? = some w ∧ w.record = l.record := by
      intro id l' hl'
      obtain ⟨l, hl, hr⟩ := hkeeps id l' hl'
      obtain ⟨w, hw, hwl⟩ := hlatest id l hl
      exact ⟨w, hw, hwl.trans hr.symm⟩
    simp only [LeaseRegistry.takings]
    cases hl : (s.evictIfVersion e.record.id e.record.version now).1 with
    | none =>
      exact ih h he.wellFormed hlatest' hnumbered fun t ht => hdue t (List.mem_cons_of_mem _ ht)
    | some l =>
      obtain ⟨m, hm, hversion, rfl⟩ := evictIf_eq_some hl
      have hversion : m.version = e.record.version := by simpa using hversion
      have htaking : Taking i e (m.markEvicted now) events :=
        ⟨hdue _ List.mem_cons_self, hlatest _ m hm, hversion, hnumbered _⟩
      have hacc : Accounted (.taken i e (m.markEvicted now) :: events) := by
        refine ⟨fun j e' l' hx => ?_, h⟩
        cases hx
        exact htaking
      have hdue' : ∀ t ∈ due, Queued t.1 t.2.record (.taken i e (m.markEvicted now) :: events) := by
        intro t ht
        refine (hdue t (List.mem_cons_of_mem _ ht)).append [_] (by simp) fun x hx w hw => ?_
        rw [List.mem_singleton.mp hx] at hw
        cases hw
      have hrest := ih hacc he.wellFormed hlatest' hnumbered hdue'
      simp only [Option.toList_some, List.map_cons, List.map_nil, List.singleton_append,
        List.reverse_cons, List.append_assoc]
      exact hrest

end History

open History

/-! ## Along a run -/

namespace Channel

variable {c c' : Channel} {s s' : Store} {asks : List Asked}
  (h : Quiet c s c' s' asks ∨ ∃ w, Wrote w c s c' s' asks)
include h

theorem not_closed_of_accepted (ha : asks.filterMap accepted? ≠ []) : c.state ≠ .closed := by
  rcases h with hq | ⟨w, hw⟩
  · exact absurd hq.asks ha
  · rcases hw.origin with hidle | ⟨hregistered, -⟩
    · simp [hidle]
    · simp [hregistered]

theorem stays_closed (hc : c.state = .closed) : c'.state = .closed := by
  rcases h with hq | ⟨w, hw⟩
  · rcases hq.state with hs | hs
    · exact hs.trans hc
    · exact hs
  · refine absurd hc (not_closed_of_accepted (.inr ⟨w, hw⟩) ?_)
    simp [hw.asks]

end Channel

namespace Chronicle

/-- The entries that wait are the last records of channels that are closed, and what entries took
is accounted for. -/
structure Ledger (h : Chronicle) : Prop where
  tallies : h.Tallies
  queued : ∀ t ∈ h.queue, Queued t.1 t.2.record h.events
  closed : ∀ t ∈ h.queue, ∃ c, h.node.channels[t.1]? = some c ∧ c.state = .closed
  accounted : Accounted h.events

variable {h : Chronicle}

theorem ledger_start (settings : Preservation.Settings) (delay : Millis) (now : Time) :
    (start settings delay now).Ledger :=
  ⟨tallies_start settings delay now, by simp [start], by simp [start], trivial⟩

theorem Ledger.connect (hh : h.Ledger) : (h.act .connect).Ledger := by
  refine ⟨hh.tallies.act .connect, hh.queued, fun t ht => ?_, hh.accounted⟩
  obtain ⟨c, hc, hclosed⟩ := hh.closed t ht
  refine ⟨c, ?_, hclosed⟩
  exact (List.getElem?_append_left (List.getElem?_eq_some_iff.mp hc).1).trans hc

theorem Ledger.message (hh : h.Ledger) (i : Nat) (m : ClientMessage) :
    (h.act (.message i m)).Ledger := by
  have htallies := hh.tallies.act (.message i m)
  cases hc : h.node.channels[i]? with
  | none =>
    have hnode : (h.act (.message i m)).node = h.node := by
      simp only [node_act, Node.act, hc]
    have hevents : (h.act (.message i m)).events = h.events := by
      simp only [Chronicle.act, hc]
      rfl
    refine ⟨htallies, ?_, ?_, ?_⟩
    · rw [hevents]
      exact hh.queued
    · rw [hnode]
      exact hh.closed
    · rw [hevents]
      exact hh.accounted
  | some c =>
    obtain ⟨-, -, hcases⟩ :=
      Channel.quiet_or_wrote_alone hh.tallies.wellFormed h.node.now m c h.node.desk
    have hevents : (h.act (.message i m)).events =
        ((c.asks h.node.now m h.node.desk h.node.registry).map (.asked i m)).reverse ++
          h.events := by
      simp only [Chronicle.act, hc]
    have hchannels : (h.act (.message i m)).node.channels =
        h.node.channels.set i (c.run .alone h.node.now m h.node.desk h.node.registry).2.1 := by
      simp only [node_act, Node.act, hc]
    refine ⟨htallies, fun t ht => ?_, fun t ht => ?_, ?_⟩
    · rw [hevents]
      refine (hh.queued t ht).append_asked fun ha hi => ?_
      obtain ⟨c', hc', hclosed⟩ := hh.closed t ht
      rw [← hi, hc] at hc'
      cases hc'
      exact Channel.not_closed_of_accepted hcases ha hclosed
    · obtain ⟨c', hc', hclosed⟩ := hh.closed t ht
      rw [hchannels, List.getElem?_set]
      by_cases hi : i = t.1
      · rw [← hi, hc] at hc'
        cases hc'
        rw [if_pos hi, if_pos (List.getElem?_eq_some_iff.mp hc).1]
        exact ⟨_, rfl, Channel.stays_closed hcases hclosed⟩
      · rw [if_neg hi]
        exact ⟨c', hc', hclosed⟩
    · rw [hevents]
      refine hh.accounted.append fun x hx j e l he => ?_
      subst he
      simp at hx

/-- A channel that is closed, or whose connection goes away, is closed. -/
theorem closed_disconnect {i j : Nat} {c : Channel} (hc : h.node.channels[j]? = some c)
    (hj : c.state = .closed ∨ j = i) :
    ∃ c', (h.act (.disconnect i)).node.channels[j]? = some c' ∧ c'.state = .closed := by
  by_cases hi : i = j
  · subst hi
    have hchannels : (h.act (.disconnect i)).node.channels =
        h.node.channels.set i { c with state := .closed } := by
      simp only [node_act, Node.act, hc, Channel.connectionClosed_fst]
    refine ⟨{ c with state := .closed }, ?_, rfl⟩
    rw [hchannels, List.getElem?_set_self (List.getElem?_eq_some_iff.mp hc).1]
  · have hchannels : (h.act (.disconnect i)).node.channels[j]? = h.node.channels[j]? := by
      simp only [node_act, Node.act]
      split
      · rfl
      · exact List.getElem?_set_ne hi
    exact ⟨c, hchannels.trans hc, hj.resolve_right fun he => hi he.symm⟩

theorem Ledger.disconnect (hh : h.Ledger) (i : Nat) : (h.act (.disconnect i)).Ledger := by
  have htallies := hh.tallies.act (.disconnect i)
  have hclosed : ∀ t ∈ h.queue, ∃ c, (h.act (.disconnect i)).node.channels[t.1]? = some c ∧
      c.state = .closed := by
    intro t ht
    obtain ⟨c, hc, hs⟩ := hh.closed t ht
    exact closed_disconnect hc (.inl hs)
  cases hl : h.node.channels[i]?.bind Channel.left? with
  | none =>
    have hqueue : (h.act (.disconnect i)).queue = h.queue := by
      simp only [Chronicle.act, hl]
    have hevents : (h.act (.disconnect i)).events = h.events := by
      simp only [Chronicle.act, hl]
    exact ⟨htallies, hqueue ▸ hevents ▸ hh.queued, hqueue ▸ hclosed, hevents ▸ hh.accounted⟩
  | some record =>
    obtain ⟨c, hc, hleft⟩ := Option.bind_eq_some_iff.mp hl
    obtain ⟨hregistered, hcurrent⟩ := Channel.left?_eq_some.mp hleft
    have hevents : (h.act (.disconnect i)).events = .queued i record :: h.events := by
      simp only [Chronicle.act, hl]
    have hqueue : ∀ t ∈ (h.act (.disconnect i)).queue,
        t ∈ h.queue ∨ t.1 = i ∧ t.2.record = record := by
      intro t ht
      simp only [Chronicle.act, hl, List.mem_append, List.mem_singleton] at ht
      rcases ht with ht | rfl
      · exact .inl ht
      · exact .inr ⟨rfl, rfl⟩
    refine ⟨htallies, fun t ht => ?_, fun t ht => ?_, ?_⟩
    · rw [hevents]
      rcases hqueue t ht with hold | ⟨rfl, rfl⟩
      · have hother : i ≠ t.1 := by
          rintro rfl
          obtain ⟨c', hc', hs⟩ := hh.closed t hold
          rw [hc] at hc'
          cases hc'
          rw [hregistered] at hs
          cases hs
        refine (hh.queued t hold).append [_] (by simp [hother.symm]) fun x hx w hw => ?_
        rw [List.mem_singleton.mp hx] at hw
        cases hw
      · refine ⟨List.mem_cons_self, ?_, ?_⟩
        · exact (hh.tallies.remembers t.1 c hc).current _ hcurrent
        · simp [since]
    · rcases hqueue t ht with ht | ⟨rfl, -⟩
      · exact hclosed t ht
      · exact closed_disconnect hc (.inr rfl)
    · rw [hevents]
      refine ⟨fun j e l he => ?_, hh.accounted⟩
      cases he

theorem Ledger.evict (hh : h.Ledger) : (h.act .evict).Ledger := by
  have htallies := hh.tallies.act .evict
  have hchannels : (h.act .evict).node.channels = h.node.channels := by
    rw [node_act]
    rfl
  cases ho : (evictionPass h.node.registry.store h.node.registry.preservation h.node.desk.queue
      h.node.now).1 with
  | suppressed candidates verdict =>
    have hqueue : ∀ t ∈ (h.act .evict).queue, t ∈ h.queue := by
      intro t ht
      simp only [Chronicle.act, ho, List.mem_append, List.mem_filter] at ht
      exact ht.elim And.left And.left
    have hevents : (h.act .evict).events = h.events := by
      simp only [Chronicle.act, ho]
    refine ⟨htallies, fun t ht => ?_, fun t ht => ?_, ?_⟩
    · rw [hevents]
      exact hh.queued t (hqueue t ht)
    · rw [hchannels]
      exact hh.closed t (hqueue t ht)
    · rw [hevents]
      exact hh.accounted
  | evicted leases =>
    have hqueue : ∀ t ∈ (h.act .evict).queue, t ∈ h.queue := by
      intro t ht
      simp only [Chronicle.act, ho, List.mem_filter] at ht
      exact ht.1
    have he := evicts_evictExpired hh.tallies.wellFormed
      (h.node.registry.store.expired h.node.now) h.node.now
    have hevents : ∃ due, (∀ t ∈ due, t ∈ h.queue) ∧ (h.act .evict).events =
        (takings h.node.now (h.node.registry.store.evictExpired
          (h.node.registry.store.expired h.node.now) h.node.now).2 due).reverse ++ h.events := by
      refine ⟨h.queue.filter (·.2.isDue h.node.now), fun t ht => (List.mem_filter.mp ht).1, ?_⟩
      simp only [Chronicle.act, ho]
    obtain ⟨due, hdue, hevents⟩ := hevents
    have hkept := hh.tallies.keeps he.wellFormed he.keepsRecords
    refine ⟨htallies, fun t ht => ?_, fun t ht => ?_, ?_⟩
    · rw [hevents]
      exact (hh.queued t (hqueue t ht)).append_takings ..
    · rw [hchannels]
      exact hh.closed t (hqueue t ht)
    · rw [hevents]
      exact hh.accounted.takings he.wellFormed hkept.latest hkept.numbered
        (fun t ht => hh.queued t (hdue t ht)) h.node.now

theorem Ledger.act (hh : h.Ledger) (a : Node.Act) : (h.act a).Ledger := by
  cases a with
  | connect => exact hh.connect
  | message i m => exact hh.message i m
  | disconnect i => exact hh.disconnect i
  | clock now => exact ⟨hh.tallies.act _, hh.queued, hh.closed, hh.accounted⟩
  | evict => exact hh.evict

theorem Ledger.run (hh : h.Ledger) (acts : List Node.Act) : (h.run acts).Ledger := by
  induction acts generalizing h with
  | nil => exact hh
  | cons a acts ih => exact ih (hh.act a)

/-- Over any run of a node, an entry only ever takes a lease that was registered after it was queued
if the lease was also created anew after the entry's channel last wrote it, and it never does as long
as no two writes of an instance have the same version. -/
theorem cancelled_iff (settings : Preservation.Settings) (delay : Millis) (now : Time)
    (acts : List Node.Act) :
    let events := ((start settings delay now).run acts).events
    (Cancelled events ↔
      ∀ later i e l earlier, events = later ++ .taken i e l :: earlier →
        CreatedAnew i e.record.id earlier →
          ∀ x ∈ since (.queued i e.record) earlier, x.registers e.record.id = false) ∧
    ((∀ id, ((writes id events).map (·.version)).Nodup) → Cancelled events) := by
  intro events
  have haccounted := ((ledger_start settings delay now).run acts).accounted
  refine ⟨⟨?_, ?_⟩, ?_⟩
  · intro h later i e l earlier heq _
    exact h later i e l earlier heq
  · intro h later i e l earlier heq x hx
    cases hr : x.registers e.record.id with
    | false => rfl
    | true =>
      have hnew := (haccounted.taking heq).createdAnew hx hr
      exact hr.symm.trans (h later i e l earlier heq hnew x hx)
  · intro hn later i e l earlier heq x hx
    have hearlier : ((writes e.record.id earlier).map (·.version)).Nodup := by
      have hall := hn e.record.id
      have hsplit : later ++ .taken i e l :: earlier = (later ++ [.taken i e l]) ++ earlier := by
        simp
      rw [heq, hsplit, writes_append, List.map_append] at hall
      exact (List.nodup_append.mp hall).2.1
    exact (haccounted.taking heq).not_registers_of_nodup hearlier hx

/-- An instance whose lease expires before its connection's entry is due comes back on another
connection. -/
def cameBack : List Node.Act :=
  let record := { Record.bare ⟨"web"⟩ "shop" with lease := ⟨1, 1⟩ }
  [.connect, .connect, .message 0 (.register record), .disconnect 0, .clock 1000, .evict,
    .message 1 (.register { record with lease := ⟨200, 30⟩ }), .clock 90000, .evict]

/-- The entry takes the lease that was registered after it was queued. -/
theorem not_cancelled_cameBack :
    let events := ((start ⟨false, 0, 60000⟩ 90000 0).run cameBack).events
    ¬Cancelled events := by
  intro events h
  let record := ({ Record.bare ⟨"web"⟩ "shop" with lease := ⟨1, 1⟩ } : Record).atVersion 1
  let lease : Lease := ⟨{ record with lease := ⟨200, 30⟩ }, .here, 1000, 1000, some 90000, 200⟩
  have hsplit : events = [] ++ .taken 0 ⟨record, .here, 90000⟩ lease :: events.tail := by
    decide +kernel
  have hnone := h [] 0 ⟨record, .here, 90000⟩ lease events.tail hsplit
  revert hnone
  decide +kernel

end Chronicle

end LeaseRegistry
