import LeaseRegistry.Proofs.Channel.Lifecycle
import LeaseRegistry.Proofs.Data.List
import LeaseRegistry.Proofs.Store.Listing

/-!
# What unregistering leaves behind

An unregister is acknowledged whatever the registry makes of it, and the registry keeps a lease that
is newer than the channel's record. `Store.Reflects` relates the store to the journal: what is
stored of an instance is what was last written of it. So the lease remains exactly if the last
record of the instance was written elsewhere and is newer than the channel's:
`Journal.lease_remains_iff`.
-/

namespace LeaseRegistry

open Channel Service

/-! ## The store and the journal -/

theorem Slot.unregister_eq_some {version : Version} {slot : Slot} {l : Lease} :
    (Slot.unregister version slot).2 = some l ↔ slot = some l ∧ version < l.version := by
  cases slot with
  | none => simp [unregister]
  | some l' =>
    simp only [unregister]
    split
    · exact ⟨fun h => ⟨h, Option.some.inj h ▸ ‹_›⟩, (·.1)⟩
    · constructor
      · intro h
        cases h
      · rintro ⟨h, hlt⟩
        exact absurd (Option.some.inj h ▸ hlt) ‹_›

def lastAbout (id : InstanceId) (ps : List Posting) : Option Posting :=
  ps.find? (·.record.id = id)

/-- The last posting about an instance that a channel made. -/
def lastOfChannels (id : InstanceId) (ps : List Posting) : Option Posting :=
  ps.find? fun p => p.author ≠ .elsewhere ∧ p.record.id = id

section

variable {id : InstanceId} {p : Posting} {ps : List Posting}

theorem lastAbout_cons_self (h : p.record.id = id) (ps : List Posting) :
    lastAbout id (p :: ps) = some p := by
  simp [lastAbout, h]

theorem lastAbout_cons_of_ne (h : p.record.id ≠ id) (ps : List Posting) :
    lastAbout id (p :: ps) = lastAbout id ps := by
  simp [lastAbout, h]

end

namespace Store

variable {s s' : Store} {ps : List Posting}

/-- What is stored of an instance is what was last written of it. -/
structure Reflects (s : Store) (ps : List Posting) : Prop where
  wellFormed : s.WellFormed
  latest : ∀ id p l, lastAbout id ps = some p → s.lease? id = some l → l.record = p.record

theorem Reflects.start (hs : s.WellFormed) : s.Reflects [] := ⟨hs, fun _ _ _ hp => by cases hp⟩

theorem Reflects.keeps (h : s.Reflects ps) (hs' : s'.WellFormed) (hk : s.KeepsRecords s') :
    s'.Reflects ps := by
  refine ⟨hs', fun id p l' hp hl' => ?_⟩
  obtain ⟨l, hl, hr⟩ := hk id l' hl'
  exact hr.trans (h.latest id p l hp hl)

theorem Reflects.took (h : s.Reflects ps) (hs' : s'.WellFormed) {w : Accepted} (hw : s.Took w s')
    (author : Author) : s'.Reflects (⟨author, w.record⟩ :: ps) := by
  refine ⟨hs', fun id p l hp hl => ?_⟩
  by_cases hid : w.record.id = id
  · subst hid
    rw [lastAbout_cons_self (p := ⟨author, w.record⟩) rfl] at hp
    cases hp
    obtain ⟨l', hl', hr⟩ := hw.held
    rw [hl] at hl'
    cases hl'
    exact hr
  · rw [lastAbout_cons_of_ne (p := ⟨author, w.record⟩) hid] at hp
    rw [hw.others id (Ne.symm hid)] at hl
    exact h.latest id p l hp hl

theorem Reflects.serves {g g' : Registry} {asks : List Asked} (h : g.store.Reflects ps)
    (hserves : g.Serves asks g') (author : Author) :
    g'.store.Reflects
      (((asks.filterMap accepted?).map fun w => ⟨author, w.record⟩).reverse ++ ps) := by
  induction hserves generalizing ps with
  | nil => exact h
  | @cons g g₁ g' time r a asks ofChannel first rest ih =>
    have hwf := Registry.wellFormed_handle h.wellFormed time r first
    rcases Registry.took_or_keeps h.wellFormed ofChannel first with
      ⟨hnone, hkeeps, -⟩ | ⟨w, hw, -, htook⟩
    · rw [List.filterMap_cons_none hnone]
      exact ih (h.keeps hwf hkeeps)
    · rw [List.filterMap_cons_some hw, List.map_cons, List.reverse_cons, List.append_assoc]
      exact ih (h.took hwf htook author)

theorem Reflects.elsewhere (h : s.Reflects ps) (hs' : s'.WellFormed) :
    s'.Reflects (((s.news s').map (Posting.mk .elsewhere)).reverse ++ ps) := by
  refine ⟨hs', fun id p l hp hl => ?_⟩
  have hstored : s'.record? id = some l.record := by
    rw [record?, hl]
    rfl
  have hid : l.record.id = id := hs'.id_of_record? hstored
  have hlisted : l.record ∈ s'.snapshot := hs'.mem_snapshot_iff.mpr (hid ▸ hstored)
  unfold lastAbout at hp
  rw [List.find?_append] at hp
  cases hnew : ((s.news s').map (Posting.mk .elsewhere)).reverse.find? (·.record.id = id) with
  | some q =>
    rw [hnew] at hp
    cases hp
    have hq := List.mem_of_find?_eq_some hnew
    have hqid := List.find?_some hnew
    simp only [decide_eq_true_eq] at hqid
    obtain ⟨r, hr, rfl⟩ := List.mem_map.mp (List.mem_reverse.mp hq)
    have hr' := hs'.mem_snapshot_iff.mp (List.mem_filter.mp hr).1
    simp only at hqid
    rw [hqid, hstored] at hr'
    exact Option.some.inj hr'
  | none =>
    rw [hnew, Option.none_or] at hp
    -- Nothing new was written of the instance, so its record was there before.
    have hold : s.record? l.record.id = some l.record := by
      refine Decidable.byContradiction fun hne => ?_
      have hmem : l.record ∈ s.news s' := List.mem_filter.mpr ⟨hlisted, by simpa using hne⟩
      have := List.find?_eq_none.mp hnew ⟨.elsewhere, l.record⟩
        (List.mem_reverse.mpr (List.mem_map.mpr ⟨_, hmem, rfl⟩))
      simp [hid] at this
    rw [hid, record?, Option.map_eq_some_iff] at hold
    obtain ⟨l₀, hl₀, hr⟩ := hold
    exact hr.symm.trans (h.latest id p l₀ hp hl₀)

end Store

/-! ## Along a run -/

namespace Service

variable {ρ : Type}

/-- Whatever happens elsewhere leaves a well-formed store. -/
def Act.KeepsWellFormed (h : Host ρ) : Act ρ → Prop
  | .elsewhere change =>
    ∀ x : ρ × EvictionQueue, (h.store x.1).WellFormed → (h.store (change x).1).WellFormed
  | _ => True

end Service

namespace Journal

variable {ρ : Type} {j : Journal ρ} {h : Host ρ}

theorem reflects_act (hj : (h.store j.service.host).Reflects j.postings) {a : Act ρ}
    (ha : a.KeepsWellFormed h) :
    (h.store (j.act h a).service.host).Reflects (j.act h a).postings := by
  cases a with
  | operate i x =>
    cases hc : j.service.channel? i with
    | none =>
      simp only [Journal.act, Service.act, onChannel, posted, hc]
      exact hj
    | some c =>
      have hserves := serves_operate h j.service.now c j.service.desk j.service.host x
      have hlisted :=
        c.operate_listing h.toBackend j.service.now j.service.desk j.service.host x []
      simp only [Journal.act, Service.act, onChannel, posted, hc, hlisted]
      exact hj.serves hserves (.channel i)
  | elsewhere change => exact hj.elsewhere (ha _ hj.wellFormed)
  | connect => exact hj
  | disconnect i =>
    cases hc : j.service.channel? i <;> simp only [Journal.act, Service.act, onChannel, hc] <;>
      exact hj
  | drop i =>
    cases hc : j.service.channel? i <;> simp only [Journal.act, Service.act, onChannel, hc] <;>
      exact hj
  | reachable i b =>
    cases hc : j.service.channel? i <;> simp only [Journal.act, Service.act, onChannel, hc] <;>
      exact hj
  | clock now => exact hj

theorem reflects_run {g : ρ} (hg : (h.store g).WellFormed) (delay : Millis) (now : Time)
    {acts : List (Act ρ)} (hacts : ∀ a ∈ acts, a.KeepsWellFormed h) :
    let j := (start g delay now).run h acts
    (h.store j.service.host).Reflects j.postings := by
  have hstart : (h.store (start g delay now).service.host).Reflects
      (start g delay now).postings := .start hg
  generalize start g delay now = j at hstart ⊢
  induction acts generalizing j with
  | nil => exact hstart
  | cons a acts ih =>
    exact ih (fun b hb => hacts b (List.mem_cons_of_mem _ hb)) (j.act h a)
      (reflects_act hstart (hacts a List.mem_cons_self))

end Journal

/-! ## The unregister -/

namespace Channel

/-- An unregister of a registered channel is acknowledged. A lease of the instance remains exactly
if it is newer than the channel's record. -/
theorem unregister_registered {ρ : Type} (h : Host ρ) (now : Time) {c : Channel} (d : Desk) {g : ρ}
    (hg : (h.store g).WellFormed) {r : Record} (hs : c.state = .registered)
    (hr : c.current = some r) :
    let (result, c', _, g') := c.run h.toBackend now .unregister d g
    result = .ok () ∧ c'.state = .closed ∧ c'.replies = (c.reply .ack).replies ∧
      ∀ l, (h.store g').lease? r.id = some l ↔
        (h.store g).lease? r.id = some l ∧ c.version < l.version := by
  have hcurrent : c.registered? = .ok r := registered?_eq_ok.mpr ⟨hs, hr⟩
  have hran := ran_run h.toBackend now .unregister c d g
  generalize c.run h.toBackend now .unregister d g = res at hran ⊢
  cases hran with
  | refused he =>
    simp only [refusal?, hcurrent] at he
    cases he
  | unregistrationFailed current asked => exact absurd asked (Host.not_failed rfl rfl)
  | @unregistered record a g' current asked hn =>
    rw [hcurrent] at current
    cases current
    obtain ⟨time, htime⟩ := h.handle_eq asked
    have hlease := Registry.lease?_handle hg time (.unregister r.id c.version .here) r.id
    have hstore : ((h.registry g).handle time (.unregister r.id c.version .here)).2.store =
        h.store g' := by
      rw [htime]
      rfl
    simp only [hstore, Request.id, Slot.handle, if_pos] at hlease
    refine ⟨rfl, (core_reply _ _).2.2, replies_reply (by rfl) (by rfl) .ack, fun l => ?_⟩
    rw [hlease]
    exact Slot.unregister_eq_some

end Channel

namespace Journal

variable {ρ : Type} {h : Host ρ} {g : ρ} (delay : Millis) (now : Time) {acts : List (Act ρ)}

/-- A registered channel holds the record that it wrote last. -/
theorem lastOf_of_registered {i : Nat} {c : Channel} {r : Record}
    (hc : ((start g delay now).run h acts).service.channel? i = some c)
    (hs : c.state = .registered) (hr : c.current = some r) :
    c.version = r.version ∧
      ∃ p, ((start g delay now).run h acts).postings.find? (·.author = .channel i) = some p ∧
        p.record = r := by
  have hrecalls := (coherent_run h g delay now acts).recalls i c hc
  obtain ⟨r', hr', hhead, -⟩ := hrecalls.registered hs
  obtain rfl : r = r' := Option.some.inj (hr.symm.trans hr')
  refine ⟨by rw [hrecalls.version, hhead]; rfl, ?_⟩
  rw [writtenBy, List.head?_map, List.head?_filter, Option.map_eq_some_iff] at hhead
  exact hhead

/-- If no other channel has written the instance since a channel that is registered with it did, the
channel's unregister is acknowledged, and then the lease remains exactly if it holds a newer record
that was written elsewhere. -/
theorem lease_remains_iff (hg : (h.store g).WellFormed) (hacts : ∀ a ∈ acts, a.KeepsWellFormed h)
    {i : Nat} {c : Channel} {r : Record} :
    let j := (start g delay now).run h acts
    let s := j.service
    s.channel? i = some c → c.state = .registered → c.current = some r →
    (lastOfChannels r.id j.postings).map (·.author) = some (.channel i) →
    let (result, c', _, g') := c.run h.toBackend s.now .unregister s.desk s.host
    result = .ok () ∧ c'.state = .closed ∧ c'.replies = (c.reply .ack).replies ∧
      ((h.store g').lease? r.id ≠ none ↔
        ∃ p, lastAbout r.id j.postings = some p ∧ p.author = .elsewhere ∧
          (h.store s.host).record? r.id = some p.record ∧ r.version < p.record.version) := by
  intro j s hc hs hr hlast
  have hreflects := reflects_run hg delay now hacts
  obtain ⟨hversion, q, hq, rfl⟩ := lastOf_of_registered delay now hc hs hr
  have hrun := unregister_registered h s.now s.desk hreflects.wellFormed hs hr
  generalize c.run h.toBackend s.now .unregister s.desk s.host = res at hrun ⊢
  obtain ⟨result, c', d', g'⟩ := res
  obtain ⟨hresult, hstate, hreplies, hlease⟩ := hrun
  refine ⟨hresult, hstate, hreplies, ⟨fun hne => ?_, ?_⟩⟩
  · obtain ⟨l, hl⟩ := Option.ne_none_iff_exists'.mp hne
    obtain ⟨hl, hlt⟩ := (hlease l).mp hl
    -- The channel wrote the instance, so something was written of it last.
    obtain ⟨p, hp⟩ : ∃ p, lastAbout q.record.id j.postings = some p := by
      refine Option.isSome_iff_exists.mp (List.find?_isSome.mpr ⟨q, ?_, by simp⟩)
      exact List.mem_of_find?_eq_some hq
    have hrecord := hreflects.latest _ p l hp hl
    have hstored : (h.store s.host).record? q.record.id = some p.record := by
      rw [Store.record?, hl, Option.map_some, hrecord]
    have hnewer : q.record.version < p.record.version := by
      rw [← hversion, ← hrecord]
      exact hlt
    refine ⟨p, hp, ?_, hstored, hnewer⟩
    refine Decidable.byContradiction fun hauthor => ?_
    -- A last writer that is a channel is this one, and what it wrote last is its record.
    obtain ⟨p', hp', hown⟩ := Option.map_eq_some_iff.mp hlast
    have hpid : p.record.id = q.record.id := by simpa using List.find?_some hp
    have hpid' := List.find?_some hp'
    simp only [ne_eq, decide_eq_true_eq] at hpid'
    obtain rfl : p = p' := eq_of_find?_eq_some hp hp' (by simp [hauthor, hpid]) (by simp [hpid'])
    obtain rfl : p = q := eq_of_find?_eq_some hp hq (by simp [hown]) (by simp)
    exact UInt64.lt_irrefl _ hnewer
  · rintro ⟨p, hp, hauthor, hstored, hnewer⟩
    obtain ⟨l, hl, hrecord⟩ := Option.map_eq_some_iff.mp hstored
    have hkept := (hlease l).mpr ⟨hl, by rw [hversion, Lease.version, hrecord]; exact hnewer⟩
    rw [hkept]
    exact Option.some_ne_none l

/-- An instance is registered on a channel, and then its status is set behind the channel's back. -/
def setUpElsewhere : List (Act Registry) :=
  [.connect, .operate 0 (.message (.register (Record.bare ⟨"web"⟩ "shop"))),
    .elsewhere fun (g, queue) => ((g.handle 0 (.statusUpdate ⟨"web"⟩ .up .here)).2, queue)]

/-- The channel is the only one that wrote the instance. Its unregister is acknowledged, and the
lease is still there. -/
theorem lease_remains_setUpElsewhere :
    let j := (start (.start .standard 0) 90000 0).run .alone setUpElsewhere
    let s := j.service
    ∃ c r, s.channel? 0 = some c ∧ c.state = .registered ∧ c.current = some r ∧
      (lastOfChannels r.id j.postings).map (·.author) = some (.channel 0) ∧
      let (result, c', _, g') := c.run .alone s.now .unregister s.desk s.host
      result = .ok () ∧ c'.replies = c.replies ++ [.ack] ∧ g'.store.lease? r.id ≠ none :=
  ⟨_, _, rfl, rfl, rfl, by decide +kernel, rfl, by decide +kernel, by decide +kernel⟩

/-- What is left is the record with the new status. -/
theorem lease_remains_iff_setUpElsewhere :
    let j := (start (.start .standard 0) 90000 0).run .alone setUpElsewhere
    let s := j.service
    ∃ c r, s.channel? 0 = some c ∧ c.state = .registered ∧ c.current = some r ∧
      (lastOfChannels r.id j.postings).map (·.author) = some (.channel 0) ∧
      ∃ p, lastAbout r.id j.postings = some p ∧ p.author = .elsewhere ∧
        s.host.store.record? r.id = some p.record ∧ r.version < p.record.version := by
  intro j s
  have hacts : ∀ a ∈ setUpElsewhere, a.KeepsWellFormed .alone := by
    intro a ha
    simp only [setUpElsewhere, List.mem_cons, List.not_mem_nil, or_false] at ha
    rcases ha with rfl | rfl | rfl
    · trivial
    · trivial
    · exact fun x hx => Registry.wellFormed_handle hx 0 (.statusUpdate ⟨"web"⟩ .up .here) rfl
  refine ⟨_, _, rfl, rfl, rfl, by decide +kernel, ?_⟩
  have hremains := lease_remains_iff (h := .alone) (g := .start .standard 0) 90000 0
    Store.wellFormed_empty hacts (i := 0) rfl rfl rfl (by decide +kernel)
  exact hremains.2.2.2.mp (by decide +kernel)

end Journal

end LeaseRegistry
