import LeaseRegistry.Cluster.Basic
import LeaseRegistry.Proofs.Server.Section
import LeaseRegistry.Proofs.Store.Invariant

/-!
# What the tasks of a server do to it

Whatever a server does, its store changes by mutations alone, its gate hears of every sync and of
nothing else, and the instance marked as its own stays the same (`Server.Section`). This holds of
each stretch between two waits of each task, and of each message that a peer sends.
-/

namespace LeaseRegistry

/-! ## Stores -/

namespace Store

/-- Mutations have made `s'` of `s`. -/
def Mutated (s s' : Store) : Prop := ∃ ms, s' = (s.run ms).2

variable {s s' s'' : Store}

theorem mutated_refl (s : Store) : s.Mutated s := ⟨[], rfl⟩

theorem mutated_mutate (s : Store) (now : Time) (m : Mutation) : s.Mutated (s.mutate now m).2 :=
  ⟨[(now, m)], rfl⟩

theorem Mutated.trans (h : s.Mutated s') (h' : s'.Mutated s'') : s.Mutated s'' := by
  obtain ⟨ms, rfl⟩ := h
  obtain ⟨ms', rfl⟩ := h'
  refine ⟨ms ++ ms', ?_⟩
  induction ms generalizing s with
  | nil => rfl
  | cons p ms ih => exact ih

theorem Sound.mutated (h : s.Sound) (hm : s.Mutated s') : s'.Sound := by
  obtain ⟨ms, rfl⟩ := hm
  exact h.run ms

theorem mutated_evictEach {α : Type} {evict : Store → α → Option Lease × Store}
    (h : ∀ (s : Store) (a : α), s.Mutated (evict s a).2) (s : Store) (as : List α) :
    s.Mutated (s.evictEach evict as).2 := by
  induction as generalizing s with
  | nil => exact s.mutated_refl
  | cons a as ih => exact (h s a).trans (ih _)

end Store

namespace Registry

variable (g : Registry)

theorem mutated_handle (now : Time) (r : Request) : g.store.Mutated (g.handle now r).2.store := by
  cases r with
  | register record source => exact g.store.mutated_mutate now (.register record source)
  | update record deltas source => exact g.store.mutated_mutate now (.update record source)
  | unregister id version source => exact g.store.mutated_mutate now (.unregister id version)
  | statusUpdate id status source =>
    simp only [handle, statusUpdate]
    cases g.store.version? id with
    | none => exact g.store.mutated_refl
    | some version =>
      exact g.store.mutated_mutate now (.statusUpdate id status (version + 1) source)
  | renew id source => exact g.store.mutated_mutate now (.renew id)

theorem mutated_adopt (origin : ServerId) (now : Time) (rs : List Record) :
    g.store.Mutated (g.adopt origin now rs).2.store := by
  induction rs generalizing g with
  | nil => exact g.store.mutated_refl
  | cons r rs ih =>
    exact (g.store.mutated_mutate now (.register r (.replicated origin))).trans (ih _)

end Registry

/-- What a message of a peer makes of a coordinator. -/
structure Coordinator.Heard (c c' : Coordinator) : Prop where
  store : c.registry.store.Mutated c'.registry.store
  rest : c' = { c with registry := c'.registry }

theorem Coordinator.heard_receive (c : Coordinator) (now : Time) (origin : ServerId)
    (m : PeerMessage) : c.Heard (c.receive now origin m).2 := by
  cases m with
  | register record =>
    exact ⟨c.registry.store.mutated_mutate now (.register record (.replicated origin)), rfl⟩
  | update id base version deltas =>
    exact ⟨c.registry.store.mutated_mutate now
      (.updateWithDeltas id base version deltas (.replicated origin)), rfl⟩
  | unregister id version =>
    exact ⟨c.registry.store.mutated_mutate now (.unregister id version), rfl⟩
  | statusUpdate id status version =>
    exact ⟨c.registry.store.mutated_mutate now
      (.statusUpdate id status version (.replicated origin)), rfl⟩
  | heartbeat id => exact ⟨c.registry.store.mutated_mutate now (.renew id), rfl⟩
  | fetchSnapshot => exact ⟨c.registry.store.mutated_refl, rfl⟩

namespace Server

/-! ## Stretches -/

/-- What happens to a server while `count` records are synced. Only if `registers` holds may it come
to know its own record. -/
structure Section (registers : Prop) (count : Nat) (s₀ s : Server) : Prop where
  store : s₀.store.Mutated s.store
  gate : s.coordinator.gate = s₀.coordinator.gate.recordSync count
  own : ∀ id, s₀.coordinator.own = some id → s.coordinator.own = some id
  peers : s.coordinator.peers = s₀.coordinator.peers
  id : s.coordinator.id = s₀.coordinator.id
  self : s.self = { s₀.self with record := s.self.record }
  record : registers ∨ s.self.record = s₀.self.record

variable {registers : Prop} {count : Nat} {s₀ s s' : Server}

theorem section_refl (registers : Prop) (s : Server) : Section registers 0 s s :=
  ⟨s.store.mutated_refl, by rw [AccessGate.recordSync, Nat.max_zero], fun _ h => h, rfl, rfl, rfl,
    .inr rfl⟩

theorem Section.trans (h : Section registers 0 s₀ s) (h' : Section registers count s s') :
    Section registers count s₀ s' where
  store := h.store.trans h'.store
  gate := by
    rw [h'.gate, h.gate, AccessGate.recordSync, AccessGate.recordSync, AccessGate.recordSync,
      Nat.max_zero]
  own id hid := h'.own id (h.own id hid)
  peers := h'.peers.trans h.peers
  id := h'.id.trans h.id
  self := by
    rw [h'.self, h.self]
  record := by
    rcases h.record with hr | hsame
    · exact .inl hr
    · rw [← hsame]
      exact h'.record

theorem section_registry (registers : Prop) (s : Server) (registry : Registry)
    (h : s.store.Mutated registry.store) :
    Section registers 0 s { s with coordinator := { s.coordinator with registry } } :=
  { section_refl registers s with store := h }

theorem section_perform (registers : Prop) (s : Server) (now : Time) (r : Request) :
    Section registers 0 s { s with coordinator := (s.coordinator.perform now r).2.2 } :=
  section_registry registers s _ (s.coordinator.registry.mutated_handle now r)

theorem section_receive (registers : Prop) (s : Server) (now : Time) (origin : ServerId)
    (m : PeerMessage) :
    Section registers 0 s { s with coordinator := (s.coordinator.receive now origin m).2 } := by
  have h := s.coordinator.heard_receive now origin m
  rw [h.rest]
  exact section_registry registers s _ h.store

theorem section_adopt (registers : Prop) (s : Server) (now : Time) (snapshot : Snapshot) :
    Section registers (s.coordinator.adopt now snapshot).1 s
      { s with coordinator := (s.coordinator.adopt now snapshot).2 } :=
  { section_refl registers s with
    store := s.coordinator.registry.mutated_adopt snapshot.server now snapshot.records
    gate := rfl }

theorem section_markOwn (registers : Prop) (s : Server) (id : InstanceId) :
    Section registers 0 s { s with coordinator := s.coordinator.markOwn id } :=
  { section_refl registers s with
    own := fun id hid => by rw [Coordinator.markOwn, hid, Option.some_or] }

theorem section_evictionPass (registers : Prop) (s : Server) (now : Time) :
    Section registers 0 s (s.evictionPass now).2 := by
  refine { section_refl registers s with store := ?_ }
  have hexpired : ∀ (s : Store) (id : InstanceId), s.Mutated (s.evictIfExpired id now).2 :=
    fun s id => s.mutated_mutate now (.evictIfExpired id)
  have hqueued : ∀ (s : Store) (e : QueuedEviction),
      s.Mutated (s.evictIfVersion e.record.id e.record.version now).2 :=
    fun s e => s.mutated_mutate now (.evictIfVersion e.record.id e.record.version)
  show s.store.Mutated (LeaseRegistry.evictionPass _ _ _ now).2.1
  unfold LeaseRegistry.evictionPass evictionPassOver
  simp only
  split
  · exact s.store.mutated_refl
  · split
    · exact (Store.mutated_evictEach hexpired _ _).trans (Store.mutated_evictEach hqueued _ _)
    · exact s.store.mutated_refl

theorem section_evictOwn (registers : Prop) (s : Server) (now : Time) :
    Section registers 0 s (s.evictOwn now).2 := by
  unfold evictOwn
  split
  · exact section_refl registers s
  · exact section_registry registers s _ (s.store.mutated_mutate now (.evictIfVersion _ _))

/-! ## Activities -/

open Activity

/-- Nothing is synced in a stretch. -/
abbrev Keeping {α : Type} (registers : Prop) (s₀ : Server) (_ : Option α) (s : Server) : Prop :=
  Section registers 0 s₀ s

theorem sections_request (r : Request) (h : Section registers 0 s₀ s) :
    (request r).Sections (Keeping registers) s₀ s := by
  simp only [request, Activity.Sections]
  intro now
  have hnext := h.trans (section_perform registers s now r)
  refine sections_announceAny ?_ ?_ ?_ _
  · exact hnext
  · exact section_refl registers
  · exact hnext

theorem sections_evict (h : Section registers 0 s₀ s) :
    evict.Sections (Keeping registers) s₀ s := by
  simp only [evict, Activity.Sections]
  intro now
  split
  · exact h
  · have hpass := h.trans (section_evictionPass registers s now)
    have hbusy : Section registers 0 s₀ { (s.evictionPass now).2 with evicting := true } :=
      ⟨hpass.store, hpass.gate, hpass.own, hpass.peers, hpass.id, hpass.self, hpass.record⟩
    have hlast : ∀ {s₀ s}, Section registers 0 s₀ s →
        Section registers 0 s₀ { s with evicting := false } :=
      fun h => ⟨h.store, h.gate, h.own, h.peers, h.id, h.self, h.record⟩
    simp only [Activity.Sections]
    refine sections_announceAll ?_ ?_ _ ?_ ?_
    · exact section_refl registers
    · exact fun s _ => hlast (section_refl registers s)
    · exact hbusy
    · exact fun _ => hlast hbusy

theorem sections_syncFrom {next : Activity Nat}
    (hnext : ∀ s₀ s, Section registers 0 s₀ s →
      next.Sections (fun s₀ count s => Section registers (count.getD 0) s₀ s) s₀ s)
    (peer : Nat) (attempt : UInt32) (left : Nat) (h : Section registers 0 s₀ s) :
    (syncFrom peer next attempt left).Sections
      (fun s₀ count s => Section registers (count.getD 0) s₀ s) s₀ s := by
  induction left generalizing attempt s₀ s with
  | zero => exact hnext s₀ s h
  | succ left ih =>
    refine ⟨h, fun result s now => ?_⟩
    cases result.snapshot? with
    | some snapshot =>
      simp only
      split
      · exact hnext s s (section_refl registers s)
      · exact section_adopt registers s now snapshot
    | none =>
      simp only
      split
      · exact hnext s s (section_refl registers s)
      · exact ⟨section_refl registers s, fun s => ih (attempt + 1) (section_refl registers s)⟩

theorem sections_syncUp (h : Section registers 0 s₀ s) :
    syncUp.Sections (fun s₀ count s => Section registers (count.getD 0) s₀ s) s₀ s := by
  simp only [syncUp, Activity.Sections]
  intro now
  generalize List.range s.coordinator.peers = peers
  generalize max (s.coordinator.retry.attempts.getD 1).toNat 1 = attempts
  induction peers generalizing s₀ s with
  | nil => exact h
  | cons peer peers ih => exact sections_syncFrom (fun s₀ s h => ih h) peer 1 _ h

theorem sections_selfRegister (token : String) (h : Section True 0 s₀ s) :
    (selfRegister token).Sections (Keeping True) s₀ s := by
  simp only [selfRegister, Activity.Sections]
  intro now
  split
  · exact h
  · generalize (s.self.draft token).atVersion _ = record
    refine (sections_request _ h).andThen (fun _ _ h => h) fun s₀ a s h => ?_
    cases a with
    | failed e => exact h
    | changed | renewed =>
      simp only [Activity.Sections]
      intro now
      have hmarked := h.trans (section_markOwn True s record.id)
      refine (sections_request _ hmarked).andThen (fun _ _ h => h) fun s₀ a s h => ?_
      cases a with
      | failed e => exact h
      | changed | renewed =>
        exact fun _ => ⟨h.store, h.gate, h.own, h.peers, h.id, by rw [h.self], .inl trivial⟩

theorem sections_renewOwn (record : Record) (h : Section registers 0 s₀ s) :
    (renewOwn record).Sections (Keeping registers) s₀ s := by
  refine (sections_request _ h).andThen (fun _ _ h => h) fun s₀ a s h => ?_
  split
  · intro now
    exact (sections_request _ h).andThen (fun _ _ h => h) fun s₀ a s h => h
  · exact h

/-! ## Tasks -/

/-- What a server may have to do. -/
inductive Task where
  | request (r : Request)
  | evict
  | syncUp
  | selfRegister (token : String)
  | renewOwn (record : Record)
  | markOwn (id : InstanceId)
  | evictOwn
  deriving DecidableEq, Repr

namespace Task

def activity : Task → Activity Cluster.Outcome
  | request r => (Server.request r).andThen fun a => done (.answer r.source a)
  | evict => Cluster.eviction
  | syncUp => Server.syncUp.andThen fun count => done (.synced count)
  | selfRegister token => (Server.selfRegister token).andThen fun r => done (.registered r)
  | renewOwn record => Cluster.renewal record
  | markOwn id => look fun _ s =>
    put { s with coordinator := s.coordinator.markOwn id } (done .nothing)
  | evictOwn => look fun now s => put (s.evictOwn now).2 (done .nothing)

def Registers : Task → Prop
  | selfRegister _ => True
  | _ => False

def IsOwn : Task → Prop
  | selfRegister _ | renewOwn _ => True
  | _ => False

end Task

/-- How many records the task has synced, if it is to sync and is over. -/
def Task.synced : Task → Option Cluster.Outcome → Nat
  | syncUp, some (.synced count) => count
  | _, _ => 0

/-- What may happen to a server while it is at a task, by the time at which that has this result. -/
def Task.Goes (task : Task) (s₀ : Server) (r : Option Cluster.Outcome) (s : Server) : Prop :=
  Section task.Registers (task.synced r) s₀ s

theorem sections_activity (task : Task) (s : Server) :
    task.activity.Sections task.Goes s s := by
  have hrefl := section_refl task.Registers s
  cases task with
  | request r => exact (sections_request r hrefl).andThen (fun _ _ h => h) fun _ _ _ h => h
  | evict => exact (sections_evict hrefl).andThen (fun _ _ h => h) fun _ _ _ h => h
  | syncUp => exact (sections_syncUp hrefl).andThen (fun _ _ h => h) fun _ _ _ h => h
  | selfRegister token =>
    exact (sections_selfRegister token hrefl).andThen (fun _ _ h => h) fun _ _ _ h => h
  | renewOwn record =>
    exact (sections_renewOwn record hrefl).andThen (fun _ _ h => h) fun _ _ _ h => h
  | markOwn id => exact fun _ => section_markOwn _ s id
  | evictOwn => exact fun now => section_evictOwn _ s now

end Server

end LeaseRegistry
