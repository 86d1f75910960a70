import LeaseRegistry.Proofs.Data.List
import LeaseRegistry.Proofs.Replication.Delivery
import LeaseRegistry.Proofs.Server.SelfRegistration

/-!
# How far a registration of the server has come

`Reached` are the runs of a server that registers itself and renews its lease while anything else
may happen to its leases wherever it waits. `Stage` says how far a registration can have come in
such a run, together with what its peers have been told by then, and `Stage.hear` and `Stage.resume`
what one turn makes of it. Both say only what becomes of this one registration and of the server;
the other errands are left to the module on the run as a whole.
-/

namespace LeaseRegistry

open Server (Task)

namespace Traffic

/-! ## Runs -/

/-- Registrations take turns until one has succeeded, each with an id that is not in use, and it is
the registered record that is renewed. -/
def Legal (t : Traffic Task Cluster.Outcome) : Move Task → Prop
  | .begin _ (.selfRegister token) => t.server.self.record = none →
    (∀ e ∈ t.errands, e.task.Registers → e.result?.isSome) ∧
      t.server.store.lease? (t.server.firstRecord token).id = none
  | .begin _ (.renewOwn record) => t.server.self.record = some record
  | .begin .. | .receive .. | .hear .. | .resume .. => True

/-- No stored version is the last one. -/
def Bounded (t : Traffic Task Cluster.Outcome) : Prop :=
  ∀ id v, t.server.store.version? id = some v → v.toNat + 1 < UInt64.size

/-- While peers are still told that the server is starting, its lease is as it was registered. -/
def Undisturbed (t : Traffic Task Cluster.Outcome) : Prop :=
  ∀ e ∈ t.errands, ∀ token, e.task = .selfRegister token → e.result? = none →
    e.announcements.length = 1 → t.server.store.version? (t.server.firstRecord token).id = some 1

/-- What the server `s` may come to, in calm if nobody disturbs its registration. -/
inductive Reached (calm : Prop) (s : Server) : Traffic Task Cluster.Outcome → Prop where
  | start : Reached calm s (start s)
  | step {t : Traffic Task Cluster.Outcome} {move : Move Task} (before : Reached calm s t)
      (legal : t.Legal move) (bounded : t.Bounded) (undisturbed : calm → t.Undisturbed) :
    Reached calm s (t.step Task.activity move)

variable {calm : Prop} {s server : Server} {t : Traffic Task Cluster.Outcome}

/-! ## Runs that can be checked -/

instance : DecidablePred Task.Registers
  | .selfRegister _ => isTrue trivial
  | .request _ | .evict | .syncUp | .renewOwn _ | .markOwn _ | .evictOwn => isFalse id

instance (t : Traffic Task Cluster.Outcome) (move : Move Task) : Decidable (t.Legal move) :=
  match move with
  | .begin _ (.selfRegister _) => inferInstanceAs (Decidable (_ = none →
      (∀ e ∈ t.errands, e.task.Registers → e.result?.isSome = true) ∧ _ = none))
  | .begin _ (.renewOwn record) => inferInstanceAs (Decidable (_ = some record))
  | .begin _ (.request _) | .begin _ .evict | .begin _ .syncUp | .begin _ (.markOwn _)
  | .begin _ .evictOwn | .receive .. | .hear .. | .resume .. => isTrue trivial

/-- An errand that waits for the peers to hear that the server is starting has its lease as it was
registered. -/
def keepsFirst (t : Traffic Task Cluster.Outcome) (e : Errand Task Cluster.Outcome) : Bool :=
  match e.task with
  | .selfRegister token => e.result?.isSome || e.announcements.length != 1 ||
    t.server.store.version? (t.server.firstRecord token).id == some 1
  | _ => true

/-- The moves are possible one after the other, as `Reached` asks for. -/
def Follows (calm : Prop) (t : Traffic Task Cluster.Outcome) : List (Move Task) → Prop
  | [] => True
  | move :: moves => t.Legal move ∧
    (∀ p ∈ t.server.store.slots, p.2.version.toNat + 1 < UInt64.size) ∧
    (calm → ∀ e ∈ t.errands, t.keepsFirst e = true) ∧
    (t.step Task.activity move).Follows calm moves

instance decidableFollows [Decidable calm] : (t : Traffic Task Cluster.Outcome) →
    (moves : List (Move Task)) → Decidable (t.Follows calm moves)
  | _, [] => isTrue trivial
  | t, move :: moves =>
    have := decidableFollows (t.step Task.activity move) moves
    inferInstanceAs (Decidable (_ ∧ _ ∧ _ ∧ _))

theorem bounded_of_slots (h : ∀ p ∈ t.server.store.slots, p.2.version.toNat + 1 < UInt64.size) :
    t.Bounded := by
  intro id v hv
  obtain ⟨l, hl, rfl⟩ := Option.map_eq_some_iff.mp hv
  exact h (id, l) (Store.mem_of_lookup hl)

theorem undisturbed_of_keepsFirst (h : ∀ e ∈ t.errands, t.keepsFirst e = true) :
    t.Undisturbed := by
  intro e he token htask hresult hlength
  have hkeeps := h e he
  simp only [keepsFirst, htask, hresult, hlength] at hkeeps
  simpa using hkeeps

theorem Reached.follows (h : Reached calm s t) {moves : List (Move Task)}
    (hmoves : t.Follows calm moves) : Reached calm s (t.run Task.activity moves) := by
  induction moves generalizing t with
  | nil => exact h
  | cons move moves ih =>
    obtain ⟨hlegal, hbounded, hkeeps, hrest⟩ := hmoves
    exact ih (.step h hlegal (bounded_of_slots hbounded)
      fun hcalm => undisturbed_of_keepsFirst (hkeeps hcalm)) hrest

/-! ## A registration -/

/-- All peers of the server are told this, and nothing else but what they lack. -/
def Hears (s : Server) (m : PeerMessage) (talks : List Talk) : Prop :=
  talks.length = s.coordinator.peers ∧ ∀ talk ∈ talks, talk.Tells m

/-- How far a registration of the server `s` can have come, if the server now knows this record of
its own. -/
inductive Stage (calm : Prop) (s : Server) (record : Option Record) (token : String) :
    Errand Task Cluster.Outcome → Prop where
  | given {r : Record} (known : record = some r) :
    Stage calm s record token ⟨.selfRegister token, [], .done (.registered (.ok r))⟩
  | starting {talks : List Talk} (unknown : record = none)
      (first : Hears s (.register (s.firstRecord token)) talks) :
    Stage calm s record token ⟨.selfRegister token, [talks],
      .announce (.register (s.firstRecord token))
        ((Server.markUp (s.firstRecord token)).andThen Server.registered)⟩
  | lost {talks : List Talk} (first : Hears s (.register (s.firstRecord token)) talks)
      (disturbed : ¬calm) :
    Stage calm s record token ⟨.selfRegister token, [talks],
      .done (.registered (.error (.store (.unknownInstance (s.firstRecord token).id))))⟩
  | marking {talks talks' : List Talk} {w : Version} (unknown : record = none)
      (first : Hears s (.register (s.firstRecord token)) talks)
      (second : Hears s (.statusUpdate (s.firstRecord token).id .up w) talks')
      (next : calm → w = (s.firstRecord token).version + 1) :
    Stage calm s record token ⟨.selfRegister token, [talks', talks],
      .announce (.statusUpdate (s.firstRecord token).id .up w)
        ((Server.conclude (s.firstRecord token)).andThen Server.registered)⟩
  | registered {talks talks' : List Talk} {w : Version} {r : Record} (known : record = some r)
      (first : Hears s (.register (s.firstRecord token)) talks)
      (second : Hears s (.statusUpdate (s.firstRecord token).id .up w) talks')
      (next : calm → w = (s.firstRecord token).version + 1) :
    Stage calm s record token
      ⟨.selfRegister token, [talks', talks], .done (.registered (.ok r))⟩

/-- A record that the server can go on to renew. -/
structure Apt (id : InstanceId) (r : Record) : Prop where
  id : r.id = id
  valid : r.Valid
  version : r.version < r.version + 1

/-- What a turn makes of a registration and the server. -/
structure Continues (calm : Prop) (s : Server) (token : String)
    (e : Errand Task Cluster.Outcome) (server : Server) (e' : Errand Task Cluster.Outcome)
    (server' : Server) : Prop where
  stage : Stage calm s server'.self.record token e'
  leases : ∀ k, server'.store.lease? k ≠ server.store.lease? k →
    k = (s.firstRecord token).id ∧ e.announcements.isEmpty = false
  told : e'.announcements.isEmpty = e.announcements.isEmpty
  waited : e'.result? = none → e.result? = none
  record : server'.self.record = server.self.record ∨
    (e.result? = none ∧ e.announcements.isEmpty = false ∧ server.self.record = none ∧
      ∃ r, server'.self.record = some r ∧ Apt (s.firstRecord token).id r)

variable {token : String} {e : Errand Task Cluster.Outcome}

/-- A turn in which nothing happens to the server. -/
theorem continues_still {e' : Errand Task Cluster.Outcome}
    (h : Stage calm s server.self.record token e')
    (htold : e'.announcements.isEmpty = e.announcements.isEmpty)
    (hwaited : e'.result? = none → e.result? = none) :
    Continues calm s token e server e' server where
  stage := h
  leases _ hk := absurd rfl hk
  told := htold
  waited := hwaited
  record := .inl rfl

theorem Hears.hear {m : PeerMessage} {talks : List Talk} (h : Hears s m talks) (peer : Nat)
    (c : Coordinator) (r : CallResult) : Hears s m (talks.modify peer (Talk.hear c r)) :=
  ⟨by rw [List.length_modify, h.1], forall_mem_modify h.2 fun _ htells => htells.hear c r⟩

theorem hears_opening (hpeers : server.coordinator.peers = s.coordinator.peers) (m : PeerMessage) :
    Hears s m (List.replicate server.coordinator.peers (Talk.opening m)) :=
  ⟨List.length_replicate.trans hpeers, fun _ htalk =>
    List.eq_of_mem_replicate htalk ▸ Talk.tells_opening m⟩

/-- What a peer answers changes nothing but how many peers are still waited for. -/
theorem Stage.hear (h : Stage calm s server.self.record token e) (peer : Nat) (r : CallResult)
    (now : Time) :
    Continues calm s token e server (e.hear peer r now server).1 (e.hear peer r now server).2 := by
  cases h with
  | given known => exact continues_still (.given known) rfl id
  | starting unknown first =>
    exact continues_still (.starting unknown (first.hear peer _ r)) rfl id
  | lost first disturbed => exact continues_still (.lost first disturbed) rfl id
  | marking unknown first second next =>
    exact continues_still (.marking unknown first (second.hear peer _ r) next) rfl id
  | registered known first second next =>
    exact continues_still (.registered known first second next) rfl id

/-- The record that is known in the end can be renewed. -/
theorem apt_concluded {store : Store} (hs : store.Sound) {record : Record} (hvalid : record.Valid)
    (hnext : record.version < record.version + 1)
    (hbounded : ∀ id v, store.version? id = some v → v.toNat + 1 < UInt64.size) :
    Apt record.id ((store.record? record.id).getD (record.withStatus .up)) := by
  cases hl : store.lease? record.id with
  | none =>
    rw [Store.record?_eq, hl]
    exact ⟨rfl, hvalid, hnext⟩
  | some l =>
    rw [Store.record?_eq, hl]
    refine ⟨hs.wellFormed.id_of_lease? hl, (hs.leases record.id l hl).valid,
      lt_succ (hbounded record.id l.record.version ?_)⟩
    rw [Store.version?_eq, hl]
    rfl

/-- Once the peers know that the server is starting, the registration goes on with the lease that is
there then, or fails without. -/
theorem continues_markUp (hs : server.store.Sound)
    (hpeers : server.coordinator.peers = s.coordinator.peers)
    (hbounded : ∀ id v, server.store.version? id = some v → v.toNat + 1 < UInt64.size)
    (hcalm : calm → server.store.version? (s.firstRecord token).id = some 1)
    (unknown : server.self.record = none) {talks : List Talk}
    (first : Hears s (.register (s.firstRecord token)) talks) (now : Time) :
    let e : Errand Task Cluster.Outcome := ⟨.selfRegister token, [talks],
      .announce (.register (s.firstRecord token))
        ((Server.markUp (s.firstRecord token)).andThen Server.registered)⟩
    let next := (Server.markUp (s.firstRecord token)).andThen Server.registered
    Continues calm s token e server (e.goOn next now server).1 (e.goOn next now server).2 := by
  intro e next
  cases hl : server.store.lease? (s.firstRecord token).id with
  | none =>
    have hlost : ¬calm := fun hc => by
      have hversion := hcalm hc
      rw [Store.version?_eq, hl] at hversion
      cases hversion
    have hperforms := Server.performs_statusUpdate_of_absent
      (s := server.markedOwn (s.firstRecord token).id) hs.wellFormed now hl .up
    simp only [next, Errand.goOn, Server.advance_markUp_of_absent hs.wellFormed hl]
    exact {
      stage := .lost first hlost
      leases := fun k hk => ⟨hperforms.eq_of_changed hk, rfl⟩
      told := rfl
      waited := fun hresult => (by cases hresult)
      record := .inl rfl }
  | some l =>
    have hversion : server.store.version? (s.firstRecord token).id = some l.version := by
      rw [Store.version?_eq, hl]
      rfl
    have hv := lt_succ (hbounded _ _ hversion)
    have hnext : calm → l.version + 1 = (s.firstRecord token).version + 1 := fun hc => by
      rw [Option.some.inj (hversion.symm.trans (hcalm hc))]
      rfl
    have hperforms := Server.performs_statusUpdate
      (s := server.markedOwn (s.firstRecord token).id) hs.wellFormed now hl hv .up
    simp only [next, Errand.goOn, Server.advance_markUp hs.wellFormed hl hv]
    exact {
      stage := .marking unknown first (hears_opening hpeers _) hnext
      leases := fun k hk => ⟨hperforms.eq_of_changed hk, rfl⟩
      told := rfl
      waited := fun _ => rfl
      record := .inl rfl }

/-- What follows once no peer is waited for any more. -/
theorem Stage.resume (h : Stage calm s server.self.record token e) (hs : server.store.Sound)
    (hvalid : (s.firstRecord token).Valid)
    (hpeers : server.coordinator.peers = s.coordinator.peers)
    (hbounded : ∀ id v, server.store.version? id = some v → v.toNat + 1 < UInt64.size)
    (hcalm : calm → e.result? = none → e.announcements.length = 1 →
      server.store.version? (s.firstRecord token).id = some 1) (now : Time) :
    Continues calm s token e server (e.resume now server).1 (e.resume now server).2 := by
  cases h with
  | given known => exact continues_still (.given known) rfl id
  | lost first disturbed => exact continues_still (.lost first disturbed) rfl id
  | registered known first second next =>
    exact continues_still (.registered known first second next) rfl id
  | @starting talks unknown first =>
    simp only [Errand.resume]
    split
    · exact continues_markUp hs hpeers hbounded (fun hc => hcalm hc rfl rfl) unknown first now
    · exact continues_still (.starting unknown first) rfl id
  | @marking talks talks' w unknown first second next =>
    simp only [Errand.resume]
    split
    · have hnext : (s.firstRecord token).version < (s.firstRecord token).version + 1 :=
        lt_succ (show (1 : Version).toNat + 1 < UInt64.size by decide)
      simp only [Errand.goOn, Server.advance_conclude]
      exact {
        stage := .registered rfl first second next
        leases := fun _ hk => absurd rfl hk
        told := rfl
        waited := fun hresult => (by cases hresult)
        record := .inr ⟨rfl, rfl, unknown, _, rfl, apt_concluded hs hvalid hnext hbounded⟩ }
    · exact continues_still (.marking unknown first second next) rfl id

/-! ## A renewal -/

theorem told_hear (h : Server.Told e.rest) (peer : Nat) (r : CallResult) (now : Time) :
    Server.Told (e.hear peer r now server).1.rest ∧ (e.hear peer r now server).2 = server := by
  obtain ⟨task, announcements, rest⟩ := e
  rcases h with rfl | ⟨m, rfl⟩
  · exact ⟨.inl rfl, rfl⟩
  · exact ⟨.inr ⟨m, rfl⟩, rfl⟩

theorem told_resume (h : Server.Told e.rest) (now : Time) :
    Server.Told (e.resume now server).1.rest ∧ (e.resume now server).2 = server := by
  obtain ⟨task, announcements, rest⟩ := e
  rcases h with rfl | ⟨m, rfl⟩
  · exact ⟨.inl rfl, rfl⟩
  · simp only [Errand.resume]
    split
    · exact ⟨.inl rfl, rfl⟩
    · exact ⟨.inr ⟨m, rfl⟩, rfl⟩

end Traffic

end LeaseRegistry
