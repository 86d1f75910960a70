import LeaseRegistry.Proofs.Server.Task
import LeaseRegistry.Proofs.Store.Versions

/-!
# How fast versions rise at a server

Peers name the versions of what they send, and a server takes them as they are. Its own writes go
one past what is stored. So if peers name no version past `bound`, versions get past `bound` by the
server's own doing alone, and by two at most in each stretch of an activity (`Activity.Rises`).
`Traffic.Rising.step` is what follows for a server with any errands.
-/

namespace LeaseRegistry

variable {bound n m : Nat}

/-- No record of a snapshot in an answer is past `n`. -/
def CallResult.UpTo (n : Nat) (r : CallResult) : Prop :=
  ∀ snapshot ∈ r.snapshot?, ∀ record ∈ snapshot.records, record.version.toNat ≤ n

namespace Server

/-- No version that the server holds is past `n`. -/
structure UpTo (n : Nat) (s : Server) : Prop where
  store : s.store.UpTo n
  own : ∀ r ∈ s.self.record, r.version.toNat ≤ n

variable {s : Server}

theorem UpTo.mono (h : s.UpTo n) (hle : n ≤ m) : s.UpTo m :=
  ⟨h.store.mono hle, fun r hr => Nat.le_trans (h.own r hr) hle⟩

/-- A request at a version up to `n + 1` raises versions by one. -/
theorem UpTo.perform (h : s.UpTo n) (now : Time) {r : Request}
    (hr : ∀ v ∈ r.named?, v.toNat ≤ n + 1) :
    UpTo (n + 1) { s with coordinator := (s.coordinator.perform now r).2.2 } :=
  ⟨Registry.upTo_handle (h.store.mono (Nat.le_succ n)) now (h.store.requested hr),
    (h.mono (Nat.le_succ n)).own⟩

theorem UpTo.receive (h : s.UpTo n) (now : Time) (origin : ServerId) {message : PeerMessage}
    (hm : ∀ v ∈ message.version?, v.toNat ≤ n) :
    UpTo n { s with coordinator := (s.coordinator.receive now origin message).2 } :=
  ⟨Coordinator.upTo_receive h.store now origin hm, h.own⟩

theorem UpTo.adopt (h : s.UpTo n) (now : Time) {snapshot : Snapshot}
    (hrecords : ∀ r ∈ snapshot.records, r.version.toNat ≤ n) :
    UpTo n { s with coordinator := (s.coordinator.adopt now snapshot).2 } :=
  ⟨Registry.upTo_adopt h.store snapshot.server now hrecords, h.own⟩

theorem UpTo.evictionPass (h : s.UpTo n) (now : Time) : (s.evictionPass now).2.UpTo n :=
  ⟨h.store.evictionPass _ _ now, h.own⟩

theorem UpTo.evictOwn (h : s.UpTo n) (now : Time) : (s.evictOwn now).2.UpTo n := by
  unfold Server.evictOwn
  split
  · exact h
  · exact ⟨h.store.mutate_of_none now (m := .evictIfVersion _ _) rfl, h.own⟩

end Server

/-! ## One activity -/

namespace Activity

variable {α β : Type}

/-- At the end of the stretch that has come to `s` no version is past `n`, and each later stretch
raises them by two at most. Peers name no version past `bound`. -/
def Rises (bound n : Nat) : Activity α → Server → Prop
  | done _, s => s.UpTo n
  | look next, s => ∀ now, (next now s).Rises bound n s
  | put s next, _ => next.Rises bound n s
  | announce _ next, s | pause _ next, s =>
    s.UpTo n ∧ ∀ m s, n ≤ m → s.UpTo m → next.Rises bound (m + 2) s
  | fetch _ next, s =>
    s.UpTo n ∧ ∀ r m s, r.UpTo bound → n ≤ m → s.UpTo m → (next r).Rises bound (m + 2) s

/-- The same of an activity that waits, or is over, while versions have come up to `n`. -/
def WillRise (bound n : Nat) : Activity α → Prop
  | announce _ next | pause _ next => ∀ m s, n ≤ m → s.UpTo m → next.Rises bound (m + 2) s
  | fetch _ next => ∀ r m s, r.UpTo bound → n ≤ m → s.UpTo m → (next r).Rises bound (m + 2) s
  | done _ | look _ | put .. => True

variable {a : Activity α} {s : Server}

theorem Rises.mono (h : a.Rises bound n s) (hle : n ≤ m) : a.Rises bound m s := by
  induction a generalizing s with
  | done a => exact Server.UpTo.mono h hle
  | look next ih => exact fun now => ih now s (h now)
  | put s' next ih => exact ih h
  | announce message next | pause d next =>
    exact ⟨h.1.mono hle, fun k s hk => h.2 k s (Nat.le_trans hle hk)⟩
  | fetch peer next => exact ⟨h.1.mono hle, fun r k s hr hk => h.2 r k s hr (Nat.le_trans hle hk)⟩

theorem WillRise.mono (h : a.WillRise bound n) (hle : n ≤ m) : a.WillRise bound m := by
  cases a with
  | done | look | put => trivial
  | announce message next | pause d next => exact fun k s hk => h k s (Nat.le_trans hle hk)
  | fetch peer next => exact fun r k s hr hk => h r k s hr (Nat.le_trans hle hk)

theorem Rises.advance (h : a.Rises bound n s) (now : Time) :
    (a.advance now s).2.UpTo n ∧ (a.advance now s).1.WillRise bound n := by
  induction a generalizing s with
  | done a => exact ⟨h, trivial⟩
  | look next ih => exact ih now s (h now)
  | put s' next ih => exact ih h
  | announce message next | fetch peer next | pause d next => exact ⟨h.1, h.2⟩

theorem Rises.andThen_done (h : a.Rises bound n s) (f : α → β) :
    (a.andThen fun x => done (f x)).Rises bound n s := by
  induction a generalizing n s with
  | done a => exact h
  | look next ih => exact fun now => ih now s (h now)
  | put s' next ih => exact ih h
  | announce message next ih | pause d next ih =>
    exact ⟨h.1, fun m s hm hs => ih (h.2 m s hm hs)⟩
  | fetch peer next ih => exact ⟨h.1, fun r m s hr hm hs => ih r (h.2 r m s hr hm hs)⟩

theorem rises_announceAll {next : Activity α}
    (h : ∀ m s, n ≤ m → s.UpTo m → next.Rises bound m s) (hs : s.UpTo n)
    (messages : List PeerMessage) : (announceAll messages next).Rises bound n s := by
  induction messages generalizing n s with
  | nil => exact h n s (Nat.le_refl n) hs
  | cons message messages ih =>
    refine ⟨hs, fun m s hm hs => (ih (fun k s hk => h k s ?_) hs).mono (Nat.le_add_right m 2)⟩
    exact Nat.le_trans hm hk

end Activity

/-! ## The tasks of a server -/

namespace Server

open Activity

variable {s : Server} {α : Type}

/-- After a request at a version up to `n + 1`, what follows may raise versions further. -/
theorem rises_request (extra : Nat) (hextra : extra ≤ 2) (hs : s.UpTo n) {r : Request}
    (hr : ∀ v ∈ r.named?, v.toNat ≤ n + 1) {f : Answer → Activity α}
    (hf : ∀ a m s, n + 1 ≤ m → s.UpTo m → (f a).Rises bound (m + extra) s) :
    ((request r).andThen f).Rises bound (n + 1 + extra) s := by
  simp only [request, andThen, Rises]
  intro now
  have hperformed := hs.perform now hr
  generalize (s.coordinator.perform now r).1 = a
  cases (s.coordinator.perform now r).2.1 with
  | none => exact hf a (n + 1) _ (Nat.le_refl _) hperformed
  | some message =>
    refine ⟨hperformed.mono (Nat.le_add_right _ _), fun m s hm hs => ?_⟩
    exact (hf a m s (Nat.le_trans (Nat.le_add_right _ _) hm) hs).mono (Nat.add_le_add_left hextra m)

theorem rises_request_done (hs : s.UpTo n) {r : Request} (hr : ∀ v ∈ r.named?, v.toNat ≤ n + 1)
    (f : Answer → α) : ((request r).andThen fun a => done (f a)).Rises bound (n + 1) s :=
  rises_request 0 (Nat.zero_le 2) hs hr fun _ _ _ _ h => h

theorem rises_evict (hs : s.UpTo n) : evict.Rises bound n s := by
  simp only [evict, Rises]
  intro now
  split
  · exact hs
  · have hbusy : UpTo n { (s.evictionPass now).2 with evicting := true } :=
      ⟨(hs.evictionPass now).store, (hs.evictionPass now).own⟩
    refine rises_announceAll (fun m s _ hs => ?_) hbusy _
    exact fun _ => (⟨hs.store, hs.own⟩ : UpTo m { s with evicting := false })

theorem rises_syncFrom {next : Activity Nat} (hb : bound ≤ n)
    (hnext : ∀ m s, n ≤ m → s.UpTo m → next.Rises bound m s) (peer : Nat) (attempt : UInt32)
    (left : Nat) (hs : s.UpTo n) : (syncFrom peer next attempt left).Rises bound n s := by
  induction left generalizing attempt n s with
  | zero => exact hnext n s (Nat.le_refl n) hs
  | succ left ih =>
    refine ⟨hs, fun result m s hresult hm hs now => ?_⟩
    have hgoes : next.Rises bound (m + 2) s := (hnext m s hm hs).mono (Nat.le_add_right m 2)
    cases hsnapshot : result.snapshot? with
    | some snapshot =>
      simp only
      split
      · exact hgoes
      · refine (hs.adopt now fun r hr => ?_).mono (Nat.le_add_right m 2)
        exact Nat.le_trans (hresult snapshot hsnapshot r hr) (Nat.le_trans hb hm)
    | none =>
      simp only
      split
      · exact hgoes
      · refine ⟨hs.mono (Nat.le_add_right m 2), fun k s hk hs => ?_⟩
        have hmk : m ≤ k := Nat.le_trans (Nat.le_add_right m 2) hk
        have hnk : n ≤ k := Nat.le_trans hm hmk
        exact (ih (Nat.le_trans hb hnk) (fun j s hj => hnext j s (Nat.le_trans hnk hj))
          (attempt + 1) hs).mono (Nat.le_add_right k 2)

theorem rises_syncUp (hb : bound ≤ n) (hs : s.UpTo n) : syncUp.Rises bound n s := by
  simp only [syncUp, Rises]
  intro now
  generalize List.range s.coordinator.peers = peers
  generalize max (s.coordinator.retry.attempts.getD 1).toNat 1 = attempts
  induction peers generalizing n s with
  | nil => exact hs
  | cons peer peers ih =>
    exact rises_syncFrom hb (fun m s hm hs => ih (Nat.le_trans hb hm) hs) peer 1 _ hs

theorem rises_selfRegister (token : String) (hs : s.UpTo n) :
    (selfRegister token).Rises bound (n + 2) s := by
  simp only [selfRegister, Rises]
  intro now
  split
  · exact hs.mono (Nat.le_add_right n 2)
  · have hrecord : ((s.self.draft token).atVersion
        ((s.store.version? (s.self.draft token).id).getD 0 + 1)).version.toNat ≤ n + 1 :=
      hs.store.succ_le (Nat.zero_le n)
    generalize (s.self.draft token).atVersion _ = record at hrecord ⊢
    refine rises_request 1 (by decide) hs (r := .register record .here)
      (fun _ hv => Option.some.inj hv ▸ hrecord) fun a m s hm hs => ?_
    cases a with
    | failed e => exact hs.mono (Nat.le_add_right m 1)
    | changed | renewed =>
      simp only [Rises]
      intro now
      have hmarked : UpTo m { s with coordinator := s.coordinator.markOwn record.id } :=
        ⟨hs.store, hs.own⟩
      refine rises_request 0 (Nat.zero_le 2) hmarked (r := .statusUpdate record.id .up .here)
        (by rintro _ ⟨⟩) fun a k s hk hs => ?_
      cases a with
      | failed e => exact hs
      | changed | renewed =>
        refine fun _ => ⟨hs.store, ?_⟩
        rintro _ ⟨⟩
        cases hr : s.store.record? record.id with
        | none => exact Nat.le_trans hrecord (Nat.le_trans hm (Nat.le_of_lt hk))
        | some stored => exact hs.store.record? hr

theorem rises_renewOwn {record : Record} (hrecord : record.version.toNat ≤ n) (hs : s.UpTo n) :
    (renewOwn record).Rises bound (n + 2) s := by
  refine rises_request 1 (by decide) hs (r := .renew record.id .here) nofun
    fun a m s hm hs => ?_
  split
  · intro now
    refine rises_request_done hs (fun v hv => ?_) fun _ => ()
    obtain rfl : _ = v := Option.some.inj hv
    exact hs.store.succ_le (Nat.le_trans hrecord (Nat.le_of_lt hm))
  · exact hs.mono (Nat.le_add_right m 1)

/-- A task at a server: what it asks for names no version past `n`, and what it renews is the record
that the server registered. -/
def Task.Names (n : Nat) (s : Server) : Task → Prop
  | request r => ∀ v ∈ r.named?, v.toNat ≤ n
  | renewOwn record => s.self.record = some record
  | evict | syncUp | selfRegister _ | markOwn _ | evictOwn => True

theorem Task.Names.mono {task : Task} (h : task.Names n s) (hle : n ≤ m) : task.Names m s := by
  cases task with
  | request r => exact fun v hv => Nat.le_trans (h v hv) hle
  | renewOwn | evict | syncUp | selfRegister | markOwn | evictOwn => exact h

theorem rises_activity (hb : bound ≤ n) (hs : s.UpTo n) {task : Task} (h : task.Names (n + 1) s) :
    task.activity.Rises bound (n + 2) s := by
  have hle : n ≤ n + 2 := Nat.le_add_right n 2
  cases task with
  | request r => exact (rises_request_done hs h _).mono (Nat.le_succ _)
  | evict => exact ((rises_evict hs).andThen_done _).mono hle
  | syncUp => exact ((rises_syncUp hb hs).andThen_done _).mono hle
  | selfRegister token => exact (rises_selfRegister token hs).andThen_done _
  | renewOwn record => exact (rises_renewOwn (hs.own record h) hs).andThen_done _
  | markOwn id => exact fun _ => UpTo.mono ⟨hs.store, hs.own⟩ hle
  | evictOwn => exact fun now => (hs.evictOwn now).mono hle

end Server

/-! ## One errand -/

namespace Errand

variable {τ α : Type} {e : Errand τ α} {s : Server}

theorem rises_goOn {next : Activity α} (h : next.Rises bound n s) (now : Time) :
    (e.goOn next now s).2.UpTo n ∧ (e.goOn next now s).1.rest.WillRise bound n :=
  h.advance now

theorem rises_hear (hs : s.UpTo n) (h : e.rest.WillRise bound n) (peer : Nat) {r : CallResult}
    (hr : r.UpTo bound) (now : Time) :
    (e.hear peer r now s).2.UpTo (n + 2) ∧ (e.hear peer r now s).1.rest.WillRise bound (n + 2) := by
  have hstill : s.UpTo (n + 2) ∧ e.rest.WillRise bound (n + 2) :=
    ⟨hs.mono (Nat.le_add_right n 2), h.mono (Nat.le_add_right n 2)⟩
  obtain ⟨task, announcements, rest⟩ := e
  cases rest with
  | done | look | put | announce | pause => exact hstill
  | fetch p next =>
    unfold hear
    by_cases hp : p = peer
    · simp only [hp, if_true]
      exact rises_goOn (h r n s hr (Nat.le_refl n) hs) now
    · simp only [hp, if_false]
      exact hstill

theorem rises_resume (hs : s.UpTo n) (h : e.rest.WillRise bound n) (now : Time) :
    (e.resume now s).2.UpTo (n + 2) ∧ (e.resume now s).1.rest.WillRise bound (n + 2) := by
  have hstill : s.UpTo (n + 2) ∧ e.rest.WillRise bound (n + 2) :=
    ⟨hs.mono (Nat.le_add_right n 2), h.mono (Nat.le_add_right n 2)⟩
  obtain ⟨task, announcements, rest⟩ := e
  cases rest with
  | done | look | put | fetch => exact hstill
  | announce message next =>
    unfold resume
    by_cases hover : (talks ⟨task, announcements, .announce message next⟩).all Talk.isOver = true
    · simp only [hover, if_true]
      exact rises_goOn (h n s (Nat.le_refl n) hs) now
    · simp only [hover]
      exact hstill
  | pause d next => exact rises_goOn (h n s (Nat.le_refl n) hs) now

end Errand

/-! ## All errands -/

namespace Traffic

/-- Versions have come up to `n`, and each later move raises them by two at most. -/
structure Rising (bound n : Nat) (t : Traffic Server.Task Cluster.Outcome) : Prop where
  server : t.server.UpTo n
  errands : ∀ e ∈ t.errands, e.rest.WillRise bound n

/-- A move in which nobody else names a version past `bound`. -/
def Move.Within (bound : Nat) (s : Server) : Move Server.Task → Prop
  | begin _ task => task.Names bound s
  | receive _ _ message => ∀ v ∈ message.version?, v.toNat ≤ bound
  | hear _ _ result _ => result.UpTo bound
  | resume _ _ => True

variable {t : Traffic Server.Task Cluster.Outcome}

theorem Rising.mono (h : t.Rising bound n) (hle : n ≤ m) : t.Rising bound m :=
  ⟨h.server.mono hle, fun e he => (h.errands e he).mono hle⟩

theorem Rising.begin (h : t.Rising bound n) (hle : n ≤ m) (now : Time) {task : Server.Task}
    (htask : task.activity.Rises bound m t.server) :
    (t.step Server.Task.activity (.begin now task)).Rising bound m := by
  obtain ⟨hserver, hrest⟩ := htask.advance now
  refine ⟨hserver, fun e he => ?_⟩
  rcases List.mem_append.mp he with hold | hnew
  · exact (h.errands e hold).mono hle
  · rw [List.mem_singleton.mp hnew]
    exact hrest

/-- A request at a version up to `n + 1` raises versions by one. -/
theorem Rising.request (h : t.Rising bound n) (now : Time) {r : Request}
    (hr : ∀ v ∈ r.named?, v.toNat ≤ n + 1) :
    (t.step Server.Task.activity (.begin now (.request r))).Rising bound (n + 1) :=
  h.begin (Nat.le_succ n) now (Server.rises_request_done h.server hr _)

theorem Rising.onErrand (h : t.Rising bound n) (k : Nat)
    {f : Errand Server.Task Cluster.Outcome → Server →
      Errand Server.Task Cluster.Outcome × Server}
    (hf : ∀ e, e.rest.WillRise bound n →
      (f e t.server).2.UpTo (n + 2) ∧ (f e t.server).1.rest.WillRise bound (n + 2)) :
    (t.onErrand k f).Rising bound (n + 2) := by
  unfold Traffic.onErrand
  cases hk : t.errands[k]? with
  | none => exact h.mono (Nat.le_add_right n 2)
  | some e =>
    obtain ⟨hserver, hrest⟩ := hf e (h.errands e (List.mem_of_getElem? hk))
    refine ⟨hserver, fun e' he' => ?_⟩
    rcases List.mem_or_eq_of_mem_set he' with hold | rfl
    · exact (h.errands e' hold).mono (Nat.le_add_right n 2)
    · exact hrest

theorem Rising.step (hb : bound ≤ n) (h : t.Rising bound n) {move : Move Server.Task}
    (hmove : move.Within bound t.server) :
    (t.step Server.Task.activity move).Rising bound (n + 2) := by
  cases move with
  | begin now task =>
    exact h.begin (Nat.le_add_right n 2) now
      (Server.rises_activity hb h.server (hmove.mono (Nat.le_succ_of_le hb)))
  | receive now origin message =>
    have hreceived := h.server.receive now origin fun v hv => Nat.le_trans (hmove v hv) hb
    exact Rising.mono ⟨hreceived, h.errands⟩ (Nat.le_add_right n 2)
  | hear k peer result now =>
    exact h.onErrand k fun e he => Errand.rises_hear h.server he peer hmove now
  | resume k now => exact h.onErrand k fun e he => Errand.rises_resume h.server he now

end Traffic

end LeaseRegistry
