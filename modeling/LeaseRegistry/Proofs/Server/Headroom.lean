import LeaseRegistry.Proofs.Channel.Failure
import LeaseRegistry.Proofs.Channel.Rise
import LeaseRegistry.Proofs.Replication.Delivery
import LeaseRegistry.Proofs.Server.Rise
import LeaseRegistry.Proofs.Server.SelfRegistration

/-!
# How long the versions last

The versions of local writes are numbers of 64 bits, each one past the highest one that is known,
and peers may have named any. `Busy.Writes` lists the local writes that a server can come to make
next, and `Busy.WritesAll` says that there are no others. Each of them gets a version of its own
exactly if the highest one known is not the last one there is (`Busy.localWrites_lead_iff`); past
that it gets version 0 and is superseded by whatever is stored. It takes a peer to get there: by
itself a server gets two versions further at a time.
-/

namespace LeaseRegistry

open Channel
open Server (Task)

theorem Coordinator.perform_renew_of_absent {c : Coordinator} {id : InstanceId}
    (h : c.store.lease? id = none) (now : Time) (source : Source) :
    c.perform now (.renew id source) = (.renewed false, none, c) := by
  have hanswer : (c.perform now (.renew id source)).1 = .renewed false := by
    rw [perform_answer, show c.store.lease? (Request.renew id source).id = none from h]
    rfl
  obtain ⟨a, ha⟩ := perform_of_not_applied (c := c) (by rw [hanswer]; rfl)
  rw [ha] at hanswer ⊢
  rw [show a = .renewed false from hanswer]

/-! ## The version after the last one -/

namespace Registry

/-- The version after `last` is still to be had, newer than what is stored, and so a write at that
version is not superseded. -/
structure Leads (g : Registry) (last : Version) (r : Request) : Prop where
  version : r.version? g.store = some (last + 1)
  noOverflow : (last + 1).toNat = last.toNat + 1
  newer : ∀ v, g.store.version? r.id = some v → v < last + 1
  taken : ∀ now, (g.handle now r).1 ≠ .changed .superseded

variable {g : Registry} {last : Version} {r : Request}

theorem leads_iff (hr : r.version? g.store = some (last + 1))
    (hlast : ∀ v, g.store.version? r.id = some v → v ≤ last) :
    g.Leads last r ↔ last.toNat + 1 < UInt64.size := by
  refine ⟨fun h => h.noOverflow ▸ (last + 1).toNat_lt_size, fun h => ?_⟩
  have hnewer : ∀ v, g.store.version? r.id = some v → v < last + 1 := fun v hv =>
    UInt64.lt_of_le_of_lt (hlast v hv) (lt_succ h)
  exact ⟨hr, toNat_succ h, hnewer, fun now => not_superseded hr hnewer⟩

/-- After the last version there is comes version 0, which whatever is stored supersedes. -/
theorem superseded_iff_of_last (hr : r.version? g.store = some (last + 1))
    (hlast : last.toNat + 1 = UInt64.size) :
    last + 1 = 0 ∧ ∀ now, (g.handle now r).1 = .changed .superseded ↔
      (∀ e, (g.handle now r).1 ≠ .failed e) ∧ (g.store.version? r.id).isSome := by
  have hzero : last + 1 = 0 := by
    rw [← UInt64.toNat_inj, UInt64.toNat_add, show (1 : Version).toNat = 1 from rfl, hlast]
    rfl
  refine ⟨hzero, fun now => ?_⟩
  rw [superseded_iff hr, hzero, Option.isSome_iff_exists]
  have hle : ∀ v : Version, 0 ≤ v := fun v => UInt64.le_iff_toNat_le.mpr (Nat.zero_le _)
  exact and_congr_right fun _ =>
    exists_congr fun v => ⟨fun h => h.1, fun h => ⟨h, hle v⟩⟩

end Registry

/-! ## A server that serves its channels -/

namespace Traffic

variable {t : Traffic Task Cluster.Outcome}

theorem server_request (t : Traffic Task Cluster.Outcome) (now : Time) (r : Request) :
    (t.step Task.activity (.begin now (.request r))).server =
      { t.server with coordinator := (t.server.coordinator.perform now r).2.2 } := by
  simp only [step, Errand.begin, Errand.goOn, Task.activity, Server.request, Activity.andThen,
    Activity.advance]
  cases (t.server.coordinator.perform now r).2.1 <;> rfl

/-- A move in which the channels have no part. Only the eviction queue is theirs too. -/
def aside (move : Move Task) (g : Traffic Task Cluster.Outcome × EvictionQueue) :
    Traffic Task Cluster.Outcome × EvictionQueue :=
  let (t, queue) := g
  let t := { t with server := { t.server with desk := { t.server.desk with queue } } }
  let t := t.step Task.activity move
  (t, t.server.desk.queue)

end Traffic

/-- A server with its errands as the host of its channels: a request of theirs is answered at once
and one more errand, since the peers are still to be told. -/
def Channel.Host.serving : Host (Traffic Task Cluster.Outcome) where
  handle t now r :=
    ((t.server.coordinator.perform now r).1, t.step Task.activity (.begin now (.request r)))
  stored t id := t.server.store.version? id
  registry t := t.server.coordinator.registry
  handled t now r := ⟨now, by rw [Traffic.server_request]; rfl⟩
  version _ _ := rfl

/-- The versions at a server have come up to `n`, and `bound` is not past them. -/
def Traffic.RisenTo (bound n : Nat) (t : Traffic Task Cluster.Outcome) : Prop :=
  bound ≤ n ∧ t.Rising bound n

theorem Channel.Host.rises_serving (bound : Nat) :
    Host.serving.Rises (Traffic.RisenTo bound) where
  mono h hle := ⟨Nat.le_trans h.1 hle, h.2.mono hle⟩
  stored h _ _ hv := h.2.server.store.version? hv
  handle h now _ hr := ⟨Nat.le_succ_of_le h.1, h.2.request now hr⟩

namespace Busy

abbrev server (s : Busy (Traffic Task Cluster.Outcome)) : Server := s.service.host.server

/-! ## What a server can come to -/

/-- An act in which nobody but the server itself names a version past `bound`. -/
def Act.Within (bound : Nat) (server : Server) : Act (Traffic Task Cluster.Outcome) → Prop
  | .whole (.elsewhere change) => ∃ move, change = Traffic.aside move ∧ move.Within bound server
  | .whole _ | .begin .. | .proceed _ => True

/-- What the server may have come to after `k` acts, with its errands, its channels and their
operations. -/
inductive Reached (bound : Nat) (server : Server) :
    Nat → Busy (Traffic Task Cluster.Outcome) → Prop where
  | start (delay : Millis) (now : Time) : Reached bound server 0 (.start (.start server) delay now)
  | act {k : Nat} {s : Busy (Traffic Task Cluster.Outcome)}
      (a : Act (Traffic Task Cluster.Outcome)) (before : Reached bound server k s)
      (within : a.Within bound s.server) :
    Reached bound server (k + 1) (s.act Host.serving.toBackend a)

variable {bound k n : Nat} {server : Server} {s : Busy (Traffic Task Cluster.Outcome)}

theorem upTo_start (hserver : server.UpTo bound) (delay : Millis) (now : Time) :
    (Busy.start (.start server) delay now).UpTo (Traffic.RisenTo bound) bound := by
  refine ⟨⟨Nat.le_refl bound, hserver, fun _ he => absurd he List.not_mem_nil⟩, fun i c hc => ?_,
    fun _ hx => absurd hx List.not_mem_nil⟩
  simp [start, Service.start, Service.channel?] at hc

theorem Reached.upTo (h : Reached bound server k s) (hserver : server.UpTo bound) :
    s.UpTo (Traffic.RisenTo bound) (bound + 2 * k) := by
  induction h with
  | start delay now => exact upTo_start hserver delay now
  | @act k s a _ within ih =>
    refine ih.act (Host.rises_serving bound) a fun change ha => ?_
    subst ha
    obtain ⟨move, rfl, hmove⟩ := within
    obtain ⟨hb, hserver, herrands⟩ := ih.host
    have hsame : ∀ queue, Traffic.Rising bound (bound + 2 * k)
        { s.service.host with server := { s.server with desk := { s.server.desk with queue } } } :=
      fun _ => ⟨⟨hserver.store, hserver.own⟩, herrands⟩
    exact ⟨Nat.le_trans hb (Nat.le_add_right _ 2), (hsame _).step hb hmove⟩

/-! ## Local writes -/

def stored (s : Busy (Traffic Task Cluster.Outcome)) (id : InstanceId) : Option Version :=
  s.server.store.version? id

abbrev registry (s : Busy (Traffic Task Cluster.Outcome)) : Registry :=
  s.server.coordinator.registry

/-- A write that the server may come to make next, at the version after the one named first: that
of a channel, a status update, the registration of the server itself, or the one with which that
renews its lease if it is gone. -/
inductive Writes (s : Busy (Traffic Task Cluster.Outcome)) : Version → Request → Prop where
  | registration {i : Nat} {c : Channel} (there : s.service.channel? i = some c)
      (record : Record) :
    Writes s (max c.version ((s.stored record.id).getD 0))
      (.register (record.atVersion (c.nextVersion (s.stored record.id))) .here)
  | update {i : Nat} {c : Channel} (there : s.service.channel? i = some c) (record : Record)
      (deltas : List Delta) :
    Writes s (max c.version ((s.stored record.id).getD 0))
      (.update (record.atVersion (c.nextVersion (s.stored record.id))) deltas .here)
  | statusUpdate {id : InstanceId} {version : Version} (known : s.stored id = some version)
      (status : Status) (source : Source) :
    Writes s version (.statusUpdate id status source)
  | ofServer {record : Record} {token : String}
      (draft : record = s.server.self.draft token) :
    Writes s ((s.stored record.id).getD 0)
      (.register (record.atVersion ((s.stored record.id).getD 0 + 1)) .here)
  | renewal {record : Record} (own : s.server.self.record = some record) :
    Writes s ((s.stored record.id).getD record.version)
      (.register (record.atVersion ((s.stored record.id).getD record.version + 1)) .here)

variable {last : Version} {r : Request}

theorem Writes.version? (h : s.Writes last r) :
    r.version? s.registry.store = some (last + 1) := by
  cases h with
  | registration | update | ofServer | renewal => rfl
  | statusUpdate known status source => exact congrArg (Option.map (· + 1)) known

theorem Writes.le_last (h : s.Writes last r) :
    ∀ v, s.stored r.id = some v → v ≤ last := by
  have hmax : ∀ {c : Channel} (record : Record) {v : Version}, s.stored record.id = some v →
      v ≤ max c.version ((s.stored record.id).getD 0) := by
    intro c record v hv
    rw [hv, UInt64.le_iff_toNat_le, toNat_max]
    exact Nat.le_max_right ..
  intro v hv
  cases h with
  | registration there record => exact hmax record hv
  | update there record deltas => exact hmax record hv
  | statusUpdate known status source =>
    obtain rfl := Option.some.inj (known.symm.trans hv)
    exact UInt64.le_refl _
  | @ofServer record token draft =>
    have hv : s.stored record.id = some v := hv
    rw [hv]
    exact UInt64.le_refl _
  | @renewal record own =>
    have hv : s.stored record.id = some v := hv
    rw [hv]
    exact UInt64.le_refl _

theorem Writes.toNat_last_le (h : s.Writes last r) (hs : s.UpTo (Traffic.RisenTo bound) n) :
    last.toNat ≤ n := by
  have hserver := hs.host.2.server
  have hstored : ∀ {id : InstanceId} {v : Version}, v.toNat ≤ n →
      ((s.stored id).getD v).toNat ≤ n := by
    intro id v hv
    cases hid : s.stored id with
    | none => exact hv
    | some w => exact hserver.store.version? hid
  cases h with
  | registration there | update there =>
    rw [toNat_max]
    exact Nat.max_le.mpr ⟨hs.channels _ _ there, hstored (Nat.zero_le n)⟩
  | statusUpdate known => exact hserver.store.version? known
  | ofServer => exact hstored (Nat.zero_le n)
  | renewal own => exact hstored (hserver.own _ own)

/-- Whatever a channel or the server for itself comes to write next is among `Writes`. -/
structure WritesAll (s : Busy (Traffic Task Cluster.Outcome)) : Prop where
  begun (i : Nat) (c : Channel) (m : ClientMessage) (d : Desk) (call : Channel.Call) :
    s.service.channel? i = some c → (c.begin m s.stored d).1 = .calling call →
    call.request.isWrite = true → ∃ last, s.Writes last call.request
  revived (i : Nat) (c : Channel) (call : Channel.Call) (a : Answer) (now : Time) (d : Desk)
      (call' : Channel.Call) :
    s.service.channel? i = some c → (c.answered call a s.stored now d).1 = .calling call' →
    ∃ last, s.Writes last call'.request
  registered (token : String) (now : Time) : s.server.self.record = none →
    ∃ last record f, s.Writes last (.register record .here) ∧
      (Server.selfRegister token).advance now s.server =
        ((Server.request (.register record .here)).andThen f).advance now s.server
  renewed (record : Record) (now : Time) : s.server.self.record = some record →
    s.stored record.id = none →
    ∃ last record' f, s.Writes last (.register record' .here) ∧
      (Server.renewOwn record).advance now s.server =
        ((Server.request (.register record' .here)).andThen f).advance now s.server

theorem writes_of_begin {i : Nat} {c : Channel} (there : s.service.channel? i = some c)
    {m : ClientMessage} {d : Desk} {call : Channel.Call}
    (hbegin : (c.begin m s.stored d).1 = .calling call) (hw : call.request.isWrite = true) :
    ∃ last, s.Writes last call.request := by
  cases m with
  | register record =>
    simp only [Channel.begin] at hbegin
    cases hstate : c.state <;> rw [hstate] at hbegin <;> cases hbegin
    exact ⟨_, .registration there record⟩
  | update record =>
    simp only [Channel.begin] at hbegin
    cases hregistered : c.registered? with
    | error e =>
      rw [hregistered] at hbegin
      cases hbegin
    | ok previous =>
      rw [hregistered] at hbegin
      simp only at hbegin
      split at hbegin <;> cases hbegin
      exact ⟨_, .update there record _⟩
  | unregister | heartbeat =>
    simp only [Channel.begin] at hbegin
    cases hregistered : c.registered? <;> rw [hregistered] at hbegin <;> cases hbegin
    cases hw

theorem writes_of_answered {i : Nat} {c : Channel} (there : s.service.channel? i = some c)
    {call call' : Channel.Call} {a : Answer} {now : Time} {d : Desk}
    (hanswered : (c.answered call a s.stored now d).1 = .calling call') :
    ∃ last, s.Writes last call'.request := by
  unfold Channel.answered at hanswered
  split at hanswered <;> cases hanswered
  exact ⟨_, .registration there _⟩

theorem writes_of_selfRegister (token : String) (now : Time)
    (hnone : s.server.self.record = none) :
    ∃ last record f, s.Writes last (.register record .here) ∧
      (Server.selfRegister token).advance now s.server =
        ((Server.request (.register record .here)).andThen f).advance now s.server := by
  let draft := s.server.self.draft token
  let record := draft.atVersion ((s.stored draft.id).getD 0 + 1)
  let f : Answer → Activity (Except RegistryError Record)
    | .failed e => .done (.error e)
    | .changed _ | .renewed _ => Server.markUp record
  refine ⟨_, record, f, .ofServer (show draft = s.server.self.draft token from rfl), ?_⟩
  simp only [Server.selfRegister, Activity.advance, hnone]
  refine congrArg (fun f => ((Server.request (.register record .here)).andThen f).advance now
    s.server) (funext fun a => ?_)
  cases a <;> rfl

theorem writes_of_renewOwn {record : Record} (now : Time)
    (own : s.server.self.record = some record) (lost : s.stored record.id = none) :
    ∃ last record' f, s.Writes last (.register record' .here) ∧
      (Server.renewOwn record).advance now s.server =
        ((Server.request (.register record' .here)).andThen f).advance now s.server := by
  refine ⟨_, _, fun _ => .done (), .renewal own, ?_⟩
  have hperform := Coordinator.perform_renew_of_absent (c := s.server.coordinator)
    (Option.map_eq_none_iff.mp lost) now .here
  rw [Server.renewOwn]
  simp only [Server.request, Activity.andThen, Activity.advance, hperform]
  rfl

theorem writesAll (s : Busy (Traffic Task Cluster.Outcome)) : s.WritesAll where
  begun _ _ _ _ _ there hbegin hw := writes_of_begin there hbegin hw
  revived _ _ _ _ _ _ _ there hanswered := writes_of_answered there hanswered
  registered token now hnone := writes_of_selfRegister token now hnone
  renewed _ now own lost := writes_of_renewOwn now own lost

/-! ## The versions that are left -/

/-- However a server got where it is, a local write that it comes to make leads what is stored
exactly if the highest version that its writer knows is not the last one there is. Past that one it
is at version 0, and superseded if there is anything stored. No version gets there as long as peers
name none past `bound` and `bound + 2 * k` is far enough from the end, `k` acts on: then all local
writes lead, and nothing that a whole operation of a channel writes is superseded. -/
theorem localWrites_lead_iff (hserver : server.UpTo bound) (hs : Reached bound server k s) :
    s.WritesAll ∧
    (∀ last r, s.Writes last r →
      last.toNat ≤ bound + 2 * k ∧
      (s.registry.Leads last r ↔ last.toNat + 1 < UInt64.size) ∧
      (last.toNat + 1 = UInt64.size →
        r.version? s.registry.store = some 0 ∧
        ∀ now, (s.registry.handle now r).1 = .changed .superseded ↔
          (∀ e, (s.registry.handle now r).1 ≠ .failed e) ∧ (s.stored r.id).isSome)) ∧
    (bound + 2 * k + 2 < UInt64.size →
      (∀ last r, s.Writes last r → s.registry.Leads last r) ∧
      ∀ i c, s.service.channel? i = some c → ∀ now x d,
        NoneSuperseded (c.operate Host.serving.listing now x d (s.service.host, [])).2.2.2.2) := by
  have hup := hs.upTo hserver
  refine ⟨s.writesAll, fun last r hw => ⟨hw.toNat_last_le hup, ?_, fun hlast => ?_⟩, fun hroom =>
    ⟨fun last r hw => ?_, fun i c hc now x d => ?_⟩⟩
  · exact Registry.leads_iff hw.version? hw.le_last
  · obtain ⟨hzero, hsuperseded⟩ := Registry.superseded_iff_of_last hw.version? hlast
    exact ⟨hzero ▸ hw.version?, hsuperseded⟩
  · refine (Registry.leads_iff hw.version? hw.le_last).mpr ?_
    have := hw.toNat_last_le hup
    omega
  · exact noneSuperseded_operate (Host.rises_serving bound) (hup.channels i c hc) hup.host hroom
      now x d

/-- A server with one channel that has taken in a record of its peer. -/
def told (server : Server) (peer : ServerId) (record : Record) :
    Busy (Traffic Task Cluster.Outcome) :=
  ((Busy.start (.start server) 90000 0).act Host.serving.toBackend
    (.whole .connect)).act Host.serving.toBackend
      (.whole (.elsewhere (Traffic.aside (.receive 0 peer (.register record)))))

theorem reached_told {server : Server} {peer : ServerId} {record : Record}
    (h : record.version.toNat ≤ bound) : Reached bound server 2 (told server peer record) :=
  .act _ (.act _ (.start 90000 0) trivial) ⟨_, rfl, fun _ hv => Option.some.inj hv ▸ h⟩

/-- A record of one instance at any version. -/
def shopAt (version : Version) : Record := (Record.bare ⟨"web"⟩ "shop").atVersion version

/-- The peer named version 5, and the channel goes on with 6. -/
theorem localWrites_lead_afterFive :
    let server := Server.fresh ⟨"a", by decide⟩ 1
    let s := told server ⟨"b", by decide⟩ (shopAt 5)
    server.UpTo 5 ∧ Reached 5 server 2 s ∧ 5 + 2 * 2 + 2 < UInt64.size ∧
      s.stored ⟨"web"⟩ = some 5 ∧ s.Writes 5 (.register (shopAt 6) .here) ∧
      s.registry.Leads 5 (.register (shopAt 6) .here) := by
  intro server s
  have hserver : server.UpTo 5 := ⟨Store.upTo_empty 5, nofun⟩
  have hreached : Reached 5 server 2 s := reached_told (by decide)
  have hchannel : s.service.channel? 0 = some ⟨.idle, none, 0, true, []⟩ := by decide +kernel
  have hstored : s.stored ⟨"web"⟩ = some 5 := by decide +kernel
  have hwrites : s.Writes 5 (.register (shopAt 6) .here) := by
    have h := Writes.registration hchannel (shopAt 5)
    rw [show s.stored (shopAt 5).id = some 5 from hstored] at h
    exact h
  exact ⟨hserver, hreached, by decide, hstored, hwrites,
    ((localWrites_lead_iff hserver hreached).2.2 (by decide)).1 5 _ hwrites⟩

/-- The peer named the last version there is. The channel's next one is 0, so its valid registration
is refused as superseded, and so is every change of status. -/
theorem localWrites_superseded_afterLast :
    let server := Server.fresh ⟨"a", by decide⟩ 1
    let s := told server ⟨"b", by decide⟩ (shopAt 18446744073709551615)
    let c : Channel := ⟨.idle, none, 0, true, []⟩
    Reached 18446744073709551615 server 2 s ∧ s.service.channel? 0 = some c ∧
      s.stored ⟨"web"⟩ = some 18446744073709551615 ∧
      c.nextVersion (s.stored ⟨"web"⟩) = 0 ∧ (shopAt 0).Valid ∧
      (c.operate Host.serving.toBackend 0 (.message (.register (shopAt 0))) s.service.desk
        s.service.host).2.1.replies = [.error (Error.overtaken "registration" (shopAt 0)).message] ∧
      (s.registry.handle 0 (.statusUpdate ⟨"web"⟩ .up .here)).1 = .changed .superseded := by
  intro server s c
  exact ⟨reached_told (by decide), by decide +kernel, by decide +kernel, by decide +kernel,
    by decide +kernel, by decide +kernel, by decide +kernel⟩

end Busy

end LeaseRegistry
