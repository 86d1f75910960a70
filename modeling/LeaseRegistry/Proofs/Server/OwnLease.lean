import LeaseRegistry.Proofs.Data.List
import LeaseRegistry.Proofs.Server.Stage

/-!
# The lease of the server itself

A server registers itself once and then keeps the lease alive. `Held` is what holds of it in every
run: each registration is at a stage, one of them is under way at most, and the record that the
server knows of itself stands for an id under which it was registered. `Turned` is what one turn of
any errand does, whatever the errand is for, and `Held.turned` carries `Held` through it.

The one id is safe only as long as nobody takes the lease away between the two steps of a
registration (`registered_twice_of_lostLease`).
-/

namespace LeaseRegistry

open Server (Task)

namespace Traffic

variable {calm : Prop} {s server : Server} {token : String} {e : Errand Task Cluster.Outcome}

/-! ## All errands -/

/-- The id under which an errand has registered the server, if it has. -/
def registeredAs? (s : Server) (e : Errand Task Cluster.Outcome) : Option InstanceId :=
  match e.task with
  | .selfRegister token =>
    if e.announcements.isEmpty then none else some (s.firstRecord token).id
  | _ => none

/-- The ids under which the server has registered itself. -/
def ownIds (s : Server) (t : Traffic Task Cluster.Outcome) : List InstanceId :=
  t.errands.filterMap (registeredAs? s)

/-- What a turn makes of an errand, or of none before it begins, and of the server. -/
structure Turned (calm : Prop) (s : Server) (t : Traffic Task Cluster.Outcome)
    (old : Option (Errand Task Cluster.Outcome)) (e : Errand Task Cluster.Outcome)
    (server : Server) : Prop where
  task : ∀ e' ∈ old, e'.task = e.task
  goes : ∃ count, Server.Section True count t.server server
  waits : e.rest.Waits e.task.Goes
  stage : ∀ token, e.task = .selfRegister token → Stage calm s server.self.record token e
  renewal : ∀ r, e.task = .renewOwn r → Server.Told e.rest
  /-- It goes on, or no other registration does. -/
  current : e.task.Registers → e.result? = none →
    (∃ e' ∈ old, e'.result? = none) ∨
      old = none ∧ ∀ e' ∈ t.errands, e'.task.Registers → e'.result?.isSome
  ids : registeredAs? s e = old.bind (registeredAs? s) ∨ old = none ∧ (calm → t.ownIds s = [])
  record : server.self.record = t.server.self.record ∨
    (∃ e' ∈ old, e'.task.Registers ∧ e'.result? = none) ∧ t.server.self.record = none ∧
      ∃ id r, registeredAs? s e = some id ∧ server.self.record = some r ∧ Apt id r
  leases : e.task.IsOwn → ∀ k, server.store.lease? k ≠ t.server.store.lease? k →
    registeredAs? s e = some k ∨ k ∈ t.ownIds s

/-- What holds of a server that has registered itself, or is about to. -/
structure Held (calm : Prop) (s : Server) (t : Traffic Task Cluster.Outcome) : Prop where
  underway : t.Underway Task.Goes
  sound : t.server.store.Sound
  drafts : t.server.self.draft = s.self.draft
  peers : t.server.coordinator.peers = s.coordinator.peers
  stages : ∀ e ∈ t.errands, ∀ token, e.task = .selfRegister token →
    Stage calm s t.server.self.record token e
  renewals : ∀ e ∈ t.errands, ∀ r, e.task = .renewOwn r → Server.Told e.rest
  /-- One registration is under way at most. -/
  current : ∃ n, ∀ (k : Nat) (e : Errand Task Cluster.Outcome), t.errands[k]? = some e →
    e.task.Registers → e.result? = none → k = n
  known : ∀ r, t.server.self.record = some r → ∃ id ∈ t.ownIds s, Apt id r
  once : calm → (t.ownIds s).length ≤ 1

variable {t : Traffic Task Cluster.Outcome} {now : Time} {task : Task}

theorem own_or_aside (task : Task) :
    (∃ token, task = .selfRegister token) ∨ (∃ record, task = .renewOwn record) ∨ ¬task.IsOwn := by
  cases task with
  | selfRegister token => exact .inl ⟨token, rfl⟩
  | renewOwn record => exact .inr (.inl ⟨record, rfl⟩)
  | request _ | evict | syncUp | markOwn _ | evictOwn => exact .inr (.inr id)

theorem registeredAs?_of_ne (h : ∀ token, e.task ≠ .selfRegister token) :
    registeredAs? s e = none := by
  unfold registeredAs?
  cases htask : e.task with
  | selfRegister token => exact absurd htask (h token)
  | _ => rfl

theorem firstRecord_eq (h : server.self.draft = s.self.draft) (token : String) :
    server.firstRecord token = s.firstRecord token := by
  rw [Server.firstRecord, Server.firstRecord, h]

/-- A task that is not about the server itself. -/
theorem turned_aside {old : Option (Errand Task Cluster.Outcome)}
    (htask : ∀ e' ∈ old, e'.task = e.task) (hown : ¬e.task.IsOwn)
    (hold : old.bind (registeredAs? s) = none) {count : Nat}
    (hgoes : Server.Section e.task.Registers count t.server server)
    (hwaits : e.rest.Waits e.task.Goes) : Turned calm s t old e server := by
  have hne : ∀ token, e.task ≠ .selfRegister token := by
    intro token htask
    rw [htask] at hown
    exact hown trivial
  have hnot : ¬e.task.Registers := by
    intro hregisters
    cases htask : e.task with
    | selfRegister token => exact hne token htask
    | _ =>
      rw [htask] at hregisters
      exact hregisters
  exact {
    task := htask
    goes := ⟨count, { hgoes with record := .inl trivial }⟩
    waits := hwaits
    stage := fun token htask => absurd htask (hne token)
    renewal := fun r htask => by
      rw [htask] at hown
      exact absurd trivial hown
    current := fun hregisters => absurd hregisters hnot
    ids := .inl (by rw [registeredAs?_of_ne hne, hold])
    record := .inl (hgoes.record.resolve_left hnot)
    leases := fun h => absurd h hown }

/-- A registration that begins in calm is the first one. -/
theorem Held.ownIds_eq_nil (h : Held calm s t) (hcalm : calm)
    (hunknown : t.server.self.record = none)
    (hover : ∀ e ∈ t.errands, e.task.Registers → e.result?.isSome) : t.ownIds s = [] := by
  refine List.filterMap_eq_nil_iff.mpr fun e he => registeredAs?_of_ne fun token htask => ?_
  have hresult := hover e he (by rw [htask]; trivial)
  have hstage := h.stages e he token htask
  cases hstage with
  | given known | registered known => cases hunknown.symm.trans known
  | starting | marking => cases hresult
  | lost first disturbed => exact disturbed hcalm

theorem begin_again {r : Record} (hr : t.server.self.record = some r) (token : String) :
    Errand.begin (Task.selfRegister token) (Task.selfRegister token).activity now t.server =
      (⟨Task.selfRegister token, [], .done (.registered (.ok r))⟩, t.server) := by
  simp only [Errand.begin, Errand.goOn, Server.advance_selfRegister_of_record hr]
  rfl

/-- The first stretch of a registration: it only gives the record that is known, or it registers the
server under an id of its own. -/
theorem turned_begin_selfRegister (h : Held calm s t) (token : String)
    (hvalid : (s.firstRecord token).Valid) (hlegal : t.Legal (.begin now (.selfRegister token))) :
    let begun :=
      Errand.begin (Task.selfRegister token) (Task.selfRegister token).activity now t.server
    Turned calm s t none begun.1 begun.2 := by
  obtain ⟨hgoes, hwaits⟩ :=
    (Server.sections_activity (.selfRegister token) t.server).advance now
  cases hrecord : t.server.self.record with
  | some r =>
    rw [begin_again hrecord]
    exact {
      task := nofun
      goes := ⟨0, Server.section_refl True t.server⟩
      waits := trivial
      stage := fun token htask => by
        cases htask
        exact .given hrecord
      renewal := fun _ htask => (by cases htask)
      current := fun _ hresult => (by cases hresult)
      ids := .inl rfl
      record := .inl rfl
      leases := fun _ k hk => absurd rfl hk }
  | none =>
    obtain ⟨hover, habsent⟩ := hlegal hrecord
    have hfirst := firstRecord_eq h.drafts token
    have hadvance := Server.advance_selfRegister h.sound.wellFormed now hrecord
      (hfirst ▸ hvalid) habsent
    have hperforms := Server.performs_register h.sound.wellFormed now (hfirst ▸ hvalid) habsent
    rw [hfirst] at hadvance hperforms
    rw [hadvance] at hgoes hwaits
    simp only [Errand.begin, Errand.goOn, hadvance]
    exact {
      task := nofun
      goes := ⟨_, hgoes⟩
      waits := hwaits
      stage := fun token htask => by
        cases htask
        exact .starting hrecord (hears_opening h.peers _)
      renewal := fun _ htask => (by cases htask)
      current := fun _ _ => .inr ⟨rfl, hover⟩
      ids := .inr ⟨rfl, fun hcalm => h.ownIds_eq_nil hcalm hrecord hover⟩
      record := .inl rfl
      leases := fun _ k hk => .inl (by
        rw [hperforms.eq_of_changed hk]
        rfl) }

/-- All that a renewal does, it does in its first stretch. -/
theorem turned_begin_renewOwn (h : Held calm s t) {record : Record}
    (hrecord : t.server.self.record = some record) :
    let begun :=
      Errand.begin (Task.renewOwn record) (Task.renewOwn record).activity now t.server
    Turned calm s t none begun.1 begun.2 := by
  obtain ⟨hgoes, hwaits⟩ := (Server.sections_activity (.renewOwn record) t.server).advance now
  obtain ⟨own, hmem, hapt⟩ := h.known record hrecord
  obtain ⟨htold, hrenews⟩ := Server.advance_renewOwn h.sound.wellFormed hapt.valid hapt.version now
  exact {
    task := nofun
    goes := ⟨_, { hgoes with record := .inl trivial }⟩
    waits := hwaits
    stage := fun _ htask => (by cases htask)
    renewal := fun _ _ => htold
    current := fun hregisters => hregisters.elim
    ids := .inl rfl
    record := .inl (hgoes.record.resolve_left id)
    leases := fun _ k hk => .inr (by
      rw [hrenews.others k hk, hapt.id]
      exact hmem) }

theorem turned_begin (h : Held calm s t) (hvalid : ∀ token, (s.firstRecord token).Valid)
    (hlegal : t.Legal (.begin now task)) :
    Turned calm s t none (Errand.begin task task.activity now t.server).1
      (Errand.begin task task.activity now t.server).2 := by
  rcases own_or_aside task with ⟨token, rfl⟩ | ⟨record, rfl⟩ | haside
  · exact turned_begin_selfRegister h token (hvalid token) hlegal
  · exact turned_begin_renewOwn h hlegal
  · obtain ⟨hgoes, hwaits⟩ := (Server.sections_activity task t.server).advance now
    exact turned_aside nofun haside rfl hgoes hwaits

theorem Continues.turned {e' : Errand Task Cluster.Outcome} {count : Nat}
    (h : Continues calm s token e t.server e' server) (hname : e.task = .selfRegister token)
    (htask : e'.task = e.task)
    (hgoes : Server.Section e.task.Registers count t.server server)
    (hwaits : e'.rest.Waits e'.task.Goes) : Turned calm s t (some e) e' server := by
  have hids : registeredAs? s e' = registeredAs? s e := by
    simp only [registeredAs?, htask, hname, h.told]
  have hid (hopen : e.announcements.isEmpty = false) :
      registeredAs? s e' = some (s.firstRecord token).id := by
    rw [hids]
    simp only [registeredAs?, hname, hopen]
    rfl
  exact {
    task := by
      rintro _ ⟨⟩
      exact htask.symm
    goes := ⟨count, { hgoes with record := .inl trivial }⟩
    waits := hwaits
    stage := fun token' htoken => by
      cases hname.symm.trans (htask.symm.trans htoken)
      exact h.stage
    renewal := fun r hr => by cases hname.symm.trans (htask.symm.trans hr)
    current := fun _ hresult => .inl ⟨e, rfl, h.waited hresult⟩
    ids := .inl hids
    record := h.record.imp_right fun ⟨hresult, hopen, hunknown, r, hr, hapt⟩ =>
      ⟨⟨e, rfl, hname ▸ trivial, hresult⟩, hunknown, _, r, hid hopen, hr, hapt⟩
    leases := fun _ k hk => .inl (by
      obtain ⟨rfl, hopen⟩ := h.leases k hk
      exact hid hopen) }

theorem turned_told {e' : Errand Task Cluster.Outcome} {record : Record}
    (hname : e.task = .renewOwn record) (htask : e'.task = e.task) (htold : Server.Told e'.rest)
    (hwaits : e'.rest.Waits e'.task.Goes) : Turned calm s t (some e) e' t.server := by
  have hname' : e'.task = .renewOwn record := htask.trans hname
  have hne : ∀ token, e'.task ≠ .selfRegister token := by
    rw [hname']
    nofun
  exact {
    task := by
      rintro _ ⟨⟩
      exact htask.symm
    goes := ⟨0, Server.section_refl True t.server⟩
    waits := hwaits
    stage := fun token hregister => absurd hregister (hne token)
    renewal := fun _ _ => htold
    current := fun hregisters => by
      rw [hname'] at hregisters
      exact hregisters.elim
    ids := .inl (by
      rw [registeredAs?_of_ne hne, Option.bind_some,
        registeredAs?_of_ne fun token => htask ▸ hne token])
    record := .inl rfl
    leases := fun _ k hk => absurd rfl hk }

theorem turned_moved {e' : Errand Task Cluster.Outcome}
    (hmoved : e.Moved e.task.Goes t.server (e', server)) (hwaits : e'.rest.Waits e.task.Goes)
    (hstage : ∀ token, e.task = .selfRegister token →
      Continues calm s token e t.server e' server)
    (htold : ∀ r, e.task = .renewOwn r → Server.Told e'.rest ∧ server = t.server) :
    Turned calm s t (some e) e' server := by
  have hsection : e'.task = e.task ∧
      ∃ count, Server.Section e.task.Registers count t.server server := by
    cases hmoved with
    | still task result => exact ⟨task, 0, Server.section_refl _ t.server⟩
    | on task waited goes => exact ⟨task, _, goes⟩
  obtain ⟨htask, count, hgoes⟩ := hsection
  rw [← htask] at hwaits
  rcases own_or_aside e.task with ⟨token, hname⟩ | ⟨record, hname⟩ | haside
  · exact (hstage token hname).turned hname htask hgoes hwaits
  · obtain ⟨hrest, rfl⟩ := htold record hname
    exact turned_told hname htask hrest hwaits
  · refine turned_aside ?_ (htask ▸ haside) ?_ (htask ▸ hgoes) hwaits
    · rintro _ ⟨⟩
      exact htask.symm
    refine registeredAs?_of_ne fun token hregister => haside ?_
    rw [hregister]
    trivial

theorem turned_hear (h : Held calm s t) (he : e ∈ t.errands) (peer : Nat) (r : CallResult)
    (now : Time) : Turned calm s t (some e) (e.hear peer r now t.server).1
      (e.hear peer r now t.server).2 := by
  obtain ⟨hmoved, hwaits⟩ := Errand.moved_hear (h.underway e he) peer r now t.server
  exact turned_moved hmoved hwaits
    (fun token htask => (h.stages e he token htask).hear peer r now)
    fun record htask => told_hear (h.renewals e he record htask) peer r now

theorem turned_resume (h : Held calm s t) (hvalid : ∀ token, (s.firstRecord token).Valid)
    (hbounded : t.Bounded) (hcalm : calm → t.Undisturbed) (he : e ∈ t.errands) (now : Time) :
    Turned calm s t (some e) (e.resume now t.server).1 (e.resume now t.server).2 := by
  obtain ⟨hmoved, hwaits⟩ := Errand.moved_resume (h.underway e he) now t.server
  refine turned_moved hmoved hwaits (fun token htask => ?_)
    fun record htask => told_resume (h.renewals e he record htask) now
  refine (h.stages e he token htask).resume h.sound (hvalid token) h.peers hbounded
    (fun hc hresult hlength => ?_) now
  rw [← firstRecord_eq h.drafts]
  exact hcalm hc e he token htask hresult hlength

/-- The errands of `t` with `e` in the place of `old`, or at the end. -/
inductive Updated (t : Traffic Task Cluster.Outcome) :
    Option (Errand Task Cluster.Outcome) → Errand Task Cluster.Outcome →
      List (Errand Task Cluster.Outcome) → Prop where
  | added {e : Errand Task Cluster.Outcome} : Updated t none e (t.errands ++ [e])
  | set {n : Nat} {old e : Errand Task Cluster.Outcome} (found : t.errands[n]? = some old) :
    Updated t (some old) e (t.errands.set n e)

variable {old : Option (Errand Task Cluster.Outcome)} {errands : List (Errand Task Cluster.Outcome)}

theorem Updated.mem (h : Updated t old e errands) : e ∈ errands := by
  cases h with
  | added => exact List.mem_append_right _ (List.mem_singleton_self e)
  | set found => exact List.mem_set (List.getElem?_eq_some_iff.mp found).1 e

/-- All errands but one are where they were, and are not what was replaced. -/
theorem Updated.cases (h : Updated t old e errands) {k : Nat} {x : Errand Task Cluster.Outcome}
    (hx : errands[k]? = some x) :
    x = e ∧ (∀ e' ∈ old, t.errands[k]? = some e') ∨
      t.errands[k]? = some x ∧ ∀ e' ∈ old, ∃ n, n ≠ k ∧ t.errands[n]? = some e' := by
  cases h with
  | added =>
    rw [List.getElem?_append] at hx
    split at hx
    · exact .inr ⟨hx, nofun⟩
    · exact .inl ⟨(List.mem_singleton.mp (List.mem_of_getElem? hx)), nofun⟩
  | @set n old e found =>
    by_cases hk : n = k
    · subst hk
      rw [List.getElem?_set_self (List.getElem?_eq_some_iff.mp found).1] at hx
      refine .inl ⟨(Option.some.inj hx).symm, ?_⟩
      rintro _ ⟨⟩
      exact found
    · rw [List.getElem?_set_ne hk] at hx
      refine .inr ⟨hx, ?_⟩
      rintro _ ⟨⟩
      exact ⟨n, hk, found⟩

theorem Updated.ownIds (h : Updated t old e errands) (server : Server) :
    (registeredAs? s e = old.bind (registeredAs? s) →
      Traffic.ownIds s ⟨server, errands⟩ = t.ownIds s) ∧
    (old = none → Traffic.ownIds s ⟨server, errands⟩ =
      t.ownIds s ++ (registeredAs? s e).toList) := by
  cases h with
  | added =>
    have happend : Traffic.ownIds s ⟨server, t.errands ++ [e]⟩ =
        t.ownIds s ++ (registeredAs? s e).toList := by
      rw [Traffic.ownIds, List.filterMap_append, Traffic.ownIds]
      cases hid : registeredAs? s e <;> simp [hid]
    refine ⟨fun hids => ?_, fun _ => happend⟩
    rw [happend, hids]
    exact List.append_nil _
  | set found => exact ⟨fun hids => filterMap_set found hids, nofun⟩

theorem Turned.subset_ownIds (h : Turned calm s t old e server)
    (hupdated : Updated t old e errands) :
    t.ownIds s ⊆ Traffic.ownIds s ⟨server, errands⟩ := by
  rcases h.ids with hids | ⟨hnone, -⟩
  · rw [(hupdated.ownIds server).1 hids]
    exact List.Subset.refl _
  · rw [(hupdated.ownIds server).2 hnone]
    exact List.subset_append_left ..

theorem Stage.know {record : Option Record} (h : Stage calm s none token e)
    (hover : e.result?.isSome) : Stage calm s record token e := by
  cases h with
  | given known | registered known => cases known
  | starting | marking => cases hover
  | lost first disturbed => exact .lost first disturbed

theorem Held.stages_turned (h : Held calm s t) (hupdated : Updated t old e errands)
    (hturned : Turned calm s t old e server) {x : Errand Task Cluster.Outcome} (hx : x ∈ errands)
    (htask : x.task = .selfRegister token) : Stage calm s server.self.record token x := by
  obtain ⟨k, hk⟩ := List.mem_iff_getElem?.mp hx
  rcases hupdated.cases hk with ⟨rfl, -⟩ | ⟨hold, hothers⟩
  · exact hturned.stage token htask
  · have hstage := h.stages x (List.mem_of_getElem? hold) token htask
    rcases hturned.record with hsame | ⟨⟨e', he', hregisters, hresult⟩, hunknown, -⟩
    · rwa [hsame]
    · -- the registration that came to know the record was the only one under way
      rw [hunknown] at hstage
      refine hstage.know (Option.isSome_iff_ne_none.mpr fun hnone => ?_)
      obtain ⟨n, hn, hfound⟩ := hothers e' he'
      obtain ⟨c, hcurrent⟩ := h.current
      refine hn ((hcurrent n e' hfound hregisters hresult).trans (Eq.symm ?_))
      exact hcurrent k x hold (by rw [htask]; trivial) hnone

theorem Held.current_turned (h : Held calm s t) (hupdated : Updated t old e errands)
    (hturned : Turned calm s t old e server) :
    ∃ n, ∀ (k : Nat) (x : Errand Task Cluster.Outcome), errands[k]? = some x →
      x.task.Registers → x.result? = none → k = n := by
  by_cases hnew : e.task.Registers ∧ e.result? = none
  · rcases hturned.current hnew.1 hnew.2 with ⟨e', he', hresult⟩ | ⟨hnone, hover⟩
    · obtain ⟨c, hcurrent⟩ := h.current
      have hregisters : e'.task.Registers := hturned.task e' he' ▸ hnew.1
      refine ⟨c, fun k x hk hx hwaits => ?_⟩
      rcases hupdated.cases hk with ⟨-, hplace⟩ | ⟨hold, -⟩
      · exact hcurrent k e' (hplace e' he') hregisters hresult
      · exact hcurrent k x hold hx hwaits
    · subst hnone
      cases hupdated
      refine ⟨t.errands.length, fun k x hk hx hwaits => ?_⟩
      rw [List.getElem?_append] at hk
      split at hk
      · have hdone := hover x (List.mem_of_getElem? hk) hx
        rw [hwaits] at hdone
        cases hdone
      · have hlt := (List.getElem?_eq_some_iff.mp hk).1
        rw [List.length_singleton] at hlt
        omega
  · obtain ⟨c, hcurrent⟩ := h.current
    refine ⟨c, fun k x hk hx hwaits => ?_⟩
    rcases hupdated.cases hk with ⟨rfl, -⟩ | ⟨hold, -⟩
    · exact absurd ⟨hx, hwaits⟩ hnew
    · exact hcurrent k x hold hx hwaits

theorem Held.turned (h : Held calm s t) (hupdated : Updated t old e errands)
    (hturned : Turned calm s t old e server) : Held calm s ⟨server, errands⟩ := by
  obtain ⟨count, hgoes⟩ := hturned.goes
  have hmem {x : Errand Task Cluster.Outcome} (hx : x ∈ errands) : x ∈ t.errands ∨ x = e := by
    obtain ⟨k, hk⟩ := List.mem_iff_getElem?.mp hx
    rcases hupdated.cases hk with ⟨hnew, -⟩ | ⟨hold, -⟩
    · exact .inr hnew
    · exact .inl (List.mem_of_getElem? hold)
  have hsubset := hturned.subset_ownIds hupdated
  exact {
    underway := fun x hx => by
      rcases hmem hx with hold | rfl
      · exact h.underway x hold
      · exact hturned.waits
    sound := h.sound.mutated hgoes.store
    drafts := by
      rw [← h.drafts, hgoes.self]
      rfl
    peers := hgoes.peers.trans h.peers
    stages := fun x hx token htask => h.stages_turned hupdated hturned hx htask
    renewals := fun x hx r htask => by
      rcases hmem hx with hold | rfl
      · exact h.renewals x hold r htask
      · exact hturned.renewal r htask
    current := h.current_turned hupdated hturned
    known := fun r hr => by
      rcases hturned.record with hsame | ⟨-, -, id, r', hid, hr', hapt⟩
      · obtain ⟨id, hid, hapt⟩ := h.known r (hsame.symm.trans hr)
        exact ⟨id, hsubset hid, hapt⟩
      · cases hr.symm.trans hr'
        exact ⟨id, List.mem_filterMap.mpr ⟨e, hupdated.mem, hid⟩, hapt⟩
    once := fun hcalm => by
      rcases hturned.ids with hids | ⟨hnone, hnil⟩
      · rw [(hupdated.ownIds server).1 hids]
        exact h.once hcalm
      · rw [(hupdated.ownIds server).2 hnone, hnil hcalm]
        cases registeredAs? s e with
        | none => exact Nat.zero_le 1
        | some id => exact Nat.le_refl 1 }

/-! ## Runs -/

theorem Held.received (h : Held calm s t) (now : Time) (origin : ServerId) (m : PeerMessage) :
    Held calm s (t.step Task.activity (.receive now origin m)) := by
  have hgoes := Server.section_receive False t.server now origin m
  exact { h with
    sound := h.sound.mutated hgoes.store
    peers := hgoes.peers.trans h.peers }

def task? (t : Traffic Task Cluster.Outcome) : Move Task → Option Task
  | .begin _ task => some task
  | .receive .. => none
  | .hear n .. | .resume n _ => (t.errands[n]?).map (·.task)

/-- The server goes on as it should, and where that is about the server itself, no other leases
change than those under its own ids. -/
structure Goes (calm : Prop) (s : Server) (t : Traffic Task Cluster.Outcome) (move : Move Task)
    (t' : Traffic Task Cluster.Outcome) : Prop where
  held : Held calm s t'
  leases : ∀ task, t.task? move = some task → task.IsOwn → ∀ k,
    t'.server.store.lease? k ≠ t.server.store.lease? k → k ∈ t'.ownIds s

theorem Held.goes_turned (h : Held calm s t) {move : Move Task}
    (hupdated : Updated t old e errands) (hturned : Turned calm s t old e server)
    (htask : t.task? move = some e.task) : Goes calm s t move ⟨server, errands⟩ := by
  refine ⟨h.turned hupdated hturned, fun task hmove hown k hk => ?_⟩
  cases htask.symm.trans hmove
  rcases hturned.leases hown k hk with hid | hmem
  · exact List.mem_filterMap.mpr ⟨e, hupdated.mem, hid⟩
  · exact hturned.subset_ownIds hupdated hmem

theorem Held.step (h : Held calm s t) (hvalid : ∀ token, (s.firstRecord token).Valid)
    {move : Move Task} (hlegal : t.Legal move) (hbounded : t.Bounded)
    (hcalm : calm → t.Undisturbed) : Goes calm s t move (t.step Task.activity move) := by
  have hturn {n : Nat} {f : Errand Task Cluster.Outcome → Server →
      Errand Task Cluster.Outcome × Server} (hmove : t.task? move = (t.errands[n]?).map (·.task))
      (hf : ∀ e ∈ t.errands, Turned calm s t (some e) (f e t.server).1 (f e t.server).2) :
      Goes calm s t move (t.onErrand n f) := by
    unfold onErrand
    cases hn : t.errands[n]? with
    | none => exact ⟨h, fun _ _ _ k hk => absurd rfl hk⟩
    | some e =>
      have hturned := hf e (List.mem_of_getElem? hn)
      refine h.goes_turned (.set hn) hturned ?_
      rw [hmove, hn, Option.map_some, hturned.task e rfl]
  cases move with
  | begin now task => exact h.goes_turned .added (turned_begin h hvalid hlegal) rfl
  | receive now origin m => exact ⟨h.received now origin m, fun _ hmove => by cases hmove⟩
  | hear n peer r now => exact hturn rfl fun e he => turned_hear h he peer r now
  | resume n now => exact hturn rfl fun e he => turned_resume h hvalid hbounded hcalm he now

theorem held_start (calm : Prop) {s : Server} (hs : s.store.Sound) (hnew : s.self.record = none) :
    Held calm s (start s) := by
  have hnone : ∀ e, e ∉ (start s : Traffic Task Cluster.Outcome).errands :=
    fun _ => List.not_mem_nil
  exact {
    underway := fun e he => absurd he (hnone e)
    sound := hs
    drafts := rfl
    peers := rfl
    stages := fun e he => absurd he (hnone e)
    renewals := fun e he => absurd he (hnone e)
    current := ⟨0, fun _ _ he => by cases he⟩
    known := fun r hr => by cases hnew.symm.trans hr
    once := fun _ => Nat.zero_le 1 }

theorem held_reached {s : Server} (hs : s.store.Sound) (hnew : s.self.record = none)
    (hvalid : ∀ token, (s.firstRecord token).Valid) (h : Reached calm s t) : Held calm s t := by
  induction h with
  | start => exact held_start calm hs hnew
  | step _ legal bounded undisturbed ih => exact (ih.step hvalid legal bounded undisturbed).held

/-- What peers hear of a registration: nothing, or that the server is starting with a record, and
then at most that it is up, in calm at the next version. Without both it has not succeeded. -/
def Tells (calm : Prop) (s : Server) (record : Record) (e : Errand Task Cluster.Outcome) : Prop :=
  record.status = .starting ∧
    ((e.announcements = [] ∧ ∃ r, e.result? = some (.registered (.ok r))) ∨
      (∃ talks, e.announcements = [talks] ∧ Hears s (.register record) talks ∧
        ∀ r, e.result? ≠ some (.registered (.ok r))) ∨
      ∃ talks talks' w, e.announcements = [talks', talks] ∧ Hears s (.register record) talks ∧
        Hears s (.statusUpdate record.id .up w) talks' ∧ (calm → w = record.version + 1))

theorem Stage.tells {record : Option Record} (h : Stage calm s record token e) :
    Tells calm s (s.firstRecord token) e := by
  refine ⟨rfl, ?_⟩
  cases h with
  | given known => exact .inl ⟨rfl, _, rfl⟩
  | starting unknown first | lost first disturbed => exact .inr (.inl ⟨_, rfl, first, nofun⟩)
  | marking unknown first second next | registered known first second next =>
    exact .inr (.inr ⟨_, _, _, rfl, first, second, next⟩)

theorem valid_firstRecord {s : Server} (hname : s.self.app ≠ "") (token : String) :
    (s.firstRecord token).Valid := by
  have happ : s.self.app.isEmpty = false := by simpa using hname
  have hid : (s.self.app ++ "#" ++ token).isEmpty = false := by simp
  unfold Record.Valid Record.fault?
  rw [show (s.firstRecord token).id.text = s.self.app ++ "#" ++ token from rfl, hid,
    show (s.firstRecord token).app = s.self.app from rfl, happ]
  rfl

/-- A server that registers itself, with anything else going on wherever it waits. All registrations
that succeed give the record that the server knows from then on; peers are told of a registration
step by step, in calm at the next version; what the server does about itself changes no lease but
under the ids it was registered under. In calm there is one such id at most, and no registration
fails. Once the record is known, a further registration only gives it again, and a renewal leaves a
renewed lease, at a higher version if it was gone. -/
theorem registered_once {s : Server} (hs : s.store.Sound) (hname : s.self.app ≠ "")
    (hnew : s.self.record = none) (h : Reached calm s t) :
    (∀ e ∈ t.errands, e.task.Registers → ∀ r, e.result? = some (.registered (.ok r)) →
      t.server.self.record = some r) ∧
    (∀ e ∈ t.errands, ∀ token, e.task = .selfRegister token →
      Tells calm s (s.firstRecord token) e) ∧
    (∀ move task, t.Legal move → t.Bounded → (calm → t.Undisturbed) →
      t.task? move = some task → task.IsOwn → ∀ k,
        (t.step Task.activity move).server.store.lease? k ≠ t.server.store.lease? k →
          k ∈ (t.step Task.activity move).ownIds s) ∧
    (calm → (t.ownIds s).length ≤ 1 ∧ ∀ e ∈ t.errands, e.task.Registers →
      ∀ error, e.result? ≠ some (.registered (.error error))) ∧
    ∀ r, t.server.self.record = some r →
      r.id ∈ t.ownIds s ∧
      (∀ now token, t.step Task.activity (.begin now (.selfRegister token)) =
        ⟨t.server, t.errands ++ [⟨.selfRegister token, [], .done (.registered (.ok r))⟩]⟩) ∧
      ∀ now, Server.Renews t.server now r
        (t.step Task.activity (.begin now (.renewOwn r))).server := by
  have hvalid := valid_firstRecord hname
  have hheld := held_reached hs hnew hvalid h
  have hstage {e : Errand Task Cluster.Outcome} (he : e ∈ t.errands) (hr : e.task.Registers) :
      ∃ token, Stage calm s t.server.self.record token e := by
    cases htask : e.task with
    | selfRegister token => exact ⟨token, hheld.stages e he token htask⟩
    | _ =>
      rw [htask] at hr
      exact hr.elim
  refine ⟨fun e he hregisters r hresult => ?_,
    fun e he token htask => (hheld.stages e he token htask).tells,
    fun move task hlegal hbounded hcalm => (hheld.step hvalid hlegal hbounded hcalm).leases task,
    fun hcalm => ⟨hheld.once hcalm, fun e he hregisters error hresult => ?_⟩, fun r hr => ?_⟩
  · obtain ⟨token, hstage⟩ := hstage he hregisters
    cases hstage with
    | given known | registered known =>
      cases hresult
      exact known
    | starting | marking | lost => cases hresult
  · obtain ⟨token, hstage⟩ := hstage he hregisters
    cases hstage with
    | given | registered | starting | marking => cases hresult
    | lost first disturbed => exact disturbed hcalm
  · obtain ⟨id, hid, hapt⟩ := hheld.known r hr
    refine ⟨hapt.id ▸ hid, fun now token => ?_, fun now => ?_⟩
    · simp only [step, begin_again hr]
    · exact (Server.advance_renewOwn hheld.sound.wellFormed hapt.valid hapt.version now).2

/-- The moves of a registration that its one peer hears of. -/
def registering (errand : Nat) (token : String) (now : Time) : List (Move Task) :=
  [.begin now (.selfRegister token), .hear errand 0 (.replied .ack) now, .resume errand now,
    .hear errand 0 (.replied .ack) now, .resume errand now]

/-- A peer takes the lease away once the registration is over, and it is renewed all the same. -/
theorem registered_once_unregistered :
    let s := Server.fresh ⟨"a", by decide⟩ 1
    let t := (start s).run Task.activity
      (registering 0 "1" 0 ++ [.receive 4 ⟨"b", by decide⟩ (.unregister (s.firstRecord "1").id 2)])
    s.store.Sound ∧ s.self.app ≠ "" ∧ s.self.record = none ∧ Reached True s t ∧
      (t.ownIds s).length ≤ 1 ∧
      ∃ r, t.server.self.record = some r ∧ r.version = 2 ∧ t.server.store.lease? r.id = none ∧
        Server.Renews t.server 90000 r
          (t.step Task.activity (.begin 90000 (.renewOwn r))).server := by
  intro s t
  have hs : s.store.Sound := Store.sound_empty
  have hreached : Reached True s t := Reached.start.follows (by decide +kernel)
  obtain ⟨-, -, -, hcalm, hknown⟩ := registered_once hs (by decide) rfl hreached
  obtain ⟨r, hr⟩ := Option.isSome_iff_exists.mp
    (show t.server.self.record.isSome = true by decide +kernel)
  have hrecord : ∀ r, t.server.self.record = some r →
      r.version = 2 ∧ t.server.store.lease? r.id = none := by
    decide +kernel
  exact ⟨hs, by decide, rfl, hreached, (hcalm trivial).1, r, hr, (hrecord r hr).1, (hrecord r hr).2,
    (hknown r hr).2.2 90000⟩

/-- An eviction takes the lease away while its one peer is told that the server is starting. The
registration fails, the next one takes a second id, and the server counts the first as its own. -/
theorem registered_twice_of_lostLease :
    let s := Server.fresh ⟨"a", by decide⟩ 1
    let lost : List (Move Task) := [.begin 0 (.selfRegister "1"), .begin 100000 .evict,
      .hear 0 0 (.replied .ack) 100000, .resume 0 100000]
    let t := (start s).run Task.activity (lost ++ registering 2 "2" 100000)
    Reached False s t ∧
      t.ownIds s = [(s.firstRecord "1").id, (s.firstRecord "2").id] ∧
      (s.firstRecord "1").id ≠ (s.firstRecord "2").id ∧
      t.server.self.record.map (·.id) = some (s.firstRecord "2").id ∧
      t.server.coordinator.own = some (s.firstRecord "1").id := by
  intro s lost t
  exact ⟨Reached.start.follows (by decide +kernel), by decide +kernel⟩

end Traffic

end LeaseRegistry
