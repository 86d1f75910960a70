import Mathlib.Data.List.Forall2
import LeaseRegistry.Proofs.Channel.Underway
import LeaseRegistry.Proofs.Replication.Delivery
import LeaseRegistry.Proofs.Replication.FanOut

/-!
# The version in a client's record

A client may write any version into the records that it sends, or none. The first step of an
operation replaces it by the next version (`begin_alike`), so two runs that differ in such versions
only are the same (`Busy.run_alike`). Both are stated for messages that were read; `alike_frame`
says that texts which differ in the version only are read so.
-/

namespace LeaseRegistry

open Channel

/-- The messages are the same but for the versions of their records. -/
inductive ClientMessage.Alike : ClientMessage → ClientMessage → Prop where
  | register (r : Record) (v : Version) : Alike (.register r) (.register (r.atVersion v))
  | update (r : Record) (v : Version) : Alike (.update r) (.update (r.atVersion v))
  | unregister : Alike .unregister .unregister
  | heartbeat : Alike .heartbeat .heartbeat

/-! ## In JSON -/

namespace Record

/-- Two values have the same fields of a record but for the version, which each of them leaves out
or gives as a 64-bit number. -/
structure FieldsAlike (fs fs' : List (String × Json)) : Prop where
  others : fs.filter (·.1 != "version") = fs'.filter (·.1 != "version")
  version : ∃ v, Json.defaulted "version" 0 Json.toUInt64? fs = some v
  version' : ∃ v, Json.defaulted "version" 0 Json.toUInt64? fs' = some v

variable {fs fs' : List (String × Json)} {v v' : Json}

theorem FieldsAlike.lookup? (h : FieldsAlike fs fs') {name : String} (hn : name ≠ "version") :
    Json.lookup? name fs = Json.lookup? name fs' := by
  have hfilter : ∀ fs : List (String × Json),
      fs.filter (·.1 == name) = (fs.filter (·.1 != "version")).filter (·.1 == name) := by
    intro fs
    rw [List.filter_filter]
    refine List.filter_congr fun f _ => ?_
    by_cases hf : f.1 = name
    · simp [hf, hn]
    · simp [hf]
  rw [Json.lookup?, Json.lookup?, hfilter fs, hfilter fs', h.others]

theorem ofJson?_alike (hv : v.fields? fieldNames = some fs) (hv' : v'.fields? fieldNames = some fs')
    (h : FieldsAlike fs fs') (reading : Json.Reading) :
    ∃ n, ofJson? reading v' = (ofJson? reading v).map (·.atVersion n) := by
  obtain ⟨k, hk⟩ := h.version
  obtain ⟨n, hn⟩ := h.version'
  refine ⟨n, ?_⟩
  have hrequired : ∀ {α : Type} (name : String) (read : Json → Option α), name ≠ "version" →
      Json.required name read fs' = Json.required name read fs := fun name read hname => by
    rw [Json.required, Json.required, h.lookup? hname]
  have hdefaulted : ∀ {α : Type} (name : String) (a : α) (read : Json → Option α),
      name ≠ "version" → Json.defaulted name a read fs' = Json.defaulted name a read fs :=
    fun name a read hname => by rw [Json.defaulted, Json.defaulted, h.lookup? hname]
  rw [ofJson?, ofJson?, hv, hv']
  simp only [Option.bind_eq_bind, Option.bind_some]
  rw [hrequired "id" _ (by decide), hrequired "app" _ (by decide),
    hdefaulted "vipAddress" _ _ (by decide), hdefaulted "dataCenter" _ _ (by decide),
    hdefaulted "ports" _ _ (by decide), hdefaulted "healthCheckUrls" _ _ (by decide),
    hdefaulted "status" _ _ (by decide), hdefaulted "lease" _ _ (by decide), hk, hn]
  simp only [Option.map_bind, Function.comp_def, Option.bind_some, Option.pure_def,
    Option.map_some]
  rfl

end Record

namespace ClientMessage

/-- What a text holds with a record among its members. -/
def around (before after : List (Json.Text × Json)) (record : Json) : Json :=
  .object (before ++ (some "instance", record) :: after)

variable {before after : List (Json.Text × Json)}

theorem fields?_around (before after : List (Json.Text × Json)) (names : List String) :
    (∀ v, (around before after v).fields? names = none) ∨
      ∃ before' after', ∀ v,
        (around before after v).fields? names = some (before' ++ ("instance", v) :: after') := by
  simp only [around, Json.fields?, List.mapM_append, List.mapM_cons, Option.map_some]
  cases List.mapM (m := Option) _ before with
  | none => exact .inl fun _ => rfl
  | some before' =>
    cases List.mapM (m := Option) _ after with
    | none => exact .inl fun _ => rfl
    | some after' => exact .inr ⟨before', after', fun _ => rfl⟩

/-- Of the content only the member `instance` is read, if there is one of that name. -/
theorem contentRecord?_around (before after : List (Json.Text × Json)) :
    (∀ v, contentRecord? (around before after v) = none) ∨
      ∀ v, contentRecord? (around before after v) = Record.ofJson? .kept v := by
  rcases fields?_around before after ["instance"] with hnone | ⟨before', after', hfields⟩
  · exact .inl fun v => by rw [contentRecord?, hnone]; rfl
  · simp only [contentRecord?, hfields, Option.bind_eq_bind, Option.bind_some, Json.required,
      Json.lookup?, List.filter_append, List.filter_cons, beq_self_eq_true,
      if_true]
    cases before'.filter (·.1 == "instance") with
    | nil =>
      cases after'.filter (·.1 == "instance") with
      | nil => exact .inr fun _ => rfl
      | cons f fs => exact .inl fun _ => rfl
    | cons f fs => exact .inl fun _ => by cases fs <;> rfl

/-- The tag does not depend on the record. -/
theorem tagged?_around (before after : List (Json.Text × Json)) :
    (∀ v, (around before after v).tagged? = none) ∨
      ∃ tag before' after', ∀ v,
        (around before after v).tagged? = some (tag, around before' after' v) := by
  have hpartition : ∀ v : Json,
      (before ++ (some "instance", v) :: after).partition (·.1 == some "type") =
        (before.filter (·.1 == some "type") ++ after.filter (·.1 == some "type"),
          before.filter (!·.1 == some "type") ++
            (some "instance", v) :: after.filter (!·.1 == some "type")) := by
    intro v
    simp [List.partition_eq_filter_filter, List.filter_append, Function.comp_def]
  simp only [around, Json.tagged?, hpartition]
  generalize before.filter (·.1 == some "type") ++ after.filter (·.1 == some "type") = tags
  by_cases htags : ∃ k tag, tags = [(k, .string (some tag))]
  · obtain ⟨k, tag, rfl⟩ := htags
    exact .inr ⟨tag, _, _, fun _ => rfl⟩
  · refine .inl fun v => ?_
    split
    · rename_i k tag content heq
      exact absurd ⟨k, tag, (Prod.mk.inj heq).1⟩ htags
    · rfl

theorem ofJson?_alike {v v' : Json} {fs fs' : List (String × Json)}
    (hv : v.fields? Record.fieldNames = some fs) (hv' : v'.fields? Record.fieldNames = some fs')
    (h : Record.FieldsAlike fs fs') :
    Option.Rel Alike (ofJson? (around before after v)) (ofJson? (around before after v')) := by
  obtain ⟨n, hn⟩ := Record.ofJson?_alike hv hv' h .kept
  rcases tagged?_around before after with htag | ⟨tag, before', after', htag⟩
  · simp only [ofJson?, htag]
    exact .none
  · have hcontent : ∀ {f : Record → ClientMessage}, (∀ r, (f r).Alike (f (r.atVersion n))) →
        Option.Rel Alike ((contentRecord? (around before' after' v)).map f)
          ((contentRecord? (around before' after' v')).map f) := by
      intro f hf
      rcases contentRecord?_around before' after' with hnone | hread
      · rw [hnone, hnone]
        exact .none
      · rw [hread, hread, hn]
        cases Record.ofJson? .kept v with
        | none => exact .none
        | some r => exact .some (hf r)
    simp only [ofJson?, htag, Option.bind_eq_bind, Option.bind_some]
    split
    · exact hcontent fun r => .register r n
    · exact hcontent fun r => .update r n
    · exact .some .unregister
    · exact .some .heartbeat
    · exact .none

end ClientMessage

namespace Channel

/-- The channel reads the same, but for the versions of the records. -/
def Inbound.Alike (x x' : Inbound) : Prop := Option.Rel ClientMessage.Alike x.message? x'.message?

/-- Two texts whose members are the same, up to the version of the record, are read alike. -/
theorem alike_frame {bytes bytes' : List UInt8} {before after : List (Json.Text × Json)}
    {v v' : Json} {fs fs' : List (String × Json)}
    (hread : Json.parseKept? bytes = some (ClientMessage.around before after v))
    (hread' : Json.parseKept? bytes' = some (ClientMessage.around before after v'))
    (hv : v.fields? Record.fieldNames = some fs) (hv' : v'.fields? Record.fieldNames = some fs')
    (h : Record.FieldsAlike fs fs') : Inbound.Alike (.frame bytes) (.frame bytes') := by
  simp only [Inbound.Alike, Inbound.message?, ClientMessage.parse?, hread, hread', Option.bind_some]
  exact ClientMessage.ofJson?_alike hv hv' h

/-! ## On a channel -/

section

variable {m m' : ClientMessage} (h : m.Alike m')
include h

/-- The record goes on at the next version, whatever version it came with. -/
theorem begin_alike (stored : InstanceId → Option Version) (c : Channel) (d : Desk) :
    c.begin m stored d = c.begin m' stored d := by
  cases h <;> rfl

theorem run_alike {ρ : Type} (b : Backend ρ) (now : Time) (c : Channel) (d : Desk) (g : ρ) :
    c.run b now m d g = c.run b now m' d g := by
  simp only [run, begin_alike h]

end

theorem operate_alike {x x' : Inbound} (h : x.Alike x') {ρ : Type} (b : Backend ρ) (now : Time)
    (c : Channel) (d : Desk) (g : ρ) : c.operate b now x d g = c.operate b now x' d g := by
  unfold Inbound.Alike at h
  cases hm : x.message? with
  | none =>
    cases hm' : x'.message? with
    | none => rw [operate_of_unreadable b now c d g hm, operate_of_unreadable b now c d g hm']
    | some m' =>
      rw [hm, hm'] at h
      cases h
  | some m =>
    cases hm' : x'.message? with
    | none =>
      rw [hm, hm'] at h
      cases h
    | some m' =>
      rw [hm, hm'] at h
      cases h with
      | some h =>
        rw [operate_of_message b now c d g hm, operate_of_message b now c d g hm', run_alike h]

end Channel

/-! ## On a server -/

/-- The same happens, but for the versions in what a channel reads. -/
inductive Service.Act.Alike {ρ : Type} : Service.Act ρ → Service.Act ρ → Prop where
  | same (a : Service.Act ρ) : Alike a a
  | operate (i : Nat) {x x' : Inbound} (h : x.Alike x') : Alike (.operate i x) (.operate i x')

theorem Service.act_alike {ρ : Type} {a a' : Service.Act ρ} (h : a.Alike a') (b : Backend ρ)
    (s : Service ρ) : s.act b a = s.act b a' := by
  cases h with
  | same => rfl
  | operate i h => simp only [Service.act, operate_alike h]

namespace Busy

variable {ρ : Type}

/-- The same happens, but for the versions in what a channel reads. -/
inductive Act.Alike : Act ρ → Act ρ → Prop where
  | whole {a a' : Service.Act ρ} (h : a.Alike a') : Alike (.whole a) (.whole a')
  | begin (i : Nat) {m m' : ClientMessage} (h : m.Alike m') : Alike (.begin i m) (.begin i m')
  | proceed (n : Nat) : Alike (.proceed n) (.proceed n)

theorem act_alike {a a' : Act ρ} (h : a.Alike a') (b : Backend ρ) (s : Busy ρ) :
    s.act b a = s.act b a' := by
  cases h with
  | whole h => simp only [Busy.act, Service.act_alike h]
  | begin i h => simp only [Busy.act, begin_alike h]
  | proceed n => rfl

/-- Nothing that is kept of a run, on any registry, depends on the versions of the clients. -/
theorem run_alike {acts acts' : List (Act ρ)} (h : List.Forall₂ Act.Alike acts acts')
    (b : Backend ρ) (s : Busy ρ) : s.run b acts = s.run b acts' := by
  induction h generalizing s with
  | nil => rfl
  | @cons a a' acts acts' ha _ ih =>
    rw [run, run, List.foldl_cons, List.foldl_cons, act_alike ha]
    exact ih (s.act b a')

/-- The versions that clients send have no influence: at every point of two runs that differ in them
only, the store, the eviction queue, the replies that each channel has sent, and the calls that were
made to peers are the same. -/
theorem clientVersions_without_influence {ε : Type} (p : Peers ε)
    (s : Busy (Server × ε × List Called))
    {acts acts' : List (Act (Server × ε × List Called))}
    (h : List.Forall₂ Act.Alike acts acts') (n : Nat) :
    let t := (s.run (Host.telling p.listing).toBackend (acts.take n)).service
    let t' := (s.run (Host.telling p.listing).toBackend (acts'.take n)).service
    t.host.1.store = t'.host.1.store ∧ t.desk.queue = t'.desk.queue ∧
      (∀ i, (t.channel? i).map (·.replies) = (t'.channel? i).map (·.replies)) ∧
      t.host.2.2 = t'.host.2.2 := by
  intro t t'
  have hsame : t = t' := congrArg Busy.service
    (run_alike (List.forall₂_take n h) (Host.telling p.listing).toBackend s)
  rw [hsame]
  exact ⟨rfl, rfl, fun _ => rfl, rfl⟩

/-- A client that sends no versions and one that sends large ones. -/
theorem clientVersions_without_influence_large :
    let r := Record.bare ⟨"web"⟩ "shop"
    let s := start (Server.fresh ⟨"a", by decide⟩ 1, (), []) 90000 0
    let acts (m m' : ClientMessage) : List (Act (Server × Unit × List Called)) :=
      [.whole .connect, .whole (.operate 0 (.message m)), .begin 0 m', .proceed 0]
    let t := (s.run (Host.telling Peers.silent.listing).toBackend
      (acts (.register r) (.update r))).service
    let t' := (s.run (Host.telling Peers.silent.listing).toBackend
      (acts (.register (r.atVersion 7)) (.update (r.atVersion 18446744073709551615)))).service
    t.host.1.store = t'.host.1.store ∧ t'.host.1.store.version? r.id = some 2 ∧
      t.host.2.2 = t'.host.2.2 ∧ t'.host.2.2.length = 2 := by
  intro r s acts
  have h : List.Forall₂ Act.Alike (acts (.register r) (.update r))
      (acts (.register (r.atVersion 7)) (.update (r.atVersion 18446744073709551615))) :=
    .cons (.whole (.same _)) <| .cons (.whole (.operate 0 (.some (.register r 7)))) <|
      .cons (.begin 0 (.update r _)) <| .cons (.proceed 0) .nil
  have hall : ∀ m m', (acts m m').take 4 = acts m m' := fun _ _ => rfl
  obtain ⟨hstore, -, -, hcalls⟩ := clientVersions_without_influence Peers.silent s h 4
  rw [hall, hall] at hstore hcalls
  exact ⟨hstore, by decide +kernel, hcalls, by decide +kernel⟩

end Busy

end LeaseRegistry
