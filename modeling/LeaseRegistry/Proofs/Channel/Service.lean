import LeaseRegistry.Proofs.Channel.History
import LeaseRegistry.Proofs.Channel.Turn

/-!
# Services

A `Service` is a host with the channels that were opened on it. Whole operations of channels come
one after the other, and between them anything may happen to the host and the queue that is none of
the channels' doing: messages of peers, requests of other callers, evictions. A `Journal` goes along
with a service and writes down who wrote which record. It changes nothing: `Journal.service_run`.
`Moved` lists what one act can do to the channels.
-/

namespace LeaseRegistry

open Channel

structure Service (ρ : Type) where
  host : ρ
  desk : Desk
  now : Time
  channels : List (Option Channel)

namespace Service

variable {ρ : Type}

inductive Act (ρ : Type) where
  | connect
  | operate (channel : Nat) (x : Inbound)
  | disconnect (channel : Nat)
  | drop (channel : Nat)
  | reachable (channel : Nat) (b : Bool)
  | clock (now : Time)
  | elsewhere (change : ρ × EvictionQueue → ρ × EvictionQueue)

def start (g : ρ) (delay : Millis) (now : Time) : Service ρ := ⟨g, .empty delay, now, []⟩

def channel? (s : Service ρ) (i : Nat) : Option Channel := s.channels[i]?.join

/-- Changes a channel that is there, with all that it works on. -/
def onChannel (s : Service ρ) (i : Nat) (f : Channel → Desk → ρ → Option Channel × Desk × ρ) :
    Service ρ :=
  match s.channel? i with
  | none => s
  | some c =>
    let (c, desk, host) := f c s.desk s.host
    { s with host, desk, channels := s.channels.set i c }

def act (b : Backend ρ) (s : Service ρ) : Act ρ → Service ρ
  | .connect =>
    let (c, desk) := openOn s.desk
    { s with desk, channels := s.channels ++ [some c] }
  | .operate i x => s.onChannel i fun c d g =>
    let (_, c, d, g) := c.operate b s.now x d g
    (some c, d, g)
  | .disconnect i => s.onChannel i fun c d g =>
    let (c, d) := c.connectionClosed d s.now
    (some c, d, g)
  | .drop i => s.onChannel i fun c d g => (none, c.drop d, g)
  | .reachable i reachable => s.onChannel i fun c d g => (some { c with reachable }, d, g)
  | .clock now => { s with now }
  | .elsewhere change =>
    let (host, queue) := change (s.host, s.desk.queue)
    { s with host, desk := { s.desk with queue } }

def run (b : Backend ρ) (s : Service ρ) (acts : List (Act ρ)) : Service ρ := acts.foldl (act b) s

end Service

/-! ## What is written down -/

inductive Author where
  | channel (i : Nat)
  | elsewhere
  deriving DecidableEq

structure Posting where
  author : Author
  record : Record
  deriving DecidableEq

/-- The records of a store that another did not hold. -/
def Store.news (s s' : Store) : List Record :=
  s'.snapshot.filter fun r => s.record? r.id ≠ some r

/-- The records that an act writes, in order: those that the registry takes from a channel, and
those that come from elsewhere. -/
def Service.posted {ρ : Type} (h : Host ρ) (s : Service ρ) : Act ρ → List Posting
  | .operate i x =>
    match s.channel? i with
    | none => []
    | some c => (c.accepted h.toBackend s.now x s.desk s.host).map fun w => ⟨.channel i, w.record⟩
  | .elsewhere change =>
    ((h.store s.host).news (h.store (change (s.host, s.desk.queue)).1)).map (⟨.elsewhere, ·⟩)
  | .connect | .disconnect _ | .drop _ | .reachable _ _ | .clock _ => []

structure Journal (ρ : Type) where
  service : Service ρ
  /-- What was written, the latest first. -/
  postings : List Posting

namespace Journal

variable {ρ : Type}

def start (g : ρ) (delay : Millis) (now : Time) : Journal ρ := ⟨.start g delay now, []⟩

def act (h : Host ρ) (j : Journal ρ) (a : Service.Act ρ) : Journal ρ :=
  ⟨j.service.act h.toBackend a, (j.service.posted h a).reverse ++ j.postings⟩

def run (h : Host ρ) (j : Journal ρ) (acts : List (Service.Act ρ)) : Journal ρ :=
  acts.foldl (act h) j

theorem service_run (h : Host ρ) (j : Journal ρ) (acts : List (Service.Act ρ)) :
    (j.run h acts).service = j.service.run h.toBackend acts := by
  induction acts generalizing j with
  | nil => rfl
  | cons a acts ih => exact ih (j.act h a)

end Journal

def writtenBy (i : Nat) (ps : List Posting) : List Record :=
  (ps.filter (·.author = .channel i)).map (·.record)

section

variable {i : Nat} {ps : List Posting}

theorem writtenBy_append (ps' : List Posting) :
    writtenBy i (ps ++ ps') = writtenBy i ps ++ writtenBy i ps' := by
  rw [writtenBy, List.filter_append, List.map_append]
  rfl

theorem writtenBy_of_others (h : ∀ p ∈ ps, p.author ≠ .channel i) : writtenBy i ps = [] := by
  rw [writtenBy, List.filter_eq_nil_iff.mpr fun p hp => by simpa using h p hp]
  rfl

theorem writtenBy_own (rs : List Record) :
    writtenBy i (rs.map (⟨.channel i, ·⟩)) = rs := by
  rw [writtenBy, List.filter_eq_self.mpr (by simp), List.map_map]
  exact List.map_id rs

end

/-! ## What an act does to the channels -/

namespace Channel

theorem gauges_connectionClosed (c : Channel) (d : Desk) (now : Time) :
    (c.connectionClosed d now).2.gauges = d.gauges.move c.state .closed := by
  simp only [connectionClosed, moveTo]
  split <;> rfl

end Channel

namespace Service

variable {ρ : Type} {s s' : Service ρ} {i j : Nat} {c : Channel}

/-- What an act does to the channels and their gauges, and what is written meanwhile. -/
inductive Moved (s s' : Service ρ) : List Posting → Prop where
  | aside {ps : List Posting} (channels : s'.channels = s.channels)
      (gauges : s'.desk.gauges = s.desk.gauges) (elsewhere : ∀ p ∈ ps, p.author = .elsewhere) :
    Moved s s' ps
  | opened {c : Channel} (new : c = (openOn s.desk).1)
      (channels : s'.channels = s.channels ++ [some c])
      (gauges : s'.desk.gauges = s.desk.gauges.enter .idle) : Moved s s' []
  | turned {i : Nat} {c c' : Channel} {ws : List Accepted} (there : s.channel? i = some c)
      (turn : Turn c c' ws) (channels : s'.channels = s.channels.set i (some c'))
      (gauges : s'.desk.gauges = s.desk.gauges.move c.state c'.state) :
    Moved s s' (ws.map fun w => ⟨.channel i, w.record⟩)
  | dropped {i : Nat} {c : Channel} (there : s.channel? i = some c)
      (channels : s'.channels = s.channels.set i none)
      (gauges : s'.desk.gauges = s.desk.gauges.leave c.state) : Moved s s' []

theorem channel?_eq_some (h : s.channel? i = some c) :
    ∃ hi : i < s.channels.length, s.channels[i] = some c := by
  unfold channel? at h
  rw [Option.join_eq_some_iff] at h
  exact List.getElem?_eq_some_iff.mp h

theorem channel?_of_set {place : Option Channel} (h : s.channel? i = some c)
    (hs : s'.channels = s.channels.set i place) (j : Nat) :
    s'.channel? j = if i = j then place else s.channel? j := by
  obtain ⟨hi, -⟩ := channel?_eq_some h
  rw [channel?, hs, List.getElem?_set]
  split
  · exact Option.join_some
  · rfl

theorem channel?_of_append {new : Channel} (hs : s'.channels = s.channels ++ [some new]) (j : Nat) :
    s'.channel? j = if j = s.channels.length then some new else s.channel? j := by
  rw [channel?, hs, List.getElem?_append]
  split
  · rename_i hlt
    rw [if_neg (Nat.ne_of_lt hlt)]
    rfl
  · rename_i hlt
    rw [List.getElem?_singleton]
    split
    · rw [if_pos (by omega)]
      rfl
    · rw [if_neg (by omega), channel?, List.getElem?_eq_none (Nat.le_of_not_lt hlt)]

theorem Moved.refl (s : Service ρ) : Moved s s [] := .aside rfl rfl (by simp)

theorem moved_act (h : Host ρ) (s : Service ρ) (a : Act ρ) :
    Moved s (s.act h.toBackend a) (s.posted h a) := by
  cases a with
  | connect => exact .opened rfl rfl rfl
  | operate i x =>
    cases hc : s.channel? i with
    | none =>
      simp only [act, onChannel, posted, hc]
      exact .refl s
    | some c =>
      obtain ⟨hturn, hgauges⟩ := turn_operate h s.now x c s.desk s.host
      have hlisted := c.operate_listing h.toBackend s.now s.desk s.host x []
      simp only [act, onChannel, posted, hc, hlisted]
      exact .turned hc hturn rfl hgauges
  | disconnect i =>
    cases hc : s.channel? i with
    | none =>
      simp only [act, onChannel, posted, hc]
      exact .refl s
    | some c =>
      have hclosed : (c.connectionClosed s.desk s.now).1 = { c with state := .closed } :=
        connectionClosed_fst ..
      have hgauges := gauges_connectionClosed c s.desk s.now
      have hturn : Turn c (c.connectionClosed s.desk s.now).1 [] := by
        rw [hclosed]
        exact .ended rfl (.inl rfl) rfl
      simp only [act, onChannel, posted, hc]
      exact .turned hc hturn rfl (by rw [hgauges, hclosed])
  | drop i =>
    cases hc : s.channel? i with
    | none =>
      simp only [act, onChannel, posted, hc]
      exact .refl s
    | some c =>
      simp only [act, onChannel, posted, hc]
      exact .dropped hc rfl rfl
  | reachable i b =>
    cases hc : s.channel? i with
    | none =>
      simp only [act, onChannel, posted, hc]
      exact .refl s
    | some c =>
      have hturn : Turn c { c with reachable := b } [] := .kept rfl rfl rfl
      simp only [act, onChannel, posted, hc]
      exact .turned hc hturn rfl (Gauges.move_self ..).symm
  | clock now => exact .aside rfl rfl (by simp [posted])
  | elsewhere change =>
    refine .aside rfl rfl fun p hp => ?_
    obtain ⟨r, -, rfl⟩ := List.mem_map.mp hp
    rfl

end Service

end LeaseRegistry
