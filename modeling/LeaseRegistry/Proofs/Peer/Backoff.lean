import LeaseRegistry.Peer.Client

/-!
# When a peer is tried again

A call may fail or be abandoned while it connects and while it waits for the reply. `perform` is a
call with what it meets with, and lists what it does to the peer; the calls that nothing interrupts
are among these (`call_eq_perform`). `Tracks` says how a client stands to all that was done so far:
its count of failures and its next attempt follow from what came after the last handshake. The rule
for the delays plays no part in it.
-/

namespace LeaseRegistry

namespace PeerClient

/-! ## Calls -/

/-- What becomes of something that a call waits for; nothing if the call is abandoned first. -/
abbrev Fate (α : Type) := Option (Except Failure α)

/-- What a call meets with. -/
structure Course (κ : Type) where
  begins : Time
  /-- What becomes of the attempt to connect, if there is one. -/
  connecting : Fate (κ × ServerId)
  exchanging : Fate PeerReply
  ends : Time

inductive Contact where
  /-- An attempt to connect, begun at a time, that failed or was abandoned. -/
  | missed (begun : Time)
  | met
  | answered
  /-- An exchange that failed at a time. -/
  | broken (time : Time)
  | dropped
  deriving DecidableEq, Repr

variable {κ : Type}

namespace Contact

/-- An attempt to connect that was begun at a time, by what became of it. -/
def ofConnecting (begun : Time) : Fate (κ × ServerId) → Contact
  | some (.ok _) => met
  | none | some (.error _) => missed begun

def ofReply (time : Time) : Except Failure PeerReply → Contact
  | .ok _ => answered
  | .error _ => broken time

end Contact

def exchangeOn (delay : UInt32 → Millis) (x : Course κ) (connection : κ) (c : PeerClient κ) :
    Fate PeerReply × List Contact × PeerClient κ :=
  match x.exchanging with
  | none => (none, [.dropped], c)
  | some r => (some r, [.ofReply x.ends r], (c.exchanged delay x.ends connection r).2)

/-- Makes a call: its result, if it is not abandoned, and what it does to the peer. -/
def perform (delay : UInt32 → Millis) (x : Course κ) (c : PeerClient κ) :
    Fate PeerReply × List Contact × PeerClient κ :=
  match c.begin delay x.begins with
  | (.finished r, c) => (some r, [], c)
  | (.exchanging connection, c) => c.exchangeOn delay x connection
  | (.connecting, c) =>
    let attempt := Contact.ofConnecting x.begins x.connecting
    match x.connecting with
    | none => (none, [attempt], c)
    | some r =>
      match c.connected r with
      | (.exchanging connection, c) =>
        let (result, contacts, c) := c.exchangeOn delay x connection
        (result, attempt :: contacts, c)
      | (.finished r, c) => (some r, [attempt], c)
      | (.connecting, c) => (none, [attempt], c)

def performAll (delay : UInt32 → Millis) (c : PeerClient κ) :
    List (Course κ) → List Contact × PeerClient κ
  | [] => ([], c)
  | x :: xs =>
    let (_, contacts, c) := c.perform delay x
    let (rest, c) := c.performAll delay xs
    (contacts ++ rest, c)

section

variable {delay : UInt32 → Millis} {c : PeerClient κ}

theorem begin_of_held {connection : κ} (h : c.held = some connection) (now : Time) :
    c.begin delay now = (.exchanging connection, { c with held := none }) := by
  simp only [begin, h]

theorem begin_of_due (h : c.held = none) {now : Time} (hdue : c.reconnect.isDue now = true) :
    c.begin delay now = (.connecting, { c with reconnect := c.reconnect.schedule delay now }) := by
  simp only [begin, h, hdue, if_true]

theorem begin_of_not_due (h : c.held = none) {now : Time} (hdue : ¬c.reconnect.isDue now = true) :
    c.begin delay now = (.finished (.error (.tooEarly (c.waitAt now))), c) := by
  simp only [begin, h, if_neg hdue]

/-- The whole calls that are made of a peer are among these: a call that nothing interrupts is one
that meets with what the network does. So a client keeps to its delays over a real network, and a
call without contact does not touch it. -/
theorem call_eq_perform {ω : Type} (d : Dialer κ ω) (us : ServerId) (now : Time) (m : PeerMessage)
    (net : ω) :
    ∃ (x : Course κ) (contacts : List Contact), x.begins = now ∧
      c.perform delay x =
        (some (call d us delay now m c net).1, contacts, (call d us delay now m c net).2.1) ∧
      (contacts = [] → (call d us delay now m c net).2.2 = net) := by
  cases hheld : c.held with
  | some connection =>
    refine ⟨⟨now, none, some (exchange d m connection net).1, now⟩,
      [.ofReply now (exchange d m connection net).1], rfl, ?_, nofun⟩
    simp only [call, perform, begin_of_held hheld, exchangeOn]
  | none =>
    by_cases hdue : c.reconnect.isDue now = true
    · cases hr : (connect d us net).1 with
      | error e =>
        refine ⟨⟨now, some (.error e), none, now⟩, [.missed now], rfl, ?_, nofun⟩
        simp only [call, perform, begin_of_due hheld hdue, hr, connected, Contact.ofConnecting]
      | ok r =>
        generalize hreply : (exchange d m r.1 (connect d us net).2).1 = reply
        refine ⟨⟨now, some (.ok r), some reply, now⟩, [.met, .ofReply now reply], rfl, ?_, nofun⟩
        simp only [call, perform, begin_of_due hheld hdue, hr, connected, exchangeOn, hreply,
          Contact.ofConnecting]
    · refine ⟨⟨now, none, none, now⟩, [], rfl, ?_, fun _ => ?_⟩
      · simp only [call, perform, begin_of_not_due hheld hdue]
      · simp only [call, begin_of_not_due hheld hdue]

/-- All that a call can come to. -/
inductive Performed (delay : UInt32 → Millis) (x : Course κ) (c : PeerClient κ) :
    Fate PeerReply × List Contact × PeerClient κ → Prop where
  | held {connection : κ} (h : c.held = some connection) :
    Performed delay x c ({ c with held := none }.exchangeOn delay x connection)
  | tooEarly (h : c.held = none) (notDue : ¬c.reconnect.isDue x.begins = true) :
    Performed delay x c (some (.error (.tooEarly (c.waitAt x.begins))), [], c)
  | missed (h : c.held = none) (due : c.reconnect.isDue x.begins = true) (result : Fate PeerReply) :
    Performed delay x c
      (result, [.missed x.begins], { c with reconnect := c.reconnect.schedule delay x.begins })
  | met (h : c.held = none) (due : c.reconnect.isDue x.begins = true) (connection : κ)
      (id : ServerId) {result : Fate PeerReply} {contacts : List Contact} {c' : PeerClient κ}
      (exchange : { c with remote := some id, reconnect := .fresh }.exchangeOn delay x connection =
        (result, contacts, c')) :
    Performed delay x c (result, .met :: contacts, c')

theorem performed_perform (delay : UInt32 → Millis) (x : Course κ) (c : PeerClient κ) :
    Performed delay x c (c.perform delay x) := by
  unfold perform
  cases hheld : c.held with
  | some connection =>
    rw [begin_of_held hheld]
    exact .held hheld
  | none =>
    by_cases hdue : c.reconnect.isDue x.begins = true
    · rw [begin_of_due hheld hdue]
      match x.connecting with
      | none => exact .missed hheld hdue none
      | some (.error e) => exact .missed hheld hdue (some (.error e))
      | some (.ok (connection, id)) => exact .met hheld hdue connection id rfl
    · rw [begin_of_not_due hheld hdue]
      exact .tooEarly hheld hdue

end

/-! ## What is known of the past -/

namespace Contact

/-- The contacts after the last handshake, or all if there was none, the latest first. -/
def sinceMet (contacts : List Contact) : List Contact := contacts.reverse.takeWhile (· ≠ met)

def isMissed : Contact → Bool
  | missed _ => true
  | _ => false

def isBroken : Contact → Bool
  | broken _ => true
  | _ => false

def isAttempt : Contact → Bool
  | missed _ | met => true
  | _ => false

/-- When a failed attempt to connect began, or when a failed exchange was over. -/
def failedAt? : Contact → Option Time
  | missed time | broken time => some time
  | met | answered | dropped => none

/-- The attempts to connect since the last handshake, all of them in vain, and one more if the
connection of that handshake failed. -/
def failures (contacts : List Contact) : Nat :=
  (sinceMet contacts).countP isMissed + if (sinceMet contacts).any isBroken then 1 else 0

/-- The time of the last failure since the last handshake. -/
def lastFailure? (contacts : List Contact) : Option Time :=
  (sinceMet contacts).findSome? failedAt?

theorem sinceMet_concat (contacts : List Contact) (x : Contact) :
    sinceMet (contacts ++ [x]) = if x = met then [] else x :: sinceMet contacts := by
  rw [sinceMet, List.reverse_append, List.reverse_singleton, List.singleton_append,
    List.takeWhile_cons]
  by_cases hx : x = met <;> simp [hx, sinceMet]

/-- There was a failure exactly if there is a time of the last one. -/
theorem failures_pos_iff (contacts : List Contact) :
    0 < failures contacts ↔ (lastFailure? contacts).isSome := by
  rw [lastFailure?, List.findSome?_isSome_iff, failures]
  constructor
  · intro hpos
    by_cases hbroken : (sinceMet contacts).any isBroken = true
    · obtain ⟨x, hx, his⟩ := List.any_eq_true.mp hbroken
      refine ⟨x, hx, ?_⟩
      cases x with
      | broken time => rfl
      | missed | met | answered | dropped => cases his
    · rw [if_neg hbroken, Nat.add_zero] at hpos
      obtain ⟨x, hx, his⟩ := List.countP_pos_iff.mp hpos
      refine ⟨x, hx, ?_⟩
      cases x with
      | missed time => rfl
      | met | answered | broken | dropped => cases his
  · rintro ⟨x, hx, hsome⟩
    cases x with
    | missed time => exact Nat.add_pos_left (List.countP_pos_iff.mpr ⟨_, hx, rfl⟩) _
    | broken time =>
      rw [if_pos (List.any_eq_true.mpr ⟨_, hx, rfl⟩)]
      exact Nat.succ_pos _
    | met | answered | dropped => cases hsome

/-- Without a time of a last failure there was none. -/
theorem failures_of_lastFailure? {contacts : List Contact} (h : lastFailure? contacts = none) :
    failures contacts = 0 := by
  have hpos := failures_pos_iff contacts
  rw [h] at hpos
  exact Nat.eq_zero_of_not_pos fun hlt => Bool.false_ne_true (hpos.mp hlt)

/-- An exchange that does not fail is no failure. -/
theorem concat_of_unbroken (contacts : List Contact) {x : Contact}
    (h : x = answered ∨ x = dropped) :
    failures (contacts ++ [x]) = failures contacts ∧
      lastFailure? (contacts ++ [x]) = lastFailure? contacts := by
  have hsince : sinceMet (contacts ++ [x]) = x :: sinceMet contacts := by
    rw [sinceMet_concat, if_neg (by rcases h with rfl | rfl <;> nofun)]
  rw [failures, lastFailure?, hsince]
  rcases h with rfl | rfl <;> exact ⟨rfl, rfl⟩

end Contact

open Contact

/-- The client as it is after these contacts. -/
structure Tracks (delay : UInt32 → Millis) (contacts : List Contact) (c : PeerClient κ) : Prop where
  held : c.held.isSome → c.reconnect = .fresh
  failures : c.reconnect.failures = UInt32.ofNat (failures contacts)
  nextAt : c.reconnect.nextAt =
    (lastFailure? contacts).map fun time => time.after (delay c.reconnect.failures)

section

variable {delay : UInt32 → Millis} {contacts : List Contact} {c : PeerClient κ}

theorem tracks_fresh (delay : UInt32 → Millis) : Tracks delay [] (fresh : PeerClient κ) :=
  ⟨fun _ => rfl, rfl, rfl⟩

/-- No failure is known of a client that has no attempt put off. -/
theorem Tracks.of_fresh (h : Tracks delay contacts c) (hc : c.reconnect = .fresh) :
    Contact.failures contacts = 0 ∧ lastFailure? contacts = none := by
  have hlast : lastFailure? contacts = none := by
    have hnext := h.nextAt
    rw [hc] at hnext
    exact Option.map_eq_none_iff.mp hnext.symm
  exact ⟨failures_of_lastFailure? hlast, hlast⟩

theorem Tracks.missed (h : Tracks delay contacts c) (hheld : c.held = none) (now : Time) :
    Tracks delay (contacts ++ [.missed now])
      { c with reconnect := c.reconnect.schedule delay now } := by
  have hsince : sinceMet (contacts ++ [.missed now]) = .missed now :: sinceMet contacts := by
    rw [sinceMet_concat, if_neg nofun]
  have hcount : Contact.failures (contacts ++ [.missed now]) = Contact.failures contacts + 1 := by
    simp only [Contact.failures, hsince, List.any_cons, isBroken, Bool.false_or]
    rw [List.countP_cons_of_pos rfl]
    omega
  refine ⟨fun hsome => ?_, ?_, ?_⟩
  · rw [hheld] at hsome
    cases hsome
  · rw [hcount, UInt32.ofNat_add, ← h.failures]
    rfl
  · rw [lastFailure?, hsince]
    rfl

theorem tracks_met (contacts : List Contact) {c : PeerClient κ} (hc : c.reconnect = .fresh) :
    Tracks delay (contacts ++ [.met]) c := by
  have hsince : sinceMet (contacts ++ [.met]) = [] := by
    rw [sinceMet_concat, if_pos rfl]
  refine ⟨fun _ => hc, ?_, ?_⟩
  · rw [hc, Contact.failures, hsince]
    rfl
  · rw [hc, lastFailure?, hsince]
    rfl

/-- An exchange begins on a connection that has not failed since its handshake. -/
theorem Tracks.exchangeOn (h : Tracks delay contacts c) (hc : c.reconnect = .fresh)
    (hheld : c.held = none) (x : Course κ) (connection : κ) :
    Tracks delay (contacts ++ (c.exchangeOn delay x connection).2.1)
      (c.exchangeOn delay x connection).2.2 := by
  obtain ⟨hcount, hlast⟩ := h.of_fresh hc
  unfold PeerClient.exchangeOn
  match x.exchanging with
  | none =>
    obtain ⟨hfailures, htime⟩ := concat_of_unbroken contacts (.inr rfl)
    exact ⟨h.held, hfailures ▸ h.failures, htime ▸ h.nextAt⟩
  | some (.ok reply) =>
    obtain ⟨hfailures, htime⟩ := concat_of_unbroken contacts (.inl rfl)
    exact ⟨fun _ => hc, hfailures ▸ h.failures, htime ▸ h.nextAt⟩
  | some (.error e) =>
    have hsince :
        sinceMet (contacts ++ [.broken x.ends]) = .broken x.ends :: sinceMet contacts := by
      rw [sinceMet_concat, if_neg nofun]
    have hmissed : (sinceMet contacts).countP isMissed = 0 := by
      rw [Contact.failures] at hcount
      omega
    refine ⟨fun hsome => ?_, ?_, ?_⟩
    · simp only [exchanged, hheld] at hsome
      cases hsome
    · simp only [exchanged, Contact.ofReply, Contact.failures, hsince, hc]
      rw [List.countP_cons_of_neg Bool.false_ne_true, hmissed]
      rfl
    · simp only [exchanged, Contact.ofReply, lastFailure?, hsince]
      rfl

theorem Tracks.perform (h : Tracks delay contacts c) (x : Course κ) :
    Tracks delay (contacts ++ (c.perform delay x).2.1) (c.perform delay x).2.2 := by
  have hperformed := performed_perform delay x c
  generalize c.perform delay x = outcome at hperformed
  cases hperformed with
  | @held connection hheld =>
    have hfresh := h.held (by rw [hheld]; rfl)
    have hout : Tracks delay contacts ({ c with held := none } : PeerClient κ) :=
      ⟨fun _ => hfresh, h.failures, h.nextAt⟩
    exact hout.exchangeOn hfresh rfl x connection
  | tooEarly hheld notDue => rwa [List.append_nil]
  | missed hheld due result => exact h.missed hheld x.begins
  | @met hheld due connection id result contacts' c' exchange =>
    have hmet : Tracks delay (contacts ++ [.met])
        { c with remote := some id, reconnect := .fresh } := tracks_met contacts rfl
    have hexchanged := hmet.exchangeOn rfl hheld x connection
    rw [exchange] at hexchanged
    rw [List.append_cons]
    exact hexchanged

theorem Tracks.performAll (h : Tracks delay contacts c) (xs : List (Course κ)) :
    Tracks delay (contacts ++ (c.performAll delay xs).1) (c.performAll delay xs).2 := by
  induction xs generalizing contacts c with
  | nil => rwa [PeerClient.performAll, List.append_nil]
  | cons x xs ih =>
    have hrest := ih (h.perform x)
    rwa [List.append_assoc] at hrest

/-! ## Single calls -/

theorem attempts_exchangeOn (delay : UInt32 → Millis) (x : Course κ) (connection : κ)
    (c : PeerClient κ) : (c.exchangeOn delay x connection).2.1.countP isAttempt = 0 := by
  unfold PeerClient.exchangeOn
  match x.exchanging with
  | none | some (.ok _) | some (.error _) => rfl

/-- A call makes one attempt to connect if it has no connection and may try, and else none. -/
theorem attempts_perform (x : Course κ) :
    (c.perform delay x).2.1.countP isAttempt =
      if c.held.isNone ∧ c.reconnect.isDue x.begins then 1 else 0 := by
  have hperformed := performed_perform delay x c
  generalize c.perform delay x = outcome at hperformed
  cases hperformed with
  | held hheld => rw [attempts_exchangeOn, if_neg (by simp [hheld])]
  | tooEarly hheld notDue => rw [if_neg (by simp [notDue])]; rfl
  | missed hheld due result => rw [if_pos (by simp [hheld, due])]; rfl
  | @met hheld due connection id result contacts' c' exchange =>
    have hnone := attempts_exchangeOn delay x connection
      { c with remote := some id, reconnect := .fresh }
    rw [exchange] at hnone
    rw [if_pos (by simp [hheld, due]), List.countP_cons_of_pos rfl, hnone]

theorem isDue_eq_false_iff {now : Time} :
    c.reconnect.isDue now = false ↔ ∃ time, c.reconnect.nextAt = some time ∧ now < time := by
  unfold Reconnect.isDue
  cases c.reconnect.nextAt with
  | none => simp
  | some time => simp [UInt64.not_le]

end

/-- Whatever becomes of any number of calls: a client that holds a connection has no attempt put
off; it counts the attempts since the last handshake, which were in vain, and one more if the
connection of that handshake failed; and as long as that is not nothing, the next attempt is put off
from the last of these failures by the delay for their number. A call before that time fails at once
and does nothing; any other call without a connection makes one attempt to connect. -/
theorem backoff_follows_failures (delay : UInt32 → Millis) (xs : List (Course κ)) :
    let contacts := ((fresh : PeerClient κ).performAll delay xs).1
    let c := ((fresh : PeerClient κ).performAll delay xs).2
    (c.held.isSome → c.reconnect.failures = 0 ∧ c.reconnect.nextAt = none) ∧
    c.reconnect.failures.toNat = Contact.failures contacts % UInt32.size ∧
    (0 < Contact.failures contacts ↔ (lastFailure? contacts).isSome) ∧
    c.reconnect.nextAt =
      (lastFailure? contacts).map (fun time => time.after (delay c.reconnect.failures)) ∧
    ∀ x : Course κ, c.held = none →
      (∀ time, c.reconnect.nextAt = some time → x.begins < time →
        c.perform delay x = (some (.error (.tooEarly (time - x.begins))), [], c) ∧
        ∀ url, ∃ reason,
          (Failure.tooEarly (time - x.begins)).error url = .connectionFailed reason) ∧
      ((∀ time, c.reconnect.nextAt = some time → time ≤ x.begins) →
        (c.perform delay x).2.1.countP isAttempt = 1) := by
  intro contacts c
  have h : Tracks delay contacts c := (tracks_fresh delay).performAll xs
  clear_value contacts c
  refine ⟨fun hheld => ?_, ?_, failures_pos_iff contacts, h.nextAt, fun x hheld =>
    ⟨fun time hnext hearly => ⟨?_, fun url => ⟨_, rfl⟩⟩, fun hnext => ?_⟩⟩
  · rw [h.held hheld]
    exact ⟨rfl, rfl⟩
  · rw [h.failures]
    exact UInt32.toNat_ofNat'
  · have hnot : ¬c.reconnect.isDue x.begins = true := by
      rw [Bool.not_eq_true]
      exact isDue_eq_false_iff.mpr ⟨time, hnext, hearly⟩
    have hwait : c.waitAt x.begins = time - x.begins := by
      rw [waitAt, hnext, Option.getD_some, Time.since, if_pos (UInt64.le_of_lt hearly)]
    unfold perform
    rw [begin_of_not_due hheld hnot, hwait]
  · have hdue : c.reconnect.isDue x.begins = true := by
      refine (Bool.not_eq_false _).mp fun hnot => ?_
      obtain ⟨time, htime, hlt⟩ := isDue_eq_false_iff.mp hnot
      exact absurd (hnext time htime) (UInt64.not_le.mpr hlt)
    rw [attempts_perform, if_pos ⟨by rw [hheld]; rfl, hdue⟩]

end PeerClient

end LeaseRegistry
