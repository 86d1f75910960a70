import LeaseRegistry.Link.Session
import LeaseRegistry.Proofs.Channel.Frames
import LeaseRegistry.Proofs.Channel.Service

/-!
# Whole connections of clients

What a connection of a client comes to, from its handshake to its end: its frames are handled one by
one by a new channel until that is closed, and nothing else happens
(`Session.serve_comes_to_handleAll`).
-/

namespace LeaseRegistry

open Channel

namespace Session

variable {ρ : Type} (e : Endpoint ρ)

theorem feedAll_ended (d : Desk) (g : ρ) (frames : List (Time × List UInt8)) :
    feedAll e .ended d g frames = ([], .ended, d, g) := by
  induction frames with
  | nil => rfl
  | cons frame frames ih => simp only [feedAll, feed, ih, List.append_nil]

theorem leave_of_closed {c : Channel} (h : c.state = .closed) (d : Desk) (now : Time) :
    leave c d now = c.drop d := by
  have hclosed : c.connectionClosed d now = ({ c with state := .closed }, d) := by
    simp only [connectionClosed, moveTo, h, Gauges.move_self]
  simp only [leave, hclosed, drop, h]

theorem leave_replies (c : Channel) (rs : List ServerMessage) (d : Desk) (now : Time) :
    leave { c with replies := rs } d now = leave c d now := by
  obtain ⟨state, current, version, reachable, replies⟩ := c
  cases state <;> cases current <;> rfl

/-- A session of a client goes on as its channel does, and leaves when that is closed. -/
theorem feedAll_client (frames : List (Time × List UInt8)) {c : Channel} (hc : c.state ≠ .closed)
    (rs : List ServerMessage) (d : Desk) (g : ρ) :
    let (out, s, d', g') := feedAll e (.client c) d g frames
    let (_, c', d'', g'') := handleAll e.toBackend { c with replies := rs } d g frames
    ∃ new, c'.replies = rs ++ new ∧ out = new.map .message ∧ g' = g'' ∧
      ∀ last, (s.disconnect d' last).2 = leave c' d'' last := by
  induction frames generalizing c rs d g with
  | nil =>
    exact ⟨[], (List.append_nil rs).symm, rfl, rfl, fun last => (leave_replies c rs d last).symm⟩
  | cons first frames ih =>
    obtain ⟨now, frame⟩ := first
    have hsaid : { c with replies := rs } = said rs { c with replies := [] } := by simp [said]
    have hrun := runFrame_said rs { c with replies := [] } d e.toBackend now frame g
    rw [hsaid, handleAll_cons _ _ _ _ (by exact hc), hrun]
    simp only [feedAll, feed, feedChannel]
    generalize ({ c with replies := [] } : Channel).runFrame e.toBackend now frame d g = res
    obtain ⟨result, c₁, d₁, g₁⟩ := res
    by_cases hclosed : c₁.state = .closed
    · have hclosed' : (c₁.said rs).state = .closed := hclosed
      simp only [if_pos hclosed, feedAll_ended, handleAll_of_closed _ _ _ _ hclosed',
        leave_of_closed hclosed, leave_of_closed hclosed', List.append_nil]
      exact ⟨c₁.replies, rfl, rfl, trivial, fun _ => rfl⟩
    · simp only [if_neg hclosed]
      have hrest := ih hclosed (rs ++ c₁.replies) d₁ g₁
      generalize feedAll e (.client c₁) d₁ g₁ frames = out at hrest ⊢
      have hagain : { c₁ with replies := rs ++ c₁.replies } = c₁.said rs := rfl
      rw [hagain] at hrest
      generalize handleAll e.toBackend (c₁.said rs) d₁ g₁ frames = all at hrest ⊢
      obtain ⟨new, hnew, hout, hg, hleave⟩ := hrest
      exact ⟨c₁.replies ++ new, by rw [hnew, List.append_assoc], by rw [hout, List.map_append], hg,
        hleave⟩

/-- The channel is counted no more, and what it was registered with is queued. -/
theorem leave_eq (c : Channel) (d : Desk) (now : Time) :
    (leave c d now).gauges = d.gauges.leave c.state ∧
      (leave c d now).queue = match c.left? with
        | some r => d.queue.add r .here now
        | none => d.queue := by
  have hstate : (c.connectionClosed d now).1.state = .closed := by
    rw [connectionClosed_fst]
  refine ⟨?_, ?_⟩
  · simp only [leave, drop, gauges_connectionClosed, hstate, Gauges.leave_move]
  · exact queue_connectionClosed c d now

/-- What a first frame says about the other side, if it is a valid handshake. -/
def opens? (frame : List UInt8) : Option Role :=
  ((Handshake.parse? frame).filter (·.isValid)).map (·.role)

theorem identify_of_client {frame : List UInt8} (h : opens? frame = some .client) (d : Desk) :
    identify frame d = ([], .client (openOn d).1, (openOn d).2) := by
  obtain ⟨shake, hshake, hrole⟩ := Option.map_eq_some_iff.mp h
  simp only [identify, hshake, hrole]

theorem identify_of_other {frame : List UInt8} (hclient : opens? frame ≠ some .client)
    (hpeer : opens? frame ≠ some .peer) (d : Desk) :
    (identify frame d).2 = (.ended, d) := by
  simp only [opens?] at hclient hpeer
  cases hshake : (Handshake.parse? frame).filter (·.isValid) with
  | none => simp only [identify, hshake]
  | some shake =>
    rw [hshake] at hclient hpeer
    cases hrole : shake.role with
    | client => exact absurd (congrArg some hrole) hclient
    | peer => exact absurd (congrArg some hrole) hpeer
    | server => simp only [identify, hshake, hrole]

/-- A connection whose first frame is no valid handshake of a client or a peer changes nothing. One
of a client comes to what a new channel makes of its further frames until it is closed, with a reply
to each that is no heartbeat; then the channel is counted no more, and the record that was accepted
last is queued if a registration was accepted and no unregister. -/
theorem serve_comes_to_handleAll {e : Endpoint ρ} (he : e.Genuine)
    (frames : List (Time × List UInt8)) (last : Time) (d : Desk) (g : ρ) :
    ((∀ first ∈ frames.head?, opens? first.2 ≠ some .client ∧ opens? first.2 ≠ some .peer) →
      (serve e frames last d g).2 = (d, g)) ∧
    ∀ first rest, frames = first :: rest → opens? first.2 = some .client →
      let (out, d', g') := serve e frames last d g
      let (hs, _, _, g'') := handleAll e.toBackend (openOn d).1 (openOn d).2 g rest
      let remains := (∃ h ∈ hs, h.Registers) ∧ ∀ h ∈ hs, ¬h.Unregisters
      g' = g'' ∧ out = (hs.filterMap Handled.reply?).map .message ∧ d'.gauges = d.gauges ∧
        (remains → ∃ r, lastAccepted hs = some r ∧ d'.queue = d.queue.add r .here last) ∧
        (¬remains → d'.queue = d.queue) := by
  refine ⟨fun hother => ?_, ?_⟩
  · cases frames with
    | nil => rfl
    | cons first rest =>
      obtain ⟨hclient, hpeer⟩ := hother first rfl
      have hidentify := identify_of_other hclient hpeer d
      simp only [serve, feedAll, feed, hidentify, feedAll_ended]
      rfl
  · rintro first rest rfl hclient
    have hfeed := feedAll_client e rest (c := (openOn d).1) nofun [] (openOn d).2 g
    have hcourse := course_handleAll he rest (c := (openOn d).1) rfl (openOn d).2 g
    have hfresh : ({ (openOn d).1 with replies := [] } : Channel) = (openOn d).1 := rfl
    simp only [serve, feedAll, feed, identify_of_client hclient, List.nil_append]
    rw [hfresh] at hfeed
    generalize feedAll e (.client (openOn d).1) (openOn d).2 g rest = fed at hfeed ⊢
    generalize handleAll e.toBackend (openOn d).1 (openOn d).2 g rest = all at hfeed hcourse ⊢
    obtain ⟨out, s, d₁, g₁⟩ := fed
    obtain ⟨hs, c, d₂, g₂⟩ := all
    obtain ⟨new, hnew, rfl, rfl, hleave⟩ := hfeed
    obtain ⟨hgauges, hqueue⟩ := leave_eq c d₂ last
    have hreplies : c.replies = [] ++ hs.filterMap Handled.reply? := hcourse.replies
    have hreset : (leave c d₂ last).gauges = d.gauges := by
      rw [hgauges, hcourse.gauges]
      exact Gauges.leave_enter d.gauges .idle
    have hsame : d₂.queue = d.queue := hcourse.queue
    have hstands : c.Stands hs := hcourse.stands [] (.idle rfl nofun nofun)
    simp only [hleave last, hreset, hqueue, hsame]
    refine ⟨trivial, ?_, trivial, ?_, ?_⟩
    · rw [← List.append_cancel_left (hnew.symm.trans hreplies)]
    · rintro ⟨hregisters, hstays⟩
      cases hstands with
      | idle state registers unregisters =>
        obtain ⟨h, hmem, hreg⟩ := hregisters
        exact absurd hreg (registers h hmem)
      | @registered r state current registers unregisters last =>
        exact ⟨r, last, by simp only [left?, state, current]⟩
      | closed state unregisters =>
        obtain ⟨h, hmem, hunreg⟩ := unregisters
        exact absurd hunreg (hstays h hmem)
    · intro hgone
      cases hstands with
      | idle state registers unregisters => simp only [left?, state]
      | registered state current registers unregisters last =>
        exact absurd ⟨registers, unregisters⟩ hgone
      | closed state unregisters => simp only [left?, state]

/-- A client registers an instance, renews it, and is gone. -/
theorem serve_comes_to_handleAll_gone :
    let e : Endpoint Registry := { Backend.alone with receive := fun g _ _ _ => (.ack, g) }
    let record := Record.bare ⟨"web"⟩ "shop"
    let frames := [(1, (ClientMessage.register record).toJson.bytes),
      (2, ClientMessage.heartbeat.toJson.bytes)]
    let (out, d, _) := serve e ((0, Handshake.client.toJson.bytes) :: frames) 3 (.empty 90000)
      (.start .standard 0)
    out = [.message .ack] ∧
      d.queue = (EvictionQueue.empty 90000).add (record.atVersion 1) .here 3 := by
  intro e record frames
  have hspec := (serve_comes_to_handleAll (e := e) Host.alone.genuine
    ((0, Handshake.client.toJson.bytes) :: frames) 3 (.empty 90000) (.start .standard 0)).2 _ _ rfl
    (by decide +kernel)
  have hhandled : (handleAll e.toBackend (openOn (.empty 90000)).1 (openOn (.empty 90000)).2
      (.start .standard 0) frames).1 =
      [⟨(ClientMessage.register record).toJson.bytes, .ok (), [⟨record.atVersion 1, true⟩]⟩,
        ⟨ClientMessage.heartbeat.toJson.bytes, .ok (), []⟩] := by decide +kernel
  have hregister : ClientMessage.parse? (ClientMessage.register record).toJson.bytes =
      some (.register record) := by decide +kernel
  have hheartbeat : ClientMessage.parse? ClientMessage.heartbeat.toJson.bytes =
      some .heartbeat := by decide +kernel
  generalize serve e _ 3 (.empty 90000) (.start .standard 0) = served at hspec ⊢
  generalize handleAll e.toBackend (openOn (.empty 90000)).1 (openOn (.empty 90000)).2
    (.start .standard 0) frames = all at hspec hhandled
  obtain ⟨out, d, g⟩ := served
  obtain ⟨hs, c, d', g'⟩ := all
  obtain ⟨-, hout, -, hqueue, -⟩ := hspec
  obtain rfl : hs = _ := hhandled
  refine ⟨?_, ?_⟩
  · rw [hout]
    simp [Handled.reply?, hregister, hheartbeat]
  · obtain ⟨r, hr, hadded⟩ := hqueue ⟨⟨_, List.mem_cons_self, record, hregister, rfl⟩, by
      simp [Handled.Unregisters, hregister, hheartbeat]⟩
    cases hr
    exact hadded

end Session

end LeaseRegistry
