import LeaseRegistry.Cluster.Basic
import LeaseRegistry.Proofs.Replication.FanOut

/-!
# Announcements in a cluster

What is proved of announcements is about the talks of a server, and a cluster is what runs them: its
links carry what the talks say and nothing else. `Cluster.sends_departures` says so for the beginning
of an announcement and `Cluster.sends_progress` for each time that it goes on.
-/

namespace LeaseRegistry

/-! ## How a talk grows -/

namespace Talk

variable {m : PeerMessage} {t : Talk}

def messages (t : Talk) : List PeerMessage := t.map (·.message)

/-- A reply adds to a talk the message that is then under way, if there is one. -/
theorem Tells.messages_hear (h : t.Tells m) (hp : t.pending?.isSome) (c : Coordinator)
    (r : CallResult) : (t.hear c r).messages = t.messages ++ (t.hear c r).pending?.toList := by
  obtain ⟨heard, h⟩ := h
  cases h with
  | calling =>
    simp only [Talk.hear]
    cases r.reply?.bind c.repair? <;> rfl
  | content => cases hp
  | @repaired _ _ rest =>
    cases rest with
    | nil => rfl
    | cons second rest => cases hp

/-- Nothing follows the second reply. -/
theorem Tells.pending?_hear_hear (h : t.Tells m) (hp : t.pending?.isSome) (c : Coordinator)
    (r : CallResult) (c' : Coordinator) (r' : CallResult) :
    ((t.hear c r).hear c' r').pending? = none := by
  obtain ⟨heard, h⟩ := h
  cases h with
  | calling =>
    simp only [Talk.hear]
    cases r.reply?.bind c.repair? <;> rfl
  | content => cases hp
  | @repaired _ _ rest =>
    cases rest with
    | nil => rfl
    | cons second rest => cases hp

end Talk

namespace Cluster

/-! ## What is sent on a link -/

def links (cl : Cluster) (n : Nat) : List Link := ((cl.members[n]?).map (·.links)).getD []

/-- The messages that server `n` has sent to its peer `k`. -/
def sent (cl : Cluster) (n k : Nat) : List PeerMessage := ((cl.links n)[k]?.map (·.sent)).getD []

/-- In between, server `n` has sent its peer `k` these messages, and its other peers nothing. -/
structure Sends (n k : Nat) (ms : List PeerMessage) (cl cl' : Cluster) : Prop where
  links : (cl'.links n).length = (cl.links n).length
  server : (cl'.server? n).isSome = (cl.server? n).isSome
  sent : ∀ j, cl'.sent n j = cl.sent n j ++ if j = k then ms else []

variable {cl cl' cl'' : Cluster} {n k : Nat} {ms ms' : List PeerMessage}

theorem Sends.of_links (h : cl'.links n = cl.links n)
    (hs : (cl'.server? n).isSome = (cl.server? n).isSome) : Sends n k [] cl cl' :=
  ⟨congrArg List.length h, hs, fun j => by simp only [Cluster.sent, h, ite_self, List.append_nil]⟩

theorem Sends.trans (h : Sends n k ms cl cl') (h' : Sends n k ms' cl' cl'') :
    Sends n k (ms ++ ms') cl cl'' := by
  refine ⟨h'.links.trans h.links, h'.server.trans h.server, fun j => ?_⟩
  rw [h'.sent, h.sent, List.append_assoc]
  split
  · rfl
  · rfl

theorem sends_putServer (t : Nat) (s : Server) : Sends n k [] cl (cl.putServer t s) := by
  refine .of_links ?_ ?_
  · simp only [Cluster.links, putServer, onMember, List.getElem?_modify]
    cases cl.members[n]? with
    | none => rfl
    | some member =>
      by_cases htn : t = n <;> simp [htn]
  · simp only [server?, putServer, onMember, List.getElem?_modify, Option.isSome_map]
    cases cl.members[n]? <;> rfl

theorem sends_settle (peer : Nat) (m : PeerMessage) (treatment : Option Treatment) :
    Sends n k [] cl (cl.settle n peer m treatment).2 := by
  have hsame : Sends n k [] cl cl := .of_links rfl rfl
  match treatment with
  | none | some .silence | some (.failure _) | some (.reply _) => exact hsame
  | some .relay =>
    simp only [settle]
    split
    · exact sends_putServer ..
    · exact hsame

theorem Link.sent_call (l : Link) (m : PeerMessage) : (l.call m).2.sent = l.sent ++ [m] := by
  unfold Link.call
  cases l.offline
  · cases l.script <;> rfl
  · rfl

theorem sends_onLink {link : Link} (hk : (cl.links n)[k]? = some link) {link' : Link}
    (hsent : link'.sent = link.sent ++ ms) : Sends n k ms cl (cl.onLink n k fun _ => link') := by
  have hlinks : (cl.onLink n k fun _ => link').links n = (cl.links n).modify k fun _ => link' := by
    simp only [Cluster.links, onLink, onMember, List.getElem?_modify]
    cases cl.members[n]? <;> simp
  refine ⟨?_, ?_, fun j => ?_⟩
  · rw [hlinks, List.length_modify]
  · simp only [server?, onLink, onMember, List.getElem?_modify, Option.isSome_map]
    cases cl.members[n]? <;> rfl
  · simp only [Cluster.sent, hlinks, List.getElem?_modify]
    by_cases hj : j = k
    · subst hj
      simp [hk, hsent]
    · simp [hj, Ne.symm hj]

/-- A call may be over at once or have to be waited for. Its message counts as sent from the
beginning. -/
theorem sends_call (hk : k < (cl.links n).length) (m : PeerMessage) (limit : Option Millis) :
    Sends n k [m] cl (cl.call n k m limit).2 ∧
      ∀ c, (cl.call n k m limit).1 = .inr c → c.peer = k ∧ c.message = m := by
  have hfound : (cl.links n)[k]? = some (cl.links n)[k] := List.getElem?_eq_getElem hk
  have hlink : ((cl.members[n]?).bind fun m => m.links[k]?) = some (cl.links n)[k] := by
    rw [← hfound, Cluster.links]
    cases cl.members[n]? <;> rfl
  generalize (cl.links n)[k] = link at hfound hlink
  have hlogged := sends_onLink hfound (link.sent_call m)
  simp only [call, hlink]
  split
  · refine ⟨hlogged.trans (sends_settle ..), fun c h => by cases h⟩
  · refine ⟨⟨hlogged.links, hlogged.server, hlogged.sent⟩, fun c h => ?_⟩
    cases h
    exact ⟨rfl, rfl⟩

theorem sends_answered (cl : Cluster) (c : Call) : Sends n k [] cl (cl.answered n c).2 ∧
    ∀ c', (cl.answered n c).1 = .inr c' → c'.peer = c.peer ∧ c'.message = c.message := by
  unfold answered
  split
  · exact ⟨sends_settle .., fun c h => by cases h⟩
  · refine ⟨.of_links rfl rfl, fun c' h => ?_⟩
    cases h
    exact ⟨rfl, rfl⟩

/-! ## Legs -/

/-- The part of peer `k` in the announcement of `m` is a talk as it has to be, whose call under way
is the one that the leg waits for. -/
structure Leg.Fits (m : PeerMessage) (k : Nat) (leg : Leg) : Prop where
  tells : leg.talk.Tells m
  waits : leg.talk.pending? = leg.call.map (·.message)
  peer : ∀ c ∈ leg.call, c.peer = k

variable {m : PeerMessage} {talk : Talk}

/-- A server that has said `said` to its peer `k` in the announcement of `m` has gone on to this
leg, and what it has added to the talk is what it has sent. -/
def Follows (n k : Nat) (m : PeerMessage) (said : List PeerMessage) (cl : Cluster)
    (next : Leg × Cluster) : Prop :=
  Leg.Fits m k next.1 ∧
    ∃ more, next.1.talk.messages = said ++ more ∧ Sends n k more cl next.2

theorem follows_follow (hk : k < (cl.links n).length) (hs : (cl.server? n).isSome)
    (h : talk.Tells m) (hp : talk.pending?.isSome) (r : CallResult) :
    Follows n k m talk.messages cl (cl.follow n k talk r) := by
  obtain ⟨s, hs⟩ := Option.isSome_iff_exists.mp hs
  have hgrows := h.messages_hear hp s.coordinator r
  have hends := h.pending?_hear_hear hp s.coordinator r
  have hnext := h.hear s.coordinator r
  simp only [follow, Cluster.hear, hs]
  generalize talk.hear s.coordinator r = talk' at hgrows hends hnext
  cases hm : talk'.pending? with
  | none =>
    rw [hm] at hgrows
    exact ⟨⟨hnext, hm, fun c hc => by cases hc⟩, [], hgrows, .of_links rfl rfl⟩
  | some m' =>
    rw [hm] at hgrows
    obtain ⟨hsends, hcall⟩ := sends_call hk m' (cl.patience n)
    simp only
    generalize cl.call n k m' (cl.patience n) = res at hsends hcall
    obtain ⟨r' | c, cl'⟩ := res
    · obtain ⟨s', hs'⟩ := Option.isSome_iff_exists.mp (hsends.server.trans (hs ▸ rfl))
      have hover := hends s'.coordinator r'
      have hsaid := hnext.messages_hear (hm ▸ rfl) s'.coordinator r'
      rw [hover, Option.toList_none, List.append_nil, hgrows] at hsaid
      simp only [hs']
      exact ⟨⟨hnext.hear .., hover, fun c hc => by cases hc⟩, [m'], hsaid, hsends⟩
    · obtain ⟨hpeer, hmessage⟩ := hcall c rfl
      refine ⟨⟨hnext, ?_, ?_⟩, [m'], hgrows, hsends⟩
      · rw [hm, Option.map_some, hmessage]
      · rintro _ ⟨⟩
        exact hpeer

/-- An announcement begins with its message on each link. -/
theorem follows_depart (hk : k < (cl.links n).length) (hs : (cl.server? n).isSome)
    (m : PeerMessage) : Follows n k m [] cl (depart n m k cl) := by
  obtain ⟨hsends, hcall⟩ := sends_call hk m (cl.patience n)
  unfold depart
  generalize cl.call n k m (cl.patience n) = res at hsends hcall
  obtain ⟨r | c, cl'⟩ := res
  · have h := follows_follow (hsends.links ▸ hk) (hsends.server ▸ hs) (Talk.tells_opening m) rfl r
    obtain ⟨hfits, more, hmore, hsent⟩ := h
    exact ⟨hfits, m :: more, hmore, hsends.trans hsent⟩
  · obtain ⟨hpeer, hmessage⟩ := hcall c rfl
    refine ⟨⟨Talk.tells_opening m, ?_, ?_⟩, [m], rfl, hsends⟩
    · rw [Option.map_some, hmessage]
      rfl
    · rintro _ ⟨⟩
      exact hpeer

theorem follows_proceed {leg : Leg} (hk : k < (cl.links n).length) (hs : (cl.server? n).isSome)
    (h : leg.Fits m k) : Follows n k m leg.talk.messages cl (proceed n leg cl) := by
  unfold proceed
  cases hc : leg.call with
  | none => exact ⟨h, [], (List.append_nil _).symm, .of_links rfl rfl⟩
  | some c =>
    have hpeer : c.peer = k := h.peer c hc
    have hwaits := h.waits
    rw [hc] at hwaits
    obtain ⟨hsends, hanswered⟩ := sends_answered (n := n) (k := k) cl c
    simp only
    generalize cl.answered n c = res at hsends hanswered
    obtain ⟨r | c', cl'⟩ := res
    · subst hpeer
      obtain ⟨hfits, more, hmore, hsent⟩ := follows_follow (hsends.links ▸ hk)
        (hsends.server ▸ hs) h.tells (hwaits ▸ rfl) r
      exact ⟨hfits, more, hmore, hsends.trans hsent⟩
    · obtain ⟨hsame, hmessage⟩ := hanswered c' rfl
      refine ⟨⟨h.tells, ?_, ?_⟩, [], (List.append_nil _).symm, hsends⟩
      · rw [hwaits, Option.map_some, Option.map_some, hmessage]
      · rintro _ ⟨⟩
        exact hsame.trans hpeer

/-! ## All peers -/

/-- Dealing with the peers from number `first` on, one after the other, is dealing with each. -/
theorem follows_each {α : Type} {f : α → Cluster → Leg × Cluster} (said : α → List PeerMessage)
    (as : List α) (first : Nat) (cl : Cluster) (hs : (cl.server? n).isSome)
    (hlinks : first + as.length ≤ (cl.links n).length)
    (hf : ∀ (i : Nat) (a : α), as[i]? = some a → ∀ cl : Cluster,
      first + i < (cl.links n).length → (cl.server? n).isSome →
        Follows n (first + i) m (said a) cl (f a cl)) :
    let (legs, cl') := each f as cl
    legs.length = as.length ∧ (∀ j < first, cl'.sent n j = cl.sent n j) ∧
      ∀ (i : Nat) (a : α) (leg : Leg), as[i]? = some a → legs[i]? = some leg →
        Leg.Fits m (first + i) leg ∧ ∃ more, leg.talk.messages = said a ++ more ∧
          cl'.sent n (first + i) = cl.sent n (first + i) ++ more := by
  induction as generalizing first cl with
  | nil => exact ⟨rfl, fun _ _ => rfl, fun i a leg ha => by cases ha⟩
  | cons a as ih =>
    rw [List.length_cons] at hlinks
    obtain ⟨hfits, more, hmore, hsends⟩ := hf 0 a rfl cl (by omega) hs
    have hrest := ih (first + 1) (f a cl).2 (hsends.server ▸ hs) (by rw [hsends.links]; omega)
      fun i b hb cl => by
        have hnext := hf (i + 1) b hb cl
        rwa [show first + (i + 1) = first + 1 + i by omega] at hnext
    simp only [each]
    generalize hlegs : each f as (f a cl).2 = res at hrest
    obtain ⟨legs, cl'⟩ := res
    obtain ⟨hlen, hbefore, hafter⟩ := hrest
    refine ⟨congrArg (· + 1) hlen, fun j hj => ?_, fun i b leg hb hleg => ?_⟩
    · rw [hbefore j (by omega), hsends.sent, if_neg (by omega), List.append_nil]
    · cases i with
      | zero =>
        cases hb
        cases hleg
        refine ⟨hfits, more, hmore, ?_⟩
        rw [hbefore _ (by omega), hsends.sent, if_pos rfl]
      | succ i =>
        obtain ⟨hfits', more', hmore', hsent'⟩ := hafter i b leg hb hleg
        rw [show first + 1 + i = first + (i + 1) by omega] at hfits' hsent'
        refine ⟨hfits', more', hmore', ?_⟩
        rw [hsent', hsends.sent, if_neg (by omega), List.append_nil]

/-- At its beginning an announcement has a talk with each peer, and each link has carried just that
talk. -/
theorem sends_departures {s : Server} (hs : cl.server? n = some s)
    (hlinks : s.coordinator.peers ≤ (cl.links n).length) (m : PeerMessage) :
    let (legs, cl') := each (depart n m) (List.range s.coordinator.peers) cl
    legs.length = s.coordinator.peers ∧ ∀ (k : Nat) (leg : Leg), legs[k]? = some leg →
      Leg.Fits m k leg ∧ cl'.sent n k = cl.sent n k ++ leg.talk.messages := by
  have hpresent : (cl.server? n).isSome := Option.isSome_iff_exists.mpr ⟨s, hs⟩
  have hfit : 0 + (List.range s.coordinator.peers).length ≤ (cl.links n).length := by
    rw [List.length_range]
    omega
  have h := follows_each (f := depart n m) (fun _ => []) _ 0 cl hpresent hfit
    fun i k hi cl hk hs => by
      obtain ⟨-, rfl⟩ := List.getElem?_eq_some_iff.mp hi
      rw [Nat.zero_add] at hk
      rw [Nat.zero_add, List.getElem_range]
      exact follows_depart hk hs m
  generalize each (depart n m) (List.range s.coordinator.peers) cl = res at h
  obtain ⟨legs, cl'⟩ := res
  obtain ⟨hlen, -, hlegs⟩ := h
  rw [List.length_range] at hlen
  refine ⟨hlen, fun k leg hleg => ?_⟩
  have hk : k < s.coordinator.peers := hlen ▸ (List.getElem?_eq_some_iff.mp hleg).1
  obtain ⟨hfits, more, hmore, hsent⟩ := hlegs k k leg (List.getElem?_range hk) hleg
  rw [Nat.zero_add] at hfits hsent
  rw [List.nil_append] at hmore
  exact ⟨hfits, hmore ▸ hsent⟩

/-- Whenever an announcement goes on, its talks stay exact, and each link carries what is new in
its talk. -/
theorem sends_progress {legs : List Leg} (hs : (cl.server? n).isSome)
    (hlinks : legs.length ≤ (cl.links n).length)
    (h : ∀ (k : Nat) (leg : Leg), legs[k]? = some leg → Leg.Fits m k leg) :
    let (legs', cl') := each (proceed n) legs cl
    legs'.length = legs.length ∧ ∀ (k : Nat) (leg leg' : Leg),
      legs[k]? = some leg → legs'[k]? = some leg' → Leg.Fits m k leg' ∧
        ∃ more, leg'.talk.messages = leg.talk.messages ++ more ∧
          cl'.sent n k = cl.sent n k ++ more := by
  have hall := follows_each (f := proceed n) (fun leg => leg.talk.messages) legs 0 cl hs
    (by omega) fun k leg hleg cl hk hs => by
      rw [Nat.zero_add] at hk ⊢
      exact follows_proceed hk hs (h k leg hleg)
  simp only [Nat.zero_add] at hall
  generalize each (proceed n) legs cl = res at hall
  obtain ⟨legs', cl'⟩ := res
  exact ⟨hall.1, hall.2.2⟩

end Cluster

end LeaseRegistry
