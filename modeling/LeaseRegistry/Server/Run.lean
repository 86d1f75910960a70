import LeaseRegistry.Server.Activity

/-!
# Activities without interruption

`Activity.run` runs an activity of one server while nothing else happens to it. The peers are an
environment of any kind: each call says what came of it, when, and how the environment is then.
-/

namespace LeaseRegistry

/-- The peers of a server, which are called one at a time. -/
structure Peers (ε : Type) where
  call : ε → Time → Nat → PeerMessage → CallResult × Time × ε

namespace Peers

variable {ε : Type}

/-- Sends a message to a peer, and then the registration that its reply calls for. -/
def deliver (p : Peers ε) (c : Coordinator) (m : PeerMessage) (env : ε) (now : Time) (peer : Nat) :
    Time × ε :=
  let (result, now, env) := p.call env now peer m
  match result.reply?.bind c.repair? with
  | none => (now, env)
  | some repair =>
    let (_, now, env) := p.call env now peer repair
    (now, env)

/-- Sends a message to several peers, all from the same time on. It is over when the last one is
done. -/
def deliverAll (p : Peers ε) (c : Coordinator) (m : PeerMessage) (env : ε) (now : Time) :
    List Nat → Time × ε
  | [] => (now, env)
  | peer :: peers =>
    let (first, env) := p.deliver c m env now peer
    let (rest, env) := p.deliverAll c m env now peers
    (max first rest, env)

end Peers

namespace Activity

/-- Runs an activity to its end: its result, and the time, the server and the peers then. -/
def run {ε α : Type} (p : Peers ε) : Activity α → Time → Server → ε → α × Time × Server × ε
  | done result, now, s, env => (result, now, s, env)
  | look next, now, s, env => (next now s).run p now s env
  | put s next, now, _, env => next.run p now s env
  | announce m next, now, s, env =>
    let (now, env) := p.deliverAll s.coordinator m env now (List.range s.coordinator.peers)
    next.run p now s env
  | fetch peer next, now, s, env =>
    let (result, now, env) := p.call env now peer .fetchSnapshot
    (next result).run p now s env
  | pause d next, now, s, env => next.run p (now.after d) s env

end Activity

end LeaseRegistry
