import LeaseRegistry.Server.Talk

/-!
# Activities that take turns

A server may have many activities under way at once: its errands. While one of them waits, others
begin or go on, and messages of peers come in. `Traffic.step` makes one such move. The calls of an
announcement all begin together and end one by one, in any order and with any result.
-/

namespace LeaseRegistry

/-- Runs an activity until it is over or has to wait, and gives what is left of it. -/
def Activity.advance {α : Type} : Activity α → Time → Server → Activity α × Server
  | look next, now, s => (next now s).advance now s
  | put s next, now, _ => next.advance now s
  | a, _, s => (a, s)

/-- An activity under way that is to do a task. -/
structure Errand (τ α : Type) where
  task : τ
  /-- The talks of each announcement so far, one with each peer; the latest announcement first. -/
  announcements : List (List Talk)
  /-- What is left to do, from what the errand waits for on. -/
  rest : Activity α

namespace Errand

variable {τ α : Type}

def result? (e : Errand τ α) : Option α :=
  match e.rest with
  | .done a => some a
  | _ => none

/-- The talks of the latest announcement. -/
def talks (e : Errand τ α) : List Talk := e.announcements.head?.getD []

/-- Goes on with `next` until that is over or waits. -/
def goOn (e : Errand τ α) (next : Activity α) (now : Time) (s : Server) : Errand τ α × Server :=
  let (rest, s) := next.advance now s
  let opened :=
    match rest with
    | .announce m _ => [List.replicate s.coordinator.peers (Talk.opening m)]
    | _ => []
  (⟨e.task, opened ++ e.announcements, rest⟩, s)

def begin (task : τ) (a : Activity α) (now : Time) (s : Server) : Errand τ α × Server :=
  goOn ⟨task, [], a⟩ a now s

def hear (e : Errand τ α) (peer : Nat) (result : CallResult) (now : Time) (s : Server) :
    Errand τ α × Server :=
  match e.rest with
  | .announce _ _ =>
    let heard := e.announcements.modifyHead (·.modify peer (Talk.hear s.coordinator result))
    ({ e with announcements := heard }, s)
  | .fetch p next => if p = peer then e.goOn (next result) now s else (e, s)
  | _ => (e, s)

/-- Goes on once nothing is left to wait for. -/
def resume (e : Errand τ α) (now : Time) (s : Server) : Errand τ α × Server :=
  match e.rest with
  | .announce _ next => if e.talks.all Talk.isOver then e.goOn next now s else (e, s)
  | .pause _ next => e.goOn next now s
  | _ => (e, s)

end Errand

/-- A server with its errands, in the order in which they began. -/
structure Traffic (τ α : Type) where
  server : Server
  errands : List (Errand τ α)

namespace Traffic

inductive Move (τ : Type) where
  | begin (now : Time) (task : τ)
  | receive (now : Time) (origin : ServerId) (m : PeerMessage)
  | hear (errand peer : Nat) (result : CallResult) (now : Time)
  | resume (errand : Nat) (now : Time)

variable {τ α : Type}

def start (server : Server) : Traffic τ α := ⟨server, []⟩

def onErrand (t : Traffic τ α) (n : Nat) (f : Errand τ α → Server → Errand τ α × Server) :
    Traffic τ α :=
  match t.errands[n]? with
  | none => t
  | some e =>
    let (e, server) := f e t.server
    ⟨server, t.errands.set n e⟩

def step (program : τ → Activity α) (t : Traffic τ α) : Move τ → Traffic τ α
  | .begin now task =>
    let (e, server) := Errand.begin task (program task) now t.server
    ⟨server, t.errands ++ [e]⟩
  | .receive now origin m =>
    { t with server := { t.server with
      coordinator := (t.server.coordinator.receive now origin m).2 } }
  | .hear n peer result now => t.onErrand n fun e s => e.hear peer result now s
  | .resume n now => t.onErrand n fun e s => e.resume now s

def run (program : τ → Activity α) (t : Traffic τ α) (moves : List (Move τ)) : Traffic τ α :=
  moves.foldl (step program) t

end Traffic

end LeaseRegistry
