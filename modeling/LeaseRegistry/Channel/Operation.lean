import LeaseRegistry.Channel.Basic

/-!
# Operations on a channel

An operation begins, waits for the registry's answer to one request (a heartbeat possibly to a
second one), and then goes through its remaining steps. `Phase` says where it is, and each function
here is one step that nothing else comes between: `begin`, `answered`, `advance`. Whatever else
happens to the channel can happen between two phases. `run` is a whole operation in which nothing
does.
-/

namespace LeaseRegistry

namespace Channel

/-- What an operation asks the registry for. -/
inductive Call where
  | register (record : Record)
  | update (record : Record) (deltas : List Delta)
  | unregister (record : Record) (version : Version)
  | renew (record : Record)
  /-- The registration of an instance whose lease is gone, after a heartbeat. -/
  | revive (record : Record)
  deriving DecidableEq, Repr

def Call.request : Call → Request
  | register record => .register record .here
  | update record deltas => .update record deltas .here
  | unregister record version => .unregister record.id version .here
  | renew record => .renew record.id .here
  | revive record => .register record .here

inductive Phase where
  | calling (call : Call)
  /-- The registry took the write; the channel does not yet hold it. -/
  | taken (call : Call)
  /-- The channel holds the record; its state is not yet looked at again. -/
  | noted (record : Record)
  /-- The reply, if there is one, is still to be sent. -/
  | replying (reply : Option ServerMessage) (result : Result)
  | finished (result : Result)

def Phase.failing (e : Error) : Phase := replying e.reply? (.error e)

def Phase.acking : Phase := replying (some .ack) (.ok ())

/-- The first step of an operation. `stored` gives the version the store holds. -/
def begin (m : ClientMessage) (stored : InstanceId → Option Version) (c : Channel) (d : Desk) :
    Phase × Channel × Desk :=
  match m with
  | .register record =>
    match c.state with
    | .idle =>
      let call := .register (record.atVersion (c.nextVersion (stored record.id)))
      (.calling call, c.moveTo d .registered)
    | .registered => (.failing .alreadyRegistered, c, d)
    | .closed => (.failing .channelClosed, c, d)
  | .update record =>
    match c.registered? with
    | .error e => (.failing e, c, d)
    | .ok previous =>
      if record.id = previous.id then
        let next := record.atVersion (c.nextVersion (stored record.id))
        (.calling (.update next (next.diff previous)), c, d)
      else (.failing (.otherInstance record.id previous.id), c, d)
  | .unregister =>
    match c.registered? with
    | .error e => (.failing e, c, d)
    | .ok record => (.calling (.unregister record c.version), c.moveTo d .closed)
  | .heartbeat =>
    match c.registered? with
    | .error _ => (.finished (.ok ()), c, d)
    | .ok record => (.calling (.renew record), c, d)

/-- Gives a registration up: the channel is idle again, unless it has been closed. -/
def giveUp (c : Channel) (d : Desk) : Channel × Desk :=
  if c.state = .registered then c.moveTo d .idle else (c, d)

/-- The step at which the registry's answer arrives. -/
def answered (call : Call) (a : Answer) (stored : InstanceId → Option Version) (now : Time)
    (c : Channel) (d : Desk) : Phase × Channel × Desk :=
  match call, a with
  | .register _, .failed e => (.failing (.registry e), c.giveUp d)
  | .register record, .changed .superseded =>
    (.failing (.overtaken "registration" record), c.giveUp d)
  | .update _ _, .failed e => (.failing (.registry e), c, d)
  | .update record _, .changed .superseded => (.failing (.overtaken "update" record), c, d)
  | .unregister record _, .failed e =>
    (.failing (.registry e), c, d.queueEviction record now)
  | .renew _, .failed e => (.finished (.error (.registry e)), c, d)
  | .renew record, .renewed false =>
    (.calling (.revive (record.atVersion (c.nextVersion (stored record.id)))), c, d)
  | .renew _, _ => (.finished (.ok ()), c, d)
  | .revive _, .failed e => (.finished (.error (.registry e)), c, d)
  | .revive _, .changed .superseded => (.finished (.ok ()), c, d)
  | call, _ => (.taken call, c, d)

/-- The next step of an operation that waits for nothing. -/
def advance (now : Time) (c : Channel) (d : Desk) : Phase → Phase × Channel × Desk
  | .taken (.register record) => (.noted record, c.note record, d)
  | .taken (.update record _) => (.acking, c.note record, d)
  | .taken (.unregister _ _) => (.acking, { c with current := none }, d)
  | .taken (.revive record) => (.finished (.ok ()), c.note record, d)
  | .taken (.renew _) => (.finished (.ok ()), c, d)
  | .noted record =>
    if c.state = .closed then
      (.finished (.error .channelClosed), c, d.queueEviction record now)
    else (.acking, c, d)
  | .replying (some m) result => (.finished result, c.reply m, d)
  | .replying none result => (.finished result, c, d)
  | p => (p, c, d)

/-- Goes on until the operation is finished or waits for the registry again; three steps are
enough. -/
def settle (now : Time) (p : Phase) (c : Channel) (d : Desk) : Phase × Channel × Desk :=
  let (p, c, d) := advance now c d p
  let (p, c, d) := advance now c d p
  advance now c d p

def Phase.result : Phase → Result
  | finished result => result
  | _ => .ok ()

/-! ## Whole operations -/

/-- A registry as its channels see it. -/
structure Backend (ρ : Type) where
  handle : ρ → Time → Request → Answer × ρ
  stored : ρ → InstanceId → Option Version

def Backend.alone : Backend Registry where
  handle g now request := g.handle now request
  stored g id := g.store.version? id

/-- Asks the registry if the operation waits for it, and goes on from its answer. -/
def askOnce {ρ : Type} (b : Backend ρ) (now : Time) :
    Phase × Channel × Desk × ρ → Phase × Channel × Desk × ρ
  | (.calling call, c, d, g) =>
    let (a, g) := b.handle g now call.request
    let (p, c, d) := c.answered call a (b.stored g) now d
    let (p, c, d) := settle now p c d
    (p, c, d, g)
  | (p, c, d, g) => (p, c, d, g)

/-- Runs a message's operation from its beginning to its end. No operation asks the registry more
than twice. -/
def run {ρ : Type} (b : Backend ρ) (now : Time) (m : ClientMessage) (c : Channel) (d : Desk)
    (g : ρ) : Result × Channel × Desk × ρ :=
  let (p, c, d) := c.begin m (b.stored g) d
  let (p, c, d) := settle now p c d
  let (p, c, d, g) := askOnce b now (askOnce b now (p, c, d, g))
  (p.result, c, d, g)

/-- Handles one frame of the client: the message that it holds, or an error. -/
def runFrame {ρ : Type} (b : Backend ρ) (now : Time) (frame : List UInt8) (c : Channel) (d : Desk)
    (g : ρ) : Result × Channel × Desk × ρ :=
  match ClientMessage.parse? frame with
  | some m => c.run b now m d g
  | none =>
    let (p, c, d) := settle now (.failing .unexpectedFrame) c d
    (p.result, c, d, g)

end Channel

end LeaseRegistry
