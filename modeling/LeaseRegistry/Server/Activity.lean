import LeaseRegistry.Server.Basic

/-!
# What a server does over time

An activity is a sequence of indivisible steps on a server with waiting in between: for the answers
of peers, or for some time to pass. Whoever runs an activity decides what else happens while it
waits. Whatever the peers answer, an activity never fails because of them.
-/

namespace LeaseRegistry

inductive CallResult where
  | replied (reply : PeerReply)
  | failed (e : LinkError)
  | timedOut
  deriving DecidableEq, Repr

def CallResult.reply? : CallResult → Option PeerReply
  | replied reply => some reply
  | failed _ | timedOut => none

def CallResult.snapshot? (r : CallResult) : Option Snapshot :=
  r.reply?.bind fun reply => reply.snapshot?.toOption

inductive Activity (α : Type) where
  | done (result : α)
  /-- Goes on with what the time and the server say. -/
  | look (next : Time → Server → Activity α)
  | put (server : Server) (next : Activity α)
  /-- Sends a message to every peer at once, and to those that then lack the instance its record,
  and waits until all of them have answered or had their time. -/
  | announce (message : PeerMessage) (next : Activity α)
  /-- Asks a peer for a snapshot and waits for its answer. -/
  | fetch (peer : Nat) (next : CallResult → Activity α)
  | pause (delay : Millis) (next : Activity α)

namespace Activity

def andThen {α β : Type} : Activity α → (α → Activity β) → Activity β
  | done a, f => f a
  | look next, f => look fun now s => (next now s).andThen f
  | put s next, f => put s (next.andThen f)
  | announce m next, f => announce m (next.andThen f)
  | fetch peer next, f => fetch peer fun r => (next r).andThen f
  | pause d next, f => pause d (next.andThen f)

def announceAny {α : Type} (m : Option PeerMessage) (next : Activity α) : Activity α :=
  match m with
  | none => next
  | some m => announce m next

def announceAll {α : Type} (ms : List PeerMessage) (next : Activity α) : Activity α :=
  ms.foldr announce next

end Activity

open Activity

namespace Server

def request (r : Request) : Activity Answer :=
  look fun now s =>
    let (a, message, coordinator) := s.coordinator.perform now r
    put { s with coordinator } (announceAny message (done a))

/-! ## Eviction -/

/-- An eviction run; none while another one is still going on. Peers are told about one evicted
lease after the other. -/
def evict : Activity (Option EvictionOutcome) :=
  look fun now s =>
    if s.evicting then done none
    else
      let (outcome, s) := s.evictionPass now
      put { s with evicting := true } <|
        announceAll (outcome.leases.map .evicting) <|
          look fun _ s => put { s with evicting := false } (done (some outcome))

/-! ## Snapshots -/

/-- Asks one peer, `left` times at most, with pauses after failures. Then, or if the peer turns out
to be this server, goes on with `next`. -/
def syncFrom (peer : Nat) (next : Activity Nat) (attempt : UInt32) : Nat → Activity Nat
  | 0 => next
  | left + 1 =>
    fetch peer fun result => look fun now s =>
      match result.snapshot? with
      | some snapshot =>
        if snapshot.server = s.coordinator.id then next
        else
          let (count, coordinator) := s.coordinator.adopt now snapshot
          put { s with coordinator } (done count)
      | none =>
        if left = 0 then next
        else
          pause (s.coordinator.retry.delayMillis attempt) (syncFrom peer next (attempt + 1) left)

/-- Takes in the snapshot of the first peer that sends one, and counts the records that took
effect. -/
def syncUp : Activity Nat :=
  look fun _ s =>
    let attempts := max (s.coordinator.retry.attempts.getD 1).toNat 1
    (List.range s.coordinator.peers).foldr (fun peer next => syncFrom peer next 1 attempts) (done 0)

/-! ## The server as an instance -/

/-- Registers the server as an instance that is starting and then marks it up. Once that has
succeeded, the record is only given again. -/
def selfRegister (token : String) : Activity (Except RegistryError Record) :=
  look fun _ s =>
    match s.self.record with
    | some record => done (.ok record)
    | none =>
      let draft := s.self.draft token
      let record := draft.atVersion ((s.store.version? draft.id).getD 0 + 1)
      (request (.register record .here)).andThen fun
        | .failed e => done (.error e)
        | _ => look fun _ s =>
          put { s with coordinator := s.coordinator.markOwn record.id } <|
            (request (.statusUpdate record.id .up .here)).andThen fun
              | .failed e => done (.error e)
              | _ => look fun _ s =>
                let record := (s.store.record? record.id).getD (record.withStatus .up)
                put { s with self := { s.self with record := some record } } (done (.ok record))

/-- Renews the lease of the server itself, which registered `record`. If the lease is gone, the
record is registered again at a newer version. -/
def renewOwn (record : Record) : Activity Unit :=
  (request (.renew record.id .here)).andThen fun
    | .renewed false => look fun _ s =>
      let version := (s.store.version? record.id).getD record.version + 1
      (request (.register (record.atVersion version) .here)).andThen fun _ => done ()
    | _ => done ()

end Server

end LeaseRegistry
