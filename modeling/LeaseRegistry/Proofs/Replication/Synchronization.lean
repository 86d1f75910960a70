import LeaseRegistry.Proofs.Replication.Adoption
import LeaseRegistry.Server.Run

/-!
# Synchronization copies from the first usable peer

Peers answer requests for snapshots by any script. A server that synchronizes asks one peer after
the other, each until its first snapshot or until the attempts are used up, and takes in the first
snapshot that is not its own (`Server.syncUp_copies_firstUsable`). Two inductions follow the two
loops: over the attempts that are left to a peer (`run_syncFrom`) and over the peers that are left
(`run_syncFrom_all`).
-/

namespace LeaseRegistry

/-- What each peer answers to its first call, its second, and so on, and how long that takes. -/
abbrev PeerScript := Nat → Nat → CallResult × Millis

/-- Calls to peers, the first one first. -/
abbrev Calls := List (Nat × PeerMessage)

namespace PeerScript

variable (script : PeerScript) (own : ServerId) (attempts : Nat) {peer : Nat}

def answered (calls : Calls) (peer : Nat) : Nat := calls.countP fun call => decide (call.1 = peer)

/-- Peers that follow a script. -/
def peers : Peers Calls where
  call calls now peer m :=
    let (result, delay) := script peer (answered calls peer)
    (result, now.after delay, calls ++ [(peer, m)])

/-- The first snapshot among the answers of a peer to the calls `ks`, and which call that was. -/
def firstSnapshot? (peer : Nat) (ks : List Nat) : Option (Nat × Snapshot) :=
  ks.findSome? fun k => (script peer k).1.snapshot?.map (k, ·)

variable {script} in
theorem mem_of_firstSnapshot? {ks : List Nat} {k : Nat} {snapshot : Snapshot}
    (h : script.firstSnapshot? peer ks = some (k, snapshot)) : k ∈ ks := by
  obtain ⟨k', hmem, hk⟩ := List.exists_of_findSome?_eq_some h
  obtain ⟨_, _, rfl, -⟩ := by simpa using hk
  exact hmem

/-- The calls to a peer that is asked until its first snapshot, but `attempts` times at most. -/
def callsTo (peer : Nat) : Calls :=
  match script.firstSnapshot? peer (List.range attempts) with
  | some (k, _) => List.replicate (k + 1) (peer, .fetchSnapshot)
  | none => List.replicate attempts (peer, .fetchSnapshot)

variable {script attempts} in
theorem eq_of_mem_callsTo {call : Nat × PeerMessage} (h : call ∈ script.callsTo attempts peer) :
    call = (peer, .fetchSnapshot) := by
  rw [callsTo] at h
  split at h <;> exact List.eq_of_mem_replicate h

/-- The snapshot that a peer has for the server `own`: the first one it gives, unless that server
turns out to be the peer itself. -/
def usable? (peer : Nat) : Option Snapshot :=
  (script.firstSnapshot? peer (List.range attempts)).bind fun (_, snapshot) =>
    if snapshot.server = own then none else some snapshot

/-- The first of the peers that has a snapshot for the server `own`, with the snapshot. -/
def firstUsable? (peers : List Nat) : Option (Nat × Snapshot) :=
  peers.findSome? fun peer => (script.usable? own attempts peer).map (peer, ·)

variable {script own attempts} in
theorem mem_of_firstUsable? {peers : List Nat} {snapshot : Snapshot}
    (h : script.firstUsable? own attempts peers = some (peer, snapshot)) : peer ∈ peers := by
  obtain ⟨peer', hmem, hpeer⟩ := List.exists_of_findSome?_eq_some h
  obtain ⟨_, _, rfl, -⟩ := by simpa using hpeer
  exact hmem

end PeerScript

open PeerScript Activity

namespace Server

def synced (s : Server) (now : Time) (snapshot : Snapshot) : Server :=
  { s with coordinator := (s.coordinator.adopt now snapshot).2 }

/-- The server with another store, and another count of synced records at its gate. -/
def withSync (s : Server) (store : Store) (synced : Nat) : Server :=
  { s with coordinator := { s.coordinator with
      registry := { s.coordinator.registry with store }
      gate := { s.coordinator.gate with synced } } }

theorem synced_eq (s : Server) (now : Time) (snapshot : Snapshot) :
    s.synced now snapshot = s.withSync (s.synced now snapshot).store
      (max s.coordinator.gate.synced (s.coordinator.adopt now snapshot).1) := by
  have hadopt := s.coordinator.registry.adopt_eq (Store.absorbed_nil _) snapshot.server now
    snapshot.records
  simp only [synced, withSync, store, Coordinator.adopt, AccessGate.recordSync]
  rw [hadopt]

variable (script : PeerScript) {peer : Nat} {calls : Calls}

/-- One peer: either it gives a snapshot in one of the `left` calls after the first `asked` ones,
and it is the server itself or the server is done, or it is given up. -/
theorem run_syncFrom (next : Activity Nat) (s : Server) {asked : Nat} (left : Nat)
    (hasked : answered calls peer = asked) (attempt : UInt32) (now : Time) :
    ∃ t, (syncFrom peer next attempt left).run script.peers now s calls =
      match script.firstSnapshot? peer (List.range' asked left) with
      | some (k, snapshot) =>
        let calls := calls ++ List.replicate (k + 1 - asked) (peer, .fetchSnapshot)
        if snapshot.server = s.coordinator.id then next.run script.peers t s calls
        else ((s.coordinator.adopt t snapshot).1, t, s.synced t snapshot, calls)
      | none =>
        next.run script.peers t s (calls ++ List.replicate left (peer, .fetchSnapshot)) := by
  induction left generalizing asked calls attempt now with
  | zero =>
    refine ⟨now, ?_⟩
    rw [List.replicate_zero, List.append_nil]
    rfl
  | succ left ih =>
    generalize hanswer : script peer asked = answer
    obtain ⟨result, delay⟩ := answer
    have hcall : script.peers.call calls now peer .fetchSnapshot =
        (result, now.after delay, calls ++ [(peer, .fetchSnapshot)]) := by
      simp only [PeerScript.peers, hasked, hanswer]
    have hnext : answered (calls ++ [(peer, .fetchSnapshot)]) peer = asked + 1 := by
      rw [answered, List.countP_append, ← answered, hasked]
      simp
    rw [syncFrom, firstSnapshot?, List.range'_succ, List.findSome?_cons, hanswer]
    simp only [Activity.run, hcall]
    cases hs : result.snapshot? with
    | some snapshot =>
      refine ⟨now.after delay, ?_⟩
      simp only [Option.map_some, Nat.add_sub_cancel_left]
      split <;> rfl
    | none =>
      simp only [Option.map_none]
      by_cases hlast : left = 0
      · subst hlast
        exact ⟨now.after delay, rfl⟩
      · rw [if_neg hlast]
        obtain ⟨t, ht⟩ := ih hnext (attempt + 1)
          ((now.after delay).after (s.coordinator.retry.delayMillis attempt))
        refine ⟨t, ?_⟩
        simp only [Activity.run]
        rw [ht]
        rw [← firstSnapshot?]
        cases hfirst : script.firstSnapshot? peer (List.range' (asked + 1) left) with
        | none => simp only [List.append_assoc, List.replicate_succ, List.singleton_append]
        | some found =>
          obtain ⟨k, snapshot⟩ := found
          have hk : k + 1 - asked = k + 1 - (asked + 1) + 1 := by
            have := List.mem_range'_1.mp (mem_of_firstSnapshot? hfirst)
            omega
          simp only [List.append_assoc, List.singleton_append, ← List.replicate_succ, ← hk]

/-- A peer that was not asked yet: the server is done with its snapshot, or goes on without. -/
theorem run_syncFrom_usable (next : Activity Nat) (s : Server) (attempts : Nat)
    (hfresh : answered calls peer = 0) (attempt : UInt32) (now : Time) :
    ∃ t, (syncFrom peer next attempt attempts).run script.peers now s calls =
      match script.usable? s.coordinator.id attempts peer with
      | none => next.run script.peers t s (calls ++ script.callsTo attempts peer)
      | some snapshot => ((s.coordinator.adopt t snapshot).1, t, s.synced t snapshot,
          calls ++ script.callsTo attempts peer) := by
  obtain ⟨t, ht⟩ := run_syncFrom script next s attempts hfresh attempt now
  refine ⟨t, ht.trans ?_⟩
  rw [usable?, callsTo, List.range_eq_range']
  cases script.firstSnapshot? peer (List.range' 0 attempts) with
  | none => rfl
  | some found =>
    simp only [Option.bind_some, Nat.sub_zero]
    split <;> rfl

/-- The peers from `first` on, of which none was asked yet. -/
theorem run_syncFrom_all (s : Server) (attempts n : Nat) {first : Nat}
    (hfresh : ∀ peer, first ≤ peer → answered calls peer = 0) (now : Time) :
    ∃ t, ((List.range' first n).foldr (fun peer next => syncFrom peer next 1 attempts)
        (done 0)).run script.peers now s calls =
      match script.firstUsable? s.coordinator.id attempts (List.range' first n) with
      | none => (0, t, s, calls ++ (List.range' first n).flatMap (script.callsTo attempts))
      | some (peer, snapshot) =>
        ((s.coordinator.adopt t snapshot).1, t, s.synced t snapshot,
          calls ++ (List.range' first (peer + 1 - first)).flatMap (script.callsTo attempts)) := by
  induction n generalizing first calls now with
  | zero => exact ⟨now, by rw [List.range'_zero, List.flatMap_nil, List.append_nil]; rfl⟩
  | succ n ih =>
    rw [List.range'_succ, List.foldr_cons, firstUsable?, List.findSome?_cons]
    obtain ⟨t, ht⟩ := run_syncFrom_usable script
      ((List.range' (first + 1) n).foldr (fun peer next => syncFrom peer next 1 attempts) (done 0))
      s attempts (hfresh first (Nat.le_refl _)) 1 now
    rw [ht]
    cases script.usable? s.coordinator.id attempts first with
    | some snapshot =>
      refine ⟨t, ?_⟩
      simp only [Option.map_some, Nat.add_sub_cancel_left]
      rw [List.range'_one, List.flatMap_singleton]
    | none =>
      have hrest : ∀ peer, first + 1 ≤ peer →
          answered (calls ++ script.callsTo attempts first) peer = 0 := by
        intro peer hle
        rw [answered, List.countP_append, ← answered, hfresh peer (by omega), Nat.zero_add,
          List.countP_eq_zero]
        intro call hcall
        rw [eq_of_mem_callsTo hcall]
        simp only [decide_eq_true_eq]
        omega
      obtain ⟨t', ht'⟩ := ih hrest t
      refine ⟨t', ?_⟩
      simp only [Option.map_none]
      rw [ht', ← firstUsable?]
      cases hfound : script.firstUsable? s.coordinator.id attempts (List.range' (first + 1) n) with
      | none => simp only [List.flatMap_cons, List.append_assoc]
      | some found =>
        obtain ⟨peer, snapshot⟩ := found
        have hpeer : peer + 1 - first = peer + 1 - (first + 1) + 1 := by
          have := List.mem_range'_1.mp (mem_of_firstUsable? hfound)
          omega
        simp only [hpeer, List.range'_succ, List.flatMap_cons, List.append_assoc]

/-- How often a peer is asked at most. -/
def syncAttempts (s : Server) : Nat := max (s.coordinator.retry.attempts.getD 1).toNat 1

theorem run_syncUp (s : Server) (now : Time) :
    ∃ t, syncUp.run script.peers now s [] =
      match script.firstUsable? s.coordinator.id s.syncAttempts
          (List.range s.coordinator.peers) with
      | none =>
        (0, t, s, (List.range s.coordinator.peers).flatMap (script.callsTo s.syncAttempts))
      | some (peer, snapshot) =>
        ((s.coordinator.adopt t snapshot).1, t, s.synced t snapshot,
          (List.range (peer + 1)).flatMap (script.callsTo s.syncAttempts)) := by
  have hfresh : ∀ peer, 0 ≤ peer → answered [] peer = 0 := fun _ _ => rfl
  have hall := run_syncFrom_all script s s.syncAttempts s.coordinator.peers hfresh now
  simp only [List.nil_append, Nat.sub_zero, ← List.range_eq_range'] at hall
  exact hall

/-- Whatever the peers answer, and however long that takes: the server asks them in their order,
each until its first snapshot or until no attempt is left, and for nothing but snapshots. The first
snapshot of another server is the last one it asks for, and its store is what the records in it make
of the old one. Without any, nothing changes. The gate knows the largest count so far. -/
theorem syncUp_copies_firstUsable (s : Server) (now : Time) :
    let (count, now', s', calls) := syncUp.run script.peers now s []
    (match script.firstUsable? s.coordinator.id s.syncAttempts
        (List.range s.coordinator.peers) with
      | none =>
        calls = (List.range s.coordinator.peers).flatMap (script.callsTo s.syncAttempts) ∧
          count = 0 ∧ s' = s
      | some (peer, snapshot) =>
        calls = (List.range (peer + 1)).flatMap (script.callsTo s.syncAttempts) ∧
          s.store.Adopted snapshot.server now' snapshot.records count s'.store) ∧
      (∀ call ∈ calls, call.2 = .fetchSnapshot) ∧
      s' = s.withSync s'.store (max s.coordinator.gate.synced count) := by
  obtain ⟨t, ht⟩ := run_syncUp script s now
  rw [ht]
  cases script.firstUsable? s.coordinator.id s.syncAttempts (List.range s.coordinator.peers) with
  | none =>
    refine ⟨⟨rfl, rfl, rfl⟩, fun call hcall => ?_, ?_⟩
    · obtain ⟨peer, -, hcall⟩ := List.mem_flatMap.mp hcall
      rw [eq_of_mem_callsTo hcall]
    · rw [Nat.max_zero]
      rfl
  | some found =>
    obtain ⟨peer, snapshot⟩ := found
    have hadopted := s.coordinator.registry.adopted snapshot.server t snapshot.records
    refine ⟨⟨rfl, hadopted⟩, fun call hcall => ?_, s.synced_eq t snapshot⟩
    obtain ⟨peer, -, hcall⟩ := List.mem_flatMap.mp hcall
    rw [eq_of_mem_callsTo hcall]

end Server

end LeaseRegistry
