import LeaseRegistry.Channel.Basic
import LeaseRegistry.Config.Address
import LeaseRegistry.Eviction.Pass
import LeaseRegistry.Replication.Coordinator

/-!
# A registry server

The coordinator of a server with what its channels share, the state of its eviction runs, and the
registration of the server itself as an instance.
-/

namespace LeaseRegistry

/-- The registration of a server as an instance of its own registry. -/
structure SelfRegistration where
  app : String
  advertised : String
  /-- The record that was registered, once there is one. It never changes after that. -/
  record : Option Record
  deriving DecidableEq, Repr

namespace SelfRegistration

def portName : String := "registration"

/-- The record of a server that is starting; `token` makes its instance id a fresh one. -/
def draft (r : SelfRegistration) (token : String) : Record :=
  let (host, port) := Address.split r.advertised
  { Record.bare ⟨r.app ++ "#" ++ token⟩ r.app with
    vipAddress := some r.app
    dataCenter := ⟨"default", [⟨host, none, false⟩]⟩
    ports := .ofList [⟨portName, port, false⟩]
    status := .starting }

end SelfRegistration

structure Server where
  coordinator : Coordinator
  desk : Desk
  evicting : Bool
  self : SelfRegistration

namespace Server

def store (s : Server) : Store := s.coordinator.registry.store

def evictionPass (s : Server) (now : Time) : EvictionOutcome × Server :=
  let registry := s.coordinator.registry
  let (outcome, store, preservation, queue) :=
    LeaseRegistry.evictionPass registry.store registry.preservation s.desk.queue now
  (outcome, { s with
    coordinator := { s.coordinator with registry := ⟨store, preservation⟩ }
    desk := { s.desk with queue } })

/-- Evicts the lease of the server itself, whatever its version is. -/
def evictOwn (s : Server) (now : Time) : Option Lease × Server :=
  match s.self.record.bind fun r => (s.store.version? r.id).map (r.id, ·) with
  | none => (none, s)
  | some (id, version) =>
    let (lease, store) := s.store.evictIfVersion id version now
    (lease, { s with coordinator := { s.coordinator with
      registry := { s.coordinator.registry with store } } })

/-- Counts renewals that no lease of the server had. -/
def countRenewals (s : Server) (times : Nat) (now : Time) : Server :=
  let registry := s.coordinator.registry
  let preservation := (List.range times).foldl (fun p _ => p.record now) registry.preservation
  { s with coordinator := { s.coordinator with registry := { registry with preservation } } }

end Server

end LeaseRegistry
