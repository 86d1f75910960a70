import LeaseRegistry.Instance.Json

/-!
# The opening handshake

The first frame in each direction of a connection names the protocol version and the role of its
sender, and the sender's id if it is a server.
-/

namespace LeaseRegistry

/-- What the sender of a handshake is. -/
inductive Role where
  | client
  | peer
  | server
  deriving DecidableEq, Repr

namespace Role

def name : Role → String
  | client => "client"
  | peer => "peer"
  | server => "server"

def ofName? : String → Option Role
  | "client" => some client
  | "peer" => some peer
  | "server" => some server
  | _ => none

def title : Role → String
  | client => "Client"
  | peer => "Peer"
  | server => "Server"

end Role

structure Handshake where
  /-- The kind of message; `Handshake.kindName` for a handshake. -/
  kind : String
  version : UInt32
  role : Role
  serverId : Option ServerId
  deriving DecidableEq, Repr

namespace Handshake

/-- The protocol version of this library. -/
def protocolVersion : UInt32 := 1

/-- The most bytes a frame may hold to be read. -/
def maxMessageSize : Nat := 1024 * 1024

def kindName : String := "handshake"

def make (role : Role) (serverId : Option ServerId) : Handshake :=
  ⟨kindName, protocolVersion, role, serverId⟩

def client : Handshake := make .client none

def peer (id : ServerId) : Handshake := make .peer (some id)

def server (id : ServerId) : Handshake := make .server (some id)

/-- Servers, in either role, must say who they are. -/
def isValid (h : Handshake) : Bool :=
  match h.role with
  | .client => true
  | .peer | .server => h.serverId.isSome

def otherVersion (h : Handshake) : Bool := h.version != protocolVersion

/-- The id of the sender is written only if there is one. -/
def toJson (h : Handshake) : Json :=
  .record ([("type", .text h.kind), ("version", .nat h.version.toNat), ("role", .text h.role.name)]
    ++ (h.serverId.map fun id => ("serverId", id.toJson)).toList)

def ofJson? (v : Json) : Option Handshake := do
  let fs ← v.fields? ["type", "version", "role", "serverId"]
  return {
    kind := ← Json.required "type" Json.toText? fs
    version := ← Json.required "version" Json.toUInt32? fs
    role := ← Json.required "role" (fun v => (v.toName? .direct).bind Role.ofName?) fs
    serverId := ← Json.defaulted "serverId" none (Json.toNullable? ServerId.ofJson?) fs }

def parse? (s : List UInt8) : Option Handshake :=
  ((Json.parse? s).bind ofJson?).filter fun h => h.kind == kindName

end Handshake

end LeaseRegistry
