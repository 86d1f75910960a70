import LeaseRegistry.Instance.Binary

/-!
# Messages between servers

One request, one reply, both in binary form. The origin of a request is the server that the
connection's handshake names, so messages do not repeat it.
-/

namespace LeaseRegistry

inductive PeerMessage where
  | register (record : Record)
  /-- The changed fields only, to be put on top of the receiver's record at `base`. -/
  | update (id : InstanceId) (base version : Version) (deltas : List Delta)
  | unregister (id : InstanceId) (version : Version)
  | statusUpdate (id : InstanceId) (status : Status) (version : Version)
  | heartbeat (id : InstanceId)
  | fetchSnapshot
  deriving DecidableEq, Repr

inductive PeerReply where
  | ack
  | snapshot (server : ServerId) (records : List Record)
  /-- The receiver has no lease for the instance; the sender should register it. -/
  | unknownInstance (id : InstanceId)
  /-- The receiver's record is not the one the deltas start from; the sender should register the
  full record. -/
  | stale (id : InstanceId)
  | error (reason : String)
  deriving DecidableEq, Repr

namespace PeerMessage

def kind : PeerMessage → String
  | register _ => "register"
  | update .. => "update"
  | unregister .. => "unregister"
  | statusUpdate .. => "statusUpdate"
  | heartbeat _ => "heartbeat"
  | fetchSnapshot => "fetchSnapshot"

def instanceId? : PeerMessage → Option InstanceId
  | register r => some r.id
  | update id .. | unregister id _ | statusUpdate id .. | heartbeat id => some id
  | fetchSnapshot => none

def index : PeerMessage → UInt32
  | register _ => 0
  | update .. => 1
  | unregister .. => 2
  | statusUpdate .. => 3
  | heartbeat _ => 4
  | fetchSnapshot => 5

def updateCodec : Codec PeerMessage :=
  (InstanceId.codec.pair <| Codec.uint64.pair <| Codec.uint64.pair Delta.codec.list).via
    (fun (id, base, version, deltas) => update id base version deltas)
    fun | update id base version deltas => (id, base, version, deltas) | _ => (⟨""⟩, 0, 0, [])

def unregisterCodec : Codec PeerMessage :=
  (InstanceId.codec.pair Codec.uint64).via (fun (id, version) => unregister id version)
    fun | unregister id version => (id, version) | _ => (⟨""⟩, 0)

def statusUpdateCodec : Codec PeerMessage :=
  (InstanceId.codec.pair <| Status.codec.pair Codec.uint64).via
    (fun (id, status, version) => statusUpdate id status version)
    fun | statusUpdate id status version => (id, status, version) | _ => (⟨""⟩, .unknown, 0)

def arm? (i : UInt32) : Option (Codec PeerMessage) :=
  [Record.codec.via register fun | register r => r | _ => .bare ⟨""⟩ "",
   updateCodec, unregisterCodec, statusUpdateCodec,
   InstanceId.codec.via heartbeat fun | heartbeat id => id | _ => ⟨""⟩,
   Codec.unit.via (fun _ => fetchSnapshot) fun _ => ()][i.toNat]?

def codec : Codec PeerMessage := .sum index arm?

def encode (m : PeerMessage) : List UInt8 := codec.encode m

def decode (s : List UInt8) : Except DecodeError PeerMessage := codec.decodeAll s

end PeerMessage

namespace PeerReply

def index : PeerReply → UInt32
  | ack => 0
  | snapshot .. => 1
  | unknownInstance _ => 2
  | stale _ => 3
  | error _ => 4

/-- A server id to stand where a reply has none. -/
def noServer : ServerId := ⟨"-", by decide⟩

def snapshotCodec : Codec PeerReply :=
  (ServerId.codec.pair Record.codec.list).via (fun (server, records) => snapshot server records)
    fun | snapshot server records => (server, records) | _ => (noServer, [])

def arm? (i : UInt32) : Option (Codec PeerReply) :=
  [Codec.unit.via (fun _ => ack) fun _ => (),
   snapshotCodec,
   InstanceId.codec.via unknownInstance fun | unknownInstance id => id | _ => ⟨""⟩,
   InstanceId.codec.via stale fun | stale id => id | _ => ⟨""⟩,
   Codec.string.via error fun | error reason => reason | _ => ""][i.toNat]?

def codec : Codec PeerReply := .sum index arm?

def encode (r : PeerReply) : List UInt8 := codec.encode r

def decode (s : List UInt8) : Except DecodeError PeerReply := codec.decodeAll s

end PeerReply

end LeaseRegistry
