import LeaseRegistry.Eviction.Pass
import LeaseRegistry.Message.PeerJson
import LeaseRegistry.Registry
import LeaseRegistry.Text.Hex

/-!
# Reports

What scripts answer, as JSON. Leases and queue entries are rows, floats are the digits of their
bits, and errors are objects with a kind and a text.
-/

namespace LeaseRegistry

def StoreError.kind : StoreError → String
  | unknownInstance _ => "UnknownInstance"
  | invalidRecord _ => "InvalidRecord"
  | baseMismatch .. => "BaseMismatch"

def LinkError.kind : LinkError → String
  | connectionFailed _ => "ConnectionFailed"
  | sendFailed _ => "SendFailed"
  | closed => "Closed"
  | timeout _ => "Timeout"
  | codec _ => "Codec"
  | other _ => "Other"

def RegistryError.kind : RegistryError → String
  | store e => e.kind
  | unreachable .. => "ReplicationUnreachable"
  | syncFailure _ => "SyncFailure"
  | link e => e.kind

def Change.title : Change → String
  | added => "Added"
  | modified => "Modified"
  | removed => "Removed"
  | superseded => "Superseded"

namespace Script

/-- The text of a JSON value, as a text. -/
def wire (v : Json) : Json := .string (String.fromUTF8? ⟨v.bytes.toArray⟩)

def u64Json (n : UInt64) : Json := .nat n.toNat

/-- The bits of a float. Zero has no sign here. -/
def floatJson (x : Float) : Json :=
  .text (Text.Hex.digits 16 (if x == 0 then 0 else x.toBits.toNat))

def opt {α : Type} (f : α → Json) (o : Option α) : Json := (o.map f).getD .null

/-! ## Errors -/

def kindJson (kind : String) : Json := .record [("error", .text kind)]

def errorJson (kind message : String) : Json :=
  .record [("error", .text kind), ("message", .text message)]

/-- Where the texts of unreadable messages start to depend on the reader. -/
def detailMark : String := "unexpected message: "

/-- Leaves the details of an unreadable message out. -/
def cut (s : String) : String :=
  match s.splitOn detailMark with
  | a :: _ :: _ => a ++ detailMark
  | _ => s

def linkErrorJson (e : LinkError) : Json := errorJson e.kind (cut e.message)

def registryErrorJson (e : RegistryError) : Json := errorJson e.kind (cut e.message)

/-! ## Leases, queues and passes -/

def leaseRow (l : Lease) : Json :=
  .array [.text l.record.id.text, u64Json l.version, l.record.status.toJson, .text l.source.label,
    u64Json l.registeredAt, u64Json l.renewedAt, .nat l.duration.toNat, opt u64Json l.evictedAt]

/-- Sorts by instance, keeping the order of those with the same one. -/
def sortById {α : Type} (id : α → InstanceId) (xs : List α) : List α :=
  xs.mergeSort fun a b => (id a).le (id b)

def leaseRows (ls : List Lease) : Json := .array ((sortById (·.record.id) ls).map leaseRow)

def queueRow (e : QueuedEviction) : Json :=
  .array [.text e.record.id.text, u64Json e.record.version, .text e.source.label, u64Json e.dueAt]

def queueRows (q : EvictionQueue) : Json := .array (q.entries.map queueRow)

def verdictJson (v : Preservation.Verdict) : Json :=
  .record [("observed", floatJson v.observed), ("expected", floatJson v.expected),
    ("ratio", opt floatJson v.ratio), ("allowed", .bool v.allowed)]

def outcomeJson : EvictionOutcome → Json
  | .evicted ls => .record [("evicted", leaseRows ls)]
  | .suppressed n v =>
    .record [("suppressed", .nat n), ("verdict", verdictJson v), ("evicted", .nat 0)]

/-! ## Answers -/

def changeJson (source : Source) (c : Change) : Json :=
  .record [("status", .text c.title), ("applied", .bool c.isApplied), ("source", .text source.label)]

def answerJson (source : Source) : Answer → Json
  | .changed c => changeJson source c
  | .renewed b => .bool b
  | .failed e => registryErrorJson e

def replyJson : PeerReply → Json
  | .error reason => (PeerReply.error (cut reason)).toJson
  | r => r.toJson

/-- A reply with the records of a snapshot sorted. -/
def sortedReplyJson : PeerReply → Json
  | .snapshot server records => replyJson (.snapshot server (sortById (·.id) records))
  | r => replyJson r

def recordWire (r : Record) : Json := wire r.toJson

end Script

end LeaseRegistry
