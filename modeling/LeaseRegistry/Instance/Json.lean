import LeaseRegistry.Instance.Delta
import LeaseRegistry.Source
import LeaseRegistry.Json.Fields

/-!
# Records and deltas as JSON

Each type has its value (`toJson`) and its reader (`ofJson?`). Writing gives every field, in
declaration order; reading fills in the defaults of the fields that are left out.
-/

namespace LeaseRegistry

open Json (Reading)

namespace Status

def name : Status → String
  | up => "up"
  | down => "down"
  | starting => "starting"
  | outOfService => "outOfService"
  | unknown => "unknown"

def ofName? : String → Option Status
  | "up" => some up
  | "down" => some down
  | "starting" => some starting
  | "outOfService" => some outOfService
  | "unknown" => some unknown
  | _ => none

theorem ofName?_name (s : Status) : ofName? s.name = some s := by
  cases s <;> rfl

def toJson (s : Status) : Json := .text s.name

def ofJson? (reading : Reading) (v : Json) : Option Status :=
  (v.toName? reading).bind ofName?

end Status

namespace ServicePort

def toJson (p : ServicePort) : Json :=
  .record [("name", .text p.name), ("port", .nat p.port.toNat), ("secure", .bool p.secure)]

def ofJson? (v : Json) : Option ServicePort := do
  let fs ← v.fields? ["name", "port", "secure"]
  return {
    name := ← Json.required "name" Json.toText? fs
    port := ← Json.required "port" Json.toUInt16? fs
    secure := ← Json.defaulted "secure" false Json.toBool? fs }

end ServicePort

namespace NetworkAddress

def toJson (a : NetworkAddress) : Json :=
  .record [("ip", .text a.ip), ("hostName", Json.nullable a.hostName), ("public", .bool a.isPublic)]

def ofJson? (v : Json) : Option NetworkAddress := do
  let fs ← v.fields? ["ip", "hostName", "public"]
  return {
    ip := ← Json.required "ip" Json.toText? fs
    hostName := ← Json.defaulted "hostName" none (Json.toNullable? Json.toText?) fs
    isPublic := ← Json.defaulted "public" false Json.toBool? fs }

end NetworkAddress

namespace DataCenter

def toJson (d : DataCenter) : Json :=
  .record [("name", .text d.name), ("addresses", .array (d.addresses.map NetworkAddress.toJson))]

def ofJson? (v : Json) : Option DataCenter := do
  let fs ← v.fields? ["name", "addresses"]
  return {
    name := ← Json.required "name" Json.toText? fs
    addresses := ← Json.defaulted "addresses" [] (Json.toList? NetworkAddress.ofJson?) fs }

end DataCenter

namespace LeaseTerms

def toJson (t : LeaseTerms) : Json :=
  .record [("durationSecs", .nat t.duration.toNat), ("renewalIntervalSecs", .nat t.interval.toNat)]

def ofJson? (v : Json) : Option LeaseTerms := do
  let fs ← v.fields? ["durationSecs", "renewalIntervalSecs"]
  return {
    duration := ← Json.required "durationSecs" Json.toUInt32? fs
    interval := ← Json.required "renewalIntervalSecs" Json.toUInt32? fs }

end LeaseTerms

/-- Sets are written in ascending order. -/
def SortedSet.toJson {α : Type} [Ord α] (item : α → Json) (s : SortedSet α) : Json :=
  .array (s.toList.map item)

/-- Sets are read from items in any order, repeated or not. -/
def SortedSet.ofJson? {α : Type} [Ord α] [Std.TransOrd α] (item : Json → Option α) (v : Json) :
    Option (SortedSet α) :=
  (v.toList? item).map .ofList

namespace Record

def fieldNames : List String :=
  ["id", "app", "vipAddress", "dataCenter", "ports", "healthCheckUrls", "status", "lease",
   "version"]

def members (r : Record) : List (String × Json) :=
  [("id", .text r.id.text), ("app", .text r.app), ("vipAddress", Json.nullable r.vipAddress),
   ("dataCenter", r.dataCenter.toJson), ("ports", r.ports.toJson ServicePort.toJson),
   ("healthCheckUrls", r.healthCheckUrls.toJson .text), ("status", r.status.toJson),
   ("lease", r.lease.toJson), ("version", .nat r.version.toNat)]

def toJson (r : Record) : Json := .record r.members

/-- Only the id and the application must be given. -/
def ofJson? (reading : Reading) (v : Json) : Option Record := do
  let fs ← v.fields? fieldNames
  return {
    id := ⟨← Json.required "id" Json.toText? fs⟩
    app := ← Json.required "app" Json.toText? fs
    vipAddress := ← Json.defaulted "vipAddress" none (Json.toNullable? Json.toText?) fs
    dataCenter := ← Json.defaulted "dataCenter" .unnamed DataCenter.ofJson? fs
    ports := ← Json.defaulted "ports" ∅ (SortedSet.ofJson? ServicePort.ofJson?) fs
    healthCheckUrls := ← Json.defaulted "healthCheckUrls" ∅ (SortedSet.ofJson? Json.toText?) fs
    status := ← Json.defaulted "status" .unknown (Status.ofJson? reading) fs
    lease := ← Json.defaulted "lease" .standard LeaseTerms.ofJson? fs
    version := ← Json.defaulted "version" 0 Json.toUInt64? fs }

def parse? (s : List UInt8) : Option Record :=
  (Json.parse? s).bind (ofJson? .direct)

end Record

namespace Delta

def Field.name : Field → String
  | .app => "app"
  | .vipAddress => "vipAddress"
  | .dataCenter => "dataCenter"
  | .ports => "ports"
  | .healthCheckUrls => "healthCheckUrls"
  | .status => "status"
  | .lease => "lease"

def valueJson : Delta → Json
  | app a => .text a
  | vipAddress vip => Json.nullable vip
  | dataCenter d => d.toJson
  | ports ps => ps.toJson ServicePort.toJson
  | healthCheckUrls urls => urls.toJson .text
  | status s => s.toJson
  | lease t => t.toJson

/-- An object with the field's name as its only key. -/
def toJson (d : Delta) : Json := .record [(d.field.name, d.valueJson)]

def ofJson? : Json → Option Delta
  | .object [(some name, v)] =>
    match name with
    | "app" => v.toText?.map app
    | "vipAddress" => (v.toNullable? Json.toText?).map vipAddress
    | "dataCenter" => (DataCenter.ofJson? v).map dataCenter
    | "ports" => (SortedSet.ofJson? ServicePort.ofJson? v).map ports
    | "healthCheckUrls" => (SortedSet.ofJson? Json.toText? v).map healthCheckUrls
    | "status" => (Status.ofJson? .direct v).map status
    | "lease" => (LeaseTerms.ofJson? v).map lease
    | _ => none
  | _ => none

def parse? (s : List UInt8) : Option Delta :=
  (Json.parse? s).bind ofJson?

end Delta

namespace ServerId

def ofJson? (v : Json) : Option ServerId :=
  v.toText?.bind fun s => (ofText s).toOption

def toJson (a : ServerId) : Json := .text a.text

def parse? (s : List UInt8) : Option ServerId :=
  (Json.parse? s).bind ofJson?

end ServerId

namespace Source

def toJson : Source → Json
  | here => .text "local"
  | replicated origin => .record [("replicated", origin.toJson)]

end Source

end LeaseRegistry
