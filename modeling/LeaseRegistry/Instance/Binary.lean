import LeaseRegistry.Binary.Codec
import LeaseRegistry.Instance.Delta
import LeaseRegistry.ServerId

/-!
# Records and deltas in binary form

The fields of a structure follow each other in declaration order, and constructors are numbered in
declaration order.
-/

namespace LeaseRegistry

def InstanceId.codec : Codec InstanceId := Codec.string.via InstanceId.mk InstanceId.text

/-- The text must be a server id. -/
def ServerId.codec : Codec ServerId :=
  Codec.string.viaChecked (fun t => (ServerId.ofText t).toOption) ServerId.text

namespace Status

def index : Status → UInt32
  | up => 0
  | down => 1
  | starting => 2
  | outOfService => 3
  | unknown => 4

def ofIndex? (i : UInt32) : Option Status :=
  [up, down, starting, outOfService, unknown][i.toNat]?

def codec : Codec Status := Codec.uint32.viaChecked ofIndex? index

end Status

def ServicePort.codec : Codec ServicePort :=
  (Codec.string.pair (Codec.uint16.pair Codec.bool)).via
    (fun (name, port, secure) => ⟨name, port, secure⟩) fun p => (p.name, p.port, p.secure)

def NetworkAddress.codec : Codec NetworkAddress :=
  (Codec.string.pair (Codec.string.option.pair Codec.bool)).via
    (fun (ip, hostName, isPublic) => ⟨ip, hostName, isPublic⟩)
    fun a => (a.ip, a.hostName, a.isPublic)

def DataCenter.codec : Codec DataCenter :=
  (Codec.string.pair NetworkAddress.codec.list).via
    (fun (name, addresses) => ⟨name, addresses⟩) fun d => (d.name, d.addresses)

def LeaseTerms.codec : Codec LeaseTerms :=
  (Codec.uint32.pair Codec.uint32).via
    (fun (duration, interval) => ⟨duration, interval⟩) fun t => (t.duration, t.interval)

def Record.codec : Codec Record :=
  (InstanceId.codec.pair <| Codec.string.pair <| Codec.string.option.pair <|
    DataCenter.codec.pair <| ServicePort.codec.sortedSet.pair <| Codec.string.sortedSet.pair <|
    Status.codec.pair <| LeaseTerms.codec.pair Codec.uint64).via
    (fun (id, app, vipAddress, dataCenter, ports, healthCheckUrls, status, lease, version) =>
      ⟨id, app, vipAddress, dataCenter, ports, healthCheckUrls, status, lease, version⟩)
    fun r => (r.id, r.app, r.vipAddress, r.dataCenter, r.ports, r.healthCheckUrls, r.status,
      r.lease, r.version)

namespace Delta

def Field.index : Field → UInt32
  | .app => 0
  | .vipAddress => 1
  | .dataCenter => 2
  | .ports => 3
  | .healthCheckUrls => 4
  | .status => 5
  | .lease => 6

/-- The new value behind the index of each field. -/
def arm? (i : UInt32) : Option (Codec Delta) :=
  [Codec.string.via app fun | app a => a | _ => "",
   Codec.string.option.via vipAddress fun | vipAddress v => v | _ => none,
   DataCenter.codec.via dataCenter fun | dataCenter d => d | _ => .unnamed,
   ServicePort.codec.sortedSet.via ports fun | ports ps => ps | _ => ∅,
   Codec.string.sortedSet.via healthCheckUrls fun | healthCheckUrls us => us | _ => ∅,
   Status.codec.via status fun | status s => s | _ => .unknown,
   LeaseTerms.codec.via lease fun | lease t => t | _ => .standard][i.toNat]?

def codec : Codec Delta := .sum (fun d => d.field.index) arm?

end Delta

end LeaseRegistry
