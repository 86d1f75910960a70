import LeaseRegistry.Instance.Record

/-!
# Field-level differences between records

An update travels as the fields it changed and their new values. `Record.diff` computes them and
`Record.applyDeltas` puts them on top of an older record. The identity and the version are no
deltas: the identity never changes, the version is carried beside the deltas.
-/

namespace LeaseRegistry

/-- One changed field with its new value. -/
inductive Delta where
  | app (app : String)
  | vipAddress (vip : Option String)
  | dataCenter (d : DataCenter)
  | ports (ps : SortedSet ServicePort)
  | healthCheckUrls (urls : SortedSet String)
  | status (s : Status)
  | lease (t : LeaseTerms)
  deriving DecidableEq, Repr

namespace Delta

inductive Field where
  | app
  | vipAddress
  | dataCenter
  | ports
  | healthCheckUrls
  | status
  | lease
  deriving DecidableEq, Repr

def field : Delta → Field
  | app _ => .app
  | vipAddress _ => .vipAddress
  | dataCenter _ => .dataCenter
  | ports _ => .ports
  | healthCheckUrls _ => .healthCheckUrls
  | status _ => .status
  | lease _ => .lease

end Delta

namespace Record

/-- Sets the one field that `d` names. -/
def applyDelta (r : Record) : Delta → Record
  | .app app => { r with app }
  | .vipAddress vip => { r with vipAddress := vip }
  | .dataCenter d => { r with dataCenter := d }
  | .ports ps => { r with ports := ps }
  | .healthCheckUrls urls => { r with healthCheckUrls := urls }
  | .status s => { r with status := s }
  | .lease t => { r with lease := t }

/-- The record at `version` that `deltas` describe, read on top of `r`. -/
def applyDeltas (r : Record) (deltas : List Delta) (version : Version) : Record :=
  (deltas.foldl applyDelta r).atVersion version

/-- `d` alone when `changed` holds. -/
def deltaIf (changed : Bool) (d : Delta) : List Delta :=
  if changed then [d] else []

/-- The fields of `newer` that differ from `older`, in declaration order. -/
def diff (newer older : Record) : List Delta :=
  deltaIf (newer.app != older.app) (.app newer.app) ++
  deltaIf (newer.vipAddress != older.vipAddress) (.vipAddress newer.vipAddress) ++
  deltaIf (newer.dataCenter != older.dataCenter) (.dataCenter newer.dataCenter) ++
  deltaIf (newer.ports != older.ports) (.ports newer.ports) ++
  deltaIf (newer.healthCheckUrls != older.healthCheckUrls)
    (.healthCheckUrls newer.healthCheckUrls) ++
  deltaIf (newer.status != older.status) (.status newer.status) ++
  deltaIf (newer.lease != older.lease) (.lease newer.lease)

theorem id_applyDelta (r : Record) (d : Delta) : (r.applyDelta d).id = r.id := by
  cases d <;> rfl

theorem id_applyDeltas (r : Record) (ds : List Delta) (v : Version) :
    (r.applyDeltas ds v).id = r.id := by
  simp only [applyDeltas, id_atVersion]
  induction ds generalizing r with
  | nil => rfl
  | cons d ds ih => rw [List.foldl_cons, ih, id_applyDelta]

@[simp] theorem version_applyDeltas (r : Record) (ds : List Delta) (v : Version) :
    (r.applyDeltas ds v).version = v := rfl

end Record

end LeaseRegistry
