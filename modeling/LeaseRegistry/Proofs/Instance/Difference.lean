import LeaseRegistry.Instance.Delta
import Mathlib.Data.List.Nodup

/-!
# Differences carry a record over

Applied to the record they start from, the deltas of a newer record of the same instance give
exactly the newer record. They name each field that changed once, and no other, so that it does not
matter in which order they are applied.
-/

namespace LeaseRegistry

/-- The fields a delta can touch, in declaration order. -/
def Delta.Field.all : List Field :=
  [.app, .vipAddress, .dataCenter, .ports, .healthCheckUrls, .status, .lease]

theorem Delta.Field.nodup_all : all.Nodup := by decide

theorem Delta.Field.mem_all (f : Field) : f ∈ all := by cases f <;> decide

namespace Record

/-- A field that did not change may just as well be set again. -/
theorem foldl_deltaIf {α : Type} [BEq α] [LawfulBEq α] (r : Record) {d : Delta} {new old : α}
    (h : new = old → r.applyDelta d = r) :
    (deltaIf (new != old) d).foldl applyDelta r = r.applyDelta d := by
  unfold deltaIf
  cases hc : new != old with
  | true => rfl
  | false =>
    rw [bne_eq_false_iff_eq] at hc
    exact (h hc).symm

theorem applyDeltas_diff (newer older : Record) (hid : newer.id = older.id) :
    older.applyDeltas (newer.diff older) newer.version = newer := by
  have hset : (newer.diff older).foldl applyDelta older =
      ((((((older.applyDelta (.app newer.app)).applyDelta (.vipAddress newer.vipAddress)).applyDelta
        (.dataCenter newer.dataCenter)).applyDelta (.ports newer.ports)).applyDelta
        (.healthCheckUrls newer.healthCheckUrls)).applyDelta (.status newer.status)).applyDelta
        (.lease newer.lease) := by
    simp only [diff, List.foldl_append]
    rw [foldl_deltaIf older]
    iterate 6 rw [foldl_deltaIf (applyDelta _ _)]
    all_goals
      intro h
      simp only [applyDelta, h]
  rw [applyDeltas, hset]
  cases newer
  cases older
  cases hid
  rfl

/-! ## Which fields differ -/

/-- The two records have the same value in a field. -/
def SameAt (a b : Record) : Delta.Field → Prop
  | .app => a.app = b.app
  | .vipAddress => a.vipAddress = b.vipAddress
  | .dataCenter => a.dataCenter = b.dataCenter
  | .ports => a.ports = b.ports
  | .healthCheckUrls => a.healthCheckUrls = b.healthCheckUrls
  | .status => a.status = b.status
  | .lease => a.lease = b.lease

instance (a b : Record) : DecidablePred (SameAt a b)
  | .app | .vipAddress | .dataCenter | .ports | .healthCheckUrls | .status | .lease =>
    inferInstanceAs (Decidable (_ = _))

theorem map_field_deltaIf {α : Type} [BEq α] [LawfulBEq α] [DecidableEq α] (new old : α)
    (d : Delta) :
    (deltaIf (new != old) d).map Delta.field = if new = old then [] else [d.field] := by
  unfold deltaIf
  by_cases h : new = old
  · simp [h]
  · simp [h]

/-- The deltas are for the fields that differ, in declaration order. -/
theorem fields_diff (newer older : Record) :
    (newer.diff older).map Delta.field =
      Delta.Field.all.filter fun f => decide ¬SameAt newer older f := by
  have hfilter (f : Delta.Field) (fs : List Delta.Field) :
      (f :: fs).filter (fun f => decide ¬SameAt newer older f) =
        (if SameAt newer older f then [] else [f]) ++
          fs.filter fun f => decide ¬SameAt newer older f := by
    by_cases h : SameAt newer older f
    · simp [h]
    · simp [h]
  simp only [diff, List.map_append, map_field_deltaIf, Delta.Field.all, hfilter, List.filter_nil,
    List.append_nil, List.append_assoc]
  rfl

/-! ## In any order -/

theorem applyDelta_comm {d e : Delta} (h : d.field ≠ e.field) (r : Record) :
    (r.applyDelta d).applyDelta e = (r.applyDelta e).applyDelta d := by
  cases d <;> cases e <;> first | rfl | exact absurd rfl h

/-- Deltas for different fields may be applied in any order. -/
theorem applyDeltas_perm {ds es : List Delta} (hperm : ds.Perm es)
    (hn : (ds.map Delta.field).Nodup) (r : Record) (v : Version) :
    r.applyDeltas ds v = r.applyDeltas es v := by
  have hcomm : ∀ d ∈ ds, ∀ e ∈ ds, ∀ r : Record,
      (r.applyDelta d).applyDelta e = (r.applyDelta e).applyDelta d := by
    intro d hd e he r
    by_cases hde : d = e
    · rw [hde]
    · exact applyDelta_comm (fun hf => hde (List.inj_on_of_nodup_map hn hd he hf)) r
  rw [applyDeltas, applyDeltas, hperm.foldl_eq' hcomm]

end Record

end LeaseRegistry
