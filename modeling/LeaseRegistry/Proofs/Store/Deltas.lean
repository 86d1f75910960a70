import LeaseRegistry.Proofs.Instance.Difference
import LeaseRegistry.Store

/-!
# Updates by deltas

A newer record can be stored in full or as deltas to the record that is stored. The deltas stand
for the record: they give it back in whatever order they are applied, name just the fields that
changed, and do to any store that holds their base what the full record does
(`deltas_standFor_record`).
-/

namespace LeaseRegistry

namespace Store

variable {s : Store} {older newer : Record} {lease : Lease}

theorem update_of_newer (hstored : s.lease? newer.id = some lease)
    (hnewer : lease.version < newer.version) (hvalid : newer.Valid) (source : Source) (now : Time) :
    s.update newer source now =
      (.ok .modified, s.replace newer.id (lease.replace newer source now)) := by
  have hversion : ¬newer.version ≤ lease.version := UInt64.not_le.mpr hnewer
  simp only [update, show newer.fault? = none from hvalid, hstored, if_neg hversion]

/-- So does what deltas make of the stored record, if they start from its version. -/
theorem updateWithDeltas_of_base {id : InstanceId} {version : Version} (deltas : List Delta)
    (hstored : s.lease? id = some lease) (hnewer : lease.version < version)
    (hvalid : (lease.record.applyDeltas deltas version).Valid) (source : Source) (now : Time) :
    s.updateWithDeltas id lease.version version deltas source now =
      (.ok .modified,
        s.replace id (lease.replace (lease.record.applyDeltas deltas version) source now)) := by
  have hversion : ¬version ≤ lease.version := UInt64.not_le.mpr hnewer
  have hfault : (lease.record.applyDeltas deltas version).fault? = none := hvalid
  simp only [updateWithDeltas, hstored, if_neg hversion, ne_eq, not_true_eq_false, if_false, hfault]

end Store

namespace Record

/-- The deltas between two records of an instance give the newer one when they are applied to the
older one, in any order. They are for different fields, exactly those in which the records differ.
A store that holds the older record is left the same, with the same answer, by the deltas and by the
newer record itself, which takes the place of the older one if it is valid and of a higher
version. -/
theorem deltas_standFor_record {older newer : Record} (hid : newer.id = older.id) :
    older.applyDeltas (newer.diff older) newer.version = newer ∧
    ((newer.diff older).map Delta.field).Nodup ∧
    (∀ f, f ∈ (newer.diff older).map Delta.field ↔ ¬SameAt newer older f) ∧
    (∀ ds : List Delta, ds.Perm (newer.diff older) →
      older.applyDeltas ds newer.version = newer) ∧
    ∀ (s : Store) (lease : Lease), s.lease? older.id = some lease → lease.record = older →
      newer.Valid → older.version < newer.version → ∀ (source : Source) (now : Time),
        let byDeltas :=
          s.updateWithDeltas older.id older.version newer.version (newer.diff older) source now
        let inFull := s.update newer source now
        byDeltas.1 = .ok .modified ∧ inFull.1 = .ok .modified ∧ byDeltas.2 = inFull.2 := by
  have happly := applyDeltas_diff newer older hid
  have hnodup : ((newer.diff older).map Delta.field).Nodup := by
    rw [fields_diff]
    exact Delta.Field.nodup_all.filter _
  refine ⟨happly, hnodup, fun f => ?_, fun ds hperm => ?_, ?_⟩
  · simp only [fields_diff, List.mem_filter, Delta.Field.mem_all, true_and, decide_eq_true_eq]
  · rw [← applyDeltas_perm hperm.symm hnodup, happly]
  · rintro s lease hstored rfl hvalid hnewer source now byDeltas inFull
    have hdeltas : byDeltas = (.ok .modified,
        s.replace lease.record.id (lease.replace newer source now)) := by
      have h := Store.updateWithDeltas_of_base (newer.diff lease.record) hstored hnewer
        (by rwa [happly]) source now
      rwa [happly] at h
    have hfull : inFull = (.ok .modified,
        s.replace lease.record.id (lease.replace newer source now)) := by
      rw [← hid] at hstored ⊢
      exact Store.update_of_newer hstored hnewer hvalid source now
    rw [hdeltas, hfull]
    exact ⟨rfl, rfl, rfl⟩

/-- Three fields of a stored record change, and the deltas come in another order. -/
theorem deltas_standFor_record_threeFields :
    let older := (Record.bare ⟨"web"⟩ "shop").atVersion 4
    let newer : Record := { older with
      app := "store", vipAddress := some "vip", ports := .ofList [⟨"http", 80, false⟩],
      version := 9 }
    let s := (Store.empty.register older .here 10).2
    newer.id = older.id ∧
    [Delta.ports newer.ports, .vipAddress (some "vip"), .app "store"].Perm (newer.diff older) ∧
    s.lease? older.id = some (.grant older .here 10) ∧ newer.Valid ∧
    older.version < newer.version ∧
    older.applyDeltas [.ports newer.ports, .vipAddress (some "vip"), .app "store"] 9 = newer ∧
    (s.updateWithDeltas ⟨"web"⟩ 4 9 (newer.diff older) .here 20).2 =
      (s.update newer .here 20).2 := by
  intro older newer s
  have hperm : [Delta.ports newer.ports, .vipAddress (some "vip"), .app "store"].Perm
      (newer.diff older) := by decide
  have hstored : s.lease? older.id = some (.grant older .here 10) := by decide
  have hvalid : newer.Valid := by decide
  have hnewer : older.version < newer.version := by decide
  have h := deltas_standFor_record (show newer.id = older.id from rfl)
  obtain ⟨-, -, -, hany, hstore⟩ := h
  exact ⟨rfl, hperm, hstored, hvalid, hnewer, hany _ hperm,
    (hstore s _ hstored rfl hvalid hnewer .here 20).2.2⟩

end Record

end LeaseRegistry
