import LeaseRegistry.Json.Fields
import LeaseRegistry.Proofs.Json.Value

/-!
# Written fields

Of an object whose keys are distinct, each field is read as the value that was written for it.
-/

namespace LeaseRegistry.Json

variable {α : Type} {fs : List (String × Json)} {name : String} {v : Json}

@[simp] theorem fields?_record (names : List String) (ms : List (String × Json)) :
    (record ms).fields? names = some ms := by
  simp only [record, fields?]
  induction ms with
  | nil => rfl
  | cons m ms ih =>
    rw [List.map_cons, List.mapM_cons, ih]
    rfl

theorem filter_eq_nil (h : name ∉ fs.map (·.1)) : fs.filter (·.1 == name) = [] := by
  refine List.filter_eq_nil_iff.mpr fun g hg he => h ?_
  have hkey : g.1 = name := by simpa using he
  exact List.mem_map.mpr ⟨g, hg, hkey⟩

theorem filter_eq_singleton (hn : (fs.map (·.1)).Nodup) (hm : (name, v) ∈ fs) :
    fs.filter (·.1 == name) = [(name, v)] := by
  induction fs with
  | nil => cases hm
  | cons f fs ih =>
    obtain ⟨hnot, hn⟩ := List.nodup_cons.mp hn
    rcases List.mem_cons.mp hm with rfl | hm
    · rw [List.filter_cons_of_pos (by simp), filter_eq_nil hnot]
    · have hne : f.1 ≠ name := fun he => hnot (List.mem_map.mpr ⟨_, hm, he.symm⟩)
      rw [List.filter_cons_of_neg (by simpa using hne), ih hn hm]

theorem lookup?_of_mem (hn : (fs.map (·.1)).Nodup) (hm : (name, v) ∈ fs) :
    lookup? name fs = some (some v) := by
  rw [lookup?, filter_eq_singleton hn hm]

theorem lookup?_of_notMem (h : name ∉ fs.map (·.1)) : lookup? name fs = some none := by
  rw [lookup?, filter_eq_nil h]

theorem lookup?_append_of_notMem {gs : List (String × Json)} (h : name ∉ gs.map (·.1)) :
    lookup? name (fs ++ gs) = lookup? name fs := by
  rw [lookup?, lookup?, List.filter_append, filter_eq_nil h, List.append_nil]

theorem count_name (fs : List (String × Json)) (name : String) :
    (fs.map (·.1)).count name = (fs.filter (·.1 == name)).length := by
  rw [List.count_eq_countP, List.countP_map, List.countP_eq_length_filter]
  rfl

/-- A field that occurs more than once is not taken from any of its places. -/
theorem lookup?_of_repeated (h : 2 ≤ (fs.map (·.1)).count name) : lookup? name fs = none := by
  rw [count_name] at h
  rw [lookup?]
  generalize fs.filter (·.1 == name) = found at h
  match found, h with
  | _ :: _ :: _, _ => rfl

/-- The order of the members does not matter. -/
theorem lookup?_perm {gs : List (String × Json)} (h : fs.Perm gs) (name : String) :
    lookup? name fs = lookup? name gs := by
  by_cases hrepeated : 2 ≤ (fs.map (·.1)).count name
  · have hcount := (h.map (·.1)).count_eq name
    rw [lookup?_of_repeated hrepeated, lookup?_of_repeated (hcount ▸ hrepeated)]
  · have hfilter := h.filter (·.1 == name)
    rw [count_name] at hrepeated
    rw [lookup?, lookup?]
    -- at most one member has the name, so there is nothing to permute
    generalize fs.filter (·.1 == name) = found at hfilter hrepeated
    match found, hrepeated with
    | [], _ => rw [List.nil_perm.mp hfilter]
    | [m], _ => rw [List.singleton_perm.mp hfilter]
    | _ :: _ :: _, hlong => exact absurd (by simp) hlong

theorem required_of_mem (hn : (fs.map (·.1)).Nodup) (hm : (name, v) ∈ fs)
    (read : Json → Option α) : required name read fs = read v := by
  rw [required, lookup?_of_mem hn hm]

theorem defaulted_of_mem (hn : (fs.map (·.1)).Nodup) (hm : (name, v) ∈ fs) (default : α)
    (read : Json → Option α) : defaulted name default read fs = read v := by
  rw [defaulted, lookup?_of_mem hn hm]

theorem defaulted_of_notMem (h : name ∉ fs.map (·.1)) (default : α) (read : Json → Option α) :
    defaulted name default read fs = some default := by
  rw [defaulted, lookup?_of_notMem h]

theorem lookup?_of_required {read : Json → Option α} {a : α} (h : required name read fs = some a) :
    ∃ v, lookup? name fs = some (some v) := by
  rw [required] at h
  split at h
  · exact ⟨_, by assumption⟩
  · cases h

theorem lookup?_of_defaulted {default a : α} {read : Json → Option α}
    (h : defaulted name default read fs = some a) : lookup? name fs ≠ none := by
  intro hnone
  rw [defaulted, hnone] at h
  cases h

/-! ## Values -/

@[simp] theorem toText?_text (s : String) : (text s).toText? = some s := rfl

@[simp] theorem toBool?_bool (b : Bool) : (bool b).toBool? = some b := rfl

theorem toNatBelow?_nat {limit n : Nat} (h : n < limit) : (nat n).toNatBelow? limit = some n := by
  simp [toNatBelow?, nat, h]

@[simp] theorem toUInt16?_nat (n : UInt16) : (nat n.toNat).toUInt16? = some n := by
  rw [toUInt16?, toNatBelow?_nat n.toNat_lt]
  simp

@[simp] theorem toUInt32?_nat (n : UInt32) : (nat n.toNat).toUInt32? = some n := by
  rw [toUInt32?, toNatBelow?_nat n.toNat_lt]
  simp

@[simp] theorem toUInt64?_nat (n : UInt64) : (nat n.toNat).toUInt64? = some n := by
  rw [toUInt64?, toNatBelow?_nat n.toNat_lt]
  simp

@[simp] theorem toNullable?_nullable (o : Option String) :
    toNullable? toText? (nullable o) = some o := by
  cases o <;> rfl

theorem toList?_map {read : Json → Option α} {write : α → Json} {l : List α}
    (h : ∀ a ∈ l, read (write a) = some a) : toList? read (.array (l.map write)) = some l := by
  rw [toList?]
  induction l with
  | nil => rfl
  | cons a l ih =>
    rw [List.map_cons, List.mapM_cons, h a List.mem_cons_self,
      ih fun b hb => h b (List.mem_cons_of_mem _ hb)]
    rfl

/-! ## Values that are kept whole -/

theorem keptWithin_nat (n : Nat) {k : Nat} (h : k < UInt64.size) : KeptWithin n (nat k) :=
  .number n (Number.overflows_ofNat h)

theorem keptWithin_nullable (n : Nat) (o : Option String) : KeptWithin n (nullable o) := by
  cases o with
  | none => exact .null n
  | some s => exact .text n s

theorem keptWithin_map {n : Nat} {write : α → Json} {l : List α}
    (h : ∀ a ∈ l, KeptWithin n (write a)) : KeptWithin (n + 1) (.array (l.map write)) :=
  .array fun _ hv => by
    obtain ⟨a, ha, rfl⟩ := List.mem_map.mp hv
    exact h a ha

end LeaseRegistry.Json
