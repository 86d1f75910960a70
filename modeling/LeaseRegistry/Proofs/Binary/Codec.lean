import LeaseRegistry.Binary.Codec
import LeaseRegistry.Proofs.Text.Utf8
import Mathlib.Algebra.GroupWithZero.Nat
import Mathlib.Algebra.Order.BigOperators.Group.List
import Mathlib.Algebra.Order.Group.Nat

/-!
# Exact codecs

Every way to put codecs together keeps them exact, at each value by itself. Lengths are written with
64 bits, so a text or a list is exact as long as its length fits in them; `Codec.Faithful` states
this once for a whole value, as a bound on its encoding that no value in memory reaches.
-/

namespace LeaseRegistry

namespace Codec

variable {α β : Type} {c : Codec α} {d : Codec β}

/-- A part of `x ++ y` from the start ends in `x`, or else in `y`. -/
theorem prefix_append_cases {p x y : List UInt8} (h : p <+: x ++ y) :
    (p <+: x ∧ p ≠ x) ∨ ∃ q, p = x ++ q ∧ q <+: y := by
  rcases List.prefix_or_prefix_of_prefix h (List.prefix_append x y) with hp | ⟨q, rfl⟩
  · by_cases he : p = x
    · exact .inr ⟨[], by simpa using he, List.nil_prefix⟩
    · exact .inl ⟨hp, he⟩
  · exact .inr ⟨q, rfl, (List.prefix_append_right_inj x).mp h⟩

/-! ## Numbers -/

@[simp] theorem length_littleEndian (width n : Nat) : (littleEndian width n).length = width := by
  induction width generalizing n with
  | zero => rfl
  | succ width ih => rw [littleEndian, List.length_cons, ih]

theorem readLittleEndian_append {width n : Nat} (h : n < 256 ^ width) (s : List UInt8) :
    readLittleEndian width (littleEndian width n ++ s) = .ok (n, s) := by
  induction width generalizing n with
  | zero =>
    obtain rfl : n = 0 := by simpa using h
    rfl
  | succ width ih =>
    have hhigh : n / 256 < 256 ^ width := by
      rw [Nat.div_lt_iff_lt_mul (by decide)]
      rwa [Nat.pow_succ] at h
    have hlow : n.toUInt8.toNat = n % 256 := by simp
    simp only [littleEndian, List.cons_append, readLittleEndian, ih hhigh, hlow]
    rw [Nat.mod_add_div]

theorem readLittleEndian_of_length_lt {width : Nat} {s : List UInt8} (h : s.length < width) :
    readLittleEndian width s = .error .inputEnded := by
  induction width generalizing s with
  | zero => omega
  | succ width ih =>
    cases s with
    | nil => rfl
    | cons b s => simp only [readLittleEndian, ih (Nat.lt_of_succ_lt_succ h)]

theorem length_lt_of_prefix {p x : List UInt8} (h : p <+: x) (hne : p ≠ x) :
    p.length < x.length :=
  Nat.lt_of_le_of_ne h.length_le fun he => hne (h.eq_of_length he)

theorem exact_word {width : Nat} {toNat : α → Nat} {ofNat : Nat → α} {a : α}
    (hlt : toNat a < 256 ^ width) (hread : ofNat (toNat a) = a) :
    (word width toNat ofNat).Exact a := by
  refine ⟨fun s => ?_, fun p hp hne => ?_⟩
  · simp only [word, readLittleEndian_append hlt, hread]
  · have hshort : p.length < width := by
      have := length_lt_of_prefix hp hne
      simpa only [word, length_littleEndian] using this
    simp only [word, readLittleEndian_of_length_lt hshort]

theorem exact_uint16 (n : UInt16) : uint16.Exact n := exact_word n.toNat_lt (by simp)

theorem exact_uint32 (n : UInt32) : uint32.Exact n := exact_word n.toNat_lt (by simp)

theorem exact_uint64 (n : UInt64) : uint64.Exact n := exact_word n.toNat_lt (by simp)

@[simp] theorem length_uint16 (n : UInt16) : (uint16.encode n).length = 2 :=
  length_littleEndian 2 _

@[simp] theorem length_uint32 (n : UInt32) : (uint32.encode n).length = 4 :=
  length_littleEndian 4 _

@[simp] theorem length_uint64 (n : UInt64) : (uint64.encode n).length = 8 :=
  length_littleEndian 8 _

/-! ## Single bytes -/

@[simp] theorem length_bool (b : Bool) : (bool.encode b).length = 1 := rfl

theorem eq_nil_of_prefix_singleton {p : List UInt8} {b : UInt8} (h : p <+: [b]) (hne : p ≠ [b]) :
    p = [] := by
  have := length_lt_of_prefix h hne
  exact List.length_eq_zero_iff.mp (by simpa using this)

theorem exact_bool (b : Bool) : bool.Exact b := by
  refine ⟨fun s => ?_, fun p hp hne => ?_⟩
  · cases b <;> rfl
  · rw [eq_nil_of_prefix_singleton hp hne]
    rfl

/-! ## Composition -/

theorem Exact.pair {a : α} {b : β} (hc : c.Exact a) (hd : d.Exact b) : (c.pair d).Exact (a, b) := by
  refine ⟨fun s => ?_, fun p hp hne => ?_⟩
  · simp only [Codec.pair, List.append_assoc, hc.1, hd.1]
  · rcases prefix_append_cases hp with ⟨hp, hne'⟩ | ⟨q, rfl, hq⟩
    · simp only [Codec.pair, hc.2 p hp hne']
    · have hne' : q ≠ d.encode b := fun he => hne (by rw [he]; rfl)
      simp only [Codec.pair, hc.1, hd.2 q hq hne']

theorem Exact.via {read : α → β} {form : β → α} {b : β} (hc : c.Exact (form b))
    (hread : read (form b) = b) : (c.via read form).Exact b := by
  refine ⟨fun s => ?_, fun p hp hne => ?_⟩
  · simp only [Codec.via, hc.1, hread]
  · simp only [Codec.via, hc.2 p hp hne]

theorem Exact.viaChecked {read : α → Option β} {form : β → α} {b : β} (hc : c.Exact (form b))
    (hread : read (form b) = some b) : (c.viaChecked read form).Exact b := by
  refine ⟨fun s => ?_, fun p hp hne => ?_⟩
  · simp only [Codec.viaChecked, hc.1, hread]
  · simp only [Codec.viaChecked, hc.2 p hp hne]

theorem exact_unit : unit.Exact () :=
  ⟨fun _ => rfl, fun _ hp hne => absurd (List.prefix_nil.mp hp) hne⟩

theorem exact_option_none : (option c).Exact none := by
  refine ⟨fun s => rfl, fun p hp hne => ?_⟩
  rw [eq_nil_of_prefix_singleton hp hne]
  rfl

theorem Exact.option_some {a : α} (hc : c.Exact a) : (option c).Exact (some a) := by
  refine ⟨fun s => ?_, fun p hp hne => ?_⟩
  · simp [option, hc.1]
  · rcases prefix_append_cases (x := [1]) hp with ⟨hp, hne'⟩ | ⟨q, rfl, hq⟩
    · rw [eq_nil_of_prefix_singleton hp hne']
      rfl
    · have hne' : q ≠ c.encode a := fun he => hne (by rw [he]; rfl)
      simp [option, hc.2 q hq hne']

theorem decodeMany_append {as : List α} (h : ∀ a ∈ as, c.Exact a) (s : List UInt8) :
    decodeMany c as.length (as.flatMap c.encode ++ s) = .ok (as, s) := by
  induction as with
  | nil => rfl
  | cons a as ih =>
    have ha := (h a List.mem_cons_self).1
    have has := ih fun b hb => h b (List.mem_cons_of_mem _ hb)
    simp only [List.flatMap_cons, List.append_assoc, List.length_cons, decodeMany, ha, has]

theorem decodeMany_prefix {as : List α} (h : ∀ a ∈ as, c.Exact a) {p : List UInt8}
    (hp : p <+: as.flatMap c.encode) (hne : p ≠ as.flatMap c.encode) :
    decodeMany c as.length p = .error .inputEnded := by
  induction as generalizing p with
  | nil => exact absurd (List.prefix_nil.mp hp) hne
  | cons a as ih =>
    have ha := h a List.mem_cons_self
    rw [List.flatMap_cons] at hp hne
    rcases prefix_append_cases hp with ⟨hp, hne'⟩ | ⟨q, rfl, hq⟩
    · simp only [List.length_cons, decodeMany, ha.2 p hp hne']
    · have hne' : q ≠ as.flatMap c.encode := fun he => hne (by rw [he])
      have has := ih (fun b hb => h b (List.mem_cons_of_mem _ hb)) hq hne'
      simp only [List.length_cons, decodeMany, ha.1, has]

theorem toNat_length {n : Nat} (h : n < UInt64.size) : n.toUInt64.toNat = n := by
  simpa using Nat.mod_eq_of_lt h

theorem Exact.list {as : List α} (hlen : as.length < UInt64.size) (h : ∀ a ∈ as, c.Exact a) :
    c.list.Exact as := by
  refine ⟨fun s => ?_, fun p hp hne => ?_⟩
  · simp only [Codec.list, List.append_assoc, (exact_uint64 _).1, toNat_length hlen,
      decodeMany_append h]
  · rcases prefix_append_cases hp with ⟨hp, hne'⟩ | ⟨q, rfl, hq⟩
    · simp only [Codec.list, (exact_uint64 _).2 p hp hne']
    · have hne' : q ≠ as.flatMap c.encode := fun he => hne (by rw [he]; rfl)
      simp only [Codec.list, (exact_uint64 _).1, toNat_length hlen, decodeMany_prefix h hq hne']

theorem exact_string {t : String} (hlen : t.utf8ByteSize < UInt64.size) : string.Exact t := by
  refine ⟨fun s => ?_, fun p hp hne => ?_⟩
  · have htake : (t.toUTF8.toList ++ s).take t.utf8ByteSize = t.toUTF8.toList :=
      List.take_left' (Text.length_toUTF8 t)
    have hdrop : (t.toUTF8.toList ++ s).drop t.utf8ByteSize = s :=
      List.drop_left' (Text.length_toUTF8 t)
    have hlong : ¬(t.toUTF8.toList ++ s).length < t.utf8ByteSize := by
      rw [List.length_append, Text.length_toUTF8]
      omega
    simp only [string, List.append_assoc, (exact_uint64 _).1, toNat_length hlen, if_neg hlong,
      htake, hdrop, Text.fromUTF8?_toUTF8]
  · rcases prefix_append_cases hp with ⟨hp, hne'⟩ | ⟨q, rfl, hq⟩
    · simp only [string, (exact_uint64 _).2 p hp hne']
    · have hne' : q ≠ t.toUTF8.toList := fun he => hne (by rw [he]; rfl)
      have hshort : q.length < t.utf8ByteSize := by
        simpa only [Text.length_toUTF8] using length_lt_of_prefix hq hne'
      simp only [string, (exact_uint64 _).1, toNat_length hlen, if_pos hshort]

theorem Exact.sum {index : α → UInt32} {arm : UInt32 → Option (Codec α)} {a : α} {c : Codec α}
    (harm : arm (index a) = some c) (hc : c.Exact a) : (sum index arm).Exact a := by
  have hencode : (Codec.sum index arm).encode a = uint32.encode (index a) ++ c.encode a := by
    simp only [Codec.sum, harm, Option.map_some, Option.getD_some]
  refine ⟨fun s => ?_, fun p hp hne => ?_⟩
  · rw [hencode]
    simp only [Codec.sum, List.append_assoc, (exact_uint32 _).1, harm, hc.1]
  · rw [hencode] at hp hne
    rcases prefix_append_cases hp with ⟨hp, hne'⟩ | ⟨q, rfl, hq⟩
    · simp only [Codec.sum, (exact_uint32 _).2 p hp hne']
    · have hne' : q ≠ c.encode a := fun he => hne (by rw [he])
      simp only [Codec.sum, (exact_uint32 _).1, harm, hc.2 q hq hne']

/-! ## What an exact codec says about its encodings -/

/-- An encoding that starts another one is that other one, and of the same value. -/
theorem Exact.eq_of_prefix {a b : α} (ha : c.Exact a) (hb : c.Exact b)
    (h : c.encode a <+: c.encode b) : a = b := by
  have hread : c.decode (c.encode a) = .ok (a, []) := by simpa using ha.1 []
  by_cases he : c.encode a = c.encode b
  · have hreadb : c.decode (c.encode b) = .ok (b, []) := by simpa using hb.1 []
    rw [he, hreadb] at hread
    cases hread
    rfl
  · rw [hb.2 _ h he] at hread
    cases hread

theorem decodeAll_of_ok {s rest : List UInt8} {a : α} (h : c.decode s = .ok (a, rest)) :
    c.decodeAll s = .ok a := by
  rw [decodeAll, h]
  rfl

theorem decodeAll_of_error {s : List UInt8} {e : DecodeError} (h : c.decode s = .error e) :
    c.decodeAll s = .error e := by
  rw [decodeAll, h]
  rfl

/-- A value is found at the start of a text that its encoding starts, and in no proper part of the
encoding; its encoding is that of no other value and starts no other encoding. -/
theorem selfDelimiting {P : α → Prop} {a : α} (ha : c.Exact a) (h : ∀ b, P b → c.Exact b) :
    (∀ s, c.decodeAll (c.encode a ++ s) = .ok a) ∧
    (∀ p, p <+: c.encode a → p ≠ c.encode a → c.decodeAll p = .error .inputEnded) ∧
    ∀ b, P b → (c.encode a = c.encode b → a = b) ∧
      (c.encode a <+: c.encode b → c.encode a = c.encode b) := by
  refine ⟨fun s => decodeAll_of_ok (ha.1 s), fun p hp hne => decodeAll_of_error (ha.2 p hp hne),
    fun b hb => ⟨fun he => ?_, fun hp => ?_⟩⟩
  · exact ha.eq_of_prefix (h b hb) (he ▸ List.prefix_rfl)
  · rw [ha.eq_of_prefix (h b hb) hp]

/-! ## Lengths -/

@[simp] theorem length_pair (p : α × β) :
    ((c.pair d).encode p).length = (c.encode p.1).length + (d.encode p.2).length :=
  List.length_append

@[simp] theorem length_via (read : α → β) (form : β → α) (b : β) :
    ((c.via read form).encode b).length = (c.encode (form b)).length := rfl

@[simp] theorem length_viaChecked (read : α → Option β) (form : β → α) (b : β) :
    ((c.viaChecked read form).encode b).length = (c.encode (form b)).length := rfl

@[simp] theorem length_option_some (a : α) :
    ((option c).encode (some a)).length = (c.encode a).length + 1 := rfl

@[simp] theorem length_list (as : List α) :
    (c.list.encode as).length = 8 + (as.map fun a => (c.encode a).length).sum := by
  simp [Codec.list, List.length_flatMap]

@[simp] theorem length_sortedSet [Ord α] [Std.TransOrd α] (s : SortedSet α) :
    (c.sortedSet.encode s).length = 8 + (s.toList.map fun a => (c.encode a).length).sum :=
  length_list s.toList

@[simp] theorem length_string (t : String) : (string.encode t).length = 8 + t.utf8ByteSize := by
  simp only [string, List.length_append, length_uint64, Text.length_toUTF8]

theorem length_sum {index : α → UInt32} {arm : UInt32 → Option (Codec α)} {a : α} {c : Codec α}
    (harm : arm (index a) = some c) :
    ((sum index arm).encode a).length = 4 + (c.encode a).length := by
  simp only [Codec.sum, harm, List.length_append, length_uint32, Option.map_some, Option.getD_some]

/-! ## Values that fit -/

/-- The codec is exact at `a` unless the encoding of `a` has `2 ^ 64` bytes or more. -/
def Faithful (c : Codec α) (a : α) : Prop :=
  (c.encode a).length < UInt64.size → c.Exact a

theorem Exact.faithful {a : α} (h : c.Exact a) : c.Faithful a := fun _ => h

theorem faithful_string (t : String) : string.Faithful t := by
  intro h
  rw [length_string] at h
  exact exact_string (by omega)

theorem Faithful.pair {a : α} {b : β} (hc : c.Faithful a) (hd : d.Faithful b) :
    (c.pair d).Faithful (a, b) := by
  intro h
  simp only [length_pair] at h
  exact (hc (by omega)).pair (hd (by omega))

theorem Faithful.via {read : α → β} {form : β → α} {b : β} (hc : c.Faithful (form b))
    (hread : read (form b) = b) : (c.via read form).Faithful b :=
  fun h => (hc h).via hread

theorem Faithful.viaChecked {read : α → Option β} {form : β → α} {b : β}
    (hc : c.Faithful (form b)) (hread : read (form b) = some b) :
    (c.viaChecked read form).Faithful b :=
  fun h => (hc h).viaChecked hread

theorem faithful_option (hc : ∀ a, c.Faithful a) (o : Option α) : (option c).Faithful o := by
  intro h
  cases o with
  | none => exact exact_option_none
  | some a =>
    rw [length_option_some] at h
    exact (hc a (by omega)).option_some

/-- Every item takes a byte at least, so a list that fits has a length that fits. -/
theorem faithful_list (hc : ∀ a, c.Faithful a) (hpos : ∀ a, 0 < (c.encode a).length)
    (as : List α) : c.list.Faithful as := by
  intro h
  rw [length_list] at h
  have hlen : (as.map fun a => (c.encode a).length).length ≤
      (as.map fun a => (c.encode a).length).sum :=
    List.length_le_sum_of_one_le _ (List.forall_mem_map.mpr fun a _ => hpos a)
  rw [List.length_map] at hlen
  refine .list (by omega) fun a ha => hc a ?_
  have := List.le_sum_of_mem (List.mem_map_of_mem (f := fun a => (c.encode a).length) ha)
  omega

theorem faithful_sortedSet [Ord α] [Std.TransOrd α] (hc : ∀ a, c.Faithful a)
    (hpos : ∀ a, 0 < (c.encode a).length) (s : SortedSet α) : c.sortedSet.Faithful s :=
  (faithful_list hc hpos s.toList).via (SortedSet.ofList_toList s)

theorem Faithful.sum {index : α → UInt32} {arm : UInt32 → Option (Codec α)} {a : α}
    {c : Codec α} (harm : arm (index a) = some c) (hc : c.Faithful a) :
    (sum index arm).Faithful a := by
  intro h
  rw [length_sum harm] at h
  exact (hc (by omega)).sum harm

end Codec

end LeaseRegistry
