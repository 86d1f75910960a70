import LeaseRegistry.Json.Fields
import LeaseRegistry.Proofs.Json.Reader
import Mathlib.Algebra.GroupWithZero.Nat
import Mathlib.Algebra.Order.BigOperators.Group.List
import Mathlib.Algebra.Order.Group.Nat

/-!
# The least length of a text

A value can be spelled in many ways, with blanks and with escapes. `Json.extent` is a length that
every text of the value has at least (`extent_le_of_parseKept?`): brackets, keys, colons and commas
count, and the texts as their UTF-8 bytes. What is read from the fields of a value shares its extent
(`sum_fieldExtent_le`), so a size that is bounded in terms of them is bounded by the length of the
text.
-/

namespace LeaseRegistry.Json

/-! ## Numbers -/

namespace Number

theorem length_spanDigits {s ds rest : List UInt8} (h : spanDigits s = (ds, rest)) :
    ds.length + rest.length = s.length := by
  cases h
  rw [← List.length_append, List.takeWhile_append_dropWhile]

theorem readWhole_shortens {s rest : List UInt8} {n : Nat} (h : readWhole s = some (n, rest)) :
    rest.length < s.length := by
  unfold readWhole at h
  split at h
  · cases h
    exact Nat.lt_succ_self _
  · obtain ⟨ds, rest', hd⟩ : ∃ ds rest', spanDigits s = (ds, rest') := ⟨_, _, rfl⟩
    have hsplit := length_spanDigits hd
    rw [hd] at h
    cases ds with
    | nil => cases h
    | cons d ds =>
      cases h
      rw [List.length_cons] at hsplit
      omega

theorem readFraction_le {s rest : List UInt8} {ds : List (Fin 10)}
    (h : readFraction s = some (ds, rest)) : rest.length ≤ s.length := by
  unfold readFraction at h
  split at h
  · rename_i s
    obtain ⟨ds', rest', hd⟩ : ∃ ds rest', spanDigits s = (ds, rest') := ⟨_, _, rfl⟩
    have hsplit := length_spanDigits hd
    rw [hd] at h
    cases ds' with
    | nil => cases h
    | cons d ds' =>
      cases h
      rw [List.length_cons]
      omega
  · cases h
    exact Nat.le_refl _

theorem readPower_le {negative : Bool} {s rest : List UInt8} {e : Option Int}
    (h : readPower negative s = some (e, rest)) : rest.length ≤ s.length := by
  obtain ⟨ds, rest', hd⟩ : ∃ ds rest', spanDigits s = (ds, rest') := ⟨_, _, rfl⟩
  have hsplit := length_spanDigits hd
  rw [readPower, hd] at h
  cases ds with
  | nil => cases h
  | cons d ds =>
    cases h
    omega

theorem readExponent_le {s rest : List UInt8} {e : Option Int}
    (h : readExponent s = some (e, rest)) : rest.length ≤ s.length := by
  unfold readExponent at h
  split at h
  · split at h
    · exact (readPower_le h).trans (Nat.le_add_right _ 2)
    · exact (readPower_le h).trans (Nat.le_add_right _ 2)
    · exact Nat.le_succ_of_le (readPower_le h)
  · split at h
    · exact (readPower_le h).trans (Nat.le_add_right _ 2)
    · exact (readPower_le h).trans (Nat.le_add_right _ 2)
    · exact Nat.le_succ_of_le (readPower_le h)
  · cases h
    exact Nat.le_refl _

/-- A number takes a byte at least. -/
theorem read_shortens {s rest : List UInt8} {n : Number} (h : read s = some (n, rest)) :
    rest.length < s.length := by
  unfold read at h
  split at h
  rename_i negative unsigned hsign
  have hle : unsigned.length ≤ s.length := by
    split at hsign
    · cases hsign
      exact Nat.le_succ _
    · cases hsign
      exact Nat.le_refl _
  simp only [Option.bind_eq_bind, Option.bind_eq_some_iff, Prod.exists] at h
  obtain ⟨whole, s₁, hwhole, fraction, s₂, hfraction, exponent, s₃, hexponent, hread⟩ := h
  cases hread
  have h₁ := readWhole_shortens hwhole
  have h₂ := readFraction_le hfraction
  have h₃ := readExponent_le hexponent
  omega

end Number

/-! ## Tokens -/

namespace Token

/-- The least length of a text that has the token. -/
def extent : Token → Nat
  | null => 4
  | bool _ => 4
  | string (some s) => s.utf8ByteSize + 2
  | string none => 2
  | _ => 1

@[simp] theorem extent_openObject : openObject.extent = 1 := rfl

@[simp] theorem extent_closeObject : closeObject.extent = 1 := rfl

@[simp] theorem extent_openArray : openArray.extent = 1 := rfl

@[simp] theorem extent_closeArray : closeArray.extent = 1 := rfl

@[simp] theorem extent_colon : colon.extent = 1 := rfl

@[simp] theorem extent_comma : comma.extent = 1 := rfl

/-- The least length of a text that has the tokens. -/
def total (ts : List Token) : Nat := (ts.map extent).sum

@[simp] theorem total_nil : total [] = 0 := rfl

@[simp] theorem total_cons (t : Token) (ts : List Token) :
    total (t :: ts) = t.extent + total ts := rfl

@[simp] theorem total_append (ts us : List Token) : total (ts ++ us) = total ts + total us := by
  rw [total, List.map_append, List.sum_append]
  rfl

theorem total_flatMap {α : Type} (f : α → List Token) (as : List α) :
    total (as.flatMap f) = (as.map fun a => total (f a)).sum := by
  induction as with
  | nil => rfl
  | cons a as ih => rw [List.flatMap_cons, total_append, ih, List.map_cons, List.sum_cons]

namespace Content

def length (c : Content) : Nat := (c.rev.getD []).length

theorem length_settled (c : Content) : (c.settled.getD []).length ≤ c.length := by
  unfold settled
  split
  · exact Nat.le_refl _
  · exact Nat.zero_le _

theorem length_scalarRev_le (n : Nat) : (scalarRev n).length ≤ 4 := by
  have hchar : (scalarRev n).length = (Char.ofNat n).utf8Size := by
    rw [scalarRev, List.length_reverse, Text.length_toUTF8]
    exact String.utf8ByteSize_singleton
  rw [hchar]
  exact Char.utf8Size_le_four _

theorem length_map_append_le (o : Option (List UInt8)) (bs : List UInt8) :
    ((o.map (bs ++ ·)).getD []).length ≤ bs.length + (o.getD []).length := by
  cases o with
  | none => exact Nat.zero_le _
  | some l => simp

theorem length_pushByte_le (c : Content) (b : UInt8) : (c.pushByte b).length ≤ c.length + 1 := by
  have h := length_map_append_le c.settled [b]
  have hs := c.length_settled
  simp only [List.length_singleton, List.singleton_append] at h
  simp only [pushByte, length] at *
  omega

/-- An escaped code unit is longer than what it spells. -/
theorem length_pushUnit_le (c : Content) (n : Nat) : (c.pushUnit n).length ≤ c.length + 4 := by
  have hs := c.length_settled
  unfold pushUnit
  split
  · exact Nat.le_add_right_of_le hs
  split
  · split
    · rename_i high _
      have h := length_map_append_le c.rev
        (scalarRev (0x10000 + (high - 0xD800) * 0x400 + (n - 0xDC00)))
      have h4 := length_scalarRev_le (0x10000 + (high - 0xD800) * 0x400 + (n - 0xDC00))
      simp only [length] at *
      omega
    · exact Nat.zero_le _
  · have h := length_map_append_le c.settled (scalarRev n)
    have h4 := length_scalarRev_le n
    simp only [length] at *
    omega

theorem utf8ByteSize_text_le {c : Content} {s : String} (h : c.text = some s) :
    s.utf8ByteSize ≤ c.length := by
  have hs := c.length_settled
  obtain ⟨bs, hbs, htext⟩ := Option.bind_eq_some_iff.mp h
  have hsize : s.utf8ByteSize = bs.length := by
    unfold String.fromUTF8? at htext
    split at htext
    · cases htext
      rw [String.fromUTF8, String.utf8ByteSize_ofByteArray]
      simp [ByteArray.size]
    · cases htext
  rw [hbs, Option.getD_some] at hs
  omega

end Content

/-- A string literal is no shorter than its text. -/
theorem extent_readString_le {c : Content} {s rest : List UInt8} {t : Text}
    (h : readString c s = some (t, rest)) :
    (string t).extent + rest.length ≤ c.length + s.length + 1 := by
  fun_induction readString c s with
  | case1 => cases h
  | case2 c rest' =>
    cases h
    rw [List.length_cons]
    cases ht : c.text with
    | none => simp only [extent]; omega
    | some s =>
      have := Content.utf8ByteSize_text_le ht
      simp only [extent]
      omega
  | case4 c d₁ d₂ d₃ d₄ rest' n hn hb ih =>
    have hpush := c.length_pushUnit_le n
    have hrest := ih h
    simp only [List.length_cons]
    omega
  | case7 c e rest' hu b he hb ih | case10 c b rest' hq hb hc ih =>
    have hpush := c.length_pushByte_le b
    have hrest := ih h
    simp only [List.length_cons]
    omega
  | case3 | case5 | case6 | case8 | case9 => cases h

theorem extent_readOne_le {b : UInt8} {s rest : List UInt8} {t : Token}
    (h : readOne b s = some (t, rest)) : t.extent + rest.length ≤ s.length + 1 := by
  unfold readOne at h
  iterate 6
    split at h
    · cases h
      exact Nat.le_of_eq (Nat.add_comm 1 _)
  split at h
  · obtain ⟨⟨text, rest'⟩, hread, he⟩ := Option.map_eq_some_iff.mp h
    cases he
    have hread := extent_readString_le hread
    have hempty : Content.empty.length = 0 := rfl
    omega
  iterate 3
    split at h
    · split at h
      · cases h
        simp only [extent, List.length_cons]
        omega
      · cases h
  obtain ⟨⟨n, rest'⟩, hread, he⟩ := Option.map_eq_some_iff.mp h
  cases he
  have := Number.read_shortens hread
  rw [List.length_cons] at this
  simp only [extent]
  omega

theorem extent_scanFrom_le {fuel : Nat} {done ts : List Token} {s : List UInt8}
    (h : scanFrom fuel done s = some ts) :
    total ts ≤ total done + s.length := by
  fun_induction scanFrom fuel done s with
  | case1 fuel done =>
    cases h
    rw [total, List.map_reverse, List.sum_reverse]
    exact Nat.le_refl _
  | case2 => cases h
  | case3 fuel done b rest hb ih =>
    have hrest := ih h
    rw [List.length_cons]
    omega
  | case4 => cases h
  | case5 fuel done b s hb t rest hread ih =>
    have hone := extent_readOne_le hread
    have hrest := ih h
    simp only [total_cons, List.length_cons] at hrest ⊢
    omega

/-- The tokens of a text take no more than the text. -/
theorem extent_scan_le {s : List UInt8} {ts : List Token} (h : scan s = some ts) :
    total ts ≤ s.length := by
  have hscan := extent_scanFrom_le h
  rw [total_nil, Nat.zero_add] at hscan
  exact hscan

end Token

/-! ## Values -/

/-- The least length of a text of the value. -/
def extent (v : Json) : Nat := Token.total v.tokens

theorem extent_le_of_ofTokens? {ts : List Token} {v : Json} (h : ofTokens? ts = some v) :
    v.extent ≤ Token.total ts := by
  rw [ofTokens?_eq_some_iff.mp h]
  exact Nat.le_refl _

theorem extent_le_of_parseKept? {s : List UInt8} {v : Json} (h : parseKept? s = some v) :
    v.extent ≤ s.length := by
  obtain ⟨ts, hscan, hread⟩ := Option.bind_eq_some_iff.mp h
  split at hread
  · exact (extent_le_of_ofTokens? hread).trans (Token.extent_scan_le hscan)
  · cases hread

/-- What the items or the members of a container take: each its value and what separates it from
the others, a member also its key. -/
def load : Json → Nat
  | .array items => (items.map fun v => v.extent + 1).sum
  | .object members => (members.map fun m => (Token.string m.1).extent + m.2.extent + 2).sum
  | _ => 0

theorem load_lt_extent_array (items : List Json) : load (.array items) < extent (.array items) := by
  cases items with
  | nil => decide
  | cons v vs =>
    have hitem (w : Json) : Token.total (.comma :: w.tokens) = w.extent + 1 := Nat.add_comm 1 _
    have hsum : Token.total (vs.flatMap fun w => .comma :: w.tokens) =
        (vs.map fun w => w.extent + 1).sum := by
      rw [Token.total_flatMap]
      exact congrArg List.sum (List.map_congr_left fun w _ => hitem w)
    have hfirst : Token.total v.tokens = v.extent := rfl
    rw [load, extent, tokens_array_cons]
    simp only [List.cons_append, Token.total_cons, Token.total_append, hsum, hfirst, List.map_cons,
      List.sum_cons, Token.extent_openArray, Token.extent_closeArray, Token.total_nil]
    omega

theorem load_lt_extent_object (members : List (Text × Json)) :
    load (.object members) < extent (.object members) := by
  cases members with
  | nil => decide
  | cons m ms =>
    have hmember (m : Text × Json) :
        Token.total (.comma :: .string m.1 :: .colon :: m.2.tokens) =
          (Token.string m.1).extent + m.2.extent + 2 := by
      simp only [Token.total_cons, Token.extent_comma, Token.extent_colon, extent]
      omega
    have hsum : Token.total (ms.flatMap fun m => .comma :: .string m.1 :: .colon :: m.2.tokens) =
        (ms.map fun m => (Token.string m.1).extent + m.2.extent + 2).sum := by
      rw [Token.total_flatMap]
      exact congrArg List.sum (List.map_congr_left fun m _ => hmember m)
    have hfirst := hmember m
    rw [load, extent, tokens_object_cons]
    simp only [List.cons_append, Token.total_cons, Token.total_append, hsum, List.map_cons,
      List.sum_cons, Token.extent_openObject, Token.extent_closeObject, Token.extent_comma,
      Token.extent_colon, Token.total_nil] at hfirst ⊢
    omega

/-- The brackets take some more. -/
theorem load_lt_extent (v : Json) : v.load < v.extent := by
  cases v with
  | array items => exact load_lt_extent_array items
  | object members => exact load_lt_extent_object members
  | null => decide
  | bool b => cases b <;> decide
  | number n => exact Nat.zero_lt_one
  | string s => cases s <;> exact Nat.succ_pos _

/-! ## Fields -/

variable {α : Type} {fs : List (String × Json)} {name : String} {v : Json}

theorem snd_of_mapM {members : List (Text × Json)}
    (h : (members.mapM fun (k, v) => k.map (·, v)) = some fs) :
    fs.map (·.2) = members.map (·.2) := by
  induction members generalizing fs with
  | nil =>
    cases h
    rfl
  | cons m members ih =>
    rw [List.mapM_cons] at h
    simp only [Option.bind_eq_bind, Option.bind_eq_some_iff] at h
    obtain ⟨f, hf, fs', hfs, he⟩ := h
    cases he
    obtain ⟨k, -, rfl⟩ := Option.map_eq_some_iff.mp hf
    rw [List.map_cons, List.map_cons, ih hfs]

theorem sum_fields_le_load {names : List String} (h : v.fields? names = some fs) :
    (fs.map fun f => f.2.extent + 1).sum ≤ v.load := by
  have hvalues (l : List Json) (hl : fs.map (·.2) = l) :
      (fs.map fun f => f.2.extent + 1).sum = (l.map fun w => w.extent + 1).sum := by
    rw [← hl, List.map_map]
    rfl
  cases v with
  | object members =>
    rw [hvalues _ (snd_of_mapM h), List.map_map, load]
    exact List.sum_le_sum fun m _ => by
      simp only [Function.comp_apply]
      omega
  | array items =>
    simp only [fields?] at h
    split at h
    · rename_i hlen
      cases h
      rw [hvalues items (by rw [List.map_snd_zip hlen]), load]
    · cases h
  | null | bool b | number n | string s => cases h

/-- What the fields of a name take, nothing if there is none. -/
def fieldExtent (fs : List (String × Json)) (name : String) : Nat :=
  ((fs.filter (·.1 == name)).map fun f => f.2.extent + 1).sum

theorem sum_ite_le (key : String) {names : List String} (hn : names.Nodup) (k : Nat) :
    (names.map fun name => if key = name then k else 0).sum ≤ k := by
  induction names with
  | nil => exact Nat.zero_le k
  | cons name names ih =>
    obtain ⟨hnot, hn⟩ := List.nodup_cons.mp hn
    rw [List.map_cons, List.sum_cons]
    split
    · rename_i he
      have hothers : (names.map fun name => if key = name then k else 0).sum = 0 := by
        refine List.sum_eq_zero fun j hj => ?_
        obtain ⟨other, hother, rfl⟩ := List.mem_map.mp hj
        exact if_neg fun he' => hnot ((he.symm.trans he') ▸ hother)
      omega
    · have := ih hn
      omega

/-- The fields of several names take no more than all fields together. -/
theorem sum_fieldExtent_le {names : List String} (hn : names.Nodup) (fs : List (String × Json)) :
    (names.map (fieldExtent fs)).sum ≤ (fs.map fun f => f.2.extent + 1).sum := by
  induction fs with
  | nil => exact Nat.le_of_eq (List.sum_eq_zero fun k hk => by
      obtain ⟨name, -, rfl⟩ := List.mem_map.mp hk
      rfl)
  | cons f fs ih =>
    have hcons (name : String) : fieldExtent (f :: fs) name =
        (if f.1 = name then f.2.extent + 1 else 0) + fieldExtent fs name := by
      by_cases he : f.1 = name
      · simp [fieldExtent, he]
      · simp [fieldExtent, he]
    have hone := sum_ite_le f.1 hn (f.2.extent + 1)
    rw [List.map_congr_left fun name _ => hcons name, List.sum_map_add, List.map_cons,
      List.sum_cons]
    omega

/-- The values of different fields share what the members or items take. -/
theorem sum_fieldExtent_le_load (names : List String) (hn : names.Nodup) {keys : List String}
    (h : v.fields? keys = some fs) : (names.map (fieldExtent fs)).sum ≤ v.load :=
  (sum_fieldExtent_le hn fs).trans (sum_fields_le_load h)

theorem sum_fieldExtent_lt_extent (names : List String) (hn : names.Nodup) {keys : List String}
    (h : v.fields? keys = some fs) : (names.map (fieldExtent fs)).sum < v.extent :=
  (sum_fieldExtent_le_load names hn h).trans_lt v.load_lt_extent

theorem fieldExtent_of_lookup? (h : lookup? name fs = some (some v)) :
    fieldExtent fs name = v.extent + 1 := by
  unfold lookup? at h
  split at h
  · cases h
  · rename_i f he
    cases h
    rw [fieldExtent, he]
    rfl
  · cases h

theorem exists_of_required {read : Json → Option α} {a : α} (h : required name read fs = some a) :
    ∃ w, read w = some a ∧ fieldExtent fs name = w.extent + 1 := by
  unfold required at h
  split at h
  · rename_i w hl
    exact ⟨w, h, fieldExtent_of_lookup? hl⟩
  · cases h

theorem exists_of_defaulted {read : Json → Option α} {a default : α}
    (h : defaulted name default read fs = some a) :
    a = default ∨ ∃ w, read w = some a ∧ fieldExtent fs name = w.extent + 1 := by
  unfold defaulted at h
  split at h
  · rename_i w hl
    exact .inr ⟨w, h, fieldExtent_of_lookup? hl⟩
  · exact .inl (Option.some.inj h).symm
  · cases h

/-- The tag of a message takes its text and three bytes more. -/
theorem load_of_tagged? {tag : String} {content : Json} (h : v.tagged? = some (tag, content)) :
    content.load + tag.utf8ByteSize + 3 ≤ v.load := by
  unfold tagged? at h
  split at h
  · rename_i members
    split at h
    · rename_i key t rest hsplit
      cases h
      rw [List.partition_eq_filter_filter] at hsplit
      obtain ⟨htag, hrest⟩ := Prod.mk.inj hsplit
      have hperm := List.filter_append_perm (fun m : Text × Json => m.1 == some "type") members
      have hsum := (hperm.map fun m => (Token.string m.1).extent + m.2.extent + 2).sum_eq
      have hnot : members.filter (fun m => !(m.1 == some "type")) = rest := hrest
      have htext : extent (.string (some tag)) = tag.utf8ByteSize + 2 := rfl
      simp only [htag, hnot, List.map_append, List.sum_append, List.map_singleton,
        List.sum_singleton, htext] at hsum
      rw [load, load]
      omega
    · cases h
  · rename_i t content
    cases h
    have htext : extent (.string (some tag)) = tag.utf8ByteSize + 2 := rfl
    rw [load, load, List.map_cons, List.sum_cons]
    omega
  · cases h

end LeaseRegistry.Json
