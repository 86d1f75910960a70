import LeaseRegistry.Json.Number

/-!
# Number literals

`Number.Spelling` says which literals spell a number. It is read from each of them wherever nothing
follows that would go on with it (`Number.Spelling.read`), and its compact literal is one of them
(`Number.spelling_bytes`). A natural number of at most 64 bits does not overflow.
-/

namespace LeaseRegistry.Json.Number

/-! ## Digits -/

theorem toNat_of_isDigit {c : Char} (h : c.isDigit = true) : 48 ≤ c.toNat ∧ c.toNat ≤ 57 := by
  simp only [Char.isDigit, Bool.and_eq_true, decide_eq_true_eq, UInt32.le_iff_toNat_le] at h
  exact h

theorem isDigit_of_mem_toDigits {n : Nat} {c : Char} (h : c ∈ Nat.toDigits 10 n) :
    48 ≤ c.toNat ∧ c.toNat ≤ 57 :=
  toNat_of_isDigit (Nat.isDigit_of_mem_toDigits (by decide) (by decide) h)

theorem isDigit_iff {b : UInt8} : isDigit b = true ↔ 48 ≤ b.toNat ∧ b.toNat ≤ 57 := by
  simp only [isDigit, Bool.and_eq_true, decide_eq_true_eq, UInt8.le_iff_toNat_le]
  rfl

theorem toNat_natBytes {n : Nat} {c : Char} (h : c ∈ Nat.toDigits 10 n) :
    c.toNat.toUInt8.toNat = c.toNat := by
  have := isDigit_of_mem_toDigits h
  rw [Nat.toUInt8, UInt8.toNat_ofNat']
  exact Nat.mod_eq_of_lt (by omega)

theorem isDigit_natBytes {n : Nat} {b : UInt8} (h : b ∈ natBytes n) : isDigit b = true := by
  obtain ⟨c, hc, rfl⟩ := List.mem_map.mp h
  rw [isDigit_iff, toNat_natBytes hc]
  exact isDigit_of_mem_toDigits hc

theorem natBytes_ne_nil (n : Nat) : natBytes n ≠ [] := by
  simp [natBytes]

theorem natBytes_eq_cons (n : Nat) : ∃ d ds, natBytes n = d :: ds ∧ isDigit d = true := by
  cases h : natBytes n with
  | nil => exact absurd h (natBytes_ne_nil n)
  | cons d ds => exact ⟨d, ds, rfl, isDigit_natBytes (h ▸ List.mem_cons_self)⟩

theorem natOf_natBytes (n : Nat) : natOf (natBytes n) = n := by
  have hstep : ∀ l : List Char, (∀ c ∈ l, c.toNat.toUInt8.toNat = c.toNat) → ∀ acc,
      (l.map fun c => c.toNat.toUInt8).foldl (fun acc b => 10 * acc + (b.toNat - 48)) acc =
        Nat.ofDigitChars 10 l acc := by
    intro l hl
    induction l with
    | nil => intro acc; rfl
    | cons c l ih =>
      intro acc
      rw [List.map_cons, List.foldl_cons, ih fun c hc => hl c (List.mem_cons_of_mem _ hc),
        Nat.ofDigitChars_cons, hl c List.mem_cons_self]
      rfl
  rw [natOf, natBytes, hstep _ fun c hc => toNat_natBytes hc]
  exact Nat.ofDigitChars_ten_toDigits

/-- Only zero is written with a leading zero. -/
theorem head?_natBytes {n : Nat} (h : 0 < n) : (natBytes n).head? ≠ some 0x30 := by
  induction n using Nat.strongRecOn with
  | ind n ih =>
    by_cases hlt : n < 10
    · rw [natBytes, Nat.toDigits_of_lt_base hlt]
      have hsmall : ∀ n < 10, 0 < n →
          ((([n.digitChar] : List Char).map fun c => c.toNat.toUInt8).head? ≠ some 0x30) := by
        decide
      exact hsmall n hlt h
    · have hdiv := ih (n / 10) (by omega) (by omega)
      obtain ⟨d, ds, hds, -⟩ := natBytes_eq_cons (n / 10)
      rw [hds] at hdiv
      rw [natBytes] at hds ⊢
      rw [Nat.toDigits_of_base_le (by decide) (by omega), List.map_append, hds]
      exact hdiv

/-! ## Literals -/

/-- The integer part: a zero, or digits of which the first one is not zero. -/
inductive WholeSpelling : Nat → List UInt8 → Prop where
  | zero : WholeSpelling 0 [0x30]
  | digits {d : UInt8} {ds : List UInt8} (hd : d ≠ 0x30) (h : ∀ b ∈ d :: ds, isDigit b = true) :
    WholeSpelling (natOf (d :: ds)) (d :: ds)

/-- The point with digits, if there are any. -/
def fractionBytes (ds : List (Fin 10)) : List UInt8 :=
  if ds.isEmpty then [] else 0x2E :: ds.map digitByte

/-- The exponent: nothing, or an `e` of either case, a sign or none, and digits. -/
inductive ExponentSpelling : Option Int → List UInt8 → Prop where
  | absent : ExponentSpelling none []
  | given {e d : UInt8} {sign ds : List UInt8} (he : e = 0x65 ∨ e = 0x45)
    (hsign : sign = [] ∨ sign = [0x2B] ∨ sign = [0x2D]) (h : ∀ b ∈ d :: ds, isDigit b = true) :
    ExponentSpelling
      (some (if sign = [0x2D] then -(natOf (d :: ds) : Int) else natOf (d :: ds)))
      (e :: (sign ++ d :: ds))

/-- A literal: a minus or none, the integer part, the point with digits or none, the exponent. -/
inductive Spelling : Number → List UInt8 → Prop where
  | mk {negative : Bool} {whole : Nat} {fraction : List (Fin 10)} {exponent : Option Int}
    {w e : List UInt8} (hw : WholeSpelling whole w) (he : ExponentSpelling exponent e) :
    Spelling ⟨negative, whole, fraction, exponent⟩
      ((if negative then [0x2D] else []) ++ (w ++ (fractionBytes fraction ++ e)))

/-! ## Reading -/

variable {n : Number} {k : Nat} {e : Option Int} {bs s : List UInt8}

/-- What follows a number without being part of it. -/
def Ends (s : List UInt8) : Prop :=
  ∀ b ∈ s.head?, isDigit b = false ∧ b ≠ 0x2E ∧ b ≠ 0x65 ∧ b ≠ 0x45

theorem spanDigits_append {ds s : List UInt8} (hds : ∀ b ∈ ds, isDigit b = true)
    (hs : ∀ b ∈ s.head?, isDigit b = false) : spanDigits (ds ++ s) = (ds, s) := by
  have htake : s.takeWhile isDigit = [] := by
    cases s with
    | nil => rfl
    | cons b s => simp [hs b rfl]
  have hdrop : s.dropWhile isDigit = s := by
    cases s with
    | nil => rfl
    | cons b s => simp [hs b rfl]
  rw [spanDigits, List.takeWhile_append_of_pos hds, List.dropWhile_append_of_pos hds, htake, hdrop,
    List.append_nil]

theorem WholeSpelling.exists_cons (h : WholeSpelling k bs) :
    ∃ d ds, bs = d :: ds ∧ isDigit d = true := by
  cases h with
  | zero => exact ⟨_, _, rfl, rfl⟩
  | digits hd h => exact ⟨_, _, rfl, h _ List.mem_cons_self⟩

theorem WholeSpelling.readWhole (h : WholeSpelling k bs) (hs : ∀ b ∈ s.head?, isDigit b = false) :
    readWhole (bs ++ s) = some (k, s) := by
  cases h with
  | zero => rfl
  | digits hd h =>
    rw [Number.readWhole]
    · simp only [spanDigits_append h hs, List.isEmpty_cons, Bool.false_eq_true, ↓reduceIte]
    · exact fun rest he => hd (List.cons.inj he).1

theorem isDigit_digitByte (d : Fin 10) : isDigit (digitByte d) = true := by
  revert d
  decide

theorem digitOf_digitByte (d : Fin 10) : digitOf (digitByte d) = d := by
  revert d
  decide

theorem readFraction_append (ds : List (Fin 10)) {s : List UInt8}
    (hs : ∀ b ∈ s.head?, isDigit b = false ∧ b ≠ 0x2E) :
    readFraction (fractionBytes ds ++ s) = some (ds, s) := by
  cases ds with
  | nil =>
    rw [fractionBytes, List.isEmpty_nil, if_pos rfl, List.nil_append]
    cases s with
    | nil => rfl
    | cons b s =>
      rw [readFraction]
      intro rest he
      exact (hs b rfl).2 (List.cons.inj he).1
  | cons d ds =>
    have hdigits : ∀ b ∈ (d :: ds).map digitByte, isDigit b = true := fun b hb => by
      obtain ⟨e, -, rfl⟩ := List.mem_map.mp hb
      exact isDigit_digitByte e
    have hspan := spanDigits_append hdigits fun b hb => (hs b hb).1
    have hread : ((d :: ds).map digitByte).map digitOf = d :: ds := by
      rw [List.map_map]
      exact List.map_id'' digitOf_digitByte _
    rw [fractionBytes, List.isEmpty_cons, if_neg (by decide), List.cons_append, readFraction]
    simp only [hspan, hread]
    rfl

theorem isDigit_head?_fraction (ds : List (Fin 10)) {s : List UInt8}
    (hs : ∀ b ∈ s.head?, isDigit b = false ∧ b ≠ 0x2E) :
    ∀ b ∈ (fractionBytes ds ++ s).head?, isDigit b = false := by
  intro b hb
  cases ds with
  | nil => exact (hs b hb).1
  | cons d ds =>
    obtain rfl := Option.some.inj hb
    decide

theorem readPower_append (negative : Bool) {d : UInt8} {ds : List UInt8}
    (h : ∀ b ∈ d :: ds, isDigit b = true) (hs : ∀ b ∈ s.head?, isDigit b = false) :
    readPower negative (d :: ds ++ s) =
      some (some (if negative then -(natOf (d :: ds) : Int) else natOf (d :: ds)), s) := by
  simp only [readPower, spanDigits_append h hs, List.isEmpty_cons, Bool.false_eq_true, ↓reduceIte]

theorem ExponentSpelling.readExponent (h : ExponentSpelling e bs) (hs : Ends s) :
    readExponent (bs ++ s) = some (e, s) := by
  cases h with
  | absent =>
    cases s with
    | nil => rfl
    | cons b s =>
      rw [List.nil_append, Number.readExponent]
      · exact fun rest he => (hs b rfl).2.2.1 (List.cons.inj he).1
      · exact fun rest he => (hs b rfl).2.2.2 (List.cons.inj he).1
  | @given e d sign ds he hsign h =>
    have hpower (negative : Bool) := readPower_append negative h fun b hb => (hs b hb).1
    have hne {b : UInt8} (hb : isDigit b = false) (rest : List UInt8) :
        d :: ds ++ s ≠ b :: rest := by
      intro heq
      rw [← (List.cons.inj heq).1, h d List.mem_cons_self] at hb
      cases hb
    have hcase (rest : List UInt8) : readExponent (e :: rest) = readExponent (0x65 :: rest) := by
      rcases he with rfl | rfl
      · rfl
      · rfl
    rw [List.cons_append, List.append_assoc, hcase]
    rcases hsign with rfl | rfl | rfl
    · -- a digit is no sign
      rw [List.nil_append, Number.readExponent]
      · exact hpower false
      · exact fun rest => hne rfl rest
      · exact fun rest => hne rfl rest
    · exact hpower false
    · exact hpower true

theorem ExponentSpelling.head (h : ExponentSpelling e bs) (hs : Ends s) :
    ∀ b ∈ (bs ++ s).head?, isDigit b = false ∧ b ≠ 0x2E := by
  intro b hb
  cases h with
  | absent => exact ⟨(hs b hb).1, (hs b hb).2.1⟩
  | given he hsign h =>
    obtain rfl := Option.some.inj hb
    rcases he with rfl | rfl <;> decide

/-- A number is read from each of its literals. -/
theorem Spelling.read (h : Spelling n bs) (hs : Ends s) : read (bs ++ s) = some (n, s) := by
  cases h with
  | @mk negative whole fraction exponent w e hw he =>
    have hexp := he.head hs
    have hwhole := hw.readWhole (isDigit_head?_fraction fraction hexp)
    obtain ⟨d, ds, hd, hdigit⟩ := hw.exists_cons
    simp only [List.append_assoc]
    cases negative with
    | true =>
      rw [if_pos rfl, List.singleton_append, Number.read]
      simp only [hwhole, Option.bind_eq_bind, Option.bind_some, readFraction_append fraction hexp,
        he.readExponent hs, pure]
    | false =>
      rw [if_neg (by decide), List.nil_append, Number.read]
      · simp only [hwhole, Option.bind_eq_bind, Option.bind_some,
          readFraction_append fraction hexp, he.readExponent hs, pure]
      · intro rest heq
        rw [hd] at heq
        obtain rfl := (List.cons.inj heq).1
        cases hdigit

theorem Spelling.exists_cons (h : Spelling n bs) :
    ∃ b tail, bs = b :: tail ∧ (isDigit b = true ∨ b = 0x2D) := by
  cases h with
  | @mk negative whole fraction exponent w e hw he =>
    obtain ⟨d, ds, rfl, hdigit⟩ := hw.exists_cons
    cases negative with
    | true => exact ⟨_, _, rfl, .inr rfl⟩
    | false => exact ⟨_, _, rfl, .inl hdigit⟩

/-! ## The compact literal -/

theorem wholeSpelling_natBytes (k : Nat) : WholeSpelling k (natBytes k) := by
  rcases Nat.eq_zero_or_pos k with rfl | hpos
  · exact .zero
  · have hhead := head?_natBytes hpos
    have hvalue := natOf_natBytes k
    have hdigits : ∀ b ∈ natBytes k, isDigit b = true := fun b hb => isDigit_natBytes hb
    obtain ⟨d, ds, hds, -⟩ := natBytes_eq_cons k
    rw [hds] at hhead hvalue hdigits ⊢
    have h := WholeSpelling.digits (fun hd => hhead (congrArg some hd)) hdigits
    rwa [hvalue] at h

theorem exponentSpelling_bytes (e : Option Int) :
    ExponentSpelling e ((e.map exponentBytes).getD []) := by
  cases e with
  | none => exact .absent
  | some e =>
    have hvalue := natOf_natBytes e.natAbs
    have hdigits : ∀ b ∈ natBytes e.natAbs, isDigit b = true := fun b hb => isDigit_natBytes hb
    obtain ⟨d, ds, hds, -⟩ := natBytes_eq_cons e.natAbs
    rw [hds] at hvalue hdigits
    rw [Option.map_some, Option.getD_some, exponentBytes, hds]
    by_cases hneg : e < 0
    · have h := ExponentSpelling.given (.inl rfl) (.inr (.inr rfl)) hdigits
      rw [if_pos rfl, hvalue, show -(e.natAbs : Int) = e by omega] at h
      rw [if_pos hneg]
      exact h
    · have h := ExponentSpelling.given (.inl rfl) (.inl rfl) hdigits
      rw [if_neg (by decide), hvalue, show (e.natAbs : Int) = e by omega] at h
      rw [if_neg hneg]
      exact h

theorem spelling_bytes (n : Number) : n.Spelling n.bytes := by
  obtain ⟨negative, whole, fraction, exponent⟩ := n
  have h : Spelling ⟨negative, whole, fraction, exponent⟩ _ :=
    .mk (wholeSpelling_natBytes whole) (exponentSpelling_bytes exponent)
  simp only [bytes, List.append_assoc]
  exact h

/-! ## Range -/

/-- The value of digits, after `acc`. -/
def valueFrom (acc : Nat) (ds : List (Fin 10)) : Nat :=
  ds.foldl (fun acc d => acc * 10 + d.val) acc

theorem le_valueFrom (acc : Nat) (ds : List (Fin 10)) : acc ≤ valueFrom acc ds := by
  induction ds generalizing acc with
  | nil => exact Nat.le_refl _
  | cons d ds ih =>
    have := ih (acc * 10 + d.val)
    rw [valueFrom, List.foldl_cons]
    rw [valueFrom] at this
    omega

theorem leading_eq {acc : Nat} {ds : List (Fin 10)} (h : valueFrom acc ds < UInt64.size) :
    leading acc ds = (valueFrom acc ds, []) := by
  induction ds generalizing acc with
  | nil => rfl
  | cons d ds ih =>
    have hle := le_valueFrom (acc * 10 + d.val) ds
    have hlt : acc * 10 + d.val < UInt64.size := Nat.lt_of_le_of_lt hle h
    rw [leading, if_pos hlt]
    exact ih h

theorem valueFrom_digits (n : Nat) : valueFrom 0 (digits n) = n := by
  have hstep : ∀ l : List Char, (∀ c ∈ l, 48 ≤ c.toNat ∧ c.toNat ≤ 57) → ∀ acc,
      valueFrom acc (l.map fun c => Fin.ofNat 10 (c.toNat - '0'.toNat)) =
        Nat.ofDigitChars 10 l acc := by
    intro l hl
    induction l with
    | nil => intro acc; rfl
    | cons c l ih =>
      intro acc
      have hc := hl c List.mem_cons_self
      have hval : (Fin.ofNat 10 (c.toNat - '0'.toNat)).val = c.toNat - '0'.toNat := by
        have : '0'.toNat = 48 := rfl
        simp only [Fin.val_ofNat]
        omega
      rw [Nat.ofDigitChars_cons, ← ih fun c hc => hl c (List.mem_cons_of_mem _ hc)]
      simp only [valueFrom, List.map_cons, List.foldl_cons, hval, Nat.mul_comm]
  rw [digits, hstep _ fun c hc => isDigit_of_mem_toDigits hc]
  exact Nat.ofDigitChars_ten_toDigits

theorem overflows_ofNat {n : Nat} (h : n < UInt64.size) : (ofNat n).overflows = false := by
  have hvalue := valueFrom_digits n
  have hlead : leading 0 (digits n) = (n, []) := by
    rw [leading_eq (by rwa [hvalue]), hvalue]
  have hscientific : (ofNat n).scientific = (n, 0) := by
    simp only [scientific, ofNat, hlead, leading]
    rfl
  simp [overflows, hscientific]

end LeaseRegistry.Json.Number
