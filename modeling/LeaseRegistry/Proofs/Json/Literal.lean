import LeaseRegistry.Json.Token
import LeaseRegistry.Proofs.Text.Utf8
import Mathlib.Tactic.SplitIfs

/-!
# String literals

What a literal spells is said from the pieces that it consists of (`Token.decode`), with a surrogate
and its partner taken together. The reader goes from byte to byte and remembers a high surrogate
instead; from each literal it takes the text that its pieces stand for (`Token.readString_body`).
-/

namespace LeaseRegistry.Json.Token

/-! ## Literals -/

/-- What one character or escape of a string literal stands for. -/
inductive Piece where
  | byte (b : UInt8)
  /-- A code unit of UTF-16. -/
  | unit (n : Nat)

/-- The letters of escapes, and the bytes that they stand for. -/
def letters : List (UInt8 × UInt8) :=
  [(0x22, 0x22), (0x5C, 0x5C), (0x2F, 0x2F), (0x62, 0x08), (0x66, 0x0C), (0x6E, 0x0A),
   (0x72, 0x0D), (0x74, 0x09)]

inductive Piece.Spelling : Piece → List UInt8 → Prop where
  | plain {b : UInt8} (hcontrol : ¬b < 0x20) (hquote : b ≠ 0x22) (hslash : b ≠ 0x5C) :
    Spelling (.byte b) [b]
  | letter {e b : UInt8} (h : (e, b) ∈ letters) : Spelling (.byte b) [0x5C, e]
  | hex {d₁ d₂ d₃ d₄ : UInt8} {n : Nat} (h : hex4? d₁ d₂ d₃ d₄ = some n) :
    Spelling (.unit n) [0x5C, 0x75, d₁, d₂, d₃, d₄]

/-- What stands between the quotes of a literal. -/
inductive Body : List Piece → List UInt8 → Prop where
  | nil : Body [] []
  | cons {p : Piece} {ps : List Piece} {bs s : List UInt8} (hp : p.Spelling bs) (hps : Body ps s) :
    Body (p :: ps) (bs ++ s)

def IsHigh (n : Nat) : Prop := 0xD800 ≤ n ∧ n ≤ 0xDBFF

def IsLow (n : Nat) : Prop := 0xDC00 ≤ n ∧ n ≤ 0xDFFF

instance (n : Nat) : Decidable (IsHigh n) := inferInstanceAs (Decidable (_ ∧ _))

instance (n : Nat) : Decidable (IsLow n) := inferInstanceAs (Decidable (_ ∧ _))

def scalar (n : Nat) : List UInt8 := (Char.ofNat n).toString.toUTF8.toList

/-- The bytes that pieces stand for. Surrogates stand for something in pairs only. -/
def decode : List Piece → Option (List UInt8)
  | [] => some []
  | .byte b :: ps => (decode ps).map (b :: ·)
  | .unit n :: ps =>
    if IsHigh n then
      match ps with
      | .unit m :: ps =>
        if IsLow m then
          (decode ps).map (scalar (0x10000 + (n - 0xD800) * 0x400 + (m - 0xDC00)) ++ ·)
        else none
      | _ => none
    else if IsLow n then none
    else (decode ps).map (scalar n ++ ·)

def textOf (ps : List Piece) : Text := (decode ps).bind fun bs => String.fromUTF8? ⟨bs.toArray⟩

variable {p : Piece} {ps : List Piece} {bs s : List UInt8}

theorem IsLow.not_isHigh {n : Nat} (h : IsLow n) : ¬IsHigh n := fun hh =>
  absurd (Nat.le_trans h.1 hh.2) (by decide)

theorem decode_scalar {n : Nat} (hhigh : ¬IsHigh n) (hlow : ¬IsLow n) (ps : List Piece) :
    decode (.unit n :: ps) = (decode ps).map (scalar n ++ ·) := by
  rw [decode.eq_def]
  exact (if_neg hhigh).trans (if_neg hlow)

theorem decode_low {n : Nat} (h : IsLow n) (ps : List Piece) : decode (.unit n :: ps) = none := by
  rw [decode.eq_def]
  exact (if_neg h.not_isHigh).trans (if_pos h)

theorem decode_pair {n m : Nat} (hhigh : IsHigh n) (hlow : IsLow m) (ps : List Piece) :
    decode (.unit n :: .unit m :: ps) =
      (decode ps).map (scalar (0x10000 + (n - 0xD800) * 0x400 + (m - 0xDC00)) ++ ·) := by
  rw [decode.eq_def]
  exact (if_pos hhigh).trans (if_pos hlow)

/-- A high surrogate without a low one after it. -/
theorem decode_high {n : Nat} (hhigh : IsHigh n)
    (h : ∀ (m : Nat) (rest : List Piece), ps = .unit m :: rest → ¬IsLow m) :
    decode (.unit n :: ps) = none := by
  rw [decode.eq_def]
  refine (if_pos hhigh).trans ?_
  split
  · exact if_neg (h _ _ rfl)
  · rfl

/-! ## Reading -/

namespace Content

def push (c : Content) : Piece → Content
  | .byte b => c.pushByte b
  | .unit n => c.pushUnit n

theorem pushUnit_high {n : Nat} (h : IsHigh n) (c : Content) :
    c.pushUnit n = ⟨c.settled, some n⟩ := by
  simp only [pushUnit, Bool.and_eq_true, decide_eq_true_eq]
  exact if_pos h

theorem pushUnit_low {n : Nat} (h : IsLow n) (c : Content) :
    c.pushUnit n = match c.high with
      | some high =>
        ⟨c.rev.map (scalarRev (0x10000 + (high - 0xD800) * 0x400 + (n - 0xDC00)) ++ ·), none⟩
      | none => ⟨none, none⟩ := by
  have hhigh : ¬(0xD800 ≤ n ∧ n ≤ 0xDBFF) := fun hh => by
    have := h.1
    omega
  simp only [pushUnit, Bool.and_eq_true, decide_eq_true_eq, if_neg hhigh]
  exact if_pos h

theorem pushUnit_scalar {n : Nat} (hhigh : ¬IsHigh n) (hlow : ¬IsLow n) (c : Content) :
    c.pushUnit n = ⟨c.settled.map (scalarRev n ++ ·), none⟩ := by
  simp only [pushUnit, Bool.and_eq_true, decide_eq_true_eq]
  exact (if_neg hhigh).trans (if_neg hlow)

/-- A content that spells no text stays so. -/
theorem settled_lost (ps : List Piece) (high : Option Nat) :
    (ps.foldl push ⟨none, high⟩).settled = none := by
  induction ps generalizing high with
  | nil => cases high <;> rfl
  | cons p ps ih =>
    have hsettled : settled ⟨none, high⟩ = none := by cases high <;> rfl
    obtain ⟨high', hpush⟩ : ∃ high', push ⟨none, high⟩ p = ⟨none, high'⟩ := by
      cases p with
      | byte b => exact ⟨none, by rw [push, pushByte, hsettled]; rfl⟩
      | unit n =>
        rw [push]
        by_cases hhigh : IsHigh n
        · exact ⟨some n, by rw [pushUnit_high hhigh, hsettled]⟩
        by_cases hlow : IsLow n
        · exact ⟨none, by rw [pushUnit_low hlow]; cases high <;> rfl⟩
        · exact ⟨none, by rw [pushUnit_scalar hhigh hlow, hsettled]; rfl⟩
    rw [List.foldl_cons, hpush]
    exact ih high'

/-- Reading on: a high surrogate that waits is a piece that comes first. -/
theorem settled_foldl_push (ps : List Piece) (rev : List UInt8) {high : Option Nat}
    (hhigh : ∀ n ∈ high, IsHigh n) :
    (ps.foldl push ⟨some rev, high⟩).settled =
      (decode (high.toList.map .unit ++ ps)).map fun bs => bs.reverse ++ rev := by
  induction ps generalizing rev high with
  | nil =>
    cases high with
    | none => rfl
    | some n =>
      have hdecode : decode [.unit n] = none := decode_high (hhigh n rfl) nofun
      exact (congrArg (Option.map _) hdecode).symm
  | cons p ps ih =>
    rw [List.foldl_cons]
    have hfront (front : List UInt8) :
        (ps.foldl push ⟨some (front.reverse ++ rev), none⟩).settled =
          ((decode ps).map (front ++ ·)).map fun bs => bs.reverse ++ rev := by
      have hrest := ih (front.reverse ++ rev) (fun n (hn : n ∈ none) => nomatch hn)
      rw [hrest, Option.map_map]
      simp only [Function.comp_def, List.reverse_append, List.append_assoc]
      rfl
    cases high with
    | none =>
      cases p with
      | byte b => exact hfront [b]
      | unit n =>
        show _ = (decode (.unit n :: ps)).map _
        rw [push]
        by_cases hhigh : IsHigh n
        · rw [pushUnit_high hhigh]
          exact ih rev fun _ he => Option.some.inj he ▸ hhigh
        by_cases hlow : IsLow n
        · rw [pushUnit_low hlow, settled_lost, decode_low hlow]
          rfl
        · rw [pushUnit_scalar hhigh hlow, decode_scalar hhigh hlow]
          exact hfront (scalar n)
    | some n =>
      have hn := hhigh n rfl
      have hlost (high : Option Nat) (hp : ∀ m, p = .unit m → ¬IsLow m) :
          (ps.foldl push ⟨none, high⟩).settled =
            (decode (.unit n :: p :: ps)).map fun bs => bs.reverse ++ rev := by
        rw [settled_lost, decode_high hn fun m _ he => hp m (List.cons.inj he).1]
        rfl
      cases p with
      | byte b => exact hlost none nofun
      | unit m =>
        rw [push]
        by_cases hhigh : IsHigh m
        · rw [pushUnit_high hhigh]
          exact hlost (some m) fun _ he hlow => by
            cases he
            exact hlow.not_isHigh hhigh
        by_cases hlow : IsLow m
        · rw [pushUnit_low hlow]
          show _ = (decode (.unit n :: .unit m :: ps)).map _
          rw [decode_pair hn hlow]
          exact hfront (scalar _)
        · rw [pushUnit_scalar hhigh hlow]
          exact hlost none fun _ he => by
            cases he
            exact hlow

end Content

theorem escape?_of_mem_letters {e b : UInt8} (h : (e, b) ∈ letters) :
    escape? e = some b ∧ e ≠ 0x75 := by
  have hall : letters.all (fun l => decide (escape? l.1 = some l.2 ∧ l.1 ≠ 0x75)) = true := by
    decide
  exact of_decide_eq_true (List.all_eq_true.mp hall _ h)

theorem Piece.Spelling.readString (h : p.Spelling bs) (c : Content) (s : List UInt8) :
    readString c (bs ++ s) = Token.readString (c.push p) s := by
  cases h with
  | plain hcontrol hquote hslash =>
    rw [List.singleton_append, Token.readString.eq_def]
    simp only [if_neg hquote, if_neg hslash, if_neg hcontrol]
    rfl
  | letter h =>
    obtain ⟨hescape, hu⟩ := escape?_of_mem_letters h
    simp only [List.cons_append, List.nil_append]
    rw [Token.readString.eq_def]
    simp only [hescape, if_neg hu, (by decide : (0x5C : UInt8) ≠ 0x22), ↓reduceIte]
    rfl
  | hex h =>
    simp only [List.cons_append, List.nil_append]
    rw [Token.readString]
    simp only [h, (by decide : (0x5C : UInt8) ≠ 0x22), ↓reduceIte]
    rfl

theorem readString_body (h : Body ps bs) (c : Content) (s : List UInt8) :
    readString c (bs ++ 0x22 :: s) = some ((ps.foldl Content.push c).text, s) := by
  induction h generalizing c with
  | nil => rw [List.nil_append, Token.readString.eq_def]; rfl
  | cons hp _ ih => rw [List.append_assoc, hp.readString, ih]; rfl

theorem text_foldl_push (ps : List Piece) : (ps.foldl Content.push .empty).text = textOf ps := by
  have h := Content.settled_foldl_push ps [] (fun n (hn : n ∈ none) => nomatch hn)
  rw [Content.text, Content.empty, h, Option.bind_map, textOf]
  simp only [Function.comp_def, List.append_nil, List.reverse_reverse]
  rfl

/-! ## The compact literal -/

theorem escape_control : ∀ n < 32,
    hex4? 0x30 0x30 (hexByte (UInt8.ofNat n / 16)) (hexByte (UInt8.ofNat n % 16)) = some n ∧
      scalar n = [UInt8.ofNat n] := by
  decide +kernel

/-- A byte is one piece of a literal, its escape. -/
theorem exists_piece (b : UInt8) : ∃ p : Piece, p.Spelling (escapeByte b) ∧
    ∀ ps, decode (p :: ps) = (decode ps).map (b :: ·) := by
  have hbyte (ps : List Piece) : decode (.byte b :: ps) = (decode ps).map (b :: ·) := rfl
  have hletter {e : UInt8} (h : (e, b) ∈ letters) :
      ∃ p : Piece, p.Spelling [0x5C, e] ∧ ∀ ps, decode (p :: ps) = (decode ps).map (b :: ·) :=
    ⟨.byte b, .letter h, hbyte⟩
  unfold escapeByte
  split
  · subst b; exact hletter (by decide)
  split
  · subst b; exact hletter (by decide)
  split
  · subst b; exact hletter (by decide)
  split
  · subst b; exact hletter (by decide)
  split
  · subst b; exact hletter (by decide)
  split
  · subst b; exact hletter (by decide)
  split
  · subst b; exact hletter (by decide)
  split
  · rename_i hlt
    have hn : b.toNat < 32 := UInt8.lt_iff_toNat_lt.mp hlt
    obtain ⟨hhex, hscalar⟩ := escape_control b.toNat hn
    rw [UInt8.ofNat_toNat] at hhex hscalar
    refine ⟨.unit b.toNat, .hex hhex, fun ps => ?_⟩
    rw [decode_scalar (fun h => absurd h.1 (by omega)) (fun h => absurd h.1 (by omega)), hscalar]
    rfl
  · rename_i hquote hslash _ _ _ _ _ hlt
    exact ⟨.byte b, .plain hlt hquote hslash, hbyte⟩

theorem body_escaped (content : List UInt8) :
    ∃ ps, Body ps (content.flatMap escapeByte) ∧ decode ps = some content := by
  induction content with
  | nil => exact ⟨[], .nil, rfl⟩
  | cons b content ih =>
    obtain ⟨ps, hps, hdecode⟩ := ih
    obtain ⟨p, hp, hb⟩ := exists_piece b
    refine ⟨p :: ps, ?_, by rw [hb, hdecode]; rfl⟩
    rw [List.flatMap_cons]
    exact .cons hp hps

theorem fromUTF8?_none : String.fromUTF8? ⟨#[0xFF]⟩ = none := by decide +kernel

/-- Every text has its literal, and so has what is no text. -/
theorem stringBytes_eq (t : Text) :
    ∃ ps s, Body ps s ∧ textOf ps = t ∧ stringBytes t = 0x22 :: (s ++ [0x22]) := by
  cases t with
  | some t =>
    obtain ⟨ps, hps, hdecode⟩ := body_escaped t.toUTF8.toList
    refine ⟨ps, _, hps, ?_, rfl⟩
    rw [textOf, hdecode, Option.bind_some, Text.fromUTF8?_toUTF8]
  | none =>
    obtain ⟨ps, hps, hdecode⟩ := body_escaped [0xFF]
    refine ⟨ps, _, hps, ?_, rfl⟩
    rw [textOf, hdecode]
    exact fromUTF8?_none

/-! ## Lengths -/

theorem length_escapeByte_le (b : UInt8) : (escapeByte b).length ≤ 6 := by
  unfold escapeByte
  split_ifs <;> simp

theorem length_quoted_le (content : List UInt8) :
    (quoted content).length ≤ 2 + 6 * content.length := by
  have hbody : (content.flatMap escapeByte).length ≤ 6 * content.length := by
    induction content with
    | nil => exact Nat.le_refl _
    | cons b content ih =>
      have hb := length_escapeByte_le b
      rw [List.flatMap_cons, List.length_append, List.length_cons]
      omega
  rw [quoted, List.length_cons, List.length_append, List.length_singleton]
  omega

end LeaseRegistry.Json.Token
