import LeaseRegistry.Proofs.Json.Literal
import LeaseRegistry.Proofs.Json.Number
import Mathlib.Data.List.Chain

/-!
# Spelled tokens

`Token.Spelling` says what spells a token, and `Token.Spaced` which texts consist of tokens with
blanks around them. Only a number needs to be followed by something that does not go on with it, and
every blank and every other token is such a thing; so tokens among which no two numbers meet are
read from each such text (`Token.scan_of_spaced`), of which the compact one is a case
(`Token.spaced_bytes`).
-/

namespace LeaseRegistry.Json.Token

/-! ## Texts of tokens -/

/-- The token is always spelled alike. -/
def isFixed : Token → Bool
  | number _ | string _ => false
  | _ => true

inductive Spelling : Token → List UInt8 → Prop where
  | fixed {t : Token} (h : t.isFixed = true) : Spelling t t.bytes
  | number {n : Number} {bs : List UInt8} (h : n.Spelling bs) : Spelling (.number n) bs
  | string {ps : List Piece} {bs : List UInt8} (h : Body ps bs) :
    Spelling (.string (textOf ps)) (0x22 :: (bs ++ [0x22]))

/-- Tokens with blanks before, between and after them. -/
inductive Spaced : List Token → List UInt8 → Prop where
  | nil {ws : List UInt8} (hws : ∀ b ∈ ws, isBlank b = true) : Spaced [] ws
  | cons {t : Token} {ts : List Token} {ws bs s : List UInt8} (hws : ∀ b ∈ ws, isBlank b = true)
    (ht : t.Spelling bs) (hts : Spaced ts s) : Spaced (t :: ts) (ws ++ (bs ++ s))

/-! ## One token -/

def isNumber : Token → Bool
  | number _ => true
  | _ => false

/-- What may come right after a token. -/
def FollowedBy (t : Token) (s : List UInt8) : Prop := t.isNumber = true → Number.Ends s

theorem readOne_of_number {b : UInt8} (h : Number.isDigit b = true ∨ b = 0x2D)
    (s : List UInt8) :
    readOne b s = (Number.read (b :: s)).map fun (n, rest) => (number n, rest) := by
  unfold readOne
  iterate 10 rw [if_neg (by rintro rfl; revert h; decide)]

theorem isBlank_of_number {b : UInt8} (h : Number.isDigit b = true ∨ b = 0x2D) :
    isBlank b = false := by
  rcases h with h | rfl
  · rw [Number.isDigit_iff] at h
    have hne : ∀ k : UInt8, k.toNat < 48 → b ≠ k := by
      rintro k hk rfl
      omega
    simp only [isBlank, Bool.or_eq_false_iff, decide_eq_false_iff_not]
    exact ⟨⟨⟨hne _ (by decide), hne _ (by decide)⟩, hne _ (by decide)⟩, hne _ (by decide)⟩
  · rfl

variable {t : Token} {ts : List Token} {bs s : List UInt8}

/-- A token is read from each of its spellings, which starts with no blank. -/
theorem Spelling.readOne (h : t.Spelling bs) (hs : t.FollowedBy s) :
    ∃ b tail, bs = b :: tail ∧ isBlank b = false ∧ readOne b (tail ++ s) = some (t, s) := by
  cases h with
  | number h =>
    obtain ⟨b, tail, rfl, hb⟩ := h.exists_cons
    have hread := h.read (hs rfl)
    rw [List.cons_append] at hread
    refine ⟨b, tail, rfl, isBlank_of_number hb, ?_⟩
    rw [readOne_of_number hb, hread]
    rfl
  | @string ps bs h =>
    have hread := readString_body h .empty s
    rw [text_foldl_push] at hread
    refine ⟨0x22, bs ++ [0x22], rfl, rfl, ?_⟩
    show (readString .empty ((bs ++ [0x22]) ++ s)).map _ = _
    rw [List.append_assoc, List.singleton_append, hread]
    rfl
  | fixed h =>
    cases t with
    | number n => cases h
    | string t => cases h
    | bool b => cases b <;> exact ⟨_, _, rfl, rfl, rfl⟩
    | openObject | closeObject | openArray | closeArray | colon | comma | null =>
      exact ⟨_, _, rfl, rfl, rfl⟩

/-- A token that is no number ends a number before it. -/
theorem Spelling.ends (h : t.Spelling bs) (ht : t.isNumber = false) (s : List UInt8) :
    Number.Ends (bs ++ s) := by
  have hends : ∀ b tail, (Number.isDigit b = false ∧ b ≠ 0x2E ∧ b ≠ 0x65 ∧ b ≠ 0x45) →
      Number.Ends (b :: tail) := fun b tail hb b' hb' => Option.some.inj hb' ▸ hb
  cases h with
  | number h => cases ht
  | string h => exact hends _ _ (by decide)
  | fixed h =>
    cases t with
    | number n => cases h
    | string t => cases h
    | bool b => cases b <;> exact hends _ _ (by decide)
    | openObject | closeObject | openArray | closeArray | colon | comma | null =>
      exact hends _ _ (by decide)

theorem ends_blanks {ws : List UInt8} (hws : ∀ b ∈ ws, isBlank b = true) (hs : Number.Ends s) :
    Number.Ends (ws ++ s) := by
  cases ws with
  | nil => exact hs
  | cons b ws =>
    intro b' hb
    obtain rfl := Option.some.inj hb
    have hblank := hws b List.mem_cons_self
    simp only [isBlank, Bool.or_eq_true, decide_eq_true_eq] at hblank
    rcases hblank with ((rfl | rfl) | rfl) | rfl <;> decide

theorem Spaced.ends (h : Spaced ts s) (hts : ∀ t ∈ ts.head?, t.isNumber = false) :
    Number.Ends s := by
  cases h with
  | nil hws =>
    have hends := ends_blanks hws (s := []) nofun
    rwa [List.append_nil] at hends
  | cons hws ht _ => exact ends_blanks hws (ht.ends (hts _ rfl) _)

/-! ## One token after the other -/

/-- No two numbers meet. -/
def Separated (ts : List Token) : Prop :=
  ts.IsChain fun t u => t.isNumber = true → u.isNumber = false

theorem scanFrom_blanks {ws : List UInt8} (hws : ∀ b ∈ ws, isBlank b = true) {fuel : Nat}
    (hfuel : (ws ++ s).length ≤ fuel) (done : List Token) :
    ∃ fuel', s.length ≤ fuel' ∧ scanFrom fuel done (ws ++ s) = scanFrom fuel' done s := by
  induction ws generalizing fuel with
  | nil => exact ⟨fuel, hfuel, rfl⟩
  | cons b ws ih =>
    cases fuel with
    | zero => cases hfuel
    | succ fuel =>
      obtain ⟨fuel', hle, hscan⟩ :=
        ih (fun b hb => hws b (List.mem_cons_of_mem _ hb)) (Nat.le_of_succ_le_succ hfuel)
      refine ⟨fuel', hle, ?_⟩
      rw [List.cons_append, scanFrom, if_pos (hws b List.mem_cons_self), hscan]

theorem Spelling.scanFrom (h : t.Spelling bs) (hs : t.FollowedBy s) {fuel : Nat}
    (hfuel : (bs ++ s).length ≤ fuel) (done : List Token) :
    ∃ fuel', s.length ≤ fuel' ∧
      scanFrom fuel done (bs ++ s) = scanFrom fuel' (t :: done) s := by
  obtain ⟨b, tail, rfl, hblank, hread⟩ := h.readOne hs
  rw [List.cons_append, List.length_cons, List.length_append] at hfuel
  cases fuel with
  | zero => omega
  | succ fuel =>
    refine ⟨fuel, by omega, ?_⟩
    rw [List.cons_append, Token.scanFrom]
    simp only [hblank, hread, Bool.false_eq_true, ↓reduceIte]

theorem Spaced.scanFrom (h : Spaced ts s) (hsep : Separated ts) {fuel : Nat}
    (hfuel : s.length ≤ fuel) (done : List Token) :
    scanFrom fuel done s = some (done.reverse ++ ts) := by
  induction h generalizing fuel done with
  | @nil ws hws =>
    rw [← List.append_nil ws] at hfuel ⊢
    obtain ⟨fuel', -, hscan⟩ := scanFrom_blanks hws hfuel done
    rw [hscan]
    cases fuel' <;> simp [Token.scanFrom]
  | @cons t ts ws bs s hws ht hts ih =>
    obtain ⟨fuel', hfuel', hscan⟩ := scanFrom_blanks hws hfuel done
    have hfollow : t.FollowedBy s := fun hn =>
      hts.ends fun u hu => (List.isChain_cons.mp hsep).1 u hu hn
    obtain ⟨fuel'', hfuel'', htoken⟩ := ht.scanFrom hfollow hfuel' done
    rw [hscan, htoken, ih (List.IsChain.tail hsep) hfuel'', List.reverse_cons, List.append_assoc]
    rfl

/-- Tokens are read from every text of them, if no two numbers meet. -/
theorem scan_of_spaced (h : Spaced ts s) (hsep : Separated ts) : scan s = some ts :=
  h.scanFrom hsep (Nat.le_refl _) []

/-! ## The compact text -/

theorem spelling_bytes (t : Token) : t.Spelling t.bytes := by
  cases t with
  | number n => exact .number n.spelling_bytes
  | string t =>
    obtain ⟨ps, s, hbody, rfl, hbytes⟩ := stringBytes_eq t
    rw [bytes, hbytes]
    exact .string hbody
  | bool _ | openObject | closeObject | openArray | closeArray | colon | comma | null =>
    exact .fixed rfl

/-- Tokens with the same blanks before each of them; none, in the compact text. -/
theorem spaced_bytes {ws : List UInt8} (hws : ∀ b ∈ ws, isBlank b = true) (ts : List Token) :
    Spaced ts (ts.flatMap fun t => ws ++ t.bytes) := by
  induction ts with
  | nil => exact .nil nofun
  | cons t ts ih =>
    rw [List.flatMap_cons, List.append_assoc]
    exact .cons hws t.spelling_bytes ih

end LeaseRegistry.Json.Token
