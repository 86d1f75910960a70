import LeaseRegistry.Json.Value
import LeaseRegistry.Proofs.Json.Token

/-!
# Spelled values

A value is spelled by the texts of its tokens, with any literals and any blanks. It is read from
each of them (`Json.parse?_of_spelledBy`), so from its compact spelling (`Json.parse?_bytes`), and
from there also where it is kept as a whole, if its texts are Unicode, its numbers are in range and
it is not nested too deeply (`Json.parseKept?_bytes`).
-/

namespace LeaseRegistry.Json

open Token (Separated)

/-- What holds of a container follows from what holds of the values in it. -/
@[elab_as_elim] theorem inductionOn {P : Json → Prop} (v : Json) (null : P .null)
    (bool : ∀ b, P (.bool b)) (number : ∀ n, P (.number n)) (string : ∀ s, P (.string s))
    (array : ∀ items, (∀ v ∈ items, P v) → P (.array items))
    (object : ∀ members : List (Text × Json), (∀ m ∈ members, P m.2) → P (.object members)) :
    P v :=
  match v with
  | .null => null
  | .bool b => bool b
  | .number n => number n
  | .string s => string s
  | .array items => array items fun v _ => inductionOn v null bool number string array object
  | .object members => object members fun m hm =>
    have : sizeOf m < sizeOf members := List.sizeOf_lt_of_mem hm
    have : sizeOf m.2 < sizeOf m := by cases m; simp only [Prod.mk.sizeOf_spec]; omega
    inductionOn m.2 null bool number string array object

/-! ## From tokens to values -/

namespace Reader

/-- A value has been read from the front of `ts`, up to `rest`. -/
def Reads (v : Json) : Prop :=
  ∀ stack rest, run ⟨stack, .value⟩ (v.tokensTo rest) = run (deliver v stack) rest

theorem run_items {vs : List Json} (h : ∀ v ∈ vs, Reads v) (done : List Json) (stack : List Open)
    (rest : List Token) :
    run ⟨.array done :: stack, .commaOrEnd⟩ (itemTokensTo rest vs) =
      run (deliver (.array (done.reverse ++ vs)) stack) rest := by
  induction vs generalizing done with
  | nil => rw [List.append_nil]; rfl
  | cons v vs ih =>
    have hv := h v List.mem_cons_self (.array done :: stack) (itemTokensTo rest vs)
    have hvs := ih (fun w hw => h w (List.mem_cons_of_mem _ hw)) (v :: done)
    rw [List.reverse_cons, List.append_assoc] at hvs
    exact hv.trans hvs

theorem run_members {ms : List (Text × Json)} (h : ∀ m ∈ ms, Reads m.2)
    (done : List (Text × Json)) (key : Text) (stack : List Open) (rest : List Token) :
    run ⟨.object done key :: stack, .commaOrEnd⟩ (memberTokensTo rest ms) =
      run (deliver (.object (done.reverse ++ ms)) stack) rest := by
  induction ms generalizing done key with
  | nil => rw [List.append_nil]; rfl
  | cons m ms ih =>
    obtain ⟨k, v⟩ := m
    have hv := h _ List.mem_cons_self (.object done k :: stack) (memberTokensTo rest ms)
    have hms := ih (fun m hm => h m (List.mem_cons_of_mem _ hm)) ((k, v) :: done) k
    rw [List.reverse_cons, List.append_assoc] at hms
    exact hv.trans hms

theorem reads (v : Json) : Reads v := by
  induction v using inductionOn with
  | null => exact fun _ _ => rfl
  | bool b => exact fun _ _ => rfl
  | number n => exact fun _ _ => rfl
  | string s => exact fun _ _ => rfl
  | array items ih =>
    intro stack rest
    cases items with
    | nil => rfl
    | cons v vs =>
      have hv := ih v List.mem_cons_self (.array [] :: stack) (itemTokensTo rest vs)
      have hvs := run_items (fun w hw => ih w (List.mem_cons_of_mem _ hw)) [v] stack rest
      -- the first item comes after the bracket, where an end would be taken as well
      have hfirst : run ⟨.array [] :: stack, .itemOrEnd⟩ (tokensTo (itemTokensTo rest vs) v) =
          run ⟨.array [] :: stack, .value⟩ (tokensTo (itemTokensTo rest vs) v) := by
        cases v with
        | array items => cases items <;> rfl
        | object members => cases members <;> rfl
        | null => rfl
        | bool b => rfl
        | number n => rfl
        | string s => rfl
      exact hfirst.trans (hv.trans hvs)
  | object members ih =>
    intro stack rest
    cases members with
    | nil => rfl
    | cons m ms =>
      obtain ⟨k, v⟩ := m
      have hv := ih _ List.mem_cons_self (.object [] k :: stack) (memberTokensTo rest ms)
      have hms := run_members (fun m hm => ih m (List.mem_cons_of_mem _ hm)) [(k, v)] k stack rest
      exact hv.trans hms

end Reader

theorem ofTokens?_tokens (v : Json) : ofTokens? v.tokens = some v := by
  have hrun : Reader.run .start v.tokens = some ⟨[], .nothing v⟩ := Reader.reads v [] []
  rw [ofTokens?, hrun]

/-! ## From bytes to tokens -/

/-- Tokens that may follow a number. -/
def Closes (ts : List Token) : Prop :=
  Separated ts ∧ ∀ t ∈ ts.head?, t.isNumber = false

theorem Closes.cons {t : Token} {ts : List Token} (ht : t.isNumber = false) (h : Separated ts) :
    Closes (t :: ts) := by
  refine ⟨List.isChain_cons.mpr ⟨fun u _ hn => ?_, h⟩, fun u hu => Option.some.inj hu ▸ ht⟩
  rw [ht] at hn
  cases hn

theorem Closes.number {ts : List Token} (h : Closes ts) (n : Number) :
    Separated (.number n :: ts) :=
  List.isChain_cons.mpr ⟨fun u hu _ => h.2 u hu, h.1⟩

theorem closes_items {vs : List Json} {rest : List Token} (hrest : Separated rest)
    (h : ∀ v ∈ vs, ∀ {rest}, Closes rest → Separated (v.tokensTo rest)) :
    Closes (itemTokensTo rest vs) := by
  induction vs with
  | nil => exact .cons rfl hrest
  | cons v vs ih =>
    exact .cons rfl (h v List.mem_cons_self (ih fun w hw => h w (List.mem_cons_of_mem _ hw)))

theorem closes_members {ms : List (Text × Json)} {rest : List Token} (hrest : Separated rest)
    (h : ∀ m ∈ ms, ∀ {rest}, Closes rest → Separated (m.2.tokensTo rest)) :
    Closes (memberTokensTo rest ms) := by
  induction ms with
  | nil => exact .cons rfl hrest
  | cons m ms ih =>
    have hms := ih fun m hm => h m (List.mem_cons_of_mem _ hm)
    have hm := h m List.mem_cons_self hms
    exact .cons rfl (Closes.cons rfl (Closes.cons rfl hm).1).1

theorem separated_tokensTo (v : Json) {rest : List Token} (h : Closes rest) :
    Separated (v.tokensTo rest) := by
  induction v using inductionOn generalizing rest with
  | null => exact (Closes.cons rfl h.1).1
  | bool b => exact (Closes.cons rfl h.1).1
  | number n => exact h.number n
  | string s => exact (Closes.cons rfl h.1).1
  | array items ih =>
    cases items with
    | nil => exact (Closes.cons rfl (Closes.cons rfl h.1).1).1
    | cons v vs =>
      have hvs := closes_items h.1 fun w hw => @ih w (List.mem_cons_of_mem _ hw)
      exact (Closes.cons rfl (ih v List.mem_cons_self hvs)).1
  | object members ih =>
    cases members with
    | nil => exact (Closes.cons rfl (Closes.cons rfl h.1).1).1
    | cons m ms =>
      have hms := closes_members h.1 fun m hm => @ih m (List.mem_cons_of_mem _ hm)
      have hm := ih m List.mem_cons_self hms
      exact (Closes.cons rfl (Closes.cons rfl (Closes.cons rfl hm).1).1).1

theorem separated_tokens (v : Json) : Separated v.tokens :=
  separated_tokensTo v ⟨List.isChain_nil, nofun⟩

/-- The text spells the value: any literals of its tokens, with any blanks around them. -/
def SpelledBy (v : Json) (s : List UInt8) : Prop := Token.Spaced v.tokens s

theorem spelledBy_bytes (v : Json) : v.SpelledBy v.bytes :=
  Token.spaced_bytes (fun b (hb : b ∈ []) => nomatch hb) v.tokens

theorem SpelledBy.scan {v : Json} {s : List UInt8} (h : v.SpelledBy s) :
    Token.scan s = some v.tokens :=
  Token.scan_of_spaced h v.separated_tokens

/-- A value is read from every text that spells it. -/
theorem parse?_of_spelledBy {v : Json} {s : List UInt8} (h : v.SpelledBy s) :
    parse? s = some v := by
  rw [parse?, h.scan, Option.bind_some, ofTokens?_tokens]

theorem parse?_bytes (v : Json) : parse? v.bytes = some v := parse?_of_spelledBy v.spelledBy_bytes

/-! ## Values that are kept whole -/

/-- The texts in a value are Unicode, its numbers are in range, and at most `n` containers in it are
open at once. -/
inductive KeptWithin : Nat → Json → Prop where
  | null (n : Nat) : KeptWithin n .null
  | bool (n : Nat) (b : Bool) : KeptWithin n (.bool b)
  | number (n : Nat) {k : Number} (h : k.overflows = false) : KeptWithin n (.number k)
  | text (n : Nat) (s : String) : KeptWithin n (.text s)
  | array {n : Nat} {items : List Json} (h : ∀ v ∈ items, KeptWithin n v) :
    KeptWithin (n + 1) (.array items)
  | record {n : Nat} {members : List (String × Json)} (h : ∀ m ∈ members, KeptWithin n m.2) :
    KeptWithin (n + 1) (.record members)

/-- Reading over a value's tokens keeps what is asked of the tokens of a value that is kept whole:
each by itself, and that at most `most` containers are open at once. -/
structure Passes (most open_ : Nat) (v : Json) : Prop where
  keepable : ∀ rest, (v.tokensTo rest).all Token.keepable = rest.all Token.keepable
  maxOpen : ∀ rest, ∀ before ≤ most, ∃ after ≤ most,
    Token.maxOpen open_ before (v.tokensTo rest) = Token.maxOpen open_ after rest

theorem passes_items {most open_ : Nat} {vs : List Json} (h : ∀ v ∈ vs, Passes most (open_ + 1) v)
    (rest : List Token) :
    (itemTokensTo rest vs).all Token.keepable = rest.all Token.keepable ∧
      ∀ before ≤ most, ∃ after ≤ most,
        Token.maxOpen (open_ + 1) before (itemTokensTo rest vs) =
          Token.maxOpen open_ after rest := by
  induction vs with
  | nil => exact ⟨rfl, fun before hb => ⟨before, hb, rfl⟩⟩
  | cons v vs ih =>
    have hv := h v List.mem_cons_self
    obtain ⟨hkeep, hopen⟩ := ih fun w hw => h w (List.mem_cons_of_mem _ hw)
    refine ⟨(hv.keepable _).trans hkeep, fun before hb => ?_⟩
    obtain ⟨mid, hmid, hfirst⟩ := hv.maxOpen (itemTokensTo rest vs) before hb
    obtain ⟨after, hafter, hothers⟩ := hopen mid hmid
    exact ⟨after, hafter, hfirst.trans hothers⟩

theorem passes_members {most open_ : Nat} {ms : List (String × Json)}
    (h : ∀ m ∈ ms, Passes most (open_ + 1) m.2) (rest : List Token) :
    (memberTokensTo rest (ms.map fun (k, v) => (some k, v))).all Token.keepable =
        rest.all Token.keepable ∧
      ∀ before ≤ most, ∃ after ≤ most,
        Token.maxOpen (open_ + 1) before
            (memberTokensTo rest (ms.map fun (k, v) => (some k, v))) =
          Token.maxOpen open_ after rest := by
  induction ms with
  | nil => exact ⟨rfl, fun before hb => ⟨before, hb, rfl⟩⟩
  | cons m ms ih =>
    have hm := h m List.mem_cons_self
    obtain ⟨hkeep, hopen⟩ := ih fun m hm => h m (List.mem_cons_of_mem _ hm)
    refine ⟨(hm.keepable _).trans hkeep, fun before hb => ?_⟩
    obtain ⟨mid, hmid, hfirst⟩ := hm.maxOpen _ before hb
    obtain ⟨after, hafter, hothers⟩ := hopen mid hmid
    exact ⟨after, hafter, hfirst.trans hothers⟩

theorem KeptWithin.passes {n : Nat} {v : Json} (h : KeptWithin n v) {most open_ : Nat}
    (hfits : open_ + n ≤ most) : Passes most open_ v := by
  induction h generalizing open_ with
  | null n => exact ⟨fun _ => rfl, fun _ before hb => ⟨before, hb, rfl⟩⟩
  | bool n b => exact ⟨fun _ => rfl, fun _ before hb => ⟨before, hb, rfl⟩⟩
  | number n hk =>
    refine ⟨fun rest => ?_, fun _ before hb => ⟨before, hb, rfl⟩⟩
    rw [tokensTo, List.all_cons, Token.keepable, hk]
    rfl
  | text n s => exact ⟨fun _ => rfl, fun _ before hb => ⟨before, hb, rfl⟩⟩
  | @array n items _ ih =>
    have hitems (v : Json) (hv : v ∈ items) : Passes most (open_ + 1) v := ih v hv (by omega)
    cases items with
    | nil => exact ⟨fun _ => rfl, fun _ before hb => ⟨max before (open_ + 1), by omega, rfl⟩⟩
    | cons v vs =>
      have hv := hitems v List.mem_cons_self
      have hvs := passes_items fun w hw => hitems w (List.mem_cons_of_mem _ hw)
      refine ⟨fun rest => (hv.keepable _).trans (hvs rest).1, fun rest before hb => ?_⟩
      obtain ⟨mid, hmid, hfirst⟩ :=
        hv.maxOpen (itemTokensTo rest vs) (max before (open_ + 1)) (by omega)
      obtain ⟨after, hafter, hothers⟩ := (hvs rest).2 mid hmid
      exact ⟨after, hafter, hfirst.trans hothers⟩
  | @record n members _ ih =>
    have hmembers (m : String × Json) (hm : m ∈ members) : Passes most (open_ + 1) m.2 :=
      ih m hm (by omega)
    cases members with
    | nil => exact ⟨fun _ => rfl, fun _ before hb => ⟨max before (open_ + 1), by omega, rfl⟩⟩
    | cons m ms =>
      have hm := hmembers m List.mem_cons_self
      have hms := passes_members fun m hm => hmembers m (List.mem_cons_of_mem _ hm)
      refine ⟨fun rest => (hm.keepable _).trans (hms rest).1, fun rest before hb => ?_⟩
      obtain ⟨mid, hmid, hfirst⟩ := hm.maxOpen
        (memberTokensTo rest (ms.map fun (k, v) => (some k, v))) (max before (open_ + 1)) (by omega)
      obtain ⟨after, hafter, hothers⟩ := (hms rest).2 mid hmid
      exact ⟨after, hafter, hfirst.trans hothers⟩

theorem KeptWithin.allKeepable {n : Nat} {v : Json} (h : KeptWithin n v)
    (hn : n < Token.depthLimit) : Token.allKeepable v.tokens = true := by
  have hpasses : Passes n 0 v := h.passes (by omega)
  obtain ⟨after, hafter, hopen⟩ := hpasses.maxOpen [] 0 (Nat.zero_le _)
  have hmax : Token.maxOpen 0 0 v.tokens = after := hopen
  have hall : v.tokens.all Token.keepable = true := hpasses.keepable []
  simp only [Token.allKeepable, hall, hmax, Bool.true_and, Nat.blt_eq]
  omega

/-- A value that can be kept as a whole is read back from its compact spelling. -/
theorem parseKept?_bytes {n : Nat} {v : Json} (h : KeptWithin n v) (hn : n < Token.depthLimit) :
    parseKept? v.bytes = some v := by
  rw [parseKept?, v.spelledBy_bytes.scan, Option.bind_some, if_pos (h.allKeepable hn),
    ofTokens?_tokens]

end LeaseRegistry.Json
