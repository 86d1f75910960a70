import LeaseRegistry.Proofs.Json.Value

/-!
# What a reader has taken

A reader that has come to a value has taken the tokens of that value and nothing else
(`Json.ofTokens?_eq_some_iff`): wherever it is, its stack and what it expects next say which tokens
brought it there (`Reader.Took`).
-/

namespace LeaseRegistry.Json

/-! ## The tokens of containers -/

theorem itemTokensTo_eq {vs : List Json} (h : ∀ v ∈ vs, ∀ rest, v.tokensTo rest = v.tokens ++ rest)
    (rest : List Token) :
    itemTokensTo rest vs = (vs.flatMap fun v => .comma :: v.tokens) ++ .closeArray :: rest := by
  induction vs with
  | nil => rfl
  | cons v vs ih =>
    rw [itemTokensTo, h v List.mem_cons_self, ih fun w hw => h w (List.mem_cons_of_mem _ hw)]
    simp only [List.flatMap_cons, List.cons_append, List.append_assoc]

theorem memberTokensTo_eq {ms : List (Text × Json)}
    (h : ∀ m ∈ ms, ∀ rest, m.2.tokensTo rest = m.2.tokens ++ rest) (rest : List Token) :
    memberTokensTo rest ms =
      (ms.flatMap fun m => .comma :: .string m.1 :: .colon :: m.2.tokens) ++
        .closeObject :: rest := by
  induction ms with
  | nil => rfl
  | cons m ms ih =>
    rw [memberTokensTo, h m List.mem_cons_self, ih fun m hm => h m (List.mem_cons_of_mem _ hm)]
    simp only [List.flatMap_cons, List.cons_append, List.append_assoc]

theorem tokensTo_eq (v : Json) (rest : List Token) : v.tokensTo rest = v.tokens ++ rest := by
  induction v using inductionOn generalizing rest with
  | null => rfl
  | bool b => rfl
  | number n => rfl
  | string s => rfl
  | array items ih =>
    cases items with
    | nil => rfl
    | cons v vs =>
      have hv := ih v List.mem_cons_self
      have hvs := itemTokensTo_eq fun w hw => ih w (List.mem_cons_of_mem _ hw)
      rw [tokens, tokensTo, tokensTo, hv, hv, hvs, hvs]
      simp only [List.cons_append, List.append_assoc, List.nil_append]
  | object members ih =>
    cases members with
    | nil => rfl
    | cons m ms =>
      have hm := ih m List.mem_cons_self
      have hms := memberTokensTo_eq fun m hm => ih m (List.mem_cons_of_mem _ hm)
      rw [tokens, tokensTo, tokensTo, hm, hm, hms, hms]
      simp only [List.cons_append, List.append_assoc, List.nil_append]

theorem tokens_array_cons (v : Json) (vs : List Json) :
    (Json.array (v :: vs)).tokens =
      .openArray :: v.tokens ++ (vs.flatMap fun w => .comma :: w.tokens) ++ [.closeArray] := by
  rw [tokens, tokensTo, tokensTo_eq v, itemTokensTo_eq fun w _ => tokensTo_eq w]
  simp only [List.cons_append, List.append_assoc]

theorem tokens_object_cons (m : Text × Json) (ms : List (Text × Json)) :
    (Json.object (m :: ms)).tokens =
      .openObject :: .string m.1 :: .colon :: m.2.tokens ++
        (ms.flatMap fun m => .comma :: .string m.1 :: .colon :: m.2.tokens) ++ [.closeObject] := by
  rw [tokens, tokensTo, tokensTo_eq m.2, memberTokensTo_eq fun m _ => tokensTo_eq m.2]
  simp only [List.cons_append, List.append_assoc]

/-- The commas of a list may be told to the items before them as well as to those after them. -/
theorem flatMap_comma_concat {α : Type} (f : α → List Token) (as : List α) (b : α) :
    (as.flatMap fun a => f a ++ [Token.comma]) ++ f b =
      match as ++ [b] with
      | [] => []
      | a :: as => f a ++ as.flatMap fun a => .comma :: f a := by
  induction as with
  | nil => simp
  | cons a as ih =>
    rw [List.flatMap_cons, List.append_assoc, ih]
    cases as <;> simp

theorem tokens_array_concat (vs : List Json) (v : Json) :
    (Json.array (vs ++ [v])).tokens =
      .openArray :: (vs.flatMap fun v => v.tokens ++ [.comma]) ++ v.tokens ++ [.closeArray] := by
  have hcommas := flatMap_comma_concat tokens vs v
  cases hcat : vs ++ [v] with
  | nil => simp at hcat
  | cons w ws =>
    rw [hcat] at hcommas
    rw [tokens_array_cons]
    exact congrArg (fun ts => .openArray :: (ts ++ [.closeArray])) hcommas.symm

theorem tokens_object_concat (ms : List (Text × Json)) (m : Text × Json) :
    (Json.object (ms ++ [m])).tokens =
      .openObject :: (ms.flatMap fun m => .string m.1 :: .colon :: m.2.tokens ++ [.comma]) ++
        (.string m.1 :: .colon :: m.2.tokens) ++ [.closeObject] := by
  have hcommas := flatMap_comma_concat (fun m : Text × Json => .string m.1 :: .colon :: m.2.tokens)
    ms m
  cases hcat : ms ++ [m] with
  | nil => simp at hcat
  | cons w ws =>
    rw [hcat] at hcommas
    rw [tokens_object_cons]
    exact congrArg (fun ts => .openObject :: (ts ++ [.closeObject])) hcommas.symm

/-! ## Readers -/

namespace Reader

/-- The tokens of an open object up to the place where its next key is expected. -/
def openedKey (members : List (Text × Json)) : List Token :=
  .openObject :: members.reverse.flatMap fun m => .string m.1 :: .colon :: m.2.tokens ++ [.comma]

/-- The tokens of an open container up to the place where its next value is expected. -/
def opened : Open → List Token
  | .array items => .openArray :: items.reverse.flatMap fun v => v.tokens ++ [.comma]
  | .object members key => openedKey members ++ [.string key, .colon]

/-- What may have been taken when a reader is where it is. -/
inductive Took : List Token → Reader → Prop where
  | value (stack : List Open) : Took (stack.reverse.flatMap opened) ⟨stack, .value⟩
  | itemOrEnd (stack : List Open) :
    Took (stack.reverse.flatMap opened ++ [.openArray]) ⟨.array [] :: stack, .itemOrEnd⟩
  | keyOrEnd (stack : List Open) :
    Took (stack.reverse.flatMap opened ++ [.openObject]) ⟨stack, .keyOrEnd []⟩
  | key (stack : List Open) (members : List (Text × Json)) :
    Took (stack.reverse.flatMap opened ++ openedKey members) ⟨stack, .key members⟩
  | colon (stack : List Open) (members : List (Text × Json)) (k : Text) :
    Took (stack.reverse.flatMap opened ++ (openedKey members ++ [.string k]))
      ⟨stack, .colon members k⟩
  | delivered (stack : List Open) (v : Json) :
    Took (stack.reverse.flatMap opened ++ v.tokens) (deliver v stack)

variable {ts : List Token} {t : Token} {r r' : Reader}

theorem flatMap_opened_cons (o : Open) (stack : List Open) :
    (o :: stack).reverse.flatMap opened = stack.reverse.flatMap opened ++ opened o := by
  simp

theorem Took.onValue {stack : List Open} (h : onValue stack t = some r) :
    Took (stack.reverse.flatMap opened ++ [t]) r := by
  cases t <;> cases h
  case null => exact .delivered stack .null
  case bool b => exact .delivered stack (.bool b)
  case number n => exact .delivered stack (.number n)
  case string s => exact .delivered stack (.string s)
  case openArray => exact .itemOrEnd stack
  case openObject => exact .keyOrEnd stack

/-- One more token after a value that has just been read. -/
theorem Took.step_deliver {stack : List Open} {v : Json}
    (hs : (deliver v stack).step t = some r') :
    Took (stack.reverse.flatMap opened ++ v.tokens ++ [t]) r' := by
  cases stack with
  | nil => cases hs
  | cons o stack =>
    rw [flatMap_opened_cons]
    cases o with
    | array items =>
      cases t <;> cases hs
      case array.comma.refl =>
        have h := Took.value (.array (v :: items) :: stack)
        rw [flatMap_opened_cons] at h
        simp only [opened, List.reverse_cons, List.flatMap_append, List.flatMap_singleton,
          List.cons_append, List.append_assoc] at h ⊢
        exact h
      case array.closeArray.refl =>
        have h := Took.delivered stack (.array (v :: items).reverse)
        rw [List.reverse_cons, tokens_array_concat] at h
        rw [List.reverse_cons]
        simp only [opened, List.cons_append, List.append_assoc] at h ⊢
        exact h
    | object members k =>
      cases t <;> cases hs
      case object.comma.refl =>
        have h := Took.key stack ((k, v) :: members)
        simp only [opened, openedKey, List.reverse_cons, List.flatMap_append,
          List.flatMap_singleton, List.cons_append, List.append_assoc, List.nil_append] at h ⊢
        exact h
      case object.closeObject.refl =>
        have h := Took.delivered stack (.object ((k, v) :: members).reverse)
        rw [List.reverse_cons, tokens_object_concat] at h
        rw [List.reverse_cons]
        simp only [opened, openedKey, List.cons_append, List.append_assoc,
          List.nil_append] at h ⊢
        exact h

theorem Took.step (h : Took ts r) (hs : r.step t = some r') : Took (ts ++ [t]) r' := by
  cases h with
  | value stack => exact .onValue hs
  | itemOrEnd stack =>
    by_cases hend : t = .closeArray
    · subst hend
      obtain rfl : deliver (.array []) stack = r' := Option.some.inj hs
      have h := Took.delivered stack (.array [])
      rw [List.append_assoc]
      exact h
    · have hvalue : Reader.onValue (.array [] :: stack) t = some r' := by
        cases t with
        | closeArray => exact absurd rfl hend
        | _ => exact hs
      have h := Took.onValue hvalue
      rw [flatMap_opened_cons] at h
      exact h
  | keyOrEnd stack =>
    rw [List.append_assoc]
    cases t <;> cases hs
    case keyOrEnd.closeObject.refl => exact .delivered stack (.object [])
    case keyOrEnd.string.refl k => exact .colon stack [] k
  | key stack members =>
    rw [List.append_assoc]
    cases t <;> cases hs
    case key.string.refl k => exact .colon stack members k
  | colon stack members k =>
    have h := Took.value (.object members k :: stack)
    rw [flatMap_opened_cons, opened] at h
    cases t <;> cases hs
    case colon.colon.refl =>
      rw [List.append_assoc, List.append_assoc]
      exact h
  | delivered stack v => exact .step_deliver hs

theorem Took.run {us : List Token} (h : Took ts r) (hr : r.run us = some r') :
    Took (ts ++ us) r' := by
  induction us generalizing ts r with
  | nil =>
    obtain rfl : r = r' := Option.some.inj hr
    rw [List.append_nil]
    exact h
  | cons u us ih =>
    rw [Reader.run] at hr
    cases hs : r.step u with
    | none => simp only [hs, reduceCtorEq] at hr
    | some r₁ =>
      simp only [hs] at hr
      have h := ih (h.step hs) hr
      rw [List.append_assoc] at h
      exact h

theorem Took.tokens_eq {stack : List Open} {v : Json} (h : Took ts ⟨stack, .nothing v⟩) :
    ts = v.tokens := by
  generalize hr : (⟨stack, .nothing v⟩ : Reader) = r at h
  cases h with
  | delivered outer w =>
    cases outer with
    | nil =>
      cases hr
      rfl
    | cons o outer => cases o <;> cases hr
  | value | itemOrEnd | keyOrEnd | key | colon => cases hr

end Reader

/-- The only tokens that spell a value are its own. -/
theorem ofTokens?_eq_some_iff {ts : List Token} {v : Json} :
    ofTokens? ts = some v ↔ ts = v.tokens := by
  refine ⟨fun h => ?_, fun h => h ▸ ofTokens?_tokens v⟩
  unfold ofTokens? at h
  split at h
  · rename_i stack w hrun
    obtain rfl := Option.some.inj h
    exact ((Reader.Took.value []).run hrun).tokens_eq
  · cases h

end LeaseRegistry.Json
