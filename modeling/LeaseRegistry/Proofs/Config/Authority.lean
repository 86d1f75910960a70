import Mathlib.Data.List.Infix
import LeaseRegistry.Proofs.Config.Address
import LeaseRegistry.Proofs.Json.Number

/-!
# The host and port of an address

An address is a scheme, an authority and a path. No host has a slash, so the authority is what
stands between the first `://` and the next slash; no port has a colon, so the last one divides the
authority. Bringing an address into its canonical form leaves the authority as it is.
-/

namespace LeaseRegistry.Address

open Text (FreeStart FreeEnd)

/-- The name or number of a host: no slash, no bracket and no blank. -/
structure IsHost (host : String) : Prop where
  nonempty : host ≠ ""
  plain : ∀ c ∈ host.toList, c ≠ '/' ∧ isBracket c = false ∧ Text.isBlank c = false

instance (host : String) : Decidable (IsHost host) :=
  decidable_of_iff (host ≠ "" ∧
      host.toList.all (fun c => c != '/' && !isBracket c && !Text.isBlank c) = true)
    ⟨fun ⟨hne, hplain⟩ => ⟨hne, by simpa [and_assoc] using hplain⟩,
      fun ⟨hne, hplain⟩ => ⟨hne, by simpa [and_assoc] using hplain⟩⟩

/-- How a host is written before a port: in brackets, or as it is if it has no colon. -/
inductive Written (host : String) : String → Prop where
  | bare : ':' ∉ host.toList → Written host host
  | bracketed : Written host ("[" ++ host ++ "]")

/-! ## Cuts -/

/-- An occurrence of `://` does not reach back over its own start. -/
theorem afterFirst?_scheme {scheme : List Char} (h : ¬ "://".toList <:+: scheme)
    (rest : List Char) :
    afterFirst? "://".toList (scheme ++ ("://".toList ++ rest)) = some rest := by
  induction scheme with
  | nil => rfl
  | cons c cs ih =>
    rw [List.infix_cons_iff, not_or] at h
    have hnot : ¬ "://".toList.isPrefixOf (c :: cs ++ ("://".toList ++ rest)) = true := by
      rw [List.isPrefixOf_iff_prefix]
      intro hp
      match cs with
      | [] => simp at hp
      | [d] => simp at hp
      | d :: e :: cs =>
        refine h.1 (List.prefix_of_prefix_length_le hp (List.prefix_append _ _) ?_)
        simp
    rw [List.cons_append, afterFirst?, if_neg (by exact hnot)]
    exact ih h.2

theorem takeWhile_authority {authority path : List Char} (h : '/' ∉ authority)
    (hpath : ∀ c ∈ path.head?, c = '/') :
    (authority ++ path).takeWhile (· != '/') = authority := by
  have hall : ∀ c ∈ authority, (c != '/') = true := fun c hc =>
    bne_iff_ne.mpr fun heq => h (heq ▸ hc)
  rw [List.takeWhile_append_of_pos hall]
  cases path with
  | nil => rw [List.takeWhile_nil, List.append_nil]
  | cons c cs => simp [hpath c rfl]

theorem splitLast?_append {mark : Char} (front : List Char) {back : List Char}
    (h : mark ∉ back) : splitLast? mark (front ++ mark :: back) = some (front, back) := by
  have hback : ∀ c ∈ back.reverse, (c != mark) = true := fun c hc =>
    bne_iff_ne.mpr fun heq => h (heq ▸ List.mem_reverse.mp hc)
  have hreverse : (front ++ mark :: back).reverse = back.reverse ++ mark :: front.reverse := by simp
  rw [splitLast?, hreverse, List.dropWhile_append_of_pos hback, List.takeWhile_append_of_pos hback]
  simp

/-! ## Hosts and ports -/

theorem isDigit_toDigits {n : Nat} {c : Char} (h : c ∈ Nat.toDigits 10 n) : c.isDigit = true :=
  Nat.isDigit_of_mem_toDigits (by decide) (by decide) h

theorem isLoose_of_isDigit {c : Char} (h : c.isDigit = true) : isLoose c = false := by
  have hrange := Json.Number.toNat_of_isDigit h
  by_contra hloose
  rw [Bool.not_eq_false, isLoose, Bool.or_eq_true, beq_iff_eq] at hloose
  rcases hloose with hblank | rfl
  · simp only [Text.isBlank, Text.inRanges, Text.blankRanges, List.any_cons, List.any_nil,
      Bool.or_eq_true, Bool.and_eq_true, Nat.ble_eq, Bool.false_eq_true, or_false] at hblank
    omega
  · cases h

theorem not_mem_toDigits (n : Nat) {c : Char} (h : c.isDigit = false) : c ∉ Nat.toDigits 10 n := by
  intro hc
  rw [isDigit_toDigits hc] at h
  cases h

/-- A number below the limit is read from its decimal digits. -/
theorem number?_toDigits {limit n : Nat} (h : n < limit) :
    Decimal.number? limit (Nat.toDigits 10 n) = some n := by
  have hdigits : Decimal.natOfDigits? (Nat.toDigits 10 n) = some n := by
    have hall : (Nat.toDigits 10 n).all Char.isDigit = true :=
      List.all_eq_true.mpr fun c hc => isDigit_toDigits hc
    have hnat : Decimal.natOfDigits (Nat.toDigits 10 n) = n := Nat.ofDigitChars_ten_toDigits
    have hne : (Nat.toDigits 10 n).isEmpty = false := by
      rw [List.isEmpty_eq_false_iff]
      exact Nat.toDigits_ne_nil
    rw [Decimal.natOfDigits?, hall, hne, hnat]
    rfl
  have hsign : ∀ cs, Nat.toDigits 10 n ≠ '+' :: cs := fun cs hcs =>
    not_mem_toDigits n (c := '+') (by decide) (hcs ▸ List.mem_cons_self)
  rw [Decimal.number?, hdigits, Option.filter_some, if_pos (by simpa [Nat.blt_eq] using h)]
  exact hsign

section

variable {host text : String} (hhost : IsHost host) (htext : Written host text) (port : UInt16)

/-- An address as it is written after the scheme. -/
def authority (text : String) (port : UInt16) : List Char :=
  text.toList ++ ':' :: Nat.toDigits 10 port.toNat

include hhost htext

theorem trim_written : Text.trim isBracket text.toList = host.toList := by
  have hstart : FreeStart isBracket host.toList := fun c hc =>
    (hhost.plain c (List.mem_of_head? hc)).2.1
  have hend : FreeEnd isBracket host.toList := fun c hc =>
    (hhost.plain c (List.mem_of_getLast? hc)).2.1
  cases htext with
  | bare => simpa using @Text.trim_eq isBracket _ [] [] rfl rfl hstart hend
  | bracketed =>
    simpa using @Text.trim_eq isBracket _ ['['] [']'] (by decide) (by decide) hstart hend

theorem not_mem_authority : '/' ∉ authority text port := by
  have hslash : '/' ∉ host.toList := fun h => (hhost.plain _ h).1 rfl
  have hdigits := not_mem_toDigits port.toNat (c := '/') (by decide)
  cases htext <;> simp [authority, hslash, hdigits]

/-- The host and port are found in whatever has the authority, and a path, after its scheme. -/
theorem splitChars_eq {a path : List Char} (hpath : ∀ c ∈ path.head?, c = '/')
    (ha : (afterFirst? "://".toList a).getD a = authority text port ++ path) :
    splitChars a = (host.toList, port) := by
  have hport := not_mem_toDigits port.toNat (c := ':') (by decide)
  have hlimit : port.toNat < UInt16.size := port.toNat_lt_size
  rw [splitChars, ha, takeWhile_authority (not_mem_authority hhost htext port) hpath, authority,
    splitLast?_append text.toList hport]
  simp only [trim_written hhost htext, number?_toDigits hlimit]
  simp

theorem splitChars_scheme {scheme path : List Char} (hscheme : ¬ "://".toList <:+: scheme)
    (hpath : ∀ c ∈ path.head?, c = '/') :
    splitChars (scheme ++ ("://".toList ++ (authority text port ++ path))) = (host.toList, port) :=
  splitChars_eq hhost htext port hpath (by rw [afterFirst?_scheme hscheme]; rfl)

/-! ## The canonical form -/

theorem freeStart_authority : FreeStart Text.isBlank (authority text port) := by
  cases htext with
  | bare =>
    refine FreeStart.append (fun c hc => (hhost.plain c (List.mem_of_head? hc)).2.2) ?_
    simpa using hhost.nonempty
  | bracketed =>
    intro c hc
    obtain rfl : c = '[' := by simpa [authority, eq_comm] using hc
    decide

omit hhost htext in
theorem freeEnd_authority : FreeEnd isLoose (authority text port) := by
  refine FreeEnd.append (@FreeEnd.append isLoose [':'] _ (fun c hc => ?_) Nat.toDigits_ne_nil)
    (List.cons_ne_nil _ _)
  exact isLoose_of_isDigit (isDigit_toDigits (List.mem_of_getLast? hc))

theorem not_hasScheme_authority : ¬ HasScheme (authority text port) := by
  have hslash := not_mem_authority hhost htext port
  rintro (hp | hp)
  · exact hslash (hp.subset (by decide))
  · exact hslash (hp.subset (by decide))

/-- In its canonical form, an address has its authority after a scheme and nothing after that. -/
theorem normalizeChars_authority {pre front back : List Char} (hpre : pre ∈ [[], plain, encrypted])
    (hfront : front.all Text.isBlank = true) (hback : back.all Text.isBlank = true) (n : Nat) :
    ∃ scheme ∈ ["ws".toList, "wss".toList],
      normalizeChars (front ++ (pre ++ authority text port ++ List.replicate n '/' ++ back)) =
        scheme ++ ("://".toList ++ (authority text port ++ [])) := by
  have hne : authority text port ≠ [] := by simp [authority]
  have hsolid : Solid (pre ++ authority text port) := by
    refine ⟨by simp [hne], ?_, (freeEnd_authority port).append hne⟩
    simp only [List.mem_cons, List.not_mem_nil, or_false] at hpre
    rcases hpre with rfl | rfl | rfl
    · exact freeStart_authority hhost htext port
    · exact FreeStart.append (show FreeStart _ plain by decide) (by decide)
    · exact FreeStart.append (show FreeStart _ encrypted by decide) (by decide)
  rw [normalizeChars_eq, body_of_solid hsolid hfront hback, List.append_nil]
  simp only [List.mem_cons, List.not_mem_nil, or_false] at hpre
  rcases hpre with rfl | rfl | rfl
  · refine ⟨_, List.mem_cons_self, ?_⟩
    rw [List.nil_append, withScheme_of_not (not_hasScheme_authority hhost htext port)]
    rfl
  · refine ⟨_, List.mem_cons_self, ?_⟩
    rw [withScheme_of_hasScheme (.inl ⟨_, rfl⟩)]
    rfl
  · refine ⟨_, List.mem_cons_of_mem _ List.mem_cons_self, ?_⟩
    rw [withScheme_of_hasScheme (.inr ⟨_, rfl⟩)]
    rfl

end

theorem split_eq {a host : String} {port : UInt16} (h : splitChars a.toList = (host.toList, port)) :
    split a = (host, port) := by
  rw [split, h]
  exact congrArg (·, port) String.ofList_toList

/-- The host and port that were written come back from the canonical form of an address, whatever
its prefix among none and the two schemes, the slashes after it and the blanks around it, and from
any address of another scheme and with any path. -/
theorem split_written {host text : String} (hhost : IsHost host) (htext : Written host text)
    (port : UInt16) :
    (∀ pre ∈ ["", "ws://", "wss://"], ∀ front back n, isBlank front = true → isBlank back = true →
      split (normalize
        (front ++ (pre ++ text ++ ":" ++ toString port.toNat ++ slashes n) ++ back)) =
          (host, port)) ∧
    (∀ scheme path : String, ¬ "://".toList <:+: scheme.toList →
      (path = "" ∨ ∃ rest, path = "/" ++ rest) →
      split (scheme ++ "://" ++ text ++ ":" ++ toString port.toNat ++ path) = (host, port)) := by
  constructor
  · intro pre hpre front back n hfront hback
    have hpre' : pre.toList ∈ [[], plain, encrypted] := List.mem_map_of_mem hpre
    obtain ⟨scheme, hscheme, hnormal⟩ :=
      normalizeChars_authority hhost htext port hpre' hfront hback n
    have hnot : ¬ "://".toList <:+: scheme := by
      simp only [List.mem_cons, List.not_mem_nil, or_false] at hscheme
      rcases hscheme with rfl | rfl <;> decide
    refine split_eq ?_
    have hsplit := splitChars_scheme hhost htext port hnot (show ∀ c ∈ [].head?, c = '/' by simp)
    rw [normalize, String.toList_ofList, ← hsplit, ← hnormal]
    simp [authority, toList_slashes]
  · intro scheme path hscheme hpath
    have hpath' : ∀ c ∈ path.toList.head?, c = '/' := by
      rcases hpath with rfl | ⟨rest, rfl⟩ <;> simp [eq_comm]
    refine split_eq ?_
    rw [← splitChars_scheme hhost htext port hscheme hpath']
    simp [authority]

/-- An address with an IPv6 host, an encrypted scheme, slashes and blanks. -/
theorem split_written_ipv6 :
    IsHost "::1" ∧ Written "::1" "[::1]" ∧
    split (normalize (" " ++ ("wss://" ++ "[::1]" ++ ":" ++ toString 9000 ++ slashes 2) ++ "\t")) =
      ("::1", 9000) ∧
    split ("a:b" ++ "://" ++ "[::1]" ++ ":" ++ toString 9000 ++ "/c://d:1") = ("::1", 9000) := by
  have hhost : IsHost "::1" := by decide +kernel
  have htext : Written "::1" "[::1]" := .bracketed
  obtain ⟨hnormal, hscheme⟩ := split_written hhost htext 9000
  refine ⟨hhost, htext, hnormal "wss://" (by decide) " " "\t" 2 (by decide) (by decide), ?_⟩
  exact hscheme "a:b" "/c://d:1" (by decide) (.inr ⟨"c://d:1", by decide⟩)

end LeaseRegistry.Address
