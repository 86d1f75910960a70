import LeaseRegistry.Config.ServerConfig
import LeaseRegistry.Proofs.Text.Trim

/-!
# The canonical form of an address

Blanks are dropped before slashes, each once, so that the form is canonical for the addresses in
which no blank stands before the slashes at the end. These are the lasting ones: their form is its
own form, and of the respellings of one of them exactly the lasting ones have its form. A server
takes the lasting spellings of its own address out of its peers.
-/

namespace LeaseRegistry

namespace Address

open Text (FreeStart FreeEnd)

/-- A blank or a slash: what a spelling of an address can have at its end and another one not. -/
def isLoose (c : Char) : Bool := Text.isBlank c || c == '/'

def slashes (n : Nat) : String := .ofList (List.replicate n '/')

/-- Another spelling: blanks around an address and slashes after it, in any mix. -/
def Respells (p a : String) : Prop :=
  ∃ front tail, isBlank front = true ∧ tail.toList.all isLoose = true ∧ p = front ++ (a ++ tail)

/-- The characters of an address that has nothing to be dropped at its ends. -/
structure Solid (b : List Char) : Prop where
  nonempty : b ≠ []
  start : FreeStart Text.isBlank b
  ending : FreeEnd isLoose b

instance (b : List Char) : Decidable (Solid b) :=
  decidable_of_iff (b ≠ [] ∧ FreeStart Text.isBlank b ∧ FreeEnd isLoose b)
    ⟨fun ⟨hne, hs, he⟩ => ⟨hne, hs, he⟩, fun ⟨hne, hs, he⟩ => ⟨hne, hs, he⟩⟩

/-- A solid address, followed by slashes and with blanks around both: no blank comes to the end when
the slashes are dropped. -/
def Lasting (a : String) : Prop :=
  ∃ front core n back, isBlank front = true ∧ Solid core.toList ∧ isBlank back = true ∧
    a = front ++ (core ++ slashes n ++ back)

/-! ## The two steps of the canonical form -/

variable {a b t : List Char}

/-- What is left of an address without the blanks around it and then the slashes at its end. -/
def body (a : List Char) : List Char := Text.trimEnd (· == '/') (Text.trim Text.isBlank a)

def HasScheme (b : List Char) : Prop := plain <+: b ∨ encrypted <+: b

/-- An address with the plain scheme, if it has none of its own. -/
def withScheme (b : List Char) : List Char :=
  if plain.isPrefixOf b || encrypted.isPrefixOf b then b else plain ++ b

theorem normalizeChars_eq (a : List Char) : normalizeChars a = withScheme (body a) := rfl

theorem withScheme_of_hasScheme (h : HasScheme b) : withScheme b = b := by
  rw [withScheme, if_pos]
  rwa [Bool.or_eq_true, List.isPrefixOf_iff_prefix, List.isPrefixOf_iff_prefix]

theorem withScheme_of_not (h : ¬ HasScheme b) : withScheme b = plain ++ b := by
  rw [withScheme, if_neg]
  rwa [Bool.or_eq_true, List.isPrefixOf_iff_prefix, List.isPrefixOf_iff_prefix]

theorem hasScheme_withScheme (b : List Char) : HasScheme (withScheme b) := by
  by_cases h : HasScheme b
  · rwa [withScheme_of_hasScheme h]
  · rw [withScheme_of_not h]
    exact .inl ⟨b, rfl⟩

theorem HasScheme.mono (h : HasScheme b) (hp : b <+: t) : HasScheme t :=
  h.imp (·.trans hp) (·.trans hp)

/-- With and without something at the end that ends in a blank, an address has two forms: the
scheme cannot make up for what is missing, since it has no blank. -/
theorem withScheme_ne (hp : b <+: t) (hne : b ≠ t) {c : Char} (hc : c ∈ t.getLast?)
    (hblank : Text.isBlank c = true) : withScheme b ≠ withScheme t := by
  intro h
  by_cases hb : HasScheme b
  · rw [withScheme_of_hasScheme hb, withScheme_of_hasScheme (hb.mono hp)] at h
    exact hne h
  by_cases ht : HasScheme t
  · rw [withScheme_of_not hb, withScheme_of_hasScheme ht] at h
    have hshort : b.length < plain.length := by
      by_contra hlong
      have : plain <+: b :=
        List.prefix_of_prefix_length_le (h ▸ List.prefix_append plain b) hp (by omega)
      exact hb (.inl this)
    have hplain : b <+: plain :=
      List.prefix_of_prefix_length_le hp (h ▸ List.prefix_append plain b) hshort.le
    have hmem : c ∈ plain := by
      rw [← h, List.getLast?_append] at hc
      rcases hlast : b.getLast? with _ | d
      · rw [hlast] at hc
        exact List.mem_of_getLast? hc
      · rw [hlast] at hc
        exact hplain.subset (List.mem_of_getLast? (hlast.trans hc))
    have hnone : plain.any Text.isBlank = false := by decide
    exact List.any_eq_false.mp hnone c hmem hblank
  · rw [withScheme_of_not hb, withScheme_of_not ht] at h
    exact hne (List.append_cancel_left h)

/-! ## Solid addresses -/

theorem all_isLoose_of_blank (h : t.all Text.isBlank = true) : t.all isLoose = true :=
  List.all_eq_true.mpr fun c hc => Bool.or_eq_true_iff.mpr (.inl (List.all_eq_true.mp h c hc))

theorem isLoose_slash : isLoose '/' = true := by decide

theorem isBlank_slash : Text.isBlank '/' = false := by decide

theorem FreeEnd.of_isLoose (h : FreeEnd isLoose b) :
    FreeEnd Text.isBlank b ∧ FreeEnd (· == '/') b := by
  refine ⟨fun c hc => ?_, fun c hc => ?_⟩
  · exact (Bool.or_eq_false_iff.mp (h c hc)).1
  · exact (Bool.or_eq_false_iff.mp (h c hc)).2

theorem freeEnd_slash_of_blank {c : Char} (hc : c ∈ t.getLast?) (hblank : Text.isBlank c = true) :
    FreeEnd (· == '/') t := by
  intro d hd
  obtain rfl := Option.mem_unique hc hd
  rw [beq_eq_false_iff_ne]
  rintro rfl
  rw [isBlank_slash] at hblank
  cases hblank

theorem all_slashes (n : Nat) : (List.replicate n '/').all (· == '/') = true := by
  simp [List.all_replicate]

theorem freeEnd_slashes (n : Nat) (h : n = 0 → FreeEnd Text.isBlank b) :
    FreeEnd Text.isBlank (b ++ List.replicate n '/') := by
  cases n with
  | zero => simpa using h rfl
  | succ n =>
    refine FreeEnd.append (fun c hc => ?_) (by simp)
    have : c = '/' := List.eq_of_mem_replicate (List.mem_of_getLast? hc)
    rw [this, isBlank_slash]

/-- Blanks around and slashes at the end are dropped, down to what ends in neither. -/
theorem body_eq {front back : List Char} {n : Nat} (hfront : front.all Text.isBlank = true)
    (hback : back.all Text.isBlank = true)
    (hstart : FreeStart Text.isBlank (b ++ List.replicate n '/'))
    (hend : n = 0 → FreeEnd Text.isBlank b) (hslash : FreeEnd (· == '/') b) :
    body (front ++ (b ++ List.replicate n '/' ++ back)) = b := by
  rw [body, Text.trim_eq hfront hback hstart (freeEnd_slashes n hend),
    Text.trimEnd_append_of_all (all_slashes n), Text.trimEnd_eq_self hslash]

/-- Every address is its body, followed by slashes and with blanks around both. -/
theorem exists_body (a : List Char) :
    ∃ front n back, front.all Text.isBlank = true ∧ back.all Text.isBlank = true ∧
      a = front ++ (body a ++ List.replicate n '/' ++ back) ∧
      FreeStart Text.isBlank (body a) ∧ FreeEnd (· == '/') (body a) := by
  obtain ⟨front, hfront, h₁⟩ := Text.exists_trimStart Text.isBlank a
  obtain ⟨back, hback, h₂⟩ := Text.exists_trimEnd Text.isBlank (Text.trimStart Text.isBlank a)
  obtain ⟨tail, htail, h₃⟩ := Text.exists_trimEnd (· == '/') (Text.trim Text.isBlank a)
  have hslashes : tail = List.replicate tail.length '/' :=
    List.eq_replicate_of_mem fun c hc => by simpa using List.all_eq_true.mp htail c hc
  refine ⟨front, tail.length, back, hfront, hback, ?_, ?_, Text.freeEnd_trimEnd⟩
  · rw [← hslashes, body, ← h₃, Text.trim, ← h₂, ← h₁]
  · exact (Text.freeStart_trimStart.of_isPrefix Text.trimEnd_prefix).of_isPrefix Text.trimEnd_prefix

theorem body_of_solid (h : Solid b) {front back : List Char}
    (hfront : front.all Text.isBlank = true) (hback : back.all Text.isBlank = true) (n : Nat) :
    body (front ++ (b ++ List.replicate n '/' ++ back)) = b := by
  obtain ⟨hblank, hslash⟩ := FreeEnd.of_isLoose h.ending
  exact body_eq hfront hback (h.start.append h.nonempty) (fun _ => hblank) hslash

theorem Solid.body_eq_self (h : Solid b) : body b = b := by
  simpa using @body_of_solid b h [] [] rfl rfl 0

theorem freeStart_withScheme (h : FreeStart Text.isBlank b) :
    FreeStart Text.isBlank (withScheme b) := by
  by_cases hs : HasScheme b
  · rwa [withScheme_of_hasScheme hs]
  · rw [withScheme_of_not hs]
    have hplain : FreeStart Text.isBlank plain := by decide
    exact hplain.append (by decide)

theorem getLast?_withScheme (h : b ≠ []) : (withScheme b).getLast? = b.getLast? := by
  by_cases hs : HasScheme b
  · rw [withScheme_of_hasScheme hs]
  · rw [withScheme_of_not hs, List.getLast?_append_of_ne_nil _ h]

theorem Solid.withScheme (h : Solid b) : Solid (withScheme b) where
  nonempty hnil := by
    have hlast := getLast?_withScheme h.nonempty
    rw [hnil, List.getLast?_nil, eq_comm, List.getLast?_eq_none_iff] at hlast
    exact h.nonempty hlast
  start := freeStart_withScheme h.start
  ending := by rw [FreeEnd, getLast?_withScheme h.nonempty]; exact h.ending

theorem body_isPrefix (a : List Char) : body a <+: Text.trimStart Text.isBlank a :=
  Text.trimEnd_prefix.trans Text.trimEnd_prefix

theorem body_ne {c : Char} (hc : c ∈ (Text.trimStart Text.isBlank a).getLast?)
    (hblank : Text.isBlank c = true) : body a ≠ Text.trimStart Text.isBlank a := by
  intro h
  have hlength : (Text.trimStart Text.isBlank a).length ≤ (Text.trim Text.isBlank a).length := by
    rw [← h]
    exact List.IsPrefix.length_le Text.trimEnd_prefix
  have htrim : Text.trim Text.isBlank a = Text.trimStart Text.isBlank a :=
    Text.trimEnd_prefix.eq_of_length_le hlength
  have hfree : FreeEnd Text.isBlank (Text.trim Text.isBlank a) := Text.freeEnd_trimEnd
  simp [hfree c (htrim ▸ hc)] at hblank

/-! ## The form of the form -/

theorem toList_normalize (a : String) : (normalize a).toList = withScheme (body a.toList) :=
  String.toList_ofList

theorem normalize_inj {a p : String} :
    normalize p = normalize a ↔ withScheme (body p.toList) = withScheme (body a.toList) := by
  rw [← toList_normalize, ← toList_normalize, String.toList_inj]

theorem toList_slashes (n : Nat) : (slashes n).toList = List.replicate n '/' :=
  String.toList_ofList

theorem lasting_iff {a : String} : Lasting a ↔ Solid (body a.toList) := by
  constructor
  · rintro ⟨front, core, n, back, hfront, hcore, hback, rfl⟩
    simp only [String.toList_append, toList_slashes]
    rwa [body_of_solid hcore hfront hback]
  · intro h
    obtain ⟨front, n, back, hfront, hback, ha, -, -⟩ := exists_body a.toList
    refine ⟨.ofList front, .ofList (body a.toList), n, .ofList back, ?_, ?_, ?_, ?_⟩
    · rwa [isBlank, String.toList_ofList]
    · rwa [String.toList_ofList]
    · rwa [isBlank, String.toList_ofList]
    · rw [← String.toList_inj]
      simpa only [String.toList_append, String.toList_ofList, toList_slashes] using ha

instance (a : String) : Decidable (Lasting a) := decidable_of_iff _ lasting_iff.symm

/-- Adding the scheme brings up nothing to be dropped exactly if nothing was left to be dropped. -/
theorem withScheme_body_iff (hstart : FreeStart Text.isBlank b) (hslash : FreeEnd (· == '/') b) :
    withScheme (body (withScheme b)) = withScheme b ↔ Solid b := by
  constructor
  · intro h
    by_cases hnil : b = []
    · subst hnil
      exact absurd h (by decide)
    refine ⟨hnil, hstart, fun c hc => Bool.or_eq_false_iff.mpr ⟨?_, hslash c hc⟩⟩
    by_contra hblank
    rw [Bool.not_eq_false] at hblank
    have htrim := Text.trimStart_eq_self (freeStart_withScheme hstart)
    have hlast : c ∈ (withScheme b).getLast? := by rwa [getLast?_withScheme hnil]
    have hprefix := htrim ▸ body_isPrefix (withScheme b)
    have hne := htrim ▸ body_ne (htrim.symm ▸ hlast) hblank
    refine withScheme_ne hprefix hne hlast hblank (h.trans ?_)
    exact (withScheme_of_hasScheme (hasScheme_withScheme b)).symm
  · intro h
    rw [h.withScheme.body_eq_self, withScheme_of_hasScheme (hasScheme_withScheme b)]

/-- The form of an address is its own form exactly if the address is a lasting one. -/
theorem normalize_normalize_iff (a : String) :
    normalize (normalize a) = normalize a ↔ Lasting a := by
  obtain ⟨-, -, -, -, -, -, hstart, hslash⟩ := exists_body a.toList
  rw [normalize_inj, toList_normalize, lasting_iff]
  exact withScheme_body_iff hstart hslash

theorem lasting_normalize {a : String} (h : Lasting a) : Lasting (normalize a) := by
  have hself := (normalize_normalize_iff a).mpr h
  exact (normalize_normalize_iff (normalize a)).mp (by rw [hself, hself])

/-! ## Respellings -/

/-- What all respellings of an address have in common. -/
def core (a : List Char) : List Char := Text.trimEnd isLoose (Text.trimStart Text.isBlank a)

theorem core_append {front tail : List Char} (hfront : front.all Text.isBlank = true)
    (htail : tail.all isLoose = true) : core (front ++ (a ++ tail)) = core a := by
  rw [core, Text.trimStart_append_of_all hfront, Text.trimEnd_trimStart_append htail, core]

theorem Solid.core_eq_self (h : Solid b) : core b = b := by
  rw [core, Text.trimStart_eq_self h.start, Text.trimEnd_eq_self h.ending]

theorem core_of_solid (h : Solid (body a)) : core a = body a := by
  obtain ⟨front, n, back, hfront, hback, ha, -, -⟩ := exists_body a
  have htail : (List.replicate n '/' ++ back).all isLoose = true := by
    rw [List.all_append, all_isLoose_of_blank hback, List.all_replicate, isLoose_slash]
    simp
  calc core a = core (front ++ (body a ++ (List.replicate n '/' ++ back))) := by
        rw [← List.append_assoc (body a), ← ha]
    _ = core (body a) := core_append hfront htail
    _ = body a := h.core_eq_self

/-- The lasting respellings of a lasting address, and only these, have its form. -/
theorem normalize_respelled {a p : String} (ha : Lasting a) (hp : Respells p a) :
    normalize p = normalize a ↔ Lasting p := by
  constructor
  · intro h
    rw [← normalize_normalize_iff, h, (normalize_normalize_iff a).mpr ha]
  · intro hlasting
    obtain ⟨front, tail, hfront, htail, rfl⟩ := hp
    rw [lasting_iff] at ha hlasting
    rw [normalize_inj, ← core_of_solid hlasting, ← core_of_solid ha, String.toList_append,
      String.toList_append, core_append hfront htail]

theorem isBlank_of_respells {a p : String} (hp : Respells p a) (h : isBlank p = true) :
    isBlank a = true := by
  obtain ⟨front, tail, -, -, rfl⟩ := hp
  simp only [isBlank, String.toList_append, List.all_append, Bool.and_eq_true] at h
  exact h.2.1

theorem isBlank_of_lasting {a : String} (h : Lasting a) : isBlank a = false := by
  by_contra hblank
  rw [Bool.not_eq_false] at hblank
  have hnil := List.prefix_nil.mp (Text.trimStart_eq_nil_iff.mpr hblank ▸ body_isPrefix a.toList)
  exact (lasting_iff.mp h).nonempty hnil

/-- Blanks around an address do not change its form. -/
theorem normalize_between_blanks {front back : String} (a : String) (hfront : isBlank front = true)
    (hback : isBlank back = true) : normalize (front ++ (a ++ back)) = normalize a := by
  rw [normalize_inj, String.toList_append, String.toList_append, body, Text.trim,
    Text.trimStart_append_of_all hfront, Text.trimEnd_trimStart_append hback]
  rfl

theorem body_append_slashes (a : List Char) {n : Nat} (hn : n ≠ 0) :
    body (a ++ List.replicate n '/') =
      Text.trimEnd (· == '/') (Text.trimStart Text.isBlank a) := by
  have hstart : FreeStart Text.isBlank (List.replicate n '/') := by
    intro c hc
    rw [List.eq_of_mem_replicate (List.mem_of_head? hc), isBlank_slash]
  rw [body, Text.trim, Text.trimStart_append hstart,
    Text.trimEnd_eq_self (freeEnd_slashes n fun h => absurd h hn),
    Text.trimEnd_append_of_all (all_slashes n)]

/-- Slashes after an address change its form exactly if they follow a blank that follows something
else: the blank is then no more at the end when blanks are dropped. -/
theorem normalize_slashes_iff (a : String) (n : Nat) :
    normalize (a ++ slashes n) = normalize a ↔
      n = 0 ∨ isBlank a = true ∨ FreeEnd Text.isBlank a.toList := by
  rw [normalize_inj, String.toList_append, toList_slashes, isBlank]
  generalize a.toList = a
  by_cases hn : n = 0
  · simp [hn]
  rw [body_append_slashes a hn]
  by_cases hblank : a.all Text.isBlank = true
  · have hnil := Text.trimStart_eq_nil_iff.mpr hblank
    rw [body, Text.trim, hnil]
    simp [hblank, Text.trimEnd]
  have hne : Text.trimStart Text.isBlank a ≠ [] := mt Text.trimStart_eq_nil_iff.mp hblank
  simp only [hn, hblank, Bool.false_eq_true, false_or]
  rw [FreeEnd, ← Text.getLast?_trimStart hne]
  constructor
  · intro h c hc
    by_contra hc'
    rw [Bool.not_eq_false] at hc'
    rw [Text.trimEnd_eq_self (freeEnd_slash_of_blank hc hc')] at h
    exact withScheme_ne (body_isPrefix a) (body_ne hc hc') hc hc' h.symm
  · intro h
    rw [body, Text.trim, Text.trimEnd_eq_self h]

end Address

namespace ServerConfig

open Address
open Text (FreeEnd)

variable {fresh : ServerId} {args : Arguments} {c : ServerConfig}

/-- The peers of an accepted configuration are those named that are not blank and have not the form
of the advertised address, in order and in canonical form. -/
theorem peers_ofArguments (h : ofArguments fresh args = .ok c) :
    c.peers = (args.peers.filter fun p =>
      !isBlank p && some (normalize p) != args.advertise.map normalize).map normalize := by
  have hpeers : c.peers = peersOf (args.advertise.map normalize) args.peers := by
    simp only [ofArguments, bind, Except.bind] at h
    split at h
    · cases h
    split at h
    · cases h
    split at h
    · cases h
    cases h
    rfl
  rw [hpeers, peersOf, List.filter_map, List.filter_filter]
  congr 2
  funext p
  rw [Function.comp_apply, Bool.and_comm]

theorem mem_peers (h : ofArguments fresh args = .ok c) {own : String}
    (hown : args.advertise = some own) {q : String} :
    q ∈ c.peers ↔
      ∃ p ∈ args.peers, isBlank p = false ∧ normalize p ≠ normalize own ∧ normalize p = q := by
  simp only [peers_ofArguments h, hown, List.mem_map, List.mem_filter, Bool.and_eq_true,
    Bool.not_eq_true', Option.map_some, bne_iff_ne, ne_eq, Option.some_inj, and_assoc]

/-- Of the peers that respell the advertised address, a server takes out the lasting spellings. -/
theorem respelled_mem_peers (h : ofArguments fresh args = .ok c) {own p : String}
    (hown : args.advertise = some own) (hlasting : Lasting own) (hp : p ∈ args.peers)
    (hrespells : Respells p own) : normalize p ∈ c.peers ↔ ¬ Lasting p := by
  rw [← normalize_respelled hlasting hrespells, mem_peers h hown]
  constructor
  · rintro ⟨p', -, -, hne, heq⟩
    rwa [heq] at hne
  · intro hne
    refine ⟨p, hp, ?_, hne, rfl⟩
    by_contra hblank
    rw [Bool.not_eq_false] at hblank
    have hown' := isBlank_of_respells hrespells hblank
    rw [isBlank_of_lasting hlasting] at hown'
    cases hown'

/-- If all peers named are lasting, the peers of a server with a lasting address hold no respelling
of it. -/
theorem not_respells_of_mem_peers (h : ofArguments fresh args = .ok c) {own q : String}
    (hown : args.advertise = some own) (hlasting : Lasting own)
    (hall : ∀ p ∈ args.peers, isBlank p = false → Lasting p) (hq : q ∈ c.peers) :
    ¬ Respells q own ∧ ¬ Respells q (normalize own) := by
  obtain ⟨p, hp, hblank, hne, rfl⟩ := (mem_peers h hown).mp hq
  have hp := hall p hp hblank
  have hself := (normalize_normalize_iff p).mpr hp
  have hself' := (normalize_normalize_iff own).mpr hlasting
  refine ⟨fun hr => hne ?_, fun hr => hne ?_⟩
  · rw [← hself, (normalize_respelled hlasting hr).mpr (lasting_normalize hp)]
  · rw [← hself, (normalize_respelled (lasting_normalize hlasting) hr).mpr (lasting_normalize hp),
      hself']

/-- The form of an address is its own form exactly if the address is lasting; blanks around an
address and slashes at its end do not change its form, except slashes that follow a blank; and of
the respellings of a lasting address the lasting ones have its form. A server keeps the peers that
are not blank and have not the form of its advertised address, in order, and so takes out exactly
the lasting spellings of a lasting address. -/
theorem peers_without_respellings (a front back p : String) (n : Nat) (fresh : ServerId)
    (args : Arguments) (c : ServerConfig) :
    (normalize (normalize a) = normalize a ↔ Lasting a) ∧
    (isBlank front = true → isBlank back = true →
      (normalize (front ++ (a ++ slashes n ++ back)) = normalize a ↔
        n = 0 ∨ isBlank a = true ∨ FreeEnd Text.isBlank a.toList)) ∧
    (Lasting a → Respells p a → (normalize p = normalize a ↔ Lasting p)) ∧
    (ofArguments fresh args = .ok c →
      c.peers = (args.peers.filter fun q =>
        !isBlank q && some (normalize q) != args.advertise.map normalize).map normalize ∧
      (args.advertise = some a → Lasting a →
        (∀ q ∈ args.peers, Respells q a → (normalize q ∈ c.peers ↔ ¬ Lasting q)) ∧
        ((∀ q ∈ args.peers, isBlank q = false → Lasting q) →
          ∀ q ∈ c.peers, ¬ Respells q a ∧ ¬ Respells q (normalize a)))) := by
  refine ⟨normalize_normalize_iff a, fun hfront hback => ?_, fun ha hp => ?_, fun h => ?_⟩
  · rw [normalize_between_blanks _ hfront hback, normalize_slashes_iff]
  · exact normalize_respelled ha hp
  · refine ⟨peers_ofArguments h, fun hown hlasting => ⟨fun q hq hr => ?_, fun hall q hq => ?_⟩⟩
    · exact respelled_mem_peers h hown hlasting hq hr
    · exact not_respells_of_mem_peers h hown hlasting hall hq

/-- A server that is told of itself, of another one and of nothing. -/
def toldOfItself : Arguments :=
  { Arguments.standard with
    advertise := some "10.0.0.1:8761"
    peers := ["10.0.0.2:8761", " ", " 10.0.0.1:8761// "] }

theorem peers_without_respellings_toldOfItself :
    Respells " 10.0.0.1:8761// " "10.0.0.1:8761" ∧
    normalize (" " ++ ("10.0.0.1:8761" ++ slashes 1 ++ "\t")) = normalize "10.0.0.1:8761" ∧
    normalize " 10.0.0.1:8761// " = normalize "10.0.0.1:8761" ∧
    ∃ c, ofArguments ⟨"a", by decide⟩ toldOfItself = .ok c ∧ c.peers = ["ws://10.0.0.2:8761"] ∧
      normalize " 10.0.0.1:8761// " ∉ c.peers ∧
      ∀ q ∈ c.peers, ¬ Respells q "10.0.0.1:8761" ∧ ¬ Respells q (normalize "10.0.0.1:8761") := by
  have hrespells : Respells " 10.0.0.1:8761// " "10.0.0.1:8761" :=
    ⟨" ", "// ", by decide, by decide, by decide +kernel⟩
  have hown : Lasting "10.0.0.1:8761" := by decide +kernel
  have hlasting : Lasting " 10.0.0.1:8761// " := by decide +kernel
  rcases h : ofArguments ⟨"a", by decide⟩ toldOfItself with e | c
  · have hok : (ofArguments ⟨"a", by decide⟩ toldOfItself).toOption.isSome = true := by
      decide +kernel
    rw [h] at hok
    cases hok
  obtain ⟨-, hbetween, hforms, hlist⟩ := peers_without_respellings
    "10.0.0.1:8761" " " "\t" " 10.0.0.1:8761// " 1 ⟨"a", by decide⟩ toldOfItself c
  obtain ⟨hpeers, hkept⟩ := hlist h
  obtain ⟨htaken, hnone⟩ := hkept rfl hown
  refine ⟨hrespells, (hbetween (by decide) (by decide)).mpr (.inr (.inr ?_)),
    (hforms hown hrespells).mpr hlasting, c, rfl, hpeers.trans (by decide +kernel), ?_,
    hnone (by decide +kernel)⟩
  · decide +kernel
  · rw [htaken _ (by decide +kernel) hrespells, not_not]
    exact hlasting

/-- A slash after a blank: the address has another form than without them, the form of the form is
another one, and a server so told of itself is its own peer. -/
theorem own_peer_of_blankBeforeSlash :
    isBlank "10.0.0.1:8761 /" = false ∧
    normalize (normalize "10.0.0.1:8761 /") ≠ normalize "10.0.0.1:8761 /" ∧
    normalize ("10.0.0.1:8761 " ++ slashes 1) ≠ normalize "10.0.0.1:8761 " ∧
    Respells "10.0.0.1:8761 /" "10.0.0.1:8761" ∧
    (ofArguments ⟨"a", by decide⟩
      { Arguments.standard with
        advertise := some "10.0.0.1:8761"
        peers := ["10.0.0.1:8761 /"] }).toOption.map peers = some ["ws://10.0.0.1:8761 "] := by
  refine ⟨by decide, by decide +kernel, by decide +kernel, ?_, by decide +kernel⟩
  exact ⟨"", " /", by decide, by decide, by decide +kernel⟩

end ServerConfig

end LeaseRegistry
