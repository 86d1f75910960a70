/-!
# Finite sets in ascending order

A set is the strictly ascending list of its elements, so two sets are equal exactly when they
have the same elements, and every listing of a set is its one canonical order. The order is the
type's `Ord` instance.
-/

namespace LeaseRegistry

/-- A finite set, held as its elements in ascending order. -/
structure SortedSet (α : Type) [Ord α] where
  toList : List α
  ascending : toList.Pairwise fun a b => compare a b = .lt

namespace SortedSet

variable {α : Type} [Ord α]

instance [DecidableEq α] : DecidableEq (SortedSet α) := fun s t =>
  if h : s.toList = t.toList then
    isTrue (by cases s; cases t; cases h; rfl)
  else
    isFalse fun e => h (congrArg toList e)

instance [Repr α] : Repr (SortedSet α) where
  reprPrec s n := reprPrec s.toList n

@[ext] theorem ext_toList {s t : SortedSet α} (h : s.toList = t.toList) : s = t := by
  cases s; cases t; cases h; rfl

def empty : SortedSet α := ⟨[], .nil⟩

instance : EmptyCollection (SortedSet α) := ⟨empty⟩

instance : Inhabited (SortedSet α) := ⟨empty⟩

@[simp] theorem toList_empty : (∅ : SortedSet α).toList = [] := rfl

/-- Puts `a` in front of the first greater element; an equal element stays as it is. -/
def insertInto (a : α) : List α → List α
  | [] => [a]
  | b :: bs =>
    match compare a b with
    | .lt => a :: b :: bs
    | .eq => b :: bs
    | .gt => b :: insertInto a bs

theorem mem_insertInto {a x : α} {l : List α} (h : x ∈ insertInto a l) : x = a ∨ x ∈ l := by
  induction l with
  | nil => exact .inl (List.mem_singleton.mp h)
  | cons b bs ih =>
    unfold insertInto at h
    split at h
    · exact List.mem_cons.mp h
    · exact .inr h
    · rcases List.mem_cons.mp h with h | h
      · exact .inr (h ▸ List.mem_cons_self)
      · rcases ih h with h | h
        · exact .inl h
        · exact .inr (List.mem_cons_of_mem _ h)

theorem pairwise_insertInto [Std.TransOrd α] {a : α} {l : List α}
    (h : l.Pairwise fun a b => compare a b = .lt) :
    (insertInto a l).Pairwise fun a b => compare a b = .lt := by
  induction l with
  | nil => exact List.pairwise_singleton _ _
  | cons b bs ih =>
    obtain ⟨hb, hbs⟩ := List.pairwise_cons.mp h
    unfold insertInto
    split
    · rename_i hab
      refine List.pairwise_cons.mpr ⟨fun x hx => ?_, h⟩
      rcases List.mem_cons.mp hx with rfl | hx
      · exact hab
      · exact Std.TransCmp.lt_trans hab (hb x hx)
    · exact h
    · rename_i hab
      refine List.pairwise_cons.mpr ⟨fun x hx => ?_, ih hbs⟩
      rcases mem_insertInto hx with rfl | hx
      · exact Std.OrientedCmp.lt_of_gt hab
      · exact hb x hx

variable [Std.TransOrd α]

def insert (s : SortedSet α) (a : α) : SortedSet α :=
  ⟨insertInto a s.toList, pairwise_insertInto s.ascending⟩

/-- The set of the elements of a list, in whatever order and however often they occur. -/
def ofList (l : List α) : SortedSet α :=
  l.foldl insert ∅

@[simp] theorem toList_insert (s : SortedSet α) (a : α) :
    (s.insert a).toList = insertInto a s.toList := rfl

theorem insertInto_of_last {a : α} {l : List α} (h : ∀ b ∈ l, compare b a = .lt) :
    insertInto a l = l ++ [a] := by
  induction l with
  | nil => rfl
  | cons b bs ih =>
    have hb := Std.OrientedCmp.gt_of_lt (h b List.mem_cons_self)
    simp only [insertInto, hb, List.cons_append]
    rw [ih fun x hx => h x (List.mem_cons_of_mem _ hx)]

theorem toList_foldl_insert {s : SortedSet α} {l : List α}
    (h : (s.toList ++ l).Pairwise fun a b => compare a b = .lt) :
    (l.foldl insert s).toList = s.toList ++ l := by
  induction l generalizing s with
  | nil => simp
  | cons a l ih =>
    have hs : (s.insert a).toList = s.toList ++ [a] :=
      insertInto_of_last fun b hb => (List.pairwise_append.mp h).2.2 b hb a List.mem_cons_self
    rw [List.foldl_cons, ih (by rw [hs]; simpa using h), hs, List.append_assoc]
    rfl

/-- Listing a set and collecting the list again gives the set. -/
@[simp] theorem ofList_toList (s : SortedSet α) : ofList s.toList = s := by
  apply ext_toList
  have := toList_foldl_insert (s := (∅ : SortedSet α)) (l := s.toList) (by simpa using s.ascending)
  simpa [ofList] using this

end SortedSet

end LeaseRegistry
