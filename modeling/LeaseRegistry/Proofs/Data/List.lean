import Mathlib.Data.List.DropRight

/-!
# Facts about lists

Positions in a list after a change of one element, the last elements of a list, and lists that are
cut into pieces at a mark.
-/

namespace LeaseRegistry

variable {α β : Type} {l : List α} {a b x : α} {n : Nat}

/-- The first elements with two properties are the same if they both have both. -/
theorem eq_of_find?_eq_some {f g : α → Bool} (ha : l.find? f = some a) (hb : l.find? g = some b)
    (hga : g a = true) (hfb : f b = true) : a = b := by
  induction l with
  | nil => cases ha
  | cons x l ih =>
    by_cases hx : f x = true
    · rw [List.find?_cons_of_pos hx] at ha
      cases ha
      rw [List.find?_cons_of_pos hga] at hb
      exact Option.some.inj hb
    · rw [List.find?_cons_of_neg hx] at ha
      by_cases hgx : g x = true
      · rw [List.find?_cons_of_pos hgx] at hb
        cases hb
        exact absurd hfb hx
      · rw [List.find?_cons_of_neg hgx] at hb
        exact ih ha hb

/-! ## One element changes -/

theorem forall_mem_modify {P : α → Prop} (h : ∀ a ∈ l, P a) {f : α → α} (hf : ∀ a, P a → P (f a)) :
    ∀ a ∈ l.modify n f, P a := by
  intro a ha
  obtain ⟨k, hk⟩ := List.mem_iff_getElem?.mp ha
  rw [List.getElem?_modify] at hk
  obtain ⟨b, hb, rfl⟩ := Option.map_eq_some_iff.mp hk
  have hP := h b (List.mem_of_getElem? hb)
  split
  · exact hf b hP
  · exact hP

theorem getElem?_set_of_eq_some (h : l[n]? = some a) (b : α) : (l.set n b)[n]? = some b := by
  rw [List.getElem?_set_self (List.getElem?_eq_some_iff.mp h).1]

theorem filterMap_set {f : α → Option β} (ha : l[n]? = some a) (h : f b = f a) :
    (l.set n b).filterMap f = l.filterMap f := by
  induction l generalizing n with
  | nil => rfl
  | cons x l ih =>
    cases n with
    | zero =>
      cases ha
      rw [List.set_cons_zero, List.filterMap_cons, List.filterMap_cons, h]
    | succ n => rw [List.set_cons_succ, List.filterMap_cons, List.filterMap_cons, ih ha]

/-! ## Last elements and pieces -/

theorem le_length_rtakeWhile_iff (p : α → Bool) (l : List α) (n : Nat) :
    n ≤ (l.rtakeWhile p).length ↔ n ≤ l.length ∧ ∀ a ∈ l.rtake n, p a := by
  induction l using List.reverseRecOn generalizing n with
  | nil => simp
  | append_singleton l a ih =>
    cases n with
    | zero => simp
    | succ n =>
      by_cases ha : p a
      · rw [List.rtakeWhile_concat_pos _ _ _ ha, List.rtake_concat_succ, List.length_append,
          List.length_append, List.forall_mem_append, List.forall_mem_singleton]
        simp only [List.length_singleton, Nat.add_le_add_iff_right, ih, ha, and_true]
      · rw [List.rtakeWhile_concat_neg _ _ _ ha, List.rtake_concat_succ]
        simp [ha]

variable [DecidableEq α]

theorem length_splitOn (l : List α) (x : α) : (l.splitOn x).length = l.count x + 1 := by
  induction l with
  | nil => rfl
  | cons a l ih =>
    rw [List.splitOn_cons_eq_if_modifyHead, List.count_cons]
    split
    · rw [List.length_cons, ih]
    · rw [List.length_modifyHead, ih]

/-- What comes after the last mark is the last piece. -/
theorem splitOn_append_of_last (front : List α) {back : List α} (h : x ∉ back) :
    (front ++ x :: back).splitOn x = front.splitOn x ++ [back] := by
  rw [List.splitOn_append_cons_self, List.splitOn_eq_singleton h]

theorem splitOn_concat_of_ne (hne : x ≠ a) {pieces : List (List α)} {last : List α}
    (h : l.splitOn x = pieces ++ [last]) : (l ++ [a]).splitOn x = pieces ++ [last ++ [a]] := by
  have hconcat {back : List α} (hback : x ∉ back) : x ∉ back ++ [a] := by
    simp [hback, hne]
  by_cases hx : x ∈ l
  · -- the piece that grows is what comes after the last mark
    obtain ⟨back, front, hl, hback⟩ := List.eq_append_cons_of_mem (List.mem_reverse.mpr hx)
    obtain rfl : l = front.reverse ++ x :: back.reverse := by
      rw [← List.reverse_reverse l, hl]
      simp
    rw [← List.mem_reverse] at hback
    rw [splitOn_append_of_last _ hback] at h
    obtain ⟨rfl, hlast⟩ := List.append_inj' h rfl
    cases hlast
    rw [List.append_assoc, List.cons_append, splitOn_append_of_last _ (hconcat hback)]
  · -- there is one piece, the whole list
    rw [List.splitOn_eq_singleton hx] at h
    obtain ⟨rfl, hlast⟩ := List.append_inj' (show [] ++ [l] = pieces ++ [last] from h) rfl
    cases hlast
    exact List.splitOn_eq_singleton (hconcat hx)

end LeaseRegistry
