import Mathlib.Data.List.DropRight
import LeaseRegistry.Text.Blank

/-!
# Trimmed texts

Trimming a text leaves a text that does not begin, or end, in the characters trimmed, and drops
nothing else.
-/

namespace LeaseRegistry.Text

variable {p : Char → Bool} {cs ds : List Char}

/-- The text does not begin with a character in `p`. -/
def FreeStart (p : Char → Bool) (cs : List Char) : Prop := ∀ c ∈ cs.head?, p c = false

/-- The text does not end with a character in `p`. -/
def FreeEnd (p : Char → Bool) (cs : List Char) : Prop := ∀ c ∈ cs.getLast?, p c = false

instance : Decidable (FreeStart p cs) :=
  decidable_of_iff (cs.head?.any p = false) (by cases h : cs.head? <;> simp [FreeStart, h])

instance : Decidable (FreeEnd p cs) :=
  decidable_of_iff (cs.getLast?.any p = false) (by cases h : cs.getLast? <;> simp [FreeEnd, h])

theorem freeEnd_reverse : FreeEnd p cs.reverse ↔ FreeStart p cs := by
  rw [FreeEnd, FreeStart, List.getLast?_reverse]

theorem FreeStart.of_isPrefix (h : FreeStart p cs) (hd : ds <+: cs) : FreeStart p ds := by
  obtain ⟨es, rfl⟩ := hd
  intro c hc
  exact h c (by rw [List.head?_append, Option.mem_def.mp hc]; rfl)

theorem FreeStart.append (h : FreeStart p cs) (hne : cs ≠ []) : FreeStart p (cs ++ ds) := by
  intro c hc
  rw [List.head?_append_of_ne_nil _ hne] at hc
  exact h c hc

theorem FreeEnd.append (h : FreeEnd p ds) (hne : ds ≠ []) : FreeEnd p (cs ++ ds) := by
  intro c hc
  rw [List.getLast?_append_of_ne_nil _ hne] at hc
  exact h c hc

theorem freeStart_trimStart : FreeStart p (trimStart p cs) := by
  intro c hc
  have := List.head?_dropWhile_not p cs
  rwa [← trimStart, Option.mem_def.mp hc] at this

theorem freeEnd_trimEnd : FreeEnd p (trimEnd p cs) :=
  freeEnd_reverse.mpr freeStart_trimStart

theorem exists_trimStart (p : Char → Bool) (cs : List Char) :
    ∃ front, front.all p = true ∧ cs = front ++ trimStart p cs :=
  ⟨cs.takeWhile p, List.all_takeWhile, List.takeWhile_append_dropWhile.symm⟩

theorem exists_trimEnd (p : Char → Bool) (cs : List Char) :
    ∃ back, back.all p = true ∧ cs = trimEnd p cs ++ back := by
  obtain ⟨front, hfront, h⟩ := exists_trimStart p cs.reverse
  refine ⟨front.reverse, by rwa [List.all_reverse], ?_⟩
  calc cs = (front ++ trimStart p cs.reverse).reverse := by rw [← h, List.reverse_reverse]
    _ = trimEnd p cs ++ front.reverse := List.reverse_append

theorem trimEnd_prefix : trimEnd p cs <+: cs := List.rdropWhile_prefix p cs

theorem trimStart_eq_self (h : FreeStart p cs) : trimStart p cs = cs := by
  cases cs with
  | nil => rfl
  | cons c cs => rw [trimStart, List.dropWhile_cons_of_neg (by simp [h c rfl])]

theorem trimEnd_eq_self (h : FreeEnd p cs) : trimEnd p cs = cs := by
  have hr : FreeStart p cs.reverse := by rwa [← freeEnd_reverse, List.reverse_reverse]
  rw [trimEnd, ← trimStart, trimStart_eq_self hr, List.reverse_reverse]

/-- A text between characters in `p` that has none of them at its ends is what trimming finds. -/
theorem trim_eq {front back : List Char} (hfront : front.all p = true) (hback : back.all p = true)
    (hstart : FreeStart p cs) (hend : FreeEnd p cs) : trim p (front ++ (cs ++ back)) = cs := by
  cases cs with
  | nil =>
    rw [trim, trimStart_append_of_all hfront, List.nil_append, trimStart,
      dropWhile_eq_nil_of_all hback]
    rfl
  | cons c cs =>
    rw [trim, trimStart_append_of_all hfront,
      trimStart_eq_self (hstart.append (List.cons_ne_nil c cs)), trimEnd_append_of_all hback,
      trimEnd_eq_self hend]

theorem trimEnd_eq_nil_of_all (h : cs.all p = true) : trimEnd p cs = [] := by
  simpa [trimEnd] using @trimEnd_append_of_all p [] cs h

theorem trimStart_append (h : FreeStart p ds) : trimStart p (cs ++ ds) = trimStart p cs ++ ds := by
  rw [trimStart, trimStart, List.dropWhile_append]
  split
  case isTrue hnil =>
    rw [List.isEmpty_iff.mp hnil, ← trimStart, trimStart_eq_self h, List.nil_append]
  case isFalse => rfl

theorem getLast?_trimStart (h : trimStart p cs ≠ []) :
    (trimStart p cs).getLast? = cs.getLast? := by
  obtain ⟨front, -, hcs⟩ := exists_trimStart p cs
  rw [hcs, List.getLast?_append_of_ne_nil _ (hcs ▸ h), ← hcs]

theorem trimStart_eq_nil_iff : trimStart p cs = [] ↔ cs.all p = true := by
  rw [trimStart, List.dropWhile_eq_nil_iff, List.all_eq_true]

/-- What is put at the end of a text to be dropped there changes nothing, also if the text is
nothing but characters dropped at the start. -/
theorem trimEnd_trimStart_append {q : Char → Bool} (hds : ds.all q = true) :
    trimEnd q (trimStart p (cs ++ ds)) = trimEnd q (trimStart p cs) := by
  by_cases h : (cs.dropWhile p).isEmpty
  · have hds' : (ds.dropWhile p).all q = true :=
      List.all_eq_true.mpr fun c hc =>
        List.all_eq_true.mp hds c ((List.dropWhile_suffix p).subset hc)
    rw [trimStart, trimStart, List.dropWhile_append, if_pos h, List.isEmpty_iff.mp h,
      trimEnd_eq_nil_of_all hds']
    rfl
  · rw [trimStart, trimStart, List.dropWhile_append, if_neg h, trimEnd_append_of_all hds]

end LeaseRegistry.Text
