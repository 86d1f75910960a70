/-!
# Texts as bytes

A text is its UTF-8 bytes, and reading the bytes gives the text back.
-/

namespace LeaseRegistry.Text

theorem toList_loop (b : ByteArray) (i : Nat) (l : List UInt8) :
    ByteArray.toList.loop b i l = l.reverse ++ b.data.toList.drop i := by
  fun_induction ByteArray.toList.loop b i l with
  | case1 i l h ih =>
    have hi : i < b.data.toList.length := by simpa using h
    rw [ih, List.drop_eq_getElem_cons hi]
    simp [ByteArray.get!, getElem!_pos, h]
  | case2 i l h =>
    have hi : b.data.toList.length ≤ i := by simpa using h
    rw [List.drop_eq_nil_of_le hi, List.append_nil]

/-- The bytes of a text, as a list. -/
theorem toList_toUTF8 (t : String) : t.toUTF8.toList = t.toByteArray.data.toList := by
  simp [ByteArray.toList, toList_loop]

@[simp] theorem length_toUTF8 (t : String) : t.toUTF8.toList.length = t.utf8ByteSize := by
  rw [toList_toUTF8]
  simp

@[simp] theorem fromUTF8?_toUTF8 (t : String) :
    String.fromUTF8? ⟨t.toUTF8.toList.toArray⟩ = some t := by
  rw [toList_toUTF8, Array.toArray_toList]
  simp only [String.fromUTF8?, t.isValidUTF8, ↓reduceDIte]
  rfl

end LeaseRegistry.Text
