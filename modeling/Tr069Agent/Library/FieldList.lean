import Tr069Agent.Library.Lines

/-! # Lists of fields that are changed as texts

Fields behind the last one are added with their separators, and the last one is replaced by what is put
behind the last separator.
-/

namespace Tr069Agent.Library.Lines

set_option autoImplicit false

variable {sep : Char}

theorem length_splitOn (text : Text) : (text.splitOn sep).length = text.count sep + 1 := by
  induction text with
  | nil => rfl
  | cons c text ih =>
    rw [List.splitOn_cons_eq_if_modifyHead, List.count_cons]
    split <;> simp_all

theorem splitOn_of_notMem {text : Text} (h : sep ∉ text) : text.splitOn sep = [text] := by
  have hJoin : (join sep [text]).splitOn sep = [text] := splitOn_join (by simpa using h) (by simp)
  rwa [join_singleton] at hJoin

theorem length_splitOn_eq_one {text : Text} : (text.splitOn sep).length = 1 ↔ sep ∉ text := by
  rw [length_splitOn, Nat.add_eq_right, List.count_eq_zero]

theorem splitOn_replicate_append (k : Nat) (last : Text) :
    (List.replicate k sep ++ last).splitOn sep = List.replicate k [] ++ last.splitOn sep := by
  induction k with
  | zero => rfl
  | succ k ih => rw [List.replicate_succ, List.cons_append, ← List.nil_append (sep :: _), splitOn_append_cons, ih]; rfl

/-- Where `k + 1` separators follow, `k` empty fields come before the new ones. -/
theorem splitOn_append_replicate (text : Text) (k : Nat) (last : Text) :
    (text ++ List.replicate (k + 1) sep ++ last).splitOn sep =
      text.splitOn sep ++ List.replicate k [] ++ last.splitOn sep := by
  rw [List.replicate_succ, List.append_assoc, List.cons_append, splitOn_append_cons, splitOn_replicate_append,
    List.append_assoc]

/-- A text with a separator in it, up to its last field. -/
theorem exists_last_field {text : Text} (h : sep ∈ text) :
    ∃ front field, text = front ++ sep :: field ∧ sep ∉ field := by
  obtain ⟨before, after, hReverse, hBefore⟩ := List.eq_append_cons_of_mem (List.mem_reverse.mpr h)
  refine ⟨after.reverse, before.reverse, ?_, by simpa using hBefore⟩
  rw [← List.reverse_reverse text, hReverse]
  simp

theorem rdropWhile_last_field {front field : Text} (h : sep ∉ field) :
    (front ++ sep :: field).rdropWhile (· ≠ sep) = front ++ [sep] := by
  have hField : ∀ c ∈ field.reverse, decide (c ≠ sep) = true := by
    intro c hMem
    simp only [ne_eq, decide_not, Bool.not_eq_true', decide_eq_false_iff_not]
    rintro rfl
    exact h (List.mem_reverse.mp hMem)
  rw [List.rdropWhile, List.reverse_append, List.reverse_cons, List.append_assoc, List.dropWhile_append_of_pos hField]
  simp

/-- The last field is replaced by what is put behind the last separator. -/
theorem splitOn_rdropWhile_append (text last : Text) :
    (text.rdropWhile (· ≠ sep) ++ last).splitOn sep = (text.splitOn sep).dropLast ++ last.splitOn sep := by
  by_cases hSep : sep ∈ text
  · obtain ⟨front, field, rfl, hField⟩ := exists_last_field hSep
    rw [rdropWhile_last_field hField, List.append_assoc, List.singleton_append, splitOn_append_cons,
      splitOn_append_cons, splitOn_of_notMem hField, List.dropLast_concat]
  · have hNone : text.rdropWhile (· ≠ sep) = [] := by
      rw [List.rdropWhile_eq_nil_iff]
      rintro c hMem
      simp only [ne_eq, decide_not, Bool.not_eq_true', decide_eq_false_iff_not]
      rintro rfl
      exact hSep hMem
    rw [hNone, splitOn_of_notMem hSep]
    rfl

end Tr069Agent.Library.Lines
