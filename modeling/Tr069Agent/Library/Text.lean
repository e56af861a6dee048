import Mathlib.Algebra.Group.Int.Defs
import Mathlib.Algebra.Group.Nat.Defs
import Mathlib.Data.List.Infix

/-! # Texts

A text is the list of its characters, as a C string is up to its terminating zero.
-/

namespace Tr069Agent.Library

set_option autoImplicit false

abbrev Text := List Char

instance : LawfulBEq Text := inferInstance

namespace Text

/-- Whether `pattern` occurs in `text`. -/
def strstr (text pattern : Text) : Bool := decide (pattern <:+: text)

@[simp]
theorem strstr_eq_true_iff {text pattern : Text} : strstr text pattern = true ↔ pattern <:+: text := by
  simp [strstr]

@[simp]
theorem strstr_eq_false_iff {text pattern : Text} :
    strstr text pattern = false ↔ ¬ pattern <:+: text := by
  simp [strstr]

/-- The number of places where `pattern` occurs. -/
def occurrences (pattern : Text) : Text → Nat
  | [] => if pattern = [] then 1 else 0
  | c :: text => (if pattern <+: c :: text then 1 else 0) + occurrences pattern text

theorem occurrences_pos_of_infix {pattern text : Text} (h : pattern <:+: text) :
    0 < occurrences pattern text := by
  induction text with
  | nil => simp [occurrences, List.infix_nil.mp h]
  | cons c text ih =>
    rcases List.infix_cons_iff.mp h with hHere | hLater
    · simp only [occurrences, hHere, if_true]
      omega
    · have := ih hLater
      simp only [occurrences]
      omega

theorem occurrences_append_le (pattern left right : Text) (h : pattern ≠ []) :
    occurrences pattern left + occurrences pattern right ≤ occurrences pattern (left ++ right) := by
  induction left with
  | nil => simp [occurrences, h]
  | cons c left ih =>
    simp only [List.cons_append, occurrences]
    by_cases hHere : pattern <+: c :: left
    · have : pattern <+: c :: (left ++ right) := hHere.trans (List.prefix_append (c :: left) right)
      simp only [hHere, this, if_true]
      omega
    · simp only [hHere, if_false]
      omega

/-- A pattern that occurs once and lies in one part lies in no other. -/
theorem not_infix_right_of_once {pattern left right : Text} (hPattern : pattern ≠ [])
    (hOnce : occurrences pattern (left ++ right) = 1) (hLeft : pattern <:+: left) :
    ¬ pattern <:+: right := by
  intro hRight
  have := occurrences_append_le pattern left right hPattern
  have := occurrences_pos_of_infix hLeft
  have := occurrences_pos_of_infix hRight
  omega

theorem idxOf?_append_cons {c : Char} {left : Text} (h : c ∉ left) (right : Text) :
    (left ++ c :: right).idxOf? c = some left.length := by
  induction left with
  | nil => simp [List.idxOf?_cons]
  | cons d left ih =>
    obtain ⟨hHead, hTail⟩ := List.ne_and_not_mem_of_not_mem_cons h
    simp [List.idxOf?_cons, hHead.symm, ih hTail]

/-- A beginning of `left ++ c :: right` that holds `c`, absent from `left`, goes beyond `left`. -/
theorem exists_eq_of_isPrefix {c : Char} {left right text : Text} (h : c ∉ left)
    (hPrefix : text <+: left ++ c :: right) (hMem : c ∈ text) :
    ∃ tail, text = left ++ c :: tail := by
  induction left generalizing text with
  | nil =>
    obtain ⟨d, tail, rfl⟩ := List.exists_cons_of_ne_nil (List.ne_nil_of_mem hMem)
    obtain ⟨rfl, -⟩ := List.cons_prefix_cons.mp hPrefix
    exact ⟨tail, rfl⟩
  | cons d left ih =>
    obtain ⟨hHead, hTail⟩ := List.ne_and_not_mem_of_not_mem_cons h
    obtain ⟨e, tail, rfl⟩ := List.exists_cons_of_ne_nil (List.ne_nil_of_mem hMem)
    obtain ⟨rfl, hRest⟩ := List.cons_prefix_cons.mp hPrefix
    obtain ⟨tail', rfl⟩ := ih hTail hRest ((List.mem_cons.mp hMem).resolve_left hHead)
    exact ⟨tail', rfl⟩

end Text

end Tr069Agent.Library
