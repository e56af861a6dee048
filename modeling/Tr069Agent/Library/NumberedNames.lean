import Mathlib.Data.List.Infix
import Mathlib.Tactic.Common
import Tr069Agent.Library.Decimal

/-! # Numbered children in a tree of names

A name tells its place in the tree by the names it begins with. An inner name ends with the separator,
and its numbered children are named by their number in base ten and the separator again.
-/

namespace Tr069Agent.Library.NumberedNames

open Decimal

set_option autoImplicit false

variable (sep : Char)

/-- The separator comes last. -/
def IsInner (name : Text) : Prop := name.getLast? = some sep

def child (owner : Text) (n : Nat) : Text := owner ++ (showInt n ++ [sep])

/-- The number of the child of `owner` that `name` is, or that it lies under. -/
def numberBelow (owner name : Text) : Option Nat :=
  let n := Nat.ofDigitChars 10 ((name.drop owner.length).takeWhile Char.isDigit) 0
  if child sep owner n <+: name then some n else none

variable {sep} {owner other name rest : Text} {n k : Nat}

theorem isInner_child : IsInner sep (child sep owner n) := by
  simp [IsInner, child]

theorem owner_prefix_child : owner <+: child sep owner n := List.prefix_append _ _

theorem child_ne_owner : child sep owner n ≠ owner := by
  intro h
  have hLength := congrArg List.length h
  simp only [child, List.length_append, List.length_singleton] at hLength
  omega

theorem sep_mem_of_isInner (h : IsInner sep name) : sep ∈ name := List.mem_of_getLast? h

theorem number_of_prefix (hSep : sep.isDigit = false) (h : child sep owner n <+: name) :
    Nat.ofDigitChars 10 ((name.drop owner.length).takeWhile Char.isDigit) 0 = n := by
  obtain ⟨rest, rfl⟩ := h
  have hRest : ∀ c ∈ (sep :: rest).head?, c.isDigit = false := by simpa using hSep
  have hTake : (Nat.toDigits 10 n ++ sep :: rest).takeWhile Char.isDigit = Nat.toDigits 10 n :=
    takeWhile_digits_append n hRest
  have hDrop : (child sep owner n ++ rest).drop owner.length = Nat.toDigits 10 n ++ sep :: rest := by
    simp [child, showInt]
  rw [hDrop, hTake, Nat.ofDigitChars_ten_toDigits]

theorem numberBelow_eq_some_iff (hSep : sep.isDigit = false) :
    numberBelow sep owner name = some n ↔ child sep owner n <+: name := by
  constructor
  · intro h
    dsimp only [numberBelow] at h
    split at h
    · rename_i hPrefix
      rwa [← Option.some.inj h]
    · cases h
  · intro h
    have hNumber := number_of_prefix hSep h
    rw [numberBelow, hNumber, if_pos h]

/-- One name lies under one numbered child at most. -/
theorem number_unique (hSep : sep.isDigit = false) (hLeft : child sep owner n <+: name)
    (hRight : child sep owner k <+: name) : n = k := by
  rw [← number_of_prefix hSep hLeft, number_of_prefix hSep hRight]

theorem sep_notMem_showInt (hSep : sep.isDigit = false) (hSign : sep ≠ '-') : sep ∉ showInt n :=
  not_mem_showInt hSep hSign n

/-- An inner name that begins with `owner` and is one of the beginnings of a name under child `n` is
`owner` or lies under that child. -/
theorem eq_or_child_prefix (hSep : sep.isDigit = false) (hSign : sep ≠ '-') (hOther : IsInner sep other)
    (hOwner : owner <+: other) (h : other <+: child sep owner n ++ rest) :
    other = owner ∨ child sep owner n <+: other := by
  obtain ⟨tail, rfl⟩ := hOwner
  obtain rfl | hTail := eq_or_ne tail []
  · exact .inl (List.append_nil owner)
  · have hLast : IsInner sep tail := by
      rwa [IsInner, List.getLast?_append_of_ne_nil _ hTail] at hOther
    rw [child, List.append_assoc, List.append_assoc, List.prefix_append_right_inj] at h
    obtain ⟨below, rfl⟩ := Text.exists_eq_of_isPrefix (sep_notMem_showInt hSep hSign) h
      (sep_mem_of_isInner hLast)
    refine .inr ⟨below, ?_⟩
    simp [child]

/-- Where a numbered child of `other` can lie that a name under child `n` of `owner` belongs to. -/
theorem child_prefix_cases (hSep : sep.isDigit = false) (hSign : sep ≠ '-') (hOwner : IsInner sep owner)
    (hOther : IsInner sep other) (h : child sep other k <+: child sep owner n ++ rest) :
    child sep other k <+: owner ∨ other = owner ∧ k = n ∨ child sep owner n <+: other := by
  have hWhole : owner <+: child sep owner n ++ rest :=
    owner_prefix_child.trans (List.prefix_append _ _)
  have hOtherWhole : other <+: child sep owner n ++ rest := owner_prefix_child.trans h
  obtain hBelow | hAbove := List.prefix_or_prefix_of_prefix hWhole hOtherWhole
  · obtain rfl | hChild := eq_or_child_prefix hSep hSign hOther hBelow hOtherWhole
    · exact .inr (.inl ⟨rfl, number_unique hSep h (List.prefix_append _ _)⟩)
    · exact .inr (.inr hChild)
  · obtain hIn | hOut := List.prefix_or_prefix_of_prefix h hWhole
    · exact .inl hIn
    · -- `owner` lies between `other` and its child
      have hOut' : owner <+: child sep other k ++ [] := by rwa [List.append_nil]
      obtain rfl | hSame := eq_or_child_prefix hSep hSign hOwner hAbove hOut'
      · exact .inr (.inl ⟨rfl, number_unique hSep h (List.prefix_append _ _)⟩)
      · exact .inl hSame

end Tr069Agent.Library.NumberedNames
