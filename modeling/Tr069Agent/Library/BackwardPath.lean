import Mathlib.Data.List.TakeWhile
import Mathlib.Tactic.Common

/-! # Paths read from the end

A path is a list of components with a separator between two of them. A reader that goes from the end to the
beginning meets the components in the opposite order, and each one without its separators.
-/

namespace Tr069Agent.Library.BackwardPath

set_option autoImplicit false

variable {α : Type*} {sep : α}

/-- The path of the components from the last to the first. -/
def joinBack (sep : α) : List (List α) → List α
  | [] => []
  | [c] => c
  | c :: d :: rest => joinBack sep (d :: rest) ++ sep :: c

theorem joinBack_cons {rest : List (List α)} (h : rest ≠ []) (c : List α) :
    joinBack sep (c :: rest) = joinBack sep rest ++ sep :: c := by
  cases rest with
  | nil => exact absurd rfl h
  | cons d rest => rfl

theorem reverse_joinBack_cons {rest : List (List α)} (h : rest ≠ []) (c : List α) :
    (joinBack sep (c :: rest)).reverse = c.reverse ++ sep :: (joinBack sep rest).reverse := by
  rw [joinBack_cons h, List.reverse_append, List.reverse_cons, List.append_assoc, List.singleton_append]

theorem joinBack_eq_nil_iff {c : List α} {rest : List (List α)} : joinBack sep (c :: rest) = [] ↔ c :: rest = [[]] := by
  cases rest with
  | nil => simp [joinBack]
  | cons d rest => simp [joinBack]

theorem joinBack_prefix_joinBack {rest : List (List α)} (h : rest ≠ []) (c : List α) :
    joinBack sep rest ++ [sep] <+: joinBack sep (c :: rest) := by
  rw [joinBack_cons h]
  exact (List.prefix_append_right_inj _).mpr (List.cons_prefix_cons.mpr ⟨rfl, List.nil_prefix⟩)

theorem joinBack_prefix_of_suffix {left comps : List (List α)} (hNe : left ≠ []) (h : left <:+ comps) :
    joinBack sep left ++ [sep] <+: joinBack sep comps ++ [sep] := by
  obtain ⟨front, rfl⟩ := h
  induction front with
  | nil => exact List.prefix_refl _
  | cons c front ih =>
    have hRest : front ++ left ≠ [] := List.append_ne_nil_of_right_ne_nil front hNe
    exact ih.trans ((joinBack_prefix_joinBack hRest c).trans (List.prefix_append _ _))

theorem length_le_joinBack (c : List α) (rest : List (List α)) :
    rest.length ≤ (joinBack sep (c :: rest)).length := by
  induction rest generalizing c with
  | nil => exact Nat.zero_le _
  | cons d rest ih =>
    have hRest := ih d
    rw [joinBack, List.length_append, List.length_cons, List.length_cons]
    omega

theorem intercalate_append_singleton {comps : List (List α)} (h : comps ≠ []) (c : List α) :
    List.intercalate [sep] (comps ++ [c]) = List.intercalate [sep] comps ++ sep :: c := by
  induction comps with
  | nil => exact absurd rfl h
  | cons d comps ih =>
    cases comps with
    | nil => simp
    | cons e comps =>
      have hRest := ih (List.cons_ne_nil _ _)
      rw [List.cons_append] at hRest
      rw [List.cons_append, List.cons_append, List.intercalate_cons_cons, hRest, List.intercalate_cons_cons]
      simp only [List.append_assoc]

theorem joinBack_eq_intercalate (comps : List (List α)) :
    joinBack sep comps = List.intercalate [sep] comps.reverse := by
  induction comps with
  | nil => rfl
  | cons c comps ih =>
    cases comps with
    | nil => simp [joinBack]
    | cons d comps =>
      have hNe : (d :: comps).reverse ≠ [] := by simp
      rw [joinBack_cons (List.cons_ne_nil _ _), ih, @List.reverse_cons _ c, intercalate_append_singleton hNe]

section While

variable {p : α → Bool} {l : List α} {x : α}

theorem takeWhile_append_cons (hPass : ∀ y ∈ l, p y = true) (hStop : p x = false) (rest : List α) :
    (l ++ x :: rest).takeWhile p = l := by
  rw [List.takeWhile_append_of_pos hPass, List.takeWhile_cons_of_neg (by simp [hStop]), List.append_nil]

theorem dropWhile_append_cons (hPass : ∀ y ∈ l, p y = true) (hStop : p x = false) (rest : List α) :
    (l ++ x :: rest).dropWhile p = x :: rest := by
  rw [List.dropWhile_append_of_pos hPass, List.dropWhile_cons_of_neg (by simp [hStop])]

theorem exists_stop (h : l.all p = false) :
    ∃ left y right, l = left ++ y :: right ∧ p y = false ∧ ∀ z ∈ right, p z = true := by
  induction l with
  | nil => cases h
  | cons y l ih =>
    cases hRest : l.all p with
    | false =>
      obtain ⟨left, z, right, rfl, hStop, hPass⟩ := ih hRest
      exact ⟨y :: left, z, right, rfl, hStop, hPass⟩
    | true =>
      rw [List.all_cons, hRest, Bool.and_true] at h
      exact ⟨[], y, l, rfl, h, List.all_eq_true.mp hRest⟩

end While

section Reading

variable [DecidableEq α]

/-- The components of a path from the last to the first. -/
def componentsBack (sep : α) (path : List α) : List (List α) := (path.splitOn sep).reverse

theorem joinBack_componentsBack (path : List α) : joinBack sep (componentsBack sep path) = path := by
  rw [joinBack_eq_intercalate, componentsBack, List.reverse_reverse, List.intercalate_splitOn]

theorem sep_notMem_of_mem_splitOn {path c : List α} (h : c ∈ path.splitOn sep) : sep ∉ c := by
  induction path generalizing c with
  | nil =>
    rw [List.splitOn_nil, List.mem_singleton] at h
    rw [h]
    exact List.not_mem_nil
  | cons x path ih =>
    rw [List.splitOn_cons_eq_if_modifyHead] at h
    split at h
    · obtain rfl | hRest := List.mem_cons.mp h
      · exact List.not_mem_nil
      · exact ih hRest
    · rename_i hSep
      cases hSplit : path.splitOn sep with
      | nil => exact absurd hSplit (List.splitOn_ne_nil sep path)
      | cons d comps =>
        rw [hSplit] at h ih
        obtain rfl | hRest := List.mem_cons.mp h
        · intro hMem
          obtain rfl | hMem := List.mem_cons.mp hMem
          · exact hSep (beq_self_eq_true _)
          · exact ih List.mem_cons_self hMem
        · exact ih (List.mem_cons_of_mem d hRest)

theorem sep_notMem_of_mem_componentsBack {path c : List α} (h : c ∈ componentsBack sep path) : sep ∉ c :=
  sep_notMem_of_mem_splitOn (List.mem_reverse.mp h)

theorem componentsBack_ne_nil (path : List α) : componentsBack sep path ≠ [] := by
  rw [componentsBack, ne_eq, List.reverse_eq_nil_iff]
  exact List.splitOn_ne_nil sep path

theorem passes_component {c : List α} (h : sep ∉ c) : ∀ x ∈ c.reverse, decide (x ≠ sep) = true := by
  intro x hx
  rw [decide_eq_true_eq]
  rintro rfl
  exact h (List.mem_reverse.mp hx)

theorem takeWhile_component {c : List α} (h : sep ∉ c) (rest : List α) :
    (c.reverse ++ sep :: rest).takeWhile (· ≠ sep) = c.reverse :=
  takeWhile_append_cons (passes_component h) (by simp) rest

theorem dropWhile_component {c : List α} (h : sep ∉ c) (rest : List α) :
    (c.reverse ++ sep :: rest).dropWhile (· ≠ sep) = sep :: rest :=
  dropWhile_append_cons (passes_component h) (by simp) rest

end Reading

end Tr069Agent.Library.BackwardPath
