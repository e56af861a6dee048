import Mathlib.Tactic.Common
import Mathlib.Data.List.Basic

/-! # Undo logs

A value goes through changes, and what it was before each change is saved. To undo the changes the
saved values are given back, from the first to the last, through the setter that made them. A setter
that ignores a null value leaves alone what it is asked to reset to null.
-/

namespace Tr069Agent.Library.UndoLog

set_option autoImplicit false

section Changes

variable {V C : Type*} (set : V → C → V)

def settle (v : V) (changes : List C) : V := changes.foldl set v

/-- The values before each of the changes. -/
def saved (v : V) : List C → List V
  | [] => []
  | c :: changes => v :: saved (set v c) changes

@[simp]
theorem settle_append (v : V) (changes more : List C) :
    settle set v (changes ++ more) = settle set (settle set v changes) more :=
  List.foldl_append

@[simp]
theorem saved_append (v : V) (changes more : List C) :
    saved set v (changes ++ more) = saved set v changes ++ saved set (settle set v changes) more := by
  induction changes generalizing v with
  | nil => rfl
  | cons c changes ih =>
    simp only [List.cons_append, saved, ih]
    rfl

/-- The last value saved is what all the changes but the last have made. -/
theorem getLast?_saved (v : V) (changes : List C) :
    (saved set v changes).getLast?.getD (settle set v changes) = settle set v changes.dropLast := by
  rcases List.eq_nil_or_concat changes with rfl | ⟨front, c, rfl⟩
  · rfl
  · rw [List.concat_eq_append, saved_append, List.dropLast_concat]
    simp [saved]

variable {set} {P : V → Prop} (hSet : ∀ v c, P v → P (set v c))
include hSet

theorem settle_induction {v : V} (hv : P v) (changes : List C) : P (settle set v changes) := by
  induction changes generalizing v with
  | nil => exact hv
  | cons c changes ih => exact ih (hSet v c hv)

theorem saved_induction {v : V} (hv : P v) (changes : List C) : ∀ w ∈ saved set v changes, P w := by
  induction changes generalizing v with
  | nil => simp [saved]
  | cons c changes ih =>
    intro w hw
    rcases List.mem_cons.mp hw with rfl | hw
    · exact hv
    · exact ih (hSet v c hv) w hw

/-- What no change takes away was never there when it is not there in the end. -/
theorem not_saved_of_not_settle {v : V} {changes : List C} (h : ¬ P (settle set v changes)) :
    ∀ w ∈ saved set v changes, ¬ P w := by
  induction changes generalizing v with
  | nil => simp [saved]
  | cons c changes ih =>
    intro w hw hP
    rcases List.mem_cons.mp hw with rfl | hw
    · exact h (settle_induction hSet hP (c :: changes))
    · exact ih h w hw hP

end Changes

section Override

variable {V : Type*} [DecidableEq V] (null : V)

/-- A null value asks for nothing. -/
def override (v c : V) : V := if c = null then v else c

variable {null}

theorem override_ne_null {v : V} (h : v ≠ null) (c : V) : override null v c ≠ null := by
  rw [override]
  split
  · exact h
  · assumption

theorem foldl_override_ne_null {v : V} (h : v ≠ null) (cs : List V) :
    cs.foldl (override null) v ≠ null :=
  settle_induction (P := (· ≠ null)) (fun _ c hw => override_ne_null hw c) h cs

theorem foldl_override_null {v : V} {cs : List V} (h : ∀ c ∈ cs, c = null) :
    cs.foldl (override null) v = v := by
  induction cs with
  | nil => rfl
  | cons c cs ih =>
    have hHead : override null v c = v := if_pos (h c List.mem_cons_self)
    rw [List.foldl_cons, hHead]
    exact ih fun d hd => h d (List.mem_cons_of_mem _ hd)

/-- Without null values, the last one given counts. -/
theorem foldl_override_eq_getLast {v : V} {cs : List V} (h : ∀ c ∈ cs, c ≠ null) :
    cs.foldl (override null) v = cs.getLast?.getD v := by
  induction cs generalizing v with
  | nil => rfl
  | cons c cs ih =>
    have hHead : override null v c = c := if_neg (h c List.mem_cons_self)
    rw [List.foldl_cons, hHead, ih fun d hd => h d (List.mem_cons_of_mem _ hd), List.getLast?_cons]
    rfl

variable {W C : Type*} {set : W → C → W} {part : W → V}

/-- Giving the saved values back brings the first one back exactly when the changes but the last
left it alone, or, where it is null, when all of them did. -/
theorem replay_eq_iff (hSet : ∀ w c, part w ≠ null → part (set w c) ≠ null) (w : W)
    (changes : List C) :
    ((saved set w changes).map part).foldl (override null) (part (settle set w changes)) = part w ↔
      if part w = null then part (settle set w changes) = null
      else part (settle set w changes.dropLast) = part w := by
  split
  next hNull =>
    rw [hNull]
    constructor
    · intro h
      by_contra hNe
      exact foldl_override_ne_null hNe _ h
    · intro h
      have hSaved := not_saved_of_not_settle (P := (part · ≠ null)) hSet (not_not.mpr h)
      rw [foldl_override_null, h]
      intro c hc
      obtain ⟨v, hv, rfl⟩ := List.mem_map.mp hc
      exact not_not.mp (hSaved v hv)
  next hNe =>
    have hSaved := saved_induction (P := (part · ≠ null)) hSet hNe changes
    rw [foldl_override_eq_getLast (by simpa using hSaved), List.getLast?_map,
      Option.getD_map, getLast?_saved]

end Override

end Tr069Agent.Library.UndoLog
