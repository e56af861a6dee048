import Mathlib.Data.List.Basic
import Mathlib.Data.List.TakeWhile
import Mathlib.Tactic.Common

/-! # Bounded histories

An array of fixed size keeps the newest entries of a history and, where these are fewer, what it was filled with at
the beginning. A condition that holds of the newest entries only is counted right up to the size.
-/

namespace Tr069Agent.Library.BoundedHistory

set_option autoImplicit false

variable {α : Type*}

/-- What an array of this size holds of a history, the newest entry first. -/
def stored (size : Nat) (filling : α) (history : List α) : List α :=
  (history ++ List.replicate size filling).take size

/-- Every entry moves on by one, the last one is lost. -/
def push (a : α) (array : List α) : List α := a :: array.dropLast

theorem stored_nil (size : Nat) (filling : α) : stored size filling [] = List.replicate size filling := by
  simp [stored]

theorem length_stored (size : Nat) (filling : α) (history : List α) : (stored size filling history).length = size := by
  simp [stored]

theorem push_stored {size : Nat} (h : 0 < size) (filling a : α) (history : List α) :
    push a (stored size filling history) = stored size filling (a :: history) := by
  obtain ⟨size, rfl⟩ := Nat.exists_eq_add_one_of_ne_zero h.ne'
  rw [push, List.dropLast_eq_take, length_stored, stored, stored, List.take_take, List.cons_append,
    List.take_succ_cons]
  simp

/-- Where the entries of which `p` holds are the newest ones, those that are kept count as far as they go. -/
theorem countP_take {p : α → Bool} {history : List α}
    (h : history.Pairwise fun newer older => p older = true → p newer = true)
    (size : Nat) : (history.take size).countP p = min size (history.countP p) := by
  induction history generalizing size with
  | nil => simp
  | cons newest history ih =>
    obtain ⟨hNewest, hRest⟩ := List.pairwise_cons.mp h
    cases size with
    | zero => simp
    | succ size =>
      rw [List.take_succ_cons]
      cases hHolds : p newest with
      | true => rw [List.countP_cons_of_pos hHolds, List.countP_cons_of_pos hHolds, ih hRest, Nat.succ_min_succ]
      | false =>
        have hNone : history.countP p = 0 := by
          rw [List.countP_eq_zero]
          intro older hMem hOlder
          rw [hNewest older hMem hOlder] at hHolds
          cases hHolds
        rw [List.countP_cons_of_neg (by simp [hHolds]), List.countP_cons_of_neg (by simp [hHolds]), ih hRest, hNone]
        simp

/-- What was there at the beginning counts as well as long as it is not pushed out. -/
theorem countP_stored {p : α → Bool} {history : List α}
    (h : history.Pairwise fun newer older => p older = true → p newer = true) (size : Nat) (filling : α) :
    (stored size filling history).countP p =
      min size (history.countP p) + if p filling = true then size - history.length else 0 := by
  rw [stored, List.take_append, List.countP_append, countP_take h, List.take_replicate, List.countP_replicate]
  simp

end Tr069Agent.Library.BoundedHistory
