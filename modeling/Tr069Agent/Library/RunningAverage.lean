import Mathlib.Algebra.BigOperators.Group.List.Basic
import Mathlib.Data.List.Induction
import Mathlib.Data.Nat.ModEq
import Mathlib.Order.Monotone.Basic
import Mathlib.Tactic.Common
import Mathlib.Tactic.Ring

/-! # Averages kept in whole numbers

An average that takes one value at a time drops a remainder each time. It is the quotient of the sum
by the number of values exactly when there are remainders of the partial sums that never decrease and
stay below the number of values.
-/

namespace Tr069Agent.Library.RunningAverage

set_option autoImplicit false

/-- The average `avg` of `n` values takes one more. -/
def next (n avg value : Nat) : Nat := (n * avg + value) / (n + 1)

/-- The number of the values and their average, one value at a time. -/
def run (values : List Nat) : Nat × Nat :=
  values.foldl (fun (n, avg) value => (n + 1, next n avg value)) (0, 0)

def average (values : List Nat) : Nat := (run values).2

/-- What the average has lost of the sum. -/
def loss (values : List Nat) : Nat := values.sum - values.length * average values

/-- Remainders of the partial sums can be chosen that never decrease and end below the number of
values. -/
def Exact (values : List Nat) : Prop :=
  ∃ d : Nat → Nat, Monotone d ∧ d values.length < values.length ∧
    ∀ k ≤ values.length, d k ≡ (values.take k).sum [MOD k]

theorem run_concat (values : List Nat) (value : Nat) :
    run (values ++ [value]) = ((run values).1 + 1, next (run values).1 (average values) value) := by
  simp [run, average, List.foldl_append]

theorem run_fst (values : List Nat) : (run values).1 = values.length := by
  induction values using List.reverseRecOn with
  | nil => rfl
  | append_singleton values value ih => rw [run_concat, List.length_append, ih]; rfl

theorem average_concat (values : List Nat) (value : Nat) :
    average (values ++ [value]) = next values.length (average values) value := by
  rw [average, run_concat, run_fst]

theorem mul_average_le_sum (values : List Nat) : values.length * average values ≤ values.sum := by
  induction values using List.reverseRecOn with
  | nil => simp
  | append_singleton values value ih =>
    have hDiv := Nat.mul_div_le (values.length * average values + value) (values.length + 1)
    rw [average_concat, next, List.length_append, List.length_singleton, List.sum_append,
      List.sum_singleton]
    omega

theorem sum_eq (values : List Nat) : values.sum = values.length * average values + loss values := by
  have hLe := mul_average_le_sum values
  rw [loss]
  omega

theorem average_le (values : List Nat) : average values ≤ values.sum := by
  cases values with
  | nil => exact Nat.zero_le _
  | cons value values =>
    exact Nat.le_trans (Nat.le_mul_of_pos_left _ (by simp)) (mul_average_le_sum (value :: values))

/-- One more value adds the remainder of a division by the new number of values. -/
theorem loss_concat (values : List Nat) (value : Nat) :
    loss (values ++ [value]) =
      loss values + (values.length * average values + value) % (values.length + 1) := by
  have hSum := sum_eq values
  have hMore := sum_eq (values ++ [value])
  have hDiv := Nat.div_add_mod (values.length * average values + value) (values.length + 1)
  rw [average_concat, next, List.length_append, List.length_singleton, List.sum_append,
    List.sum_singleton] at hMore
  omega

/-- Remainders that never decrease bound the loss: each congruence class has a member in any
`k` numbers in a row. -/
theorem loss_le_of_remainders {d : Nat → Nat} (hMono : Monotone d) (values : List Nat)
    (hMod : ∀ k ≤ values.length, d k ≡ (values.take k).sum [MOD k]) :
    loss values ≤ d values.length := by
  induction values using List.reverseRecOn with
  | nil => exact Nat.zero_le _
  | append_singleton values value ih =>
    have hBefore : loss values ≤ d values.length := by
      apply ih
      intro k hk
      have hHere := hMod k (by simp; omega)
      rwa [List.take_append_of_le_length hk] at hHere
    have hHere := hMod (values.length + 1) (by simp)
    rw [List.take_of_length_le (by simp)] at hHere
    have hGrow : d values.length ≤ d (values.length + 1) := hMono (Nat.le_succ _)
    have hStep := loss_concat values value
    have hRest : (values.length * average values + value) % (values.length + 1) < values.length + 1 :=
      Nat.mod_lt _ (Nat.succ_pos _)
    have hTotal := sum_eq (values ++ [value])
    rw [List.length_append, List.length_singleton] at hTotal ⊢
    have hClass : d (values.length + 1) ≡ loss (values ++ [value]) [MOD values.length + 1] := by
      rw [hTotal] at hHere
      exact hHere.trans (by simp [Nat.ModEq])
    apply Nat.le_of_not_lt
    intro hLt
    have hDvd := (Nat.modEq_iff_dvd' hLt.le).mp hClass
    have hFar := Nat.le_of_dvd (by omega) hDvd
    omega

theorem average_eq_div_iff_loss {values : List Nat} (h : values ≠ []) :
    average values = values.sum / values.length ↔ loss values < values.length := by
  have hPos : 0 < values.length := List.length_pos_iff.mpr h
  have hSum := sum_eq values
  constructor
  · intro hEq
    have hMod := Nat.mod_lt values.sum hPos
    have hDiv := Nat.div_add_mod values.sum values.length
    rw [← hEq] at hDiv
    omega
  · intro hLt
    rw [hSum, Nat.mul_add_div hPos, Nat.div_eq_of_lt hLt, Nat.add_zero]

theorem exact_of_loss {values : List Nat} (h : loss values < values.length) : Exact values := by
  refine ⟨fun k => loss (values.take k), monotone_nat_of_le_succ fun k => ?_, ?_, fun k hk => ?_⟩
  · obtain hk | hk := Nat.lt_or_ge k values.length
    · rw [← List.take_concat_get' values k hk, loss_concat]
      exact Nat.le_add_right _ _
    · rw [List.take_of_length_le hk, List.take_of_length_le (Nat.le_succ_of_le hk)]
  · simpa using h
  · have hSum := sum_eq (values.take k)
    rw [List.length_take_of_le hk] at hSum
    rw [hSum]
    simp [Nat.ModEq]

/-- The average kept is the quotient of the sum exactly when the remainders can be carried. -/
theorem average_eq_div_iff {values : List Nat} (h : values ≠ []) :
    average values = values.sum / values.length ↔ Exact values := by
  rw [average_eq_div_iff_loss h]
  constructor
  · exact exact_of_loss
  · rintro ⟨d, hMono, hLt, hMod⟩
    exact Nat.lt_of_le_of_lt (loss_le_of_remainders hMono values hMod) hLt

example : average [1, 2, 3] = 1 := by decide

end Tr069Agent.Library.RunningAverage
