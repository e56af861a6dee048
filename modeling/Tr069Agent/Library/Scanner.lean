import Mathlib.Data.List.Basic
import Mathlib.Tactic.Common

/-! # Scanners

A scanner takes values off its input one after the other and may fail. `Reads` says what one run does,
`Yields` what holds of every value a scanner can give; both follow the structure of the scanner.
-/

namespace Tr069Agent.Library

set_option autoImplicit false

abbrev Scanner (σ : Type) := StateT σ Option

namespace Scanner

variable {σ α β : Type} {m : Scanner σ α} {f : α → Scanner σ β} {P : α → Prop} {Q : β → Prop}

def Reads (m : Scanner σ α) (input : σ) (value : α) (rest : σ) : Prop :=
  m.run input = some (value, rest)

def Yields (m : Scanner σ α) (P : α → Prop) : Prop :=
  ∀ input value rest, Reads m input value rest → P value

theorem reads_pure (input : σ) (value : α) : Reads (pure value) input value input := rfl

theorem reads_bind_iff {input rest : σ} {b : β} :
    Reads (m >>= f) input b rest ↔ ∃ a middle, Reads m input a middle ∧ Reads (f a) middle b rest := by
  simp [Reads, StateT.run_bind, Option.bind_eq_some_iff]

theorem Reads.bind {input middle rest : σ} {a : α} {b : β} (hFirst : Reads m input a middle)
    (hThen : Reads (f a) middle b rest) : Reads (m >>= f) input b rest :=
  reads_bind_iff.mpr ⟨a, middle, hFirst, hThen⟩

theorem yields_true : Yields m fun _ => True := fun _ _ _ _ => trivial

theorem yields_pure {value : α} (h : P value) : Yields (pure value : Scanner σ α) P := by
  rintro input other rest ⟨⟩
  exact h

theorem Yields.bind (hFirst : Yields m P) (hThen : ∀ a, P a → Yields (f a) Q) :
    Yields (m >>= f) Q := by
  intro input b rest hReads
  obtain ⟨a, middle, hA, hB⟩ := reads_bind_iff.mp hReads
  exact hThen a (hFirst input a middle hA) middle b rest hB

/-- The same scanner `n` times. -/
def times (m : Scanner σ α) : Nat → Scanner σ (List α)
  | 0 => pure []
  | n + 1 => do
    let value ← m
    let values ← times m n
    return value :: values

theorem Yields.times (h : Yields m P) (n : Nat) : Yields (m.times n) fun values => ∀ a ∈ values, P a := by
  induction n with
  | zero => exact yields_pure (by simp)
  | succ n ih =>
    refine h.bind fun a hA => ih.bind fun values hValues => yields_pure ?_
    exact List.forall_mem_cons.mpr ⟨hA, hValues⟩

end Scanner

end Tr069Agent.Library
