import Tr069Agent.Library.Transition

/-! # Forward simulation

A specification is a relation between states that may leave open which step a label stands for. A
transition function refines it when every step of the function, from a state related to one of the
specification, is a step of the specification with the same label into a related state.
-/

namespace Tr069Agent.Library.Simulation

open Transition

set_option autoImplicit false

variable {σ α ℓ : Type*}

/-- The labels can be taken one after the other. -/
inductive Run (Step : α → ℓ → α → Prop) : α → List ℓ → α → Prop
  | nil (a : α) : Run Step a [] a
  | cons {a b c : α} {l : ℓ} {ls : List ℓ} (head : Step a l b) (tail : Run Step b ls c) : Run Step a (l :: ls) c

/-- Every step that the guard allows from related states is matched. -/
def Simulates (step : σ → ℓ → Option σ) (Step : α → ℓ → α → Prop) (guard : ℓ → Prop) (Rel : σ → α → Prop) : Prop :=
  ∀ s a l s', Rel s a → guard l → step s l = some s' → ∃ a', Step a l a' ∧ Rel s' a'

variable {step : σ → ℓ → Option σ} {Step : α → ℓ → α → Prop} {guard : ℓ → Prop} {Rel : σ → α → Prop}

/-- Every run of the function is a run of the specification with the same labels. -/
theorem run_of_exec (hSim : Simulates step Step guard Rel) {s s' : σ} {a : α} (hRel : Rel s a) {ls : List ℓ}
    (hGuard : ∀ l ∈ ls, guard l) (hExec : exec step s ls = some s') : ∃ a', Run Step a ls a' ∧ Rel s' a' := by
  induction ls generalizing s a with
  | nil =>
    obtain rfl := Option.some.inj hExec
    exact ⟨a, .nil a, hRel⟩
  | cons l ls ih =>
    obtain ⟨hHead, hTail⟩ := List.forall_mem_cons.mp hGuard
    obtain ⟨next, hNext, hRest⟩ := Option.bind_eq_some_iff.mp hExec
    obtain ⟨b, hStep, hRelNext⟩ := hSim s a l next hRel hHead hNext
    obtain ⟨a', hRun, hLast⟩ := ih hRelNext hTail hRest
    exact ⟨a', .cons hStep hRun, hLast⟩

/-- What every step of the specification preserves, where it speaks of what the labels so far have left,
holds where a run of it ends. -/
theorem Run.invariant {β : Type*} {collect : β → ℓ → β} {Inv : β → α → Prop}
    (hStep : ∀ x a l a', Inv x a → guard l → Step a l a' → Inv (collect x l) a') {a a' : α} {ls : List ℓ}
    (hRun : Run Step a ls a') (hGuard : ∀ l ∈ ls, guard l) {x : β} (hInv : Inv x a) :
    Inv (ls.foldl collect x) a' := by
  induction hRun generalizing x with
  | nil a => exact hInv
  | cons hHead _ ih =>
    obtain ⟨hFirst, hTail⟩ := List.forall_mem_cons.mp hGuard
    exact ih hTail (hStep _ _ _ _ hInv hFirst hHead)

end Tr069Agent.Library.Simulation
