import Mathlib.Data.Option.Basic
import Tr069Agent.Library.Lookup

/-! # Partial actions on a state

An action may come to nothing. A relation between the states before and after it that every state is in
with itself, and that is transitive, goes from the parts of an action to the whole.
-/

namespace Tr069Agent.Library

set_option autoImplicit false

abbrev Action (σ α : Type) := StateT σ Option α

namespace Action

variable {σ α β κ : Type}

theorem bind_eq_some_iff {m : Action σ α} {f : α → Action σ β} {s s'' : σ} {b : β} :
    (m >>= f).run s = some (b, s'') ↔ ∃ a s', m.run s = some (a, s') ∧ (f a).run s' = some (b, s'') := by
  rw [StateT.run_bind, Option.bind_eq_bind, Option.bind_eq_some_iff]
  constructor
  · rintro ⟨⟨a, s'⟩, hFirst, hNext⟩
    exact ⟨a, s', hFirst, hNext⟩
  · rintro ⟨a, s', hFirst, hNext⟩
    exact ⟨(a, s'), hFirst, hNext⟩

theorem pure_eq_some_iff {a b : α} {s s' : σ} :
    (pure a : Action σ α).run s = some (b, s') ↔ b = a ∧ s' = s := by
  rw [StateT.run_pure, Option.pure_def, Option.some.injEq, Prod.mk.injEq]
  exact and_congr eq_comm eq_comm

theorem get_eq_some_iff {s s' t : σ} : (get : Action σ σ).run s = some (t, s') ↔ t = s ∧ s' = s := by
  rw [StateT.run_get, Option.pure_def, Option.some.injEq, Prod.mk.injEq]
  exact and_congr eq_comm eq_comm

theorem modify_eq_some_iff {f : σ → σ} {s s' : σ} {u : PUnit} :
    (modify f : Action σ PUnit).run s = some (u, s') ↔ s' = f s := by
  rw [StateT.run_modify, Option.pure_def, Option.some.injEq, Prod.mk.injEq]
  exact ⟨fun h => h.2.symm, fun h => ⟨rfl, h.symm⟩⟩

theorem not_failure {s s' : σ} {a : α} : ¬ (failure : Action σ α).run s = some (a, s') := by
  rintro ⟨⟩

section Keeps

/-- Where the action ends, the relation holds between its states. -/
def Keeps (R : σ → σ → Prop) (m : Action σ α) : Prop := ∀ s a s', m.run s = some (a, s') → R s s'

variable {R : σ → σ → Prop} {m : Action σ α} {f : α → Action σ β}

theorem Keeps.mono {R' : σ → σ → Prop} (h : Keeps R m) (hSub : ∀ s s', R s s' → R' s s') : Keeps R' m :=
  fun s a s' hRun => hSub s s' (h s a s' hRun)

theorem keeps_pure (hRefl : ∀ s, R s s) (a : α) : Keeps R (pure a) := by
  intro s b s' h
  obtain ⟨-, rfl⟩ := pure_eq_some_iff.mp h
  exact hRefl _

theorem keeps_get (hRefl : ∀ s, R s s) : Keeps R get := by
  intro s t s' h
  obtain ⟨-, rfl⟩ := get_eq_some_iff.mp h
  exact hRefl _

theorem keeps_modify {g : σ → σ} (h : ∀ s, R s (g s)) : Keeps R (modify g : Action σ PUnit) := by
  intro s u s' hRun
  obtain rfl := modify_eq_some_iff.mp hRun
  exact h s

theorem keeps_failure : Keeps R (failure : Action σ α) := fun _ _ _ h => absurd h not_failure

theorem Keeps.bind (hTrans : ∀ {s s' s''}, R s s' → R s' s'' → R s s'') (hFirst : Keeps R m)
    (hNext : ∀ a, Keeps R (f a)) : Keeps R (m >>= f) := by
  intro s b s'' h
  obtain ⟨a, s', hRun, hRest⟩ := bind_eq_some_iff.mp h
  exact hTrans (hFirst s a s' hRun) (hNext a s' b s'' hRest)

/-- A program that looks values up keeps what each answer keeps. -/
theorem keeps_runM (hRefl : ∀ s, R s s) (hTrans : ∀ {s s' s''}, R s s' → R s' s'' → R s s'')
    {answer : κ → Action σ β} (h : ∀ name, Keeps R (answer name)) (p : Lookup κ β α) :
    Keeps R (p.runM answer) := by
  induction p with
  | done result => exact keeps_pure hRefl result
  | ask name next ih => exact (h name).bind hTrans ih

end Keeps

end Action

end Tr069Agent.Library
