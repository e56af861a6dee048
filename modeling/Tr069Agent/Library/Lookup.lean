import Mathlib.Data.List.Basic
import Mathlib.Logic.Function.Basic
import Mathlib.Tactic.Common

/-! # Programs that look values up

A program asks for the values of some names, one after the other, where what it asks next may depend on
the answers. Two environments that give the names asked for the same values lead to the same result. A
program is strict when it comes to nothing as soon as it asks for a name without a value.
-/

namespace Tr069Agent.Library

set_option autoImplicit false

inductive Lookup (κ β α : Type) where
  | done (result : α)
  | ask (name : κ) (next : β → Lookup κ β α)

namespace Lookup

variable {κ β α γ : Type}

def bind : Lookup κ β α → (α → Lookup κ β γ) → Lookup κ β γ
  | .done result, f => f result
  | .ask name next, f => .ask name fun value => (next value).bind f

instance : Monad (Lookup κ β) where
  pure := .done
  bind := bind

/-- The value of a name. -/
def get (name : κ) : Lookup κ β β := .ask name .done

def run (env : κ → β) : Lookup κ β α → α
  | .done result => result
  | .ask name next => (next (env name)).run env

/-- A run whose answers come with effects. -/
def runM {m : Type → Type} [Monad m] (answer : κ → m β) : Lookup κ β α → m α
  | .done result => pure result
  | .ask name next => do (next (← answer name)).runM answer

/-- The names asked for, in this order. -/
def asked (env : κ → β) : Lookup κ β α → List κ
  | .done _ => []
  | .ask name next => name :: (next (env name)).asked env

@[simp] theorem run_pure (env : κ → β) (result : α) : (pure result : Lookup κ β α).run env = result := rfl

@[simp] theorem asked_pure (env : κ → β) (result : α) : (pure result : Lookup κ β α).asked env = [] := rfl

@[simp] theorem run_get (env : κ → β) (name : κ) : (get name).run env = env name := rfl

@[simp] theorem asked_get (env : κ → β) (name : κ) : (get (β := β) name).asked env = [name] := rfl

@[simp]
theorem run_bind (env : κ → β) (p : Lookup κ β α) (f : α → Lookup κ β γ) :
    (p >>= f).run env = (f (p.run env)).run env := by
  induction p with
  | done result => rfl
  | ask name next ih => exact ih (env name)

@[simp]
theorem asked_bind (env : κ → β) (p : Lookup κ β α) (f : α → Lookup κ β γ) :
    (p >>= f).asked env = p.asked env ++ (f (p.run env)).asked env := by
  induction p with
  | done result => rfl
  | ask name next ih => exact congrArg (name :: ·) (ih (env name))

section Strict

variable {p : Lookup κ (Option β) α}

/-- Where a name that is asked for has no value, the result is a failure. -/
def Strict (p : Lookup κ (Option β) α) (fails : α → Prop) : Prop :=
  ∀ env, (∃ name ∈ p.asked env, env name = none) → fails (p.run env)

theorem strict_pure (result : α) (fails : α → Prop) : Strict (pure result : Lookup κ (Option β) α) fails := by
  rintro env ⟨name, hMem, -⟩
  cases hMem

theorem Strict.bind {fails : α → Prop} {failsToo : γ → Prop} {f : α → Lookup κ (Option β) γ}
    (hStrict : Strict p fails) (hNext : ∀ result, Strict (f result) failsToo)
    (hFail : ∀ env, fails (p.run env) → failsToo ((f (p.run env)).run env)) :
    Strict (p >>= f) failsToo := by
  rintro env ⟨name, hMem, hNone⟩
  rw [asked_bind, List.mem_append] at hMem
  rw [run_bind]
  obtain hFirst | hLater := hMem
  · exact hFail env (hStrict env ⟨name, hFirst, hNone⟩)
  · exact hNext _ env ⟨name, hLater, hNone⟩

/-- The names asked for, up to the first one without a value. -/
def askedFirst (env : κ → Option β) : Lookup κ (Option β) α → List κ
  | .done _ => []
  | .ask name next => name :: if (env name).isNone then [] else (next (env name)).askedFirst env

theorem askedFirst_subset (env : κ → Option β) : p.askedFirst env ⊆ p.asked env := by
  induction p with
  | done result => exact List.Subset.refl _
  | ask name next ih =>
    rw [askedFirst, asked]
    split
    · exact List.cons_subset_cons name (List.nil_subset _)
    · exact List.cons_subset_cons name (ih (env name))

/-- Where the values agree up to the first one that is missing, the results are the same, or one is missing
in both runs. -/
theorem run_congr_first {env env' : κ → Option β} (h : ∀ name ∈ p.askedFirst env, env' name = env name) :
    p.run env' = p.run env ∨
      (∃ name ∈ p.asked env, env name = none) ∧ ∃ name ∈ p.asked env', env' name = none := by
  induction p with
  | done result => exact .inl rfl
  | ask name next ih =>
    have hHere := h name List.mem_cons_self
    cases hValue : env name with
    | none => exact .inr ⟨⟨name, List.mem_cons_self, hValue⟩, name, List.mem_cons_self, hHere.trans hValue⟩
    | some value =>
      rw [run, run, asked, asked, hHere]
      refine (ih _ fun other hMem => h other ?_).imp id fun ⟨⟨first, hFirst, hNone⟩, second, hSecond, hNone'⟩ => ?_
      · rw [askedFirst, if_neg (by simp [hValue])]
        exact List.mem_cons_of_mem _ hMem
      · exact ⟨⟨first, List.mem_cons_of_mem _ hFirst, hNone⟩, second, List.mem_cons_of_mem _ hSecond, hNone'⟩

variable [DecidableEq κ]

theorem mem_asked_update (env : κ → Option β) {name : κ} (h : name ∈ p.asked env) :
    name ∈ p.asked (Function.update env name none) := by
  induction p with
  | done result => exact h
  | ask other next ih =>
    obtain rfl | hOther := eq_or_ne name other
    · exact List.mem_cons_self
    · rw [asked, List.mem_cons] at h
      rw [asked, Function.update_of_ne hOther.symm]
      exact List.mem_cons_of_mem _ (ih _ (h.resolve_left hOther))

theorem Strict.fails_update {fails : α → Prop} (hStrict : Strict p fails) (env : κ → Option β) {name : κ}
    (h : name ∈ p.asked env) : fails (p.run (Function.update env name none)) :=
  hStrict _ ⟨name, mem_asked_update env h, Function.update_self name none env⟩

end Strict

section Ensures

variable {related : κ → β → Prop} {post : α → Prop} {p : Lookup κ β α}

/-- As long as the answers are related to what is asked for, the result is as required. -/
def Ensures (related : κ → β → Prop) (post : α → Prop) : Lookup κ β α → Prop
  | .done result => post result
  | .ask name next => ∀ answer, related name answer → (next answer).Ensures related post

theorem Ensures.bind {postToo : γ → Prop} {f : α → Lookup κ β γ} (h : p.Ensures related post)
    (hNext : ∀ result, post result → (f result).Ensures related postToo) :
    (p >>= f).Ensures related postToo := by
  induction p with
  | done result => exact hNext result h
  | ask name next ih => exact fun answer hRelated => ih answer (h answer hRelated)

theorem Ensures.mono {weaker : α → Prop} (h : p.Ensures related post)
    (hPost : ∀ result, post result → weaker result) : p.Ensures related weaker := by
  induction p with
  | done result => exact hPost result h
  | ask name next ih => exact fun answer hRelated => ih answer (h answer hRelated)

theorem Ensures.runM {answer : κ → Option β} {result : α} (h : p.Ensures related post)
    (hAnswer : ∀ name value, answer name = some value → related name value)
    (hRun : p.runM answer = some result) : post result := by
  induction p with
  | done _ =>
    obtain rfl := Option.some.inj hRun
    exact h
  | ask name next ih =>
    obtain ⟨value, hValue, hRest⟩ := Option.bind_eq_some_iff.mp hRun
    exact ih value (h value (hAnswer name value hValue)) hRest

end Ensures

end Lookup

end Tr069Agent.Library
