import Mathlib.Data.Option.Basic

/-! # Runs of a labelled transition function

A label names everything that happens in a step, so a step is a partial function of the state and
the label; a label that cannot happen in a state gives no step. A guard is a condition on the state
before a step and on its label.
-/

namespace Tr069Agent.Library.Transition

set_option autoImplicit false

variable {σ ℓ : Type*} (step : σ → ℓ → Option σ)

def exec (s : σ) : List ℓ → Option σ
  | [] => some s
  | l :: ls => (step s l).bind fun s' => exec s' ls

/-- `P` holds in every state reached while the labels are taken one after the other. -/
def Throughout (P : σ → Prop) (s : σ) : List ℓ → Prop
  | [] => P s
  | l :: ls => P s ∧ ∀ s' ∈ step s l, Throughout P s' ls

/-- Every step of the run meets the guard. -/
def Along (guard : σ → ℓ → Prop) (s : σ) : List ℓ → Prop
  | [] => True
  | l :: ls => guard s l ∧ ∀ s' ∈ step s l, Along guard s' ls

def decidableThroughout (P : σ → Prop) [DecidablePred P] :
    ∀ (s : σ) (ls : List ℓ), Decidable (Throughout step P s ls)
  | s, [] => inferInstanceAs (Decidable (P s))
  | s, l :: ls =>
    have := fun s' => decidableThroughout P s' ls
    inferInstanceAs (Decidable (P s ∧ ∀ s' ∈ step s l, Throughout step P s' ls))

def decidableAlong (guard : σ → ℓ → Prop) [∀ s l, Decidable (guard s l)] :
    ∀ (s : σ) (ls : List ℓ), Decidable (Along step guard s ls)
  | _, [] => isTrue trivial
  | s, l :: ls =>
    have := fun s' => decidableAlong guard s' ls
    inferInstanceAs (Decidable (guard s l ∧ ∀ s' ∈ step s l, Along step guard s' ls))

instance (P : σ → Prop) [DecidablePred P] (s : σ) (ls : List ℓ) :
    Decidable (Throughout step P s ls) := decidableThroughout step P s ls

instance (guard : σ → ℓ → Prop) [∀ s l, Decidable (guard s l)] (s : σ) (ls : List ℓ) :
    Decidable (Along step guard s ls) := decidableAlong step guard s ls

variable {step}

theorem Throughout.head {P : σ → Prop} {s : σ} {ls : List ℓ} (h : Throughout step P s ls) : P s := by
  cases ls with
  | nil => exact h
  | cons l ls => exact h.1

theorem Throughout.mono {P Q : σ → Prop} (hPQ : ∀ s, P s → Q s) {s : σ} {ls : List ℓ}
    (h : Throughout step P s ls) : Throughout step Q s ls := by
  induction ls generalizing s with
  | nil => exact hPQ s h
  | cons l ls ih => exact ⟨hPQ s h.1, fun s' hs' => ih (h.2 s' hs')⟩

/-- `P` throughout a run is `P` after each beginning of the run that can be executed. -/
theorem throughout_iff_exec {P : σ → Prop} {s : σ} {ls : List ℓ} :
    Throughout step P s ls ↔
      ∀ front, front <+: ls → ∀ s', exec step s front = some s' → P s' := by
  induction ls generalizing s with
  | nil =>
    constructor
    · rintro h front hFront s' hExec
      obtain rfl := List.prefix_nil.mp hFront
      obtain rfl : s = s' := by simpa [exec] using hExec
      exact h
    · intro h
      exact h [] (List.prefix_refl []) s rfl
  | cons l ls ih =>
    constructor
    · rintro ⟨hs, hNext⟩ front hFront s' hExec
      cases front with
      | nil =>
        obtain rfl : s = s' := by simpa [exec] using hExec
        exact hs
      | cons l' front =>
        obtain ⟨rfl, hTail⟩ := List.cons_prefix_cons.mp hFront
        obtain ⟨s₁, hStep, hRest⟩ := Option.bind_eq_some_iff.mp hExec
        exact ih.mp (hNext s₁ hStep) front hTail s' hRest
    · intro h
      refine ⟨h [] List.nil_prefix s rfl, fun s₁ hStep => ih.mpr ?_⟩
      intro front hFront s' hExec
      exact h (l :: front) (List.cons_prefix_cons.mpr ⟨rfl, hFront⟩) s'
        (Option.bind_eq_some_iff.mpr ⟨s₁, hStep, hExec⟩)

/-- The run rule: what every guarded step preserves holds throughout a guarded run. -/
theorem throughout_of_along {Inv : σ → Prop} {guard : σ → ℓ → Prop}
    (hStep : ∀ s l s', Inv s → guard s l → step s l = some s' → Inv s')
    {s : σ} {ls : List ℓ} (hs : Inv s) (h : Along step guard s ls) : Throughout step Inv s ls := by
  induction ls generalizing s with
  | nil => exact hs
  | cons l ls ih =>
    exact ⟨hs, fun s' hs' => ih (hStep s l s' hs h.1 hs') (h.2 s' hs')⟩

/-- Where every guarded step from the invariant can happen and preserves it, a guarded run does not break
off. -/
theorem runs_of_along {Inv : σ → Prop} {guard : σ → ℓ → Prop}
    (hStep : ∀ s l, Inv s → guard s l → ∃ s', step s l = some s' ∧ Inv s') {s : σ} {ls : List ℓ} (hs : Inv s)
    (h : Along step guard s ls) : (exec step s ls).isSome = true ∧ Throughout step Inv s ls := by
  induction ls generalizing s with
  | nil => exact ⟨rfl, hs⟩
  | cons l ls ih =>
    obtain ⟨next, hNext, hInv⟩ := hStep s l hs h.1
    obtain ⟨hExec, hRest⟩ := ih hInv (h.2 next hNext)
    refine ⟨by rw [exec, hNext]; exact hExec, hs, fun s' hs' => ?_⟩
    obtain rfl := Option.some.inj (hNext.symm.trans hs')
    exact hRest

/-- What holds of the guarded steps that start from the invariant holds of each step of a guarded
run. -/
theorem along_of_along {Inv : σ → Prop} {guard good : σ → ℓ → Prop}
    (hGood : ∀ s l, Inv s → guard s l → good s l)
    (hStep : ∀ s l s', Inv s → guard s l → step s l = some s' → Inv s')
    {s : σ} {ls : List ℓ} (hs : Inv s) (h : Along step guard s ls) : Along step good s ls := by
  induction ls generalizing s with
  | nil => trivial
  | cons l ls ih =>
    exact ⟨hGood s l hs h.1, fun s' hs' => ih (hStep s l s' hs h.1 hs') (h.2 s' hs')⟩

/-- The loop rule: a loop over a list whose rounds are guarded keeps what a guarded round preserves. -/
theorem foldl_of_along {f : σ → ℓ → σ} {Inv : σ → Prop} {guard : σ → ℓ → Prop}
    (hStep : ∀ s l, Inv s → guard s l → Inv (f s l)) {s : σ} {ls : List ℓ} (hs : Inv s)
    (h : Along (fun s l => some (f s l)) guard s ls) : Inv (ls.foldl f s) := by
  induction ls generalizing s with
  | nil => exact hs
  | cons l ls ih => exact ih (hStep s l hs h.1) (h.2 _ rfl)

theorem along_congr {guard good : σ → ℓ → Prop} (h : ∀ s l, good s l ↔ guard s l) {s : σ} {ls : List ℓ} :
    Along step good s ls ↔ Along step guard s ls := by
  obtain rfl : good = guard := funext fun s => funext fun l => propext (h s l)
  exact Iff.rfl

/-- Of the runs that keep to a condition: when moreover every step outside the guard can happen and breaks `P`,
the guard along the run is exactly what `P` throughout the run needs. -/
theorem throughout_iff_along_of_along {P Inv : σ → Prop} {keep guard : σ → ℓ → Prop} (hP : ∀ s, Inv s → P s)
    (hStep : ∀ s l s', Inv s → keep s l → guard s l → step s l = some s' → Inv s')
    (hBreak : ∀ s l, Inv s → keep s l → ¬ guard s l → ∃ s', step s l = some s' ∧ ¬ P s')
    {s : σ} {ls : List ℓ} (hs : Inv s) (hKeep : Along step keep s ls) :
    Throughout step P s ls ↔ Along step guard s ls := by
  induction ls generalizing s with
  | nil => exact iff_of_true (hP s hs) trivial
  | cons l ls ih =>
    obtain ⟨hHere, hNext⟩ := hKeep
    have hRest (hGuard : guard s l) (s' : σ) (hs' : step s l = some s') :
        Throughout step P s' ls ↔ Along step guard s' ls :=
      ih (hStep s l s' hs hHere hGuard hs') (hNext s' hs')
    constructor
    · intro h
      have hGuard : guard s l := by
        refine Classical.byContradiction fun hNot => ?_
        obtain ⟨s', hs', hBad⟩ := hBreak s l hs hHere hNot
        exact hBad (h.2 s' hs').head
      exact ⟨hGuard, fun s' hs' => (hRest hGuard s' hs').mp (h.2 s' hs')⟩
    · intro h
      exact ⟨hP s hs, fun s' hs' => (hRest h.1 s' hs').mpr (h.2 s' hs')⟩

theorem along_of_forall {good : σ → ℓ → Prop} (h : ∀ s l, good s l) {s : σ} {ls : List ℓ} : Along step good s ls := by
  induction ls generalizing s with
  | nil => trivial
  | cons l ls ih => exact ⟨h s l, fun s' _ => ih⟩

/-- The same of all runs. -/
theorem throughout_iff_along {P Inv : σ → Prop} {guard : σ → ℓ → Prop} (hP : ∀ s, Inv s → P s)
    (hStep : ∀ s l s', Inv s → guard s l → step s l = some s' → Inv s')
    (hBreak : ∀ s l, Inv s → ¬ guard s l → ∃ s', step s l = some s' ∧ ¬ P s')
    {s : σ} {ls : List ℓ} (hs : Inv s) : Throughout step P s ls ↔ Along step guard s ls :=
  throughout_iff_along_of_along hP (fun s l s' hInv _ hGuard => hStep s l s' hInv hGuard)
    (fun s l hInv _ => hBreak s l hInv) hs (along_of_forall fun _ _ => trivial : Along step (fun _ _ => True) s ls)

theorem along_and {guard good : σ → ℓ → Prop} {s : σ} {ls : List ℓ} :
    Along step (fun s l => guard s l ∧ good s l) s ls ↔ Along step guard s ls ∧ Along step good s ls := by
  induction ls generalizing s with
  | nil => exact (and_self_iff).symm
  | cons l ls ih =>
    simp only [Along, ih]
    constructor
    · rintro ⟨⟨hGuard, hGood⟩, hNext⟩
      exact ⟨⟨hGuard, fun s' hs' => (hNext s' hs').1⟩, hGood, fun s' hs' => (hNext s' hs').2⟩
    · rintro ⟨⟨hGuard, hNext⟩, hGood, hNext'⟩
      exact ⟨⟨hGuard, hGood⟩, fun s' hs' => ⟨hNext s' hs', hNext' s' hs'⟩⟩

section Invariants

variable {Inv : σ → Prop} (hStep : ∀ s l s', Inv s → step s l = some s' → Inv s')
include hStep

/-- What every step preserves holds of the state that a run leaves. -/
theorem inv_of_exec {s s' : σ} {ls : List ℓ} (hs : Inv s) (hExec : exec step s ls = some s') : Inv s' := by
  induction ls generalizing s with
  | nil =>
    obtain rfl := Option.some.inj hExec
    exact hs
  | cons l ls ih =>
    obtain ⟨next, hNext, hRest⟩ := Option.bind_eq_some_iff.mp hExec
    exact ih (hStep s l next hs hNext) hRest

theorem throughout_of_step {s : σ} {ls : List ℓ} (hs : Inv s) : Throughout step Inv s ls := by
  induction ls generalizing s with
  | nil => exact hs
  | cons l ls ih => exact ⟨hs, fun s' hs' => ih (hStep s l s' hs hs')⟩

theorem along_of_step {good : σ → ℓ → Prop} (hGood : ∀ s l, Inv s → good s l) {s : σ} {ls : List ℓ} (hs : Inv s) :
    Along step good s ls := by
  induction ls generalizing s with
  | nil => trivial
  | cons l ls ih => exact ⟨hGood s l hs, fun s' hs' => ih (hStep s l s' hs hs')⟩

/-- Two conditions that agree where the invariant holds agree along every run that starts there. -/
theorem along_iff_of_step {good guard : σ → ℓ → Prop} (h : ∀ s l, Inv s → (good s l ↔ guard s l)) {s : σ}
    {ls : List ℓ} (hs : Inv s) : Along step good s ls ↔ Along step guard s ls := by
  induction ls generalizing s with
  | nil => exact Iff.rfl
  | cons l ls ih =>
    refine and_congr (h s l hs) (forall_congr' fun s' => forall_congr' fun hs' => ?_)
    exact ih (hStep s l s' hs hs')

/-- Where the guard says which steps can happen, it says along a run whether the run breaks off. -/
theorem exec_isSome_iff_along {guard : σ → ℓ → Prop} (h : ∀ s l, Inv s → ((step s l).isSome = true ↔ guard s l))
    {s : σ} {ls : List ℓ} (hs : Inv s) : (exec step s ls).isSome = true ↔ Along step guard s ls := by
  induction ls generalizing s with
  | nil => exact iff_of_true rfl trivial
  | cons l ls ih =>
    rw [exec, Along, ← h s l hs]
    cases hNext : step s l with
    | none => simp
    | some next => simpa using ih (hStep s l next hs hNext)

end Invariants

end Tr069Agent.Library.Transition
