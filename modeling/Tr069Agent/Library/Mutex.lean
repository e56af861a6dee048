import Mathlib.Data.Finite.Defs
import Mathlib.Data.Fintype.Card
import Mathlib.Data.Set.Finite.Basic
import Mathlib.Order.Preorder.Finite

/-! # Threads and mutexes

A thread runs a list of commands; a call is replaced by its body, which may depend on the shared
data and on an outside choice. A mutex has no owner or one, and any thread may give it back. A set
of threads is deadlocked when each of them waits for a mutex that another one of the set owns.
-/

namespace Tr069Agent.Library.Mutex

set_option autoImplicit false

/-- A condition wait gives the mutex back and takes it again. -/
inductive Command (μ κ : Type*) where
  | lock (m : μ)
  | unlock (m : μ)
  | wait (m : μ)
  | call (f : κ)
  deriving DecidableEq

structure State (τ μ κ δ : Type*) where
  owner : μ → Option τ
  code : τ → List (Command μ κ)
  data : δ

variable {τ μ κ δ ι : Type*}

namespace State

/-- The mutex that the thread asks for. -/
def wants (s : State τ μ κ δ) (t : τ) : Option μ :=
  match s.code t with
  | .lock m :: _ => some m
  | _ => none

def WaitsFor (s : State τ μ κ δ) (t u : τ) : Prop :=
  t ≠ u ∧ ∃ m, s.wants t = some m ∧ s.owner m = some u

def Deadlocked (s : State τ μ κ δ) (threads : Set τ) : Prop :=
  threads.Nonempty ∧ ∀ t ∈ threads, ∃ u ∈ threads, s.WaitsFor t u

def DeadlockFree (s : State τ μ κ δ) : Prop := ∀ threads : Set τ, ¬ s.Deadlocked threads

/-- A rank of the mutexes that rises along every chain of two waits excludes a deadlock. -/
theorem deadlockFree_of_rank [Finite τ] {s : State τ μ κ δ} (rank : μ → Nat)
    (h : ∀ t u, s.WaitsFor t u → ∀ m ∈ s.wants t, ∀ m' ∈ s.wants u, rank m < rank m') :
    s.DeadlockFree := by
  rintro threads ⟨hNonempty, hWait⟩
  obtain ⟨t, hMax⟩ := threads.toFinite.exists_maximalFor (fun t => (s.wants t).elim 0 rank) _ hNonempty
  obtain ⟨u, hu, hFirst⟩ := hWait t hMax.prop
  obtain ⟨-, m, hWants, -⟩ := id hFirst
  obtain ⟨-, -, -, m', hWants', -⟩ := hWait u hu
  have hRise : rank m < rank m' := h t u hFirst m hWants m' hWants'
  have hLe := hMax.le_of_le hu (by simp [hWants, hWants', hRise.le])
  simp only [hWants, hWants', Option.elim_some] at hLe
  omega

/-- A step of the thread `l.1`, with the outside choice `l.2`. -/
def step [DecidableEq τ] [DecidableEq μ] (body : τ → ι → δ → κ → Option (δ × List (Command μ κ))) (s : State τ μ κ δ)
    (l : τ × ι) :
    Option (State τ μ κ δ) :=
  match s.code l.1 with
  | [] => none
  | .lock m :: rest =>
    if s.owner m = none then
      some ⟨Function.update s.owner m (some l.1), Function.update s.code l.1 rest, s.data⟩
    else none
  | .unlock m :: rest =>
    some ⟨Function.update s.owner m none, Function.update s.code l.1 rest, s.data⟩
  | .wait m :: rest =>
    some ⟨Function.update s.owner m none, Function.update s.code l.1 (.lock m :: rest), s.data⟩
  | .call f :: rest =>
    (body l.1 l.2 s.data f).map fun (data, code) =>
      ⟨s.owner, Function.update s.code l.1 (code ++ rest), data⟩

/-- What a step can do. -/
inductive Stepped [DecidableEq τ] [DecidableEq μ]
    (body : τ → ι → δ → κ → Option (δ × List (Command μ κ))) (s : State τ μ κ δ) (l : τ × ι)
    (s' : State τ μ κ δ) : Prop where
  | lock (m : μ) (rest : List (Command μ κ)) (hHead : s.code l.1 = .lock m :: rest)
      (hFree : s.owner m = none) (hOwner : s'.owner = Function.update s.owner m (some l.1))
      (hCode : s'.code = Function.update s.code l.1 rest)
  | unlock (m : μ) (rest : List (Command μ κ)) (hHead : s.code l.1 = .unlock m :: rest)
      (hOwner : s'.owner = Function.update s.owner m none)
      (hCode : s'.code = Function.update s.code l.1 rest)
  | wait (m : μ) (rest : List (Command μ κ)) (hHead : s.code l.1 = .wait m :: rest)
      (hOwner : s'.owner = Function.update s.owner m none)
      (hCode : s'.code = Function.update s.code l.1 (.lock m :: rest))
  | call (f : κ) (rest code : List (Command μ κ)) (hHead : s.code l.1 = .call f :: rest)
      (hBody : body l.1 l.2 s.data f = some (s'.data, code)) (hOwner : s'.owner = s.owner)
      (hCode : s'.code = Function.update s.code l.1 (code ++ rest))

section Step

variable [DecidableEq τ] [DecidableEq μ] {body : τ → ι → δ → κ → Option (δ × List (Command μ κ))}
  {s s' : State τ μ κ δ} {l : τ × ι}

theorem step_cases (h : s.step body l = some s') : Stepped body s l s' := by
  rw [step] at h
  split at h
  · cases h
  · rename_i m rest hHead
    split at h
    · cases h
      exact .lock m rest hHead ‹_› rfl rfl
    · cases h
  · rename_i m rest hHead
    cases h
    exact .unlock m rest hHead rfl rfl
  · rename_i m rest hHead
    cases h
    exact .wait m rest hHead rfl rfl
  · rename_i f rest hHead
    obtain ⟨⟨data, code⟩, hBody, hEq⟩ := Option.map_eq_some_iff.mp h
    cases hEq
    exact .call f rest code hHead hBody rfl rfl

theorem code_of_step (h : s.step body l = some s') {u : τ} (hNe : u ≠ l.1) : s'.code u = s.code u := by
  cases step_cases h with
  | lock m rest hHead hFree hOwner hCode => rw [hCode, Function.update_of_ne hNe]
  | unlock m rest hHead hOwner hCode => rw [hCode, Function.update_of_ne hNe]
  | wait m rest hHead hOwner hCode => rw [hCode, Function.update_of_ne hNe]
  | call f rest code hHead hBody hOwner hCode => rw [hCode, Function.update_of_ne hNe]

theorem owner_of_step (h : s.step body l = some s') {m : μ} {u : τ} (hNe : u ≠ l.1)
    (hOwned : s'.owner m = some u) : s.owner m = some u := by
  cases step_cases h with
  | lock m' rest hHead hFree hOwner hCode =>
    rw [hOwner] at hOwned
    obtain rfl | hOther := eq_or_ne m m'
    · rw [Function.update_self] at hOwned
      cases hOwned
      exact absurd rfl hNe
    · rwa [Function.update_of_ne hOther] at hOwned
  | unlock m' rest hHead hOwner hCode =>
    rw [hOwner] at hOwned
    obtain rfl | hOther := eq_or_ne m m'
    · simp at hOwned
    · rwa [Function.update_of_ne hOther] at hOwned
  | wait m' rest hHead hOwner hCode =>
    rw [hOwner] at hOwned
    obtain rfl | hOther := eq_or_ne m m'
    · simp at hOwned
    · rwa [Function.update_of_ne hOther] at hOwned
  | call f rest code hHead hBody hOwner hCode => rwa [hOwner] at hOwned

end Step

end State

/-- What each thread may lock, wait with and call while it holds the mutexes of a list. -/
structure Discipline (τ μ κ : Type*) where
  mayLock : τ → List μ → μ → Prop
  mayWait : τ → List μ → μ → Prop
  mayCall : τ → List μ → κ → Prop

namespace Discipline

variable (d : Discipline τ μ κ)

section Follows

variable [DecidableEq μ]

/-- The commands keep to the discipline when the thread starts with the mutexes `held`. -/
def Follows (t : τ) : List μ → List (Command μ κ) → Prop
  | _, [] => True
  | held, .lock m :: rest => d.mayLock t held m ∧ Follows t (m :: held) rest
  | held, .unlock m :: rest => Follows t (held.erase m) rest
  | held, .wait m :: rest =>
    d.mayWait t held m ∧ d.mayLock t (held.erase m) m ∧ Follows t (m :: held.erase m) rest
  | held, .call f :: rest => d.mayCall t held f ∧ Follows t held rest

/-- The body of a call keeps to the discipline and gives back what it takes. -/
def Sound (body : τ → ι → δ → κ → Option (δ × List (Command μ κ))) : Prop :=
  ∀ t choice data f data' code held, d.mayCall t held f → body t choice data f = some (data', code) →
    ∀ rest, d.Follows t held rest → d.Follows t held (code ++ rest)

/-- Whatever a thread owns is in its list, and what is left of its code keeps to the discipline. -/
def Inv (s : State τ μ κ δ) : Prop :=
  ∃ held : τ → List μ, (∀ m t, s.owner m = some t → m ∈ held t) ∧
    ∀ t, d.Follows t (held t) (s.code t)

variable {d}

theorem inv_step [DecidableEq τ] {body : τ → ι → δ → κ → Option (δ × List (Command μ κ))}
    (hSound : d.Sound body) {s s' : State τ μ κ δ} {l : τ × ι} (h : d.Inv s)
    (hStep : s.step body l = some s') : d.Inv s' := by
  obtain ⟨held, hOwner, hCode⟩ := h
  have hHere := hCode l.1
  -- it is enough to say what the thread that takes the step holds after it
  suffices h : ∃ mine, (∀ m, s'.owner m = some l.1 → m ∈ mine) ∧ d.Follows l.1 mine (s'.code l.1) by
    obtain ⟨mine, hMine, hFollows⟩ := h
    refine ⟨Function.update held l.1 mine, fun m u hOwned => ?_, fun u => ?_⟩
    · obtain rfl | hNe := eq_or_ne u l.1
      · simpa using hMine m hOwned
      · simpa [hNe] using hOwner m u (State.owner_of_step hStep hNe hOwned)
    · obtain rfl | hNe := eq_or_ne u l.1
      · simpa using hFollows
      · simpa [hNe, State.code_of_step hStep hNe] using hCode u
  -- what is not given back was owned before
  have hKeep {m m' : μ} (hOwned : Function.update s.owner m none m' = some l.1) :
      m' ∈ (held l.1).erase m := by
    obtain rfl | hNe := eq_or_ne m' m
    · simp at hOwned
    · rw [Function.update_of_ne hNe] at hOwned
      exact (List.mem_erase_of_ne hNe).mpr (hOwner m' l.1 hOwned)
  cases State.step_cases hStep with
  | lock m rest hHead hFree hOwner' hCode' =>
    rw [hHead] at hHere
    refine ⟨m :: held l.1, fun m' hOwned => ?_, by simpa [hCode'] using hHere.2⟩
    obtain rfl | hNe := eq_or_ne m' m
    · simp
    · rw [hOwner', Function.update_of_ne hNe] at hOwned
      exact List.mem_cons_of_mem m (hOwner m' l.1 hOwned)
  | unlock m rest hHead hOwner' hCode' =>
    rw [hHead] at hHere
    refine ⟨(held l.1).erase m, fun m' hOwned => hKeep (hOwner' ▸ hOwned), ?_⟩
    rw [hCode', Function.update_self]
    exact hHere
  | wait m rest hHead hOwner' hCode' =>
    rw [hHead] at hHere
    refine ⟨(held l.1).erase m, fun m' hOwned => hKeep (hOwner' ▸ hOwned), ?_⟩
    rw [hCode', Function.update_self]
    exact hHere.2
  | call f rest code hHead hBody hOwner' hCode' =>
    rw [hHead] at hHere
    refine ⟨held l.1, fun m' hOwned => hOwner m' l.1 (hOwner' ▸ hOwned), ?_⟩
    rw [hCode', Function.update_self]
    exact hSound l.1 l.2 s.data f s'.data code _ hHere.1 hBody rest hHere.2

/-- An owner that asks for another mutex may lock it with the first one held. -/
theorem Inv.mayLock_of_wants {s : State τ μ κ δ} (h : d.Inv s) {t : τ} {m m' : μ}
    (hOwner : s.owner m = some t) (hWants : s.wants t = some m') :
    ∃ held, m ∈ held ∧ d.mayLock t held m' := by
  obtain ⟨held, hHeld, hCode⟩ := h
  refine ⟨held t, hHeld m t hOwner, ?_⟩
  have hHere := hCode t
  rw [State.wants] at hWants
  split at hWants
  · rename_i hHead
    cases hWants
    rw [hHead] at hHere
    exact hHere.1
  · cases hWants

end Follows

end Discipline

end Tr069Agent.Library.Mutex
