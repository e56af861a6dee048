import Mathlib.Algebra.Ring.Int.Defs
import Mathlib.Data.List.Basic
import Mathlib.Tactic.Common

/-! # The discovery of the keep-alive period

Each round sends a probe, sleeps and then sees whether the probe was answered. An answer shows that the binding has
outlived the sleep of the round before, so the period that is used stays more than two steps below the last one tried.
-/

namespace Tr069Agent.Com

set_option autoImplicit false

/-- The number of steps between the two bounds. -/
def nbMaxStep : Int := 20

def timeoutOffset : Int := 5

/-- The value of an `int`; an overflow is undefined. -/
def inInt (n : Int) : Option Int := if -2 ^ 31 ≤ n ∧ n < 2 ^ 31 then some n else none

/-- `DM_STUN_ComputeGlobalTimeout`, with the precision of one and a half steps. -/
def computeGlobalTimeout (step min max limit : Int) : Option Int := do
  let precision ← inInt ((step * 5).tdiv 2)
  let timeoutComputed ← inInt (limit - precision)
  let timeoutComputed ← inInt (timeoutComputed - timeoutOffset)
  let timeoutComputed := if timeoutComputed < min then min else timeoutComputed
  return if timeoutComputed > max then max else timeoutComputed

structure DiscoveryRound where
  sleep : Int
  received : Bool
  deriving DecidableEq

/-- The loop of `DM_STUN_timeoutDiscoveryThread`, the newest round first. What is received depends on the sleeps of
the rounds before. -/
def discoveryLoop (step maxTimeout : Int) (answer : List Int → Bool) :
    Nat → List DiscoveryRound → Int → Option (List DiscoveryRound × Int)
  | 0, _, _ => none
  | fuel + 1, rounds, timeout => do
    let received := answer (rounds.map (·.sleep))
    let rounds := ⟨timeout, received⟩ :: rounds
    let timeout ← if received then inInt (timeout + step) else some timeout
    if timeout ≤ maxTimeout ∧ received then discoveryLoop step maxTimeout answer fuel rounds timeout
    else return (rounds, timeout)

/-- The rounds and the `g_timeout` that is set, if it is. -/
structure Discovery where
  rounds : List DiscoveryRound
  gTimeout : Option Int
  deriving DecidableEq

/-- `DM_STUN_timeoutDiscoveryThread`; each round but the last raises the timeout. -/
def timeoutDiscoveryThread (minTimeout maxTimeout : Int) (answer : List Int → Bool) : Option Discovery :=
  if minTimeout = maxTimeout then some ⟨[], none⟩
  else do
    let range ← inInt (maxTimeout - minTimeout)
    let step := range.tdiv nbMaxStep
    let step := if step = 0 then 1 else step
    let (rounds, timeout) ← discoveryLoop step maxTimeout answer (range.toNat + 1) [] minTimeout
    let gTimeout ← computeGlobalTimeout step minTimeout maxTimeout timeout
    return ⟨rounds, some gTimeout⟩

/-- A binding that lives so long: the first probe is answered or not, a later one if the last sleep was no longer. -/
def natBinding (lifetime : Int) (first : Bool) : List Int → Bool
  | [] => first
  | sleep :: _ => sleep ≤ lifetime

/-- The sleeps that an answered probe followed. -/
def confirmedSleeps : List DiscoveryRound → List Int
  | next :: round :: rounds =>
    if next.received then round.sleep :: confirmedSleeps (round :: rounds) else confirmedSleeps (round :: rounds)
  | _ => []

section Rounds

variable {step minTimeout maxTimeout lifetime : Int}

/-- What the rounds say of the timeout that comes next. -/
def Tried (step minTimeout lifetime : Int) (rounds : List DiscoveryRound) (timeout : Int) : Prop :=
  timeout = minTimeout ∨ timeout = minTimeout + step ∨
    ∃ sleep ∈ confirmedSleeps rounds, sleep ≤ lifetime ∧ timeout = sleep + 2 * step

theorem confirmedSleeps_subset (next : DiscoveryRound) (rounds : List DiscoveryRound) :
    confirmedSleeps rounds ⊆ confirmedSleeps (next :: rounds) := by
  cases rounds with
  | nil => exact List.nil_subset _
  | cons round rounds =>
    rw [confirmedSleeps]
    split
    · exact List.subset_cons_self _ _
    · exact List.Subset.refl _

theorem Tried.cons {rounds : List DiscoveryRound} {timeout : Int} (h : Tried step minTimeout lifetime rounds timeout)
    (next : DiscoveryRound) : Tried step minTimeout lifetime (next :: rounds) timeout := by
  refine h.imp_right fun h => h.imp_right ?_
  rintro ⟨sleep, hMem, hSleep⟩
  exact ⟨sleep, confirmedSleeps_subset next rounds hMem, hSleep⟩

/-- The last round slept one step less than the next one will. -/
structure LoopInv (step minTimeout lifetime : Int) (rounds : List DiscoveryRound) (timeout : Int) : Prop where
  tried : Tried step minTimeout lifetime rounds timeout
  start : rounds = [] → timeout = minTimeout
  last : ∀ round ∈ rounds.head?, round.sleep = timeout - step

theorem LoopInv.answered {first : Bool} {rounds : List DiscoveryRound} {timeout : Int}
    (h : LoopInv step minTimeout lifetime rounds timeout)
    (hReceived : natBinding lifetime first (rounds.map (·.sleep)) = true) :
    LoopInv step minTimeout lifetime (⟨timeout, true⟩ :: rounds) (timeout + step) := by
  refine ⟨?_, fun hNone => absurd hNone (List.cons_ne_nil _ _), ?_⟩
  · cases rounds with
    | nil => exact .inr (.inl (by rw [h.start rfl]))
    | cons round rounds =>
      have hSleep := h.last round rfl
      have hLives : round.sleep ≤ lifetime := of_decide_eq_true hReceived
      exact .inr (.inr ⟨round.sleep, List.mem_cons_self, hLives, by omega⟩)
  · rintro round ⟨⟩
    exact (Int.add_sub_cancel timeout step).symm

theorem inInt_eq {n : Int} (hLow : -2 ^ 31 ≤ n) (hHigh : n < 2 ^ 31) : inInt n = some n := if_pos ⟨hLow, hHigh⟩

/-- With enough fuel the loop ends, without overflow. -/
theorem discoveryLoop_spec (first : Bool) (hMin : 0 < minTimeout) (hMax : maxTimeout < 2 ^ 29) (hStep : 0 < step)
    (hSmall : step < 2 ^ 29)
    {fuel : Nat} {rounds : List DiscoveryRound} {timeout : Int} (h : LoopInv step minTimeout lifetime rounds timeout)
    (hLow : minTimeout ≤ timeout) (hHigh : timeout ≤ maxTimeout) (hFuel : (maxTimeout - timeout).toNat < fuel) :
    ∃ rounds' limit, discoveryLoop step maxTimeout (natBinding lifetime first) fuel rounds timeout =
      some (rounds', limit) ∧
      Tried step minTimeout lifetime rounds' limit ∧ minTimeout ≤ limit ∧ limit ≤ maxTimeout + step := by
  induction fuel generalizing rounds timeout with
  | zero => exact absurd hFuel (Nat.not_lt_zero _)
  | succ fuel ih =>
    rw [discoveryLoop]
    cases hReceived : natBinding lifetime first (rounds.map (·.sleep)) with
    | false => exact ⟨⟨timeout, false⟩ :: rounds, timeout, by simp, h.tried.cons _, hLow, by omega⟩
    | true =>
      have hNext := h.answered hReceived
      have hSum : inInt (timeout + step) = some (timeout + step) := inInt_eq (by omega) (by omega)
      simp only [if_true, hSum, Option.bind_eq_bind, Option.bind_some, and_true]
      by_cases hMore : timeout + step ≤ maxTimeout
      · rw [if_pos hMore]
        exact ih hNext (by omega) hMore (by omega)
      · rw [if_neg hMore]
        exact ⟨_, _, rfl, hNext.tried, by omega, by omega⟩

theorem computeGlobalTimeout_spec (hMin : 0 < minTimeout) (hRange : minTimeout < maxTimeout)
    (hMax : maxTimeout < 2 ^ 29)
    (hStep : 0 < step) (hSmall : step < 2 ^ 29) {limit : Int} (hLow : minTimeout ≤ limit)
    (hHigh : limit ≤ maxTimeout + step) :
    ∃ gTimeout, computeGlobalTimeout step minTimeout maxTimeout limit = some gTimeout ∧ minTimeout ≤ gTimeout ∧
      gTimeout ≤ maxTimeout ∧ (gTimeout = minTimeout ∨ gTimeout ≤ limit - step * 5 / 2 - timeoutOffset) := by
  have hPrecision : (step * 5).tdiv 2 = step * 5 / 2 := Int.tdiv_eq_ediv_of_nonneg (by omega)
  have hFirst : inInt (step * 5 / 2) = some (step * 5 / 2) := inInt_eq (by omega) (by omega)
  have hSecond : inInt (limit - step * 5 / 2) = some (limit - step * 5 / 2) := inInt_eq (by omega) (by omega)
  have hThird : inInt (limit - step * 5 / 2 - timeoutOffset) = some (limit - step * 5 / 2 - timeoutOffset) :=
    inInt_eq (by rw [timeoutOffset]; omega) (by rw [timeoutOffset]; omega)
  simp only [computeGlobalTimeout, hPrecision, hFirst, hSecond, hThird, Option.bind_eq_bind, Option.bind_some,
    Option.pure_def]
  refine ⟨_, rfl, ?_⟩
  omega

end Rounds

/-- The loop ends, and the period that is used is the minimum or has been outlived by the binding, as an answered probe
has shown. -/
theorem discovered_timeout_safe {minTimeout maxTimeout : Int} (hMin : 0 < minTimeout) (hRange : minTimeout < maxTimeout)
    (hMax : maxTimeout < 2 ^ 29) (lifetime : Int) (first : Bool) :
    ∃ rounds gTimeout, timeoutDiscoveryThread minTimeout maxTimeout (natBinding lifetime first) =
        some ⟨rounds, some gTimeout⟩ ∧ minTimeout ≤ gTimeout ∧ gTimeout ≤ maxTimeout ∧
      (gTimeout = minTimeout ∨ gTimeout ≤ lifetime ∧ ∃ sleep ∈ confirmedSleeps rounds, gTimeout ≤ sleep) := by
  have hDiff : inInt (maxTimeout - minTimeout) = some (maxTimeout - minTimeout) := inInt_eq (by omega) (by omega)
  have hDiv : (maxTimeout - minTimeout).tdiv nbMaxStep = (maxTimeout - minTimeout) / 20 :=
    Int.tdiv_eq_ediv_of_nonneg (by omega)
  obtain ⟨step, hStepEq⟩ : ∃ step, step =
      if (maxTimeout - minTimeout) / 20 = 0 then 1 else (maxTimeout - minTimeout) / 20 := ⟨_, rfl⟩
  have hStep : 0 < step := by omega
  have hSmall : step < 2 ^ 29 := by omega
  have hStart : LoopInv step minTimeout lifetime [] minTimeout :=
    ⟨.inl rfl, fun _ => rfl, fun round hNone => nomatch hNone⟩
  obtain ⟨rounds, limit, hLoop, hTried, hLow, hHigh⟩ := discoveryLoop_spec first hMin hMax hStep hSmall hStart
    (Int.le_refl _) (Int.le_of_lt hRange) (Nat.lt_succ_self _)
  obtain ⟨gTimeout, hCompute, hGe, hLe, hUsed⟩ := computeGlobalTimeout_spec hMin hRange hMax hStep hSmall hLow hHigh
  refine ⟨rounds, gTimeout, ?_, hGe, hLe, ?_⟩
  · simp only [timeoutDiscoveryThread, if_neg (Int.ne_of_lt hRange), hDiff, hDiv, ← hStepEq, hLoop, hCompute,
      Option.bind_eq_bind, Option.bind_some, Option.pure_def]
  · rw [timeoutOffset] at hUsed
    rcases hTried with rfl | rfl | ⟨sleep, hMem, hLives, rfl⟩
    · omega
    · omega
    · by_cases hMinimum : gTimeout = minTimeout
      · exact .inl hMinimum
      · exact .inr ⟨by omega, sleep, hMem, by omega⟩

/-- A binding of ten minutes, between one minute and twenty. -/
theorem discovered_timeout_safe_sample :
    ∃ rounds gTimeout, timeoutDiscoveryThread 60 1200 (natBinding 600 true) = some ⟨rounds, some gTimeout⟩ ∧
      60 ≤ gTimeout ∧ gTimeout ≤ 1200 ∧
        (gTimeout = 60 ∨ gTimeout ≤ 600 ∧ ∃ sleep ∈ confirmedSleeps rounds, gTimeout ≤ sleep) :=
  discovered_timeout_safe (by decide) (by decide) (by decide) 600 true

example : (timeoutDiscoveryThread 60 1200 (natBinding 600 true)).bind (·.gTimeout) = some 540 := by decide

end Tr069Agent.Com
