import Mathlib.Data.List.DropRight
import Tr069Agent.Engine.SchedulerRun

/-! # The delay before a failed session is tried again

The delay doubles with each session that fails and a session that completes sets it back. The thread
waits for the next time that is planned, but no longer than the delay; a time of zero, which stands for
no plan, is taken there for one that has passed.
-/

namespace Tr069Agent.Engine.RetryDelay

open Library Library.Transition

set_option autoImplicit false

def initialRetryDelay : Nat := 5

def maxRetryDelay : Nat := 2560

/-- What the end of a session makes of the delay. -/
def updateRetryDelay (retryDelay : Nat) (completed : Bool) : Nat :=
  if completed then 0
  else if retryDelay = 0 then initialRetryDelay
  else if retryDelay < maxRetryDelay then retryDelay * 2
  else retryDelay

def retryDelayAfter (outcomes : List Bool) : Nat := outcomes.foldl updateRetryDelay 0

/-- The time until which the thread waits, zero for a wait without an end. -/
def nextInformTime (retryOn : Bool) (retryDelay : Nat) (currentTime nextTimeout : Int) : Int :=
  if retryOn then
    let minTimeToWait := currentTime + initialRetryDelay
    if nextTimeout < minTimeToWait then minTimeToWait
    else if nextTimeout > currentTime + retryDelay then currentTime + retryDelay
    else nextTimeout
  else nextTimeout

section Backoff

def consecutiveFailures (outcomes : List Bool) : Nat := (outcomes.rtakeWhile (!·)).length

/-- The delay after so many failures in a row. -/
def backoff : Nat → Nat
  | 0 => 0
  | k + 1 => 5 * 2 ^ min k 9

theorem updateRetryDelay_backoff (k : Nat) : updateRetryDelay (backoff k) false = backoff (k + 1) := by
  cases k with
  | zero => rfl
  | succ k =>
    have hPos : 0 < backoff (k + 1) := Nat.mul_pos (by decide) (Nat.pow_pos (by decide))
    rw [updateRetryDelay, if_neg (by decide), if_neg (by omega)]
    by_cases hSmall : k < 9
    · have hPow : 2 ^ k ≤ 2 ^ 8 := Nat.pow_le_pow_right (by decide) (by omega)
      have hDelay : 5 * 2 ^ k < maxRetryDelay := by
        rw [maxRetryDelay]
        omega
      simp only [backoff, Nat.min_eq_left (Nat.le_of_lt hSmall), Nat.min_eq_left hSmall, if_pos hDelay]
      omega
    · have hFirst : min k 9 = 9 := by omega
      have hSecond : min (k + 1) 9 = 9 := by omega
      rw [backoff, backoff, hFirst, hSecond]
      decide

theorem retryDelayAfter_eq (outcomes : List Bool) :
    retryDelayAfter outcomes = backoff (consecutiveFailures outcomes) := by
  induction outcomes using List.reverseRecOn with
  | nil => rfl
  | append_singleton outcomes completed ih =>
    rw [retryDelayAfter, List.foldl_append, ← retryDelayAfter, ih]
    cases completed with
    | true => simp [consecutiveFailures, updateRetryDelay, backoff]
    | false => simpa [consecutiveFailures] using updateRetryDelay_backoff _

end Backoff

section Waiting

variable {outcomes : List Bool} {now nextTimeout : Int}

/-- The delay after a failure, and the time chosen to wait for at most so long. -/
structure BacksOff (outcomes : List Bool) (now nextTimeout : Int) : Prop where
  delay : retryDelayAfter outcomes = 5 * 2 ^ min (consecutiveFailures outcomes - 1) 9
  earliest : now + 5 ≤ nextInformTime true (retryDelayAfter outcomes) now nextTimeout
  latest : nextInformTime true (retryDelayAfter outcomes) now nextTimeout ≤ now + retryDelayAfter outcomes
  unplanned : nextTimeout = 0 ∨ now + retryDelayAfter outcomes ≤ nextTimeout →
    nextInformTime true (retryDelayAfter outcomes) now nextTimeout = now + retryDelayAfter outcomes

theorem retryDelayAfter_of_failure (h : 1 ≤ consecutiveFailures outcomes) :
    retryDelayAfter outcomes = 5 * 2 ^ min (consecutiveFailures outcomes - 1) 9 := by
  obtain ⟨k, hk⟩ := Nat.exists_eq_add_of_le' h
  rw [retryDelayAfter_eq, hk]
  rfl

/-- The first delay is the shortest. -/
theorem retryDelayAfter_eq_initial_iff (h : 1 ≤ consecutiveFailures outcomes) :
    initialRetryDelay ≤ retryDelayAfter outcomes ∧
      (retryDelayAfter outcomes = initialRetryDelay ↔ consecutiveFailures outcomes = 1) := by
  rw [retryDelayAfter_of_failure h, initialRetryDelay]
  obtain hOne | hMore := Nat.eq_or_lt_of_le h
  · simp [← hOne]
  · have hPow : 2 ^ 1 ≤ 2 ^ min (consecutiveFailures outcomes - 1) 9 :=
      Nat.pow_le_pow_right (by decide) (by omega)
    omega

/-- With nothing planned only the first failure is waited for as long as the delay says. -/
theorem backsOff_iff (h : 1 ≤ consecutiveFailures outcomes) :
    BacksOff outcomes now nextTimeout ↔
      nextTimeout ≠ 0 ∨ consecutiveFailures outcomes = 1 ∨
        now + 5 * 2 ^ min (consecutiveFailures outcomes - 1) 9 ≤ 0 := by
  have hDelay := retryDelayAfter_of_failure h
  obtain ⟨hMin, hFirst⟩ := retryDelayAfter_eq_initial_iff h
  have hCast : (retryDelayAfter outcomes : Int) = 5 * 2 ^ min (consecutiveFailures outcomes - 1) 9 := by
    simp [hDelay]
  rw [← hCast, ← hFirst]
  simp only [initialRetryDelay] at *
  constructor
  · intro hBacks
    have hWake := hBacks.unplanned
    simp only [nextInformTime, initialRetryDelay, if_true] at hWake
    split_ifs at hWake <;> omega
  · intro hCond
    refine ⟨hDelay, ?_, ?_, fun hNone => ?_⟩ <;>
      (simp only [nextInformTime, initialRetryDelay, if_true]; split_ifs <;> omega)

/-- A failure with a plan for a day later. -/
theorem backsOff_planned : BacksOff [true, false, false] 1000 87400 :=
  (backsOff_iff (by decide)).mpr (by decide)

/-- The second failure in a row, with nothing planned, is tried again after five seconds and not ten. -/
theorem second_retry_too_soon :
    consecutiveFailures [false, false] = 2 ∧ retryDelayAfter [false, false] = 10 ∧
      nextInformTime true (retryDelayAfter [false, false]) 1000 0 = 1005 ∧
      ¬ BacksOff [false, false] 1000 0 := by
  refine ⟨by decide, by decide, by decide, fun hBacks => ?_⟩
  exact absurd (hBacks.unplanned (.inl rfl)) (by decide)

end Waiting

section WaitLoop

/-- What the wait loop goes on with after a wait that returned at the given time, by a signal or not. -/
def afterWait (minTimeToWait : Int) (times : Int × Int) (returned : Int) : Option (Int × Int) :=
  let (currentTime, nextInformTime) := times
  if currentTime < nextInformTime then
    some (if 0 < minTimeToWait then (returned, if returned < minTimeToWait then minTimeToWait else 0)
      else (currentTime, 0))
  else none

/-- The least wait is over, or the thread is to wait for it. -/
def Waited (minTimeToWait : Int) (times : Int × Int) : Prop :=
  minTimeToWait ≤ times.1 ∨ minTimeToWait ≤ times.2

theorem waited_afterWait {minTimeToWait returned : Int} {times after : Int × Int} (hMin : 0 < minTimeToWait)
    (h : afterWait minTimeToWait times returned = some after) : Waited minTimeToWait after := by
  rw [afterWait] at h
  split at h
  · obtain rfl := Option.some.inj h
    by_cases hEarly : returned < minTimeToWait <;> simp [Waited, hEarly]
    omega
  · cases h

/-- However often it is signalled, the thread does not go on before the least delay is over. -/
theorem minTimeToWait_le_of_exec {now nextTimeout : Int} {retryDelay : Nat} {times : Int × Int} {returns : List Int}
    (hDelay : initialRetryDelay ≤ retryDelay) (hNow : 0 < now + initialRetryDelay)
    (hExec : exec (afterWait (now + initialRetryDelay))
      (now, nextInformTime true retryDelay now nextTimeout) returns = some times)
    (hDone : ¬ times.1 < times.2) : now + initialRetryDelay ≤ times.1 := by
  have hStart : Waited (now + initialRetryDelay) (now, nextInformTime true retryDelay now nextTimeout) := by
    right
    simp only [nextInformTime, if_true]
    split_ifs <;> omega
  have hWaited : Waited (now + initialRetryDelay) times :=
    inv_of_exec (fun _ _ _ _ hStep => waited_afterWait hNow hStep) hStart hExec
  obtain hOver | hNext := hWaited
  · exact hOver
  · omega

end WaitLoop

section Runs

theorem retryOn_sessionLoop (timedOut sent : Bool) (s : Scheduler) :
    (s.sessionLoop timedOut sent).retryOn = s.retryOn ∧ (s.sessionLoop timedOut sent).phase = s.phase := by
  have hCancel : (s.cancelOnTimeout timedOut).retryOn = s.retryOn ∧ (s.cancelOnTimeout timedOut).phase = s.phase := by
    unfold Scheduler.cancelOnTimeout
    split <;> exact ⟨rfl, rfl⟩
  have hSend (s : Scheduler) : (s.sendResult sent).retryOn = s.retryOn ∧ (s.sendResult sent).phase = s.phase := by
    unfold Scheduler.sendResult
    split
    · exact ⟨rfl, rfl⟩
    · split <;> exact ⟨rfl, rfl⟩
  rw [← hCancel.1, ← hCancel.2]
  unfold Scheduler.sessionLoop
  dsimp only
  split
  · exact hSend _
  · exact ⟨rfl, rfl⟩

theorem retryOn_isSessionOpened (openingOK : Bool) (s : Scheduler) :
    (s.isSessionOpened openingOK).retryOn = s.retryOn ∧ (s.isSessionOpened openingOK).phase = s.phase := by
  unfold Scheduler.isSessionOpened Scheduler.dropInFlight Scheduler.confirmOpening
  split_ifs <;> exact ⟨rfl, rfl⟩

/-- No retry is due while the thread is in a session, or past one that did not start. -/
def NoRetryInSession (y : System) : Prop :=
  y.prog.phase = .inSession ∨ y.prog.phase = .done → y.prog.retryOn = false

/-- The actions of other threads, and those of the scheduler thread within a session. -/
theorem noRetryInSession_of_frame {y y' : System} (h : NoRetryInSession y)
    (hRetry : y'.prog.retryOn = y.prog.retryOn) (hPhase : y'.prog.phase = y.prog.phase) : NoRetryInSession y' := by
  rw [NoRetryInSession, hPhase, hRetry]
  exact h

theorem noRetryInSession_of_phase {y : System} (h : y.prog.phase ≠ .inSession) (hDone : y.prog.phase ≠ .done) :
    NoRetryInSession y := fun hIn => (hIn.elim h hDone).elim

/-- A retry is not due at the end of a session, so the flag is that of its outcome then. -/
theorem retryOn_step {y y' : System} {a : System.Action} (hNo : NoRetryInSession y) (h : y.step a = some y') :
    NoRetryInSession y' ∧
      (y'.prog.retryOn = true →
        a = .endOfSession ∧ y.prog.sendMessageStatus ≠ .completed ∨
          a ≠ .endOfSession ∧ y.prog.retryOn = true) := by
  obtain ⟨hEnabled, rfl⟩ := System.step_eq_some h
  cases a with
  | addEvent | acsAnswersInform | acsAnswersResult | sessionClosed | transferComplete | insertTransferRequest
    | requestDownload =>
    exact ⟨noRetryInSession_of_frame hNo rfl rfl, fun hOn => .inr ⟨nofun, hOn⟩⟩
  | manageEvents due =>
    exact ⟨noRetryInSession_of_phase nofun nofun, fun hOn => .inr ⟨nofun, hOn⟩⟩
  | wakeUp => exact ⟨noRetryInSession_of_phase nofun nofun, fun hOn => .inr ⟨nofun, hOn⟩⟩
  | waitEvents eventAdded =>
    refine ⟨noRetryInSession_of_phase nofun nofun, fun hOn => .inr ⟨nofun, ?_⟩⟩
    exact (Bool.and_eq_true_iff.mp hOn).1
  | sendMessage ready valueChanged outcome =>
    have hOff : y.prog.retryOn = false := by
      simp only [System.enabled, Scheduler.mustWait] at hEnabled
      simp_all
    have hSame : (y.prog.sendMessage ready valueChanged outcome).retryOn = y.prog.retryOn := by
      unfold Scheduler.sendMessage
      dsimp only
      split_ifs <;> rfl
    refine ⟨fun _ => hSame.trans hOff, fun hOn => ?_⟩
    exact absurd (hOn.symm.trans (hSame.trans hOff)) (by decide)
  | sessionLoop timedOut sent =>
    obtain ⟨hRetry, hPhase⟩ := retryOn_sessionLoop timedOut sent y.prog
    exact ⟨noRetryInSession_of_frame hNo hRetry hPhase, fun hOn => .inr ⟨nofun, hRetry.symm.trans hOn⟩⟩
  | isSessionOpened openingOK =>
    obtain ⟨hRetry, hPhase⟩ := retryOn_isSessionOpened openingOK y.prog
    exact ⟨noRetryInSession_of_frame hNo hRetry hPhase, fun hOn => .inr ⟨nofun, hRetry.symm.trans hOn⟩⟩
  | endOfSession =>
    have hIn : y.prog.phase = .inSession ∨ y.prog.phase = .done := by
      simp only [System.enabled, Bool.or_eq_true, Bool.and_eq_true, decide_eq_true_eq] at hEnabled
      exact hEnabled.symm.imp_left And.left
    have hOff := hNo hIn
    simp only [System.apply, Scheduler.endOfSession]
    split
    · exact ⟨noRetryInSession_of_phase nofun nofun, fun hOn => absurd (hOn.symm.trans hOff) (by decide)⟩
    · rename_i hFailed
      exact ⟨noRetryInSession_of_phase nofun nofun, fun _ => .inl ⟨trivial, hFailed⟩⟩

/-- The system, with the delay of the scheduler thread and the outcomes of the sessions so far. -/
structure Retries where
  system : System
  retryDelay : Nat
  outcomes : List Bool

namespace Retries

def init : Retries := ⟨.init, 0, []⟩

def step (r : Retries) (a : System.Action) : Option Retries :=
  (r.system.step a).map fun system =>
    match a with
    | .endOfSession =>
      let completed := r.system.prog.sendMessageStatus = .completed
      { system
        retryDelay := updateRetryDelay r.retryDelay completed
        outcomes := r.outcomes ++ [decide completed] }
    | _ => { r with system }

/-- The delay is that of the outcomes, and a retry is due only after a failure. -/
structure Inv (r : Retries) : Prop where
  delay : r.retryDelay = retryDelayAfter r.outcomes
  failed : r.system.prog.retryOn = true → 1 ≤ consecutiveFailures r.outcomes
  noRetry : NoRetryInSession r.system

theorem inv_step {r r' : Retries} {a : System.Action} (hInv : Inv r) (h : step r a = some r') : Inv r' := by
  obtain ⟨system, hStep, rfl⟩ := Option.map_eq_some_iff.mp h
  obtain ⟨hNo, hRetry⟩ := retryOn_step hInv.noRetry hStep
  cases a with
  | endOfSession =>
    refine ⟨?_, fun hOn => ?_, hNo⟩
    · simp [hInv.delay, retryDelayAfter]
    · obtain ⟨-, hFailed⟩ | ⟨hOther, -⟩ := hRetry hOn
      · simp [consecutiveFailures, hFailed]
      · exact absurd rfl hOther
  | _ =>
    refine ⟨hInv.delay, fun hOn => ?_, hNo⟩
    obtain ⟨hEnd, -⟩ | ⟨-, hBefore⟩ := hRetry hOn
    · cases hEnd
    · exact hInv.failed hBefore

/-- Whenever the thread is to wait before a retry, its delay and its wait are those of the outcomes. -/
theorem backsOff_of_exec {r : Retries} {actions : List System.Action} (hExec : exec step init actions = some r)
    (hRetry : r.system.prog.retryOn = true) {now nextTimeout : Int} (hPlanned : nextTimeout ≠ 0) :
    r.retryDelay = retryDelayAfter r.outcomes ∧ BacksOff r.outcomes now nextTimeout := by
  have hInit : Inv init := ⟨rfl, fun hOn => absurd hOn (by decide), fun _ => rfl⟩
  have hInv : Inv r := inv_of_exec (fun _ _ _ hBefore hStep => inv_step hBefore hStep) hInit hExec
  exact ⟨hInv.delay, (backsOff_iff (hInv.failed hRetry)).mpr (.inl hPlanned)⟩

end Retries

end Runs

end Tr069Agent.Engine.RetryDelay
