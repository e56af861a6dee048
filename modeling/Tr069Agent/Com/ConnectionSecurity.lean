import Tr069Agent.Engine.Common
import Tr069Agent.Library.BoundedHistory
import Tr069Agent.Library.Transition

/-! # The number of connection requests in a period

The server keeps the times of the newest requests that were allowed in an array that is filled with zeros at the
start. As long as the clock is below the period, a zero is taken for a request of the last period.
-/

namespace Tr069Agent.Com

open Library Library.Transition Engine

set_option autoImplicit false

def maxConnectionRequestArraySize : Nat := 100

def defaultMaxConnectionRequest : Nat := 50

def defaultFreqConnectionRequest : Nat := 3600

def initConnectionFreqArray : List Nat := List.replicate maxConnectionRequestArraySize 0

def newConnectionRequestAllowed (connectionFreqArray : List Nat) (curtime : Nat) : List Nat :=
  BoundedHistory.push curtime connectionFreqArray

/-- What the engine answers about the two settings, none with a fault code. -/
structure ConnectionSettings where
  maxConnectionRequest : Option Text
  freqConnectionRequest : Option Text

/-- The limit and the period; a text that is no number leaves a zero. -/
def connectionLimits : Option ConnectionSettings → Nat × Nat
  | some ⟨some maxText, some freqText⟩ =>
    let maxConnectionRequest := (stringToUint maxText).getD 0
    let periodConnectionRequest := (stringToUint freqText).getD 0
    if maxConnectionRequestArraySize ≤ maxConnectionRequest then (defaultMaxConnectionRequest, periodConnectionRequest)
    else (maxConnectionRequest, periodConnectionRequest)
  | _ => (defaultMaxConnectionRequest, defaultFreqConnectionRequest)

def maxConnectionPerPeriodReached (connectionFreqArray : List Nat) (settings : Option ConnectionSettings)
    (curtime : Nat) : Bool :=
  let (maxConnectionRequest, periodConnectionRequest) := connectionLimits settings
  let numberOfRequests := connectionFreqArray.countP fun time : Nat => (curtime : Int) - time < periodConnectionRequest
  if numberOfRequests < maxConnectionRequest then numberOfRequests = maxConnectionRequestArraySize else true

/-- What happens to a connection: the time at which it is checked and, when the request is allowed in the end, the
time at which it is recorded. -/
structure ServedConnection where
  checked : Nat
  recorded : Option Nat
  deriving DecidableEq

/-- The array of the server, with all the times that were recorded, the newest first, and the clock. -/
structure ConnectionServer where
  connectionFreqArray : List Nat
  requests : List Nat
  clock : Nat
  deriving DecidableEq

namespace ConnectionServer

def init (clock : Nat) : ConnectionServer := ⟨initConnectionFreqArray, [], clock⟩

/-- A round of `DM_HttpServer_Start`. The clock never goes back. -/
def step (settings : Option ConnectionSettings) (s : ConnectionServer) (connection : ServedConnection) :
    Option ConnectionServer :=
  if connection.checked < s.clock then none
  else if maxConnectionPerPeriodReached s.connectionFreqArray settings connection.checked then
    some { s with clock := connection.checked }
  else
    match connection.recorded with
    | none => some { s with clock := connection.checked }
    | some curtime =>
      if curtime < connection.checked then none
      else some { connectionFreqArray := newConnectionRequestAllowed s.connectionFreqArray curtime
                  requests := curtime :: s.requests
                  clock := curtime }

/-- The number of requests recorded in the period that ends at a time. -/
def requestsWithin (period : Nat) (requests : List Nat) (time : Nat) : Nat :=
  requests.countP fun request : Nat => (time : Int) - period < request ∧ request ≤ time

/-- The check refuses when the limit is reached, and only then. -/
def Exact (settings : Option ConnectionSettings) (s : ConnectionServer) (connection : ServedConnection) : Prop :=
  s.clock ≤ connection.checked →
    (maxConnectionPerPeriodReached s.connectionFreqArray settings connection.checked = true ↔
      (connectionLimits settings).1 ≤ requestsWithin (connectionLimits settings).2 s.requests connection.checked)

/-- No period has more requests than the limit. -/
def Bounded (settings : Option ConnectionSettings) (s : ConnectionServer) : Prop :=
  ∀ time, requestsWithin (connectionLimits settings).2 s.requests time ≤ (connectionLimits settings).1

/-- A connection is checked when the clock has passed a whole period. -/
def ClockRuns (settings : Option ConnectionSettings) (s : ConnectionServer) (connection : ServedConnection) : Prop :=
  s.clock ≤ connection.checked → (connectionLimits settings).2 ≤ connection.checked ∨ (connectionLimits settings).1 = 0

instance (settings : Option ConnectionSettings) (s : ConnectionServer) (connection : ServedConnection) :
    Decidable (Exact settings s connection) :=
  inferInstanceAs (Decidable (_ → (_ ↔ _)))

/-- The array holds the newest requests. None was recorded before the clock had passed a period. -/
structure ServerInv (settings : Option ConnectionSettings) (s : ConnectionServer) : Prop where
  stored : s.connectionFreqArray = BoundedHistory.stored maxConnectionRequestArraySize 0 s.requests
  ordered : s.requests.Pairwise fun newer older => older ≤ newer
  passed : ∀ request ∈ s.requests, request ≤ s.clock
  started : s.requests = [] ∨ (connectionLimits settings).2 ≤ s.clock
  bounded : Bounded settings s

section Counting

variable {settings : Option ConnectionSettings} {s : ConnectionServer} {curtime : Nat}

theorem limit_lt (settings : Option ConnectionSettings) :
    (connectionLimits settings).1 < maxConnectionRequestArraySize := by
  rw [connectionLimits.eq_def]
  split
  · simp only
    split
    · exact (by decide : 50 < 100)
    · rename_i hLess
      exact not_le.mp hLess
  · exact (by decide : 50 < 100)

theorem reached_iff_countP (connectionFreqArray : List Nat) (settings : Option ConnectionSettings) (curtime : Nat) :
    maxConnectionPerPeriodReached connectionFreqArray settings curtime = true ↔ (connectionLimits settings).1 ≤
      connectionFreqArray.countP fun time : Nat => (curtime : Int) - time < (connectionLimits settings).2 := by
  have hLimit := limit_lt settings
  simp only [maxConnectionPerPeriodReached]
  generalize connectionFreqArray.countP _ = numberOfRequests
  by_cases hLess : numberOfRequests < (connectionLimits settings).1
  · have hRoom : numberOfRequests ≠ maxConnectionRequestArraySize := by omega
    simp [hLess, hRoom]
  · simp [hLess, not_lt.mp hLess]

/-- The requests counted are those of the last period and, before the clock has passed a period, the zeros. -/
theorem ServerInv.countP (h : ServerInv settings s) (hClock : s.clock ≤ curtime) (period : Nat) :
    s.connectionFreqArray.countP (fun time : Nat => (curtime : Int) - time < period) =
      min maxConnectionRequestArraySize (requestsWithin period s.requests curtime) +
        if curtime < period then maxConnectionRequestArraySize - s.requests.length else 0 := by
  have hNewest : s.requests.Pairwise fun newer older : Nat =>
      decide ((curtime : Int) - older < period) = true → decide ((curtime : Int) - newer < period) = true := by
    refine h.ordered.imp fun {newer older} hOrder => ?_
    simp only [decide_eq_true_eq]
    omega
  have hSame : s.requests.countP (fun time : Nat => (curtime : Int) - time < period) =
      requestsWithin period s.requests curtime := by
    refine List.countP_congr fun request hMem => ?_
    have hPassed := h.passed request hMem
    simp only [decide_eq_true_eq]
    omega
  rw [h.stored, BoundedHistory.countP_stored hNewest, hSame]
  simp

theorem reached_iff (h : ServerInv settings s) (hClock : s.clock ≤ curtime) :
    maxConnectionPerPeriodReached s.connectionFreqArray settings curtime = true ↔
      (connectionLimits settings).1 ≤ requestsWithin (connectionLimits settings).2 s.requests curtime ∨
        curtime < (connectionLimits settings).2 := by
  have hLimit := limit_lt settings
  have hCount := h.countP hClock (connectionLimits settings).2
  have hStarted : curtime < (connectionLimits settings).2 → s.requests = [] := by
    intro hEarly
    exact h.started.resolve_right (by omega)
  rw [reached_iff_countP, hCount]
  by_cases hEarly : curtime < (connectionLimits settings).2
  · simp only [hEarly, hStarted hEarly, if_true, or_true, iff_true, List.length_nil]
    omega
  · simp only [hEarly, if_false, or_false]
    omega

theorem exact_iff (h : ServerInv settings s) (connection : ServedConnection) :
    Exact settings s connection ↔ ClockRuns settings s connection := by
  refine forall_congr' fun hClock => ?_
  rw [reached_iff h hClock]
  by_cases hEarly : connection.checked < (connectionLimits settings).2
  · have hNone : s.requests = [] := h.started.resolve_right (by omega)
    have hZero : requestsWithin (connectionLimits settings).2 s.requests connection.checked = 0 := by
      rw [hNone]
      rfl
    rw [hZero]
    omega
  · omega

theorem serverInv_init (settings : Option ConnectionSettings) (clock : Nat) : ServerInv settings (init clock) := by
  refine ⟨(BoundedHistory.stored_nil _ _).symm, List.Pairwise.nil, ?_, .inl rfl, fun time => Nat.zero_le _⟩
  exact fun request hMem => nomatch hMem

/-- A request that is recorded was checked: with it no period has more requests than the limit. -/
theorem bounded_record (h : ServerInv settings s) {checked : Nat} (hChecked : s.clock ≤ checked)
    (hAllowed : ¬ maxConnectionPerPeriodReached s.connectionFreqArray settings checked = true)
    (hLater : checked ≤ curtime)
    (time : Nat) : requestsWithin (connectionLimits settings).2 (curtime :: s.requests) time ≤
      (connectionLimits settings).1 := by
  rw [reached_iff h hChecked, not_or, not_le] at hAllowed
  have hOld := h.bounded time
  simp only [requestsWithin] at hOld hAllowed ⊢
  by_cases hNew : (time : Int) - (connectionLimits settings).2 < curtime ∧ curtime ≤ time
  · have hFewer : s.requests.countP (fun request : Nat =>
        (time : Int) - (connectionLimits settings).2 < request ∧ request ≤ time) ≤
          s.requests.countP (fun request : Nat =>
            (checked : Int) - (connectionLimits settings).2 < request ∧ request ≤ checked) := by
      refine List.countP_mono_left fun request hMem => ?_
      have hPassed := h.passed request hMem
      simp only [decide_eq_true_eq]
      omega
    rw [List.countP_cons_of_pos (by simpa using hNew)]
    omega
  · rw [List.countP_cons_of_neg (by simpa using hNew)]
    exact hOld

theorem serverInv_step {s' : ConnectionServer} (h : ServerInv settings s) {connection : ServedConnection}
    (hStep : step settings s connection = some s') : ServerInv settings s' := by
  rw [step] at hStep
  by_cases hBack : connection.checked < s.clock
  · rw [if_pos hBack] at hStep
    cases hStep
  · have hClock := not_lt.mp hBack
    have hIdle : ServerInv settings { s with clock := connection.checked } := by
      refine { h with passed := ?_, started := ?_ }
      · exact fun request hMem => (h.passed request hMem).trans hClock
      · exact h.started.imp_right fun hRuns => hRuns.trans hClock
    rw [if_neg hBack] at hStep
    by_cases hReached : maxConnectionPerPeriodReached s.connectionFreqArray settings connection.checked = true
    · rw [if_pos hReached] at hStep
      obtain rfl := Option.some.inj hStep
      exact hIdle
    · rw [if_neg hReached] at hStep
      split at hStep
      · obtain rfl := Option.some.inj hStep
        exact hIdle
      · rename_i curtime hRecorded
        by_cases hEarlier : curtime < connection.checked
        · rw [if_pos hEarlier] at hStep
          cases hStep
        · have hLater := not_lt.mp hEarlier
          have hRuns : (connectionLimits settings).2 ≤ connection.checked := by
            rw [reached_iff h hClock, not_or, not_lt] at hReached
            exact hReached.2
          rw [if_neg hEarlier] at hStep
          obtain rfl := Option.some.inj hStep
          refine ⟨?_, ?_, ?_, .inr (hRuns.trans hLater), bounded_record h hClock hReached hLater⟩
          · rw [newConnectionRequestAllowed, h.stored]
            exact BoundedHistory.push_stored (by decide) 0 curtime s.requests
          · exact List.pairwise_cons.mpr ⟨fun request hMem => (hIdle.passed request hMem).trans hLater, h.ordered⟩
          · intro request hMem
            rcases List.mem_cons.mp hMem with rfl | hOld
            · exact le_refl _
            · exact (hIdle.passed request hOld).trans hLater

end Counting

/-- No period ever has more requests than the limit. The refusals are exact if and only if no connection comes before
the clock has passed a period. -/
theorem rate_limit_exact_iff (settings : Option ConnectionSettings) (clock : Nat)
    (connections : List ServedConnection) :
    (Along (step settings) (Exact settings) (init clock) connections ∧
      Throughout (step settings) (Bounded settings) (init clock) connections) ↔
        Along (step settings) (ClockRuns settings) (init clock) connections := by
  have hInv := serverInv_init settings clock
  have hStep : ∀ s connection s', ServerInv settings s → step settings s connection = some s' → ServerInv settings s' :=
    fun _ _ _ h hStep => serverInv_step h hStep
  have hBounded : Throughout (step settings) (Bounded settings) (init clock) connections :=
    (throughout_of_step hStep hInv).mono fun _ h => h.bounded
  rw [and_iff_left hBounded]
  exact along_iff_of_step hStep (fun _ connection h => exact_iff h connection) hInv

/-- The settings of fifty connections in an hour. -/
def sampleSettings : Option ConnectionSettings := some ⟨some "50".toList, some "3600".toList⟩

/-- Ten seconds after the clock began at zero the first connection is refused. -/
theorem first_connection_refused :
    connectionLimits sampleSettings = (50, 3600) ∧
      ¬ (Along (step sampleSettings) (Exact sampleSettings) (init 0) [⟨10, some 10⟩] ∧
        Throughout (step sampleSettings) (Bounded sampleSettings) (init 0) [⟨10, some 10⟩]) := by
  have hFirst : ¬ Along (step sampleSettings) (Exact sampleSettings) (init 0) [⟨10, some 10⟩] := by decide +kernel
  exact ⟨by decide +kernel, fun h => hFirst h.1⟩

end ConnectionServer

end Tr069Agent.Com
