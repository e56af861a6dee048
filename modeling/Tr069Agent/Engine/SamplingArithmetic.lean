import Tr069Agent.Engine.SamplesReport

/-! # The arithmetic of the sampling

The settings of a sample set are read from parameters that the ACS may set, and no value is refused where
they are used: an interval of zero is divided by, and products of two settings wrap around.
-/

namespace Tr069Agent.Engine.Sampling

open Library Library.Transition Statistics

set_option autoImplicit false

/-- A division or a remainder, and a product of two settings. -/
inductive Operation where
  | division (divisor : Nat)
  | product (left right : Nat)
  deriving DecidableEq

/-- The divisor is not zero, and the product does not wrap around. -/
def Operation.Defined : Operation → Prop
  | .division divisor => divisor ≠ 0
  | .product left right => left * right < 2 ^ 32

instance (op : Operation) : Decidable op.Defined :=
  match op with
  | .division divisor => inferInstanceAs (Decidable (divisor ≠ 0))
  | .product left right => inferInstanceAs (Decidable (left * right < 2 ^ 32))

section Push

/-- The operations of a push, one after the other; behind a division by zero there are none in fact. -/
def PushArguments.operations (a : PushArguments) : List Operation :=
  let divided := Operation.division a.settings.sampleInterval
  let counts :=
    match a.startTime with
    | none => []
    | some startTime =>
      .product a.settings.reportSamples a.settings.sampleInterval ::
        if startTime < a.earliestStart ∧ startTime = 0 then [] else [divided]
  let fetch :=
    if a.fetches then
      [.product a.settings.fetchSamples a.settings.sampleInterval, .division a.fetchInterval]
    else []
  divided :: if a.ignored then [] else counts ++ fetch

def pushOperations (ctx : SamplingContext) (statObject : Text) (pushCase : PushCase) (argTime : Int)
    (store : ParameterStore) : List Operation :=
  ((pushArguments ctx statObject pushCase argTime store).map PushArguments.operations).getD []

variable {ctx : SamplingContext} {statObject : Text} {pushCase : PushCase} {argTime : Int} {store : ParameterStore}

/-- The interval is not zero, and the products that are computed fit. -/
structure PushArguments.Defined (a : PushArguments) : Prop where
  interval : a.settings.sampleInterval ≠ 0
  report : a.ignored = false → a.startTime.isSome = true →
    a.settings.reportSamples * a.settings.sampleInterval < 2 ^ 32
  fetch : a.ignored = false → a.fetches = true →
    a.settings.fetchSamples * a.settings.sampleInterval < 2 ^ 32

theorem PushArguments.mem_operations {a : PushArguments} {op : Operation} :
    op ∈ a.operations ↔
      op = .division a.settings.sampleInterval ∨
        a.ignored = false ∧
          (a.startTime.isSome = true ∧ op = .product a.settings.reportSamples a.settings.sampleInterval ∨
            a.fetches = true ∧ (op = .product a.settings.fetchSamples a.settings.sampleInterval ∨
              op = .division a.fetchInterval)) := by
  rw [operations, List.mem_cons]
  refine or_congr_right' fun hFirst => ?_
  cases a.ignored with
  | true => simp
  | false =>
    rw [if_neg (by decide), List.mem_append]
    simp only [true_and]
    refine or_congr ?_ ?_
    · cases a.startTime with
      | none => simp
      | some startTime =>
        dsimp only
        rw [List.mem_cons]
        split <;> simp [hFirst]
    · cases a.fetches <;> simp

theorem PushArguments.operations_iff (a : PushArguments) : (∀ op ∈ a.operations, op.Defined) ↔ a.Defined := by
  constructor
  · intro hOps
    refine ⟨hOps _ (mem_operations.mpr (.inl rfl)), fun hIgnored hStart => ?_, fun hIgnored hFetches => ?_⟩
    · exact hOps _ (mem_operations.mpr (.inr ⟨hIgnored, .inl ⟨hStart, rfl⟩⟩))
    · exact hOps _ (mem_operations.mpr (.inr ⟨hIgnored, .inr ⟨hFetches, .inl rfl⟩⟩))
  · rintro ⟨hInterval, hReport, hFetch⟩ op hMem
    obtain rfl | ⟨hIgnored, ⟨hStart, rfl⟩ | ⟨hFetches, rfl | rfl⟩⟩ := mem_operations.mp hMem
    · exact hInterval
    · exact hReport hIgnored hStart
    · exact hFetch hIgnored hFetches
    · exact fetchInterval_ne_zero hInterval hFetches (hFetch hIgnored hFetches)

theorem pushSample_eq_none {slidingMode : Bool}
    (h : .division 0 ∈ pushOperations ctx statObject pushCase argTime store) :
    pushSample ctx statObject pushCase argTime slidingMode store = none := by
  rw [pushOperations] at h
  rw [pushSample]
  cases hArgs : pushArguments ctx statObject pushCase argTime store with
  | none =>
    rw [hArgs] at h
    cases h
  | some a =>
    rw [hArgs, Option.map_some, Option.getD_some, PushArguments.mem_operations] at h
    dsimp only
    obtain hInterval | ⟨hIgnored, ⟨-, hProduct⟩ | ⟨hFetches, hProduct | hFetch⟩⟩ := h
    · rw [if_pos (Operation.division.inj hInterval).symm]
    · cases hProduct
    · cases hProduct
    · have hEarly : ¬ a.tooEarly = true := Bool.eq_false_iff.mp (not_tooEarly hIgnored)
      have hZero : a.fetches = true ∧ a.fetchInterval = 0 := ⟨hFetches, (Operation.division.inj hFetch).symm⟩
      by_cases hInterval : a.settings.sampleInterval = 0
      · rw [if_pos hInterval]
      · rw [if_neg hInterval, if_neg hEarly, if_neg (by rw [hIgnored]; decide), if_pos hZero]

end Push

section Polling

def subSampleIntervalName : Text := "SubSampleInterval".toList

/-- What the time of the next polling is computed from: the time of the last attempt, zero before the first one,
and the delay before a retry, zero where none is due. -/
structure PollingArguments where
  now : Int
  lastTimestamp : Int
  attempt : Int
  subSampleInterval : Nat
  retryDelay : Nat
  settings : SampleSettings

def pollingArguments (ctx : SamplingContext) (statObject : Text) (now attempt : Int) (retryDelay : Nat)
    (store : ParameterStore) : PollingArguments where
  now
  lastTimestamp :=
    (((getStatParameter store statObject lastTimestampName).bind (·.value)).bind ctx.dateStringToTime).getD 0
  attempt
  subSampleInterval := uintOr 3600 ((getStatParameter store statObject subSampleIntervalName).bind (·.value))
  retryDelay
  settings := getSampleSettings ctx store statObject

namespace PollingArguments

variable (p : PollingArguments)

def lastPolling : Int := if p.attempt = 0 then p.lastTimestamp else p.attempt

/-- The polling starts, or is late. -/
def immediate : Bool := p.lastPolling = 0 || p.lastPolling + p.subSampleInterval ≤ p.now

def limitedDelay : Nat := min p.retryDelay p.subSampleInterval

def base : Int := if p.lastTimestamp = 0 ∨ 0 < p.limitedDelay then p.lastPolling else p.lastTimestamp

/-- The bound of a sample behind the base; none where the interval that is divided by is zero. -/
def sampleTime : Option Int :=
  let interval : Int := p.settings.sampleInterval
  let remainder (time : Int) : Option Int := if interval = 0 then none else some (time.tmod interval)
  if p.settings.timeRef < p.base then (remainder (p.base - p.settings.timeRef)).map (p.base + interval - ·)
  else if p.settings.timeRef = p.base then some (p.base + interval)
  else (remainder (p.settings.timeRef - p.base)).map (p.base + ·)

/-- The time of the next polling, which is brought forward to the bound of a sample. -/
def pollingTime : Option Int :=
  if p.immediate then some p.now
  else
    let newPollingTime := p.lastPolling + if 0 < p.retryDelay then p.limitedDelay else p.subSampleInterval
    p.sampleTime.map fun sampleTime =>
      if p.lastPolling < sampleTime ∧ sampleTime < newPollingTime then sampleTime else newPollingTime

def operations : List Operation :=
  if p.immediate ∨ p.settings.timeRef = p.base then [] else [.division p.settings.sampleInterval]

theorem sampleTime_eq_none_iff :
    p.sampleTime = none ↔ p.settings.timeRef ≠ p.base ∧ p.settings.sampleInterval = 0 := by
  obtain hBefore | hSame | hBehind := Int.lt_trichotomy p.settings.timeRef p.base
  · have hNe : p.settings.timeRef ≠ p.base := by omega
    simp [sampleTime, hBefore, hNe]
  · simp [sampleTime, hSame]
  · have hNe : p.settings.timeRef ≠ p.base := by omega
    have hNot : ¬ p.settings.timeRef < p.base := by omega
    simp [sampleTime, hNe, hNot]

/-- The time of the next polling is undefined exactly where it divides by zero. -/
theorem pollingTime_eq_none_iff : p.pollingTime = none ↔ .division 0 ∈ p.operations := by
  rw [pollingTime, operations]
  cases p.immediate with
  | true => simp
  | false =>
    by_cases hBase : p.settings.timeRef = p.base
    · simp [sampleTime_eq_none_iff, hBase]
    · simpa [sampleTime_eq_none_iff, hBase] using eq_comm

theorem operations_iff :
    (∀ op ∈ p.operations, op.Defined) ↔
      (p.immediate = false → p.settings.timeRef ≠ p.base → p.settings.sampleInterval ≠ 0) := by
  rw [operations]
  split
  · rename_i hNone
    constructor
    · intro _ hImmediate hRef
      obtain hNow | hBase := hNone
      · rw [hImmediate] at hNow
        cases hNow
      · exact absurd hBase hRef
    · intro _ op hMem
      cases hMem
  · rename_i hSome
    obtain ⟨hImmediate, hRef⟩ := not_or.mp hSome
    have hOne : (∀ op ∈ [Operation.division p.settings.sampleInterval], op.Defined) ↔
        p.settings.sampleInterval ≠ 0 := by simp [Operation.Defined]
    rw [hOne]
    exact ⟨fun hInterval _ _ => hInterval, fun h => h (Bool.eq_false_iff.mpr hImmediate) hRef⟩

/-- The next polling is within an interval of the last one, or at once. -/
theorem pollingTime_le {time : Int} (h : p.pollingTime = some time) :
    time ≤ max p.now (p.lastPolling + p.subSampleInterval) := by
  have hDelay : p.limitedDelay ≤ p.subSampleInterval := Nat.min_le_right _ _
  rw [pollingTime] at h
  split at h
  · obtain rfl := Option.some.inj h
    exact Int.le_max_left _ _
  · obtain ⟨sampleTime, -, rfl⟩ := Option.map_eq_some_iff.mp h
    split_ifs <;> omega

end PollingArguments

end Polling

section Sampling

variable {ctx : SamplingContext} {statObject : Text} {pushCase : PushCase} {argTime now attempt : Int}
  {retryDelay : Nat} {store : ParameterStore}

/-- The operations of a push and of a polling are defined exactly where the interval that is divided by is not
zero and the products fit. -/
theorem operations_defined_iff :
    ((∀ op ∈ pushOperations ctx statObject pushCase argTime store, op.Defined) ∧
        ∀ op ∈ (pollingArguments ctx statObject now attempt retryDelay store).operations, op.Defined) ↔
      (∀ a ∈ pushArguments ctx statObject pushCase argTime store, a.Defined) ∧
        ((pollingArguments ctx statObject now attempt retryDelay store).immediate = false →
          (getSampleSettings ctx store statObject).timeRef ≠
            (pollingArguments ctx statObject now attempt retryDelay store).base →
          (getSampleSettings ctx store statObject).sampleInterval ≠ 0) := by
  refine and_congr ?_ (PollingArguments.operations_iff _)
  rw [pushOperations]
  cases pushArguments ctx statObject pushCase argTime store with
  | none => simp
  | some a => simpa using a.operations_iff

/-- A sample set with these settings, which are numbers of the data model. -/
def settingStore (sampleInterval reportSamples : Text) : ParameterStore where
  parameters :=
    [storedParameter "S.LastTimeStamp".toList "1970-01-01T10:00:00Z".toList,
      { storedParameter "S.SampleInterval".toList sampleInterval with
          type := .uint, minValue := 0, maxValue := 2 ^ 32 - 1 },
      { storedParameter "S.ReportSamples".toList reportSamples with
          type := .uint, minValue := 0, maxValue := 2 ^ 32 - 1 },
      storedParameter "S.SamplesReport.StartTime".toList "1970-01-01T08:00:00Z".toList]
  nodup := by
    simp only [List.map_cons, List.map_nil, storedParameter]
    decide +kernel

/-- An interval of zero passes the check of its type, and is divided by; so does a product that wraps around. -/
theorem zero_interval_divides :
    (∀ param ∈ (settingStore "0".toList "24".toList).parameters,
        param.checkBeforeSetValue (fun _ => true) param.value = 0) ∧
      ¬ (∀ op ∈ pushOperations oneDay "S.".toList .forceSample 0 (settingStore "0".toList "24".toList),
        op.Defined) ∧
      (∀ param ∈ (settingStore "3600".toList "4294967295".toList).parameters,
        param.checkBeforeSetValue (fun _ => true) param.value = 0) ∧
      ¬ (∀ op ∈ pushOperations oneDay "S.".toList .forceSample 0 (settingStore "3600".toList "4294967295".toList),
        op.Defined) := by
  decide +kernel

end Sampling

end Tr069Agent.Engine.Sampling
