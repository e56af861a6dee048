import Tr069Agent.Engine.ParameterValue
import Tr069Agent.Library.Transition

/-! # The time of the next periodic inform

The informs lie on a grid of one point a period through the reference time, which is configured or else
the time of the inform before. The grid point behind a reference in the future is missed where the
reference is a whole number of periods ahead.
-/

namespace Tr069Agent.Engine

open Library Library.Transition

set_option autoImplicit false

section Settings

variable (dmPrefix : Text) (dateStringToTime : Text → Option Int) (store : ParameterStore)

def periodicInformEnableName : Text := dmPrefix ++ "ManagementServer.PeriodicInformEnable".toList

def periodicInformIntervalName : Text := dmPrefix ++ "ManagementServer.PeriodicInformInterval".toList

def periodicInformTimeName : Text := dmPrefix ++ "ManagementServer.PeriodicInformTime".toList

/-- None where there is no such parameter: its pointer is then NULL. -/
def isPeriodicInformEnabled : Option Bool :=
  (store.getParameter (periodicInformEnableName dmPrefix)).map fun param =>
    match param.value with
    | none => false
    | some value =>
      if value.length = 1 then firstChar value = '1' else value.map Char.toLower = trueString

def getPeriodicInformInterval : Nat :=
  let param := store.getParameter (periodicInformIntervalName dmPrefix)
  ((param.bind (·.value)).bind stringToUint).getD uintMax

def getPeriodicInformTime : Int :=
  let param := store.getParameter (periodicInformTimeName dmPrefix)
  ((param.bind (·.value)).bind dateStringToTime).getD 0

/-- The configured reference time, else the time of the previous schedule; zero is no time. -/
def referenceTime (periodicInformTime : Int) : Int :=
  let refTime := getPeriodicInformTime dmPrefix dateStringToTime store
  if refTime = 0 then periodicInformTime else refTime

end Settings

/-- The time that an enabled inform gets. -/
def nextPeriodicInformTime (now period refTime : Int) : Int :=
  if 0 < refTime ∧ refTime ≠ now then
    if refTime < now then now + period - (now - refTime).tmod period
    else now + (refTime - now).tmod period
  else now + period

/-- `_computeNextPeriodicInformTime`: the time it sets. -/
def computeNextPeriodicInformTime (dmPrefix : Text) (dateStringToTime : Text → Option Int) (now : Int)
    (store : ParameterStore) (periodicInformTime : Int) : Option Int := do
  let period := getPeriodicInformInterval dmPrefix store
  let enabled ← isPeriodicInformEnabled dmPrefix store
  return if enabled ∧ 0 < period then
      nextPeriodicInformTime now period (referenceTime dmPrefix dateStringToTime store periodicInformTime)
    else 0

/-- What `manageEvents` does about the periodic inform: whether it is due, and the time of the next one. -/
def managePeriodicInform (dmPrefix : Text) (dateStringToTime : Text → Option Int) (store : ParameterStore)
    (periodicInformTime now : Int) : Option (Bool × Int) :=
  if periodicInformTime ≠ 0 ∧ periodicInformTime ≤ now then
    (computeNextPeriodicInformTime dmPrefix dateStringToTime now store periodicInformTime).map fun t => (true, t)
  else some (false, periodicInformTime)

/-- The first point behind `now` of the grid through the reference time, or any time within a period
where no reference time is known. -/
structure IsNextInform (now period refTime t : Int) : Prop where
  future : now < t
  near : t ≤ now + period
  onGrid : refTime ≠ 0 → period ∣ t - refTime

/-- The reference is not a whole number of periods ahead; one before the epoch is not looked at, and is
whole periods ago. -/
def ReferenceSuits (now period refTime : Int) : Prop :=
  ¬ (now < refTime ∧ period ∣ refTime - now) ∧ (refTime < 0 → period ∣ now - refTime)

instance (now period refTime : Int) : Decidable (ReferenceSuits now period refTime) :=
  inferInstanceAs (Decidable (_ ∧ (_ → _)))

section Grid

variable {now period refTime t : Int}

/-- There is one point of the grid in each period. -/
theorem IsNextInform.unique {u : Int} (hRef : refTime ≠ 0) (ht : IsNextInform now period refTime t)
    (hu : IsNextInform now period refTime u) : t = u := by
  obtain ⟨hFuture, hNear, hGrid⟩ := ht
  obtain ⟨hFuture', hNear', hGrid'⟩ := hu
  have hDvd : period ∣ t - u := by
    have hSub := Int.dvd_sub (hGrid hRef) (hGrid' hRef)
    have hSplit : t - refTime - (u - refTime) = t - u := by omega
    rwa [hSplit] at hSub
  have hZero : t - u = 0 := Int.eq_zero_of_dvd_of_natAbs_lt_natAbs hDvd (by omega)
  omega

theorem isNextInform_past (hPeriod : 0 < period) (h : refTime < now) :
    IsNextInform now period refTime (now + period - (now - refTime).tmod period) := by
  have hMod : (now - refTime).tmod period = (now - refTime) % period :=
    Int.tmod_eq_emod_of_nonneg (by omega)
  have hLow := Int.emod_nonneg (now - refTime) (Int.ne_of_gt hPeriod)
  have hHigh := Int.emod_lt_of_pos (now - refTime) hPeriod
  rw [hMod]
  refine ⟨by omega, by omega, fun _ => ?_⟩
  have hSplit : now + period - (now - refTime) % period - refTime =
      period + (now - refTime - (now - refTime) % period) := by omega
  rw [hSplit]
  exact Int.dvd_add (Int.dvd_refl period) Int.dvd_self_sub_emod

/-- The formula for a reference in the future gives `now` itself where that is a point of the grid. -/
theorem isNextInform_ahead_iff (hPeriod : 0 < period) (h : now < refTime) :
    IsNextInform now period refTime (now + (refTime - now).tmod period) ↔ ¬ period ∣ refTime - now := by
  have hMod : (refTime - now).tmod period = (refTime - now) % period :=
    Int.tmod_eq_emod_of_nonneg (by omega)
  have hLow := Int.emod_nonneg (refTime - now) (Int.ne_of_gt hPeriod)
  have hHigh := Int.emod_lt_of_pos (refTime - now) hPeriod
  rw [hMod]
  constructor
  · intro hNext hDvd
    have hFuture := hNext.future
    rw [Int.emod_eq_zero_of_dvd hDvd] at hFuture
    omega
  · intro hDvd
    have hPos : (refTime - now) % period ≠ 0 := fun hZero => hDvd (Int.dvd_of_emod_eq_zero hZero)
    refine ⟨by omega, by omega, fun _ => ?_⟩
    have hSplit : now + (refTime - now) % period - refTime = (refTime - now) % period - (refTime - now) := by
      omega
    rw [hSplit]
    exact Int.dvd_emod_sub_self

theorem isNextInform_period_iff (hPeriod : 0 < period) :
    IsNextInform now period refTime (now + period) ↔ (refTime ≠ 0 → period ∣ now - refTime) := by
  have hSplit : now + period - refTime = period + (now - refTime) := by omega
  constructor
  · intro hNext hRef
    have hGrid := hNext.onGrid hRef
    rwa [hSplit, Int.dvd_add_right (Int.dvd_refl period)] at hGrid
  · intro hDvd
    refine ⟨by omega, by omega, fun hRef => ?_⟩
    rw [hSplit]
    exact Int.dvd_add (Int.dvd_refl period) (hDvd hRef)

theorem isNextInform_nextPeriodicInformTime_iff (hNow : 0 < now) (hPeriod : 0 < period) :
    IsNextInform now period refTime (nextPeriodicInformTime now period refTime) ↔
      ReferenceSuits now period refTime := by
  rw [nextPeriodicInformTime, ReferenceSuits]
  obtain hNeg | rfl | hPos := Int.lt_trichotomy refTime 0
  · rw [if_neg (by omega), isNextInform_period_iff hPeriod]
    have hBehind : ¬ (now < refTime ∧ period ∣ refTime - now) := by omega
    simp [hBehind, hNeg, Int.ne_of_lt hNeg]
  · rw [if_neg (by omega), isNextInform_period_iff hPeriod]
    have hBehind : ¬ (now < 0 ∧ period ∣ 0 - now) := by omega
    simp only [hBehind]
    simp
  · have hEpoch : ¬ refTime < 0 := by omega
    obtain hPast | rfl | hAhead := Int.lt_trichotomy refTime now
    · rw [if_pos ⟨hPos, by omega⟩, if_pos hPast]
      have hBehind : ¬ (now < refTime ∧ period ∣ refTime - now) := by omega
      simp [isNextInform_past hPeriod hPast, hBehind, hEpoch]
    · rw [if_neg (by omega), isNextInform_period_iff hPeriod]
      simp [hEpoch]
    · rw [if_pos ⟨hPos, by omega⟩, if_neg (by omega), isNextInform_ahead_iff hPeriod hAhead]
      simp [hAhead, hEpoch]

end Grid

section Schedule

variable {dmPrefix : Text} {dateStringToTime : Text → Option Int} {store : ParameterStore}
  {now periodicInformTime : Int}

theorem computeNextPeriodicInformTime_of_enabled (hPeriod : 1 ≤ getPeriodicInformInterval dmPrefix store)
    (hEnabled : isPeriodicInformEnabled dmPrefix store = some true) :
    computeNextPeriodicInformTime dmPrefix dateStringToTime now store periodicInformTime =
      some (nextPeriodicInformTime now (getPeriodicInformInterval dmPrefix store)
        (referenceTime dmPrefix dateStringToTime store periodicInformTime)) := by
  have hPos : 0 < getPeriodicInformInterval dmPrefix store := hPeriod
  simp [computeNextPeriodicInformTime, hEnabled, hPos]

/-- An enabled inform is set to the next point of the grid exactly where the reference suits. -/
theorem computeNextPeriodicInformTime_iff (hNow : 0 < now)
    (hPeriod : 1 ≤ getPeriodicInformInterval dmPrefix store)
    (hEnabled : isPeriodicInformEnabled dmPrefix store = some true) :
    (∃ t, computeNextPeriodicInformTime dmPrefix dateStringToTime now store periodicInformTime = some t ∧
        IsNextInform now (getPeriodicInformInterval dmPrefix store)
          (referenceTime dmPrefix dateStringToTime store periodicInformTime) t) ↔
      ReferenceSuits now (getPeriodicInformInterval dmPrefix store)
        (referenceTime dmPrefix dateStringToTime store periodicInformTime) := by
  have hPos : (0 : Int) < getPeriodicInformInterval dmPrefix store := by omega
  simp only [computeNextPeriodicInformTime_of_enabled hPeriod hEnabled, Option.some.injEq, exists_eq_left']
  exact isNextInform_nextPeriodicInformTime_iff hNow hPos

/-- A whole number of periods after the first time. -/
def OnGridSince (period first t : Int) : Prop := first ≤ t ∧ period ∣ t - first

section Runs

variable (hPeriod : 1 ≤ getPeriodicInformInterval dmPrefix store)
  (hEnabled : isPeriodicInformEnabled dmPrefix store = some true)
  (hTime : getPeriodicInformTime dmPrefix dateStringToTime store = 0)
include hPeriod hEnabled hTime

theorem onGridSince_managePeriodicInform {first : Int} {due : Bool × Int} (hFirst : 0 < first)
    (hSince : OnGridSince (getPeriodicInformInterval dmPrefix store) first periodicInformTime)
    (hManage : managePeriodicInform dmPrefix dateStringToTime store periodicInformTime now = some due) :
    OnGridSince (getPeriodicInformInterval dmPrefix store) first due.2 := by
  obtain ⟨hLe, hDvd⟩ := hSince
  rw [managePeriodicInform, computeNextPeriodicInformTime_of_enabled hPeriod hEnabled, referenceTime, if_pos hTime]
    at hManage
  split at hManage
  · rename_i hDue
    obtain rfl := Option.some.inj hManage
    have hSuits : ReferenceSuits now (getPeriodicInformInterval dmPrefix store) periodicInformTime :=
      ⟨fun hAhead => by omega, fun hNeg => by omega⟩
    have hNext := (isNextInform_nextPeriodicInformTime_iff (by omega) (by omega)).mpr hSuits
    dsimp only
    generalize nextPeriodicInformTime now _ periodicInformTime = next at hNext ⊢
    obtain ⟨hFuture, -, hGrid⟩ := hNext
    have hSum := Int.dvd_add (hGrid (by omega)) hDvd
    have hSplit : next - periodicInformTime + (periodicInformTime - first) = next - first := by omega
    exact ⟨by omega, by rwa [hSplit] at hSum⟩
  · obtain rfl := Option.some.inj hManage
    exact ⟨hLe, hDvd⟩

/-- However late the informs are sent, without a configured time they stay on the grid of the first one. -/
theorem onGridSince_of_exec {first t : Int} {clocks : List Int} (hFirst : 0 < first)
    (hExec : exec (fun time now => (managePeriodicInform dmPrefix dateStringToTime store time now).map (·.2))
      first clocks = some t) :
    OnGridSince (getPeriodicInformInterval dmPrefix store) first t := by
  have hStart : OnGridSince (getPeriodicInformInterval dmPrefix store) first first :=
    ⟨Int.le_refl first, by simp⟩
  refine inv_of_exec (fun time now next hSince hStep => ?_) hStart hExec
  obtain ⟨due, hManage, rfl⟩ := Option.map_eq_some_iff.mp hStep
  exact onGridSince_managePeriodicInform hPeriod hEnabled hTime hFirst hSince hManage

end Runs

end Schedule

section Samples

def informSetting (name value : Text) (type : ParameterType) : Parameter where
  name
  type
  minValue := 0
  maxValue := uintMax
  storageMode := .dmOnly
  writable := true
  immediateChanges := 1
  accessList := none
  notification := .off
  mandatoryNotification := false
  activeNotificationDenied := false
  loadingMode := 0
  state := .initial
  backValue := none
  value := some value
  configKey := none
  definition := none

/-- A hundred seconds from 1100 seconds behind the epoch. -/
def sampleSettings : ParameterStore where
  parameters :=
    [informSetting (periodicInformEnableName "Device.".toList) "1".toList .boolean,
      informSetting (periodicInformIntervalName "Device.".toList) "100".toList .uint,
      informSetting (periodicInformTimeName "Device.".toList) "1970-01-01T00:18:20Z".toList .date]
  nodup := by decide +kernel

def readSampleDate (ch : Text) : Option Int := if ch = "1970-01-01T00:18:20Z".toList then some 1100 else none

theorem computeNextPeriodicInformTime_between :
    ∃ t, computeNextPeriodicInformTime "Device.".toList readSampleDate 1030 sampleSettings 0 = some t ∧
      IsNextInform 1030 (getPeriodicInformInterval "Device.".toList sampleSettings)
        (referenceTime "Device.".toList readSampleDate sampleSettings 0) t :=
  (computeNextPeriodicInformTime_iff (by decide) (by decide +kernel) (by decide +kernel)).mpr (by decide +kernel)

/-- A hundred seconds before the reference the inform is planned for the present time. -/
theorem computeNextPeriodicInformTime_now :
    computeNextPeriodicInformTime "Device.".toList readSampleDate 1000 sampleSettings 0 = some 1000 ∧
      isPeriodicInformEnabled "Device.".toList sampleSettings = some true ∧
      1 ≤ getPeriodicInformInterval "Device.".toList sampleSettings ∧
      ¬ ∃ t, computeNextPeriodicInformTime "Device.".toList readSampleDate 1000 sampleSettings 0 = some t ∧
        IsNextInform 1000 (getPeriodicInformInterval "Device.".toList sampleSettings)
          (referenceTime "Device.".toList readSampleDate sampleSettings 0) t := by
  have hTime : computeNextPeriodicInformTime "Device.".toList readSampleDate 1000 sampleSettings 0 = some 1000 := by
    decide +kernel
  refine ⟨hTime, by decide +kernel, by decide +kernel, ?_⟩
  rintro ⟨t, hNext, hInform⟩
  obtain rfl := Option.some.inj (hTime.symm.trans hNext)
  exact absurd hInform.future (by decide)

end Samples

end Tr069Agent.Engine
