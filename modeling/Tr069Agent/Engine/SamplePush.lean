import Tr069Agent.Engine.StatisticsModule
import Tr069Agent.Library.Transition

/-! # The push of a sample

At the end of a sample interval, or where it is forced, the values of the current sample are added to the
lists of the samples report. A list has one item for each interval between the start and the end of the
report; items are dropped at its front, and empty ones stand for the intervals without data.
-/

namespace Tr069Agent.Engine.Sampling

open Library Library.Transition Statistics

set_option autoImplicit false

/-- What the module asks of the parameter manager besides. -/
structure SamplingContext extends StatisticsContext where
  /-- The parameters as `DM_ENG_ParameterManager_loadLeafParameterValue` leaves them. -/
  loadLeaf : ParameterStore → Text → ParameterStore

section Names

def lastTimestampName : Text := "LastTimeStamp".toList
def sampleSetRefName : Text := "SampleSetRef".toList
def sampleStatusName : Text := "SampleStatus".toList
def timeReferenceName : Text := "TimeReference".toList
def sampleIntervalName : Text := "SampleInterval".toList
def reportSamplesName : Text := "ReportSamples".toList
def fetchSamplesName : Text := "FetchSamples".toList
def startTimeName : Text := "StartTime".toList
def endTimeName : Text := "EndTime".toList
def slidingModeName : Text := "SlidingMode".toList
def subSamplesName : Text := "SubSamples".toList
def currentPeriodNode : Text := "CurrentSample.".toList
def samplesReportNode : Text := "SamplesReport.".toList
def statusTrigger : Text := "Trigger".toList

end Names

section Settings

variable (ctx : SamplingContext) (store : ParameterStore)

/-- The value of a parameter, or that of the one it stands for. -/
def simpleGetValue (prm : Parameter) : Option Text :=
  match prm.definition with
  | none => prm.value
  | some definition =>
    if prm.value.getD [] = [] ∧ prm.storageMode = .computed then
      (store.getParameter (getLongName ctx.dmPrefix definition prm.name)).bind (·.value)
    else prm.value

def sampleSetName (statObject : Text) : Text :=
  let ref := ((getStatParameter store statObject sampleSetRefName).bind (·.value)).getD []
  if ref = [] then statObject else getLongName ctx.dmPrefix ref statObject

structure SampleSettings where
  timeRef : Int
  sampleInterval : Nat
  reportSamples : Nat
  fetchSamples : Nat

def settingValue (statObject paramName : Text) : Option Text :=
  (getStatParameter store (sampleSetName ctx store statObject) paramName).bind (simpleGetValue ctx store)

def getSampleSettings (statObject : Text) : SampleSettings where
  timeRef := ((settingValue ctx store statObject timeReferenceName).bind ctx.dateStringToTime).getD 0
  sampleInterval := uintOr 3600 (settingValue ctx store statObject sampleIntervalName)
  reportSamples := uintOr 24 (settingValue ctx store statObject reportSamplesName)
  fetchSamples := uintOr 0 (settingValue ctx store statObject fetchSamplesName)

end Settings

inductive PushCase where
  | beforeAddingSampleData
  | afterAddingSampleData
  | forceSample
  deriving DecidableEq

/-- What the times and the counts of a push are computed from; the end and the start of the report are
there with their parameters. -/
structure PushArguments where
  pushCase : PushCase
  argTime : Int
  timestamp : Int
  settings : SampleSettings
  endTime : Option Int
  startTime : Option Int

/-- None without a time of the last sample. -/
def pushArguments (ctx : SamplingContext) (statObject : Text) (pushCase : PushCase) (argTime : Int)
    (store : ParameterStore) : Option PushArguments := do
  let readTime (param : Parameter) : Option Int := param.value.bind ctx.dateStringToTime
  let timestamp ← (getStatParameter store statObject lastTimestampName).bind readTime
  let samplesNode := statObject ++ samplesReportNode
  return {
    pushCase
    argTime
    timestamp
    settings := getSampleSettings ctx store statObject
    endTime := (getStatParameter store samplesNode endTimeName).map fun param => (readTime param).getD argTime
    startTime := (getStatParameter store samplesNode startTimeName).map fun param => (readTime param).getD 0 }

/-- The point of a grid that was reached last. A time before the reference that is on the grid itself has not
reached its point yet. -/
def reached (interval timeRef time : Int) : Int :=
  if timeRef ≤ time then interval * (time - timeRef).tdiv interval + timeRef
  else timeRef - interval * ((timeRef - time).tdiv interval + 1)

/-- The counts of a report, and its start where it is moved. -/
structure ReportPlan where
  startReport : Option Int
  samplesExpected : Nat
  samplesToDrop : Nat

namespace PushArguments

variable (a : PushArguments)

/-- The bound of a sample that was reached last. -/
def bound : Int := reached a.settings.sampleInterval a.settings.timeRef a.timestamp

def isAfter : Bool := a.pushCase = .afterAddingSampleData

def tooEarly : Bool :=
  a.pushCase = .beforeAddingSampleData && a.argTime < a.bound + wrap (2 * a.settings.sampleInterval)

/-- A report without an end is taken to end at the bound. -/
def closes : Bool := a.isAfter && a.endTime = some 0 && a.bound < a.timestamp

def endReport : Int := if a.closes then a.bound else a.endTime.getD a.argTime

def ignored : Bool := a.tooEarly || (a.isAfter && a.bound ≤ a.endReport) || a.timestamp ≤ a.endReport

/-- A forced sample goes to the interval that has begun. -/
def boundTime : Int := if a.isAfter then a.bound else a.bound + a.settings.sampleInterval

def earliestStart : Int := a.boundTime - wrap (a.settings.reportSamples * a.settings.sampleInterval)

/-- How many intervals there are in a time, the last one begun counted. -/
def intervals (time : Int) : Nat :=
  toUint ((time + a.settings.sampleInterval - 1).tdiv a.settings.sampleInterval)

def plan : ReportPlan :=
  match a.startTime with
  | none => ⟨none, a.settings.reportSamples, 0⟩
  | some startTime =>
    if startTime < a.earliestStart then
      if startTime = 0 then ⟨some (a.boundTime - a.settings.sampleInterval), 1, 0⟩
      else ⟨some a.earliestStart, a.settings.reportSamples, a.intervals (a.earliestStart - startTime)⟩
    else ⟨none, a.intervals (a.boundTime - startTime), 0⟩

def fetches : Bool :=
  a.isAfter && 0 < a.settings.fetchSamples && a.settings.fetchSamples ≤ a.settings.reportSamples

def fetchInterval : Nat := wrap (a.settings.fetchSamples * a.settings.sampleInterval)

/-- The end of a group of samples has been passed since the last push. -/
def triggers : Bool :=
  let fetchTime := reached a.fetchInterval a.settings.timeRef a.boundTime
  a.fetches && a.endReport < fetchTime && fetchTime ≤ a.boundTime

end PushArguments

section Report

/-- The text behind the comma with that number; `p` commas have been passed. -/
def behindComma (prmSamplesToDrop : Nat) : Nat → Text → Text
  | _, [] => []
  | p, c :: rest =>
    if c = ',' then
      if p + 1 = prmSamplesToDrop then rest else behindComma prmSamplesToDrop (p + 1) rest
    else behindComma prmSamplesToDrop p rest

/-- How many items of a list are dropped, and how many are added. -/
def dropAndAdd (plan : ReportPlan) (prmSamplesStored : Nat) : Nat × Nat :=
  if prmSamplesStored < plan.samplesToDrop then (prmSamplesStored, plan.samplesExpected)
  else
    let extent := wrap (plan.samplesToDrop + plan.samplesExpected)
    if prmSamplesStored ≤ extent then (plan.samplesToDrop, extent - prmSamplesStored)
    else (wrap (prmSamplesStored + 2 ^ 32 - plan.samplesExpected), 0)

/-- The items of a list that are not dropped. -/
def oldValue (prmSamplesToDrop prmSamplesStored : Nat) (sValue : Text) : Text :=
  if prmSamplesToDrop = 0 then sValue
  else if prmSamplesToDrop < prmSamplesStored then behindComma prmSamplesToDrop 0 sValue
  else []

/-- The list with the value behind the items that stay and those added. -/
def newValue (prmSamplesToDrop prmSamplesToAdd prmSamplesStored : Nat) (sOldValue sCurrentValue : Text) : Text :=
  if prmSamplesToAdd = 0 ∧ 0 < sOldValue.length then
    -- behind a forced sample, whose value is replaced
    sOldValue.rdropWhile (· ≠ ',') ++ sCurrentValue
  else
    let i := if prmSamplesStored ≤ prmSamplesToDrop then 1 else 0
    sOldValue ++ List.replicate (prmSamplesToAdd - i) ',' ++ sCurrentValue

def samplesStored (value : Option Text) : Nat := 1 + (value.getD []).count ','

/-- What stays of a list. -/
def oldSamples (plan : ReportPlan) (value : Option Text) : Text :=
  oldValue (dropAndAdd plan (samplesStored value)).1 (samplesStored value) (value.getD [])

/-- The index of a character leaves `int`, or the array of the list is too small as its size wraps around. -/
def overflows (plan : ReportPlan) (value sCurrentValue : Option Text) : Prop :=
  let sNewLength := (oldSamples plan value).length + (dropAndAdd plan (samplesStored value)).2 +
    (sCurrentValue.getD []).length + 1
  2 ^ 31 ≤ (value.getD []).length ∨ 2 ^ 32 ≤ sNewLength

instance (plan : ReportPlan) (value sCurrentValue : Option Text) :
    Decidable (overflows plan value sCurrentValue) := inferInstanceAs (Decidable (_ ∨ _))

def reportSample (plan : ReportPlan) (value sCurrentValue : Option Text) : Option Text :=
  let counts := dropAndAdd plan (samplesStored value)
  if overflows plan value sCurrentValue then none
  else some (newValue counts.1 counts.2 (samplesStored value) (oldSamples plan value) (sCurrentValue.getD []))

end Report

section Push

variable (ctx : SamplingContext) (statObject : Text)

/-- A parameter of the current sample whose value is reported. -/
def isSampled (prmName : Text) : Bool :=
  let currentNodeName := statObject ++ currentPeriodNode
  decide (currentNodeName.length < prmName.length) && currentNodeName.isPrefixOf prmName &&
    !decide (prmName.drop currentNodeName.length ∈ [startTimeName, slidingModeName, subSamplesName])

/-- The store with the value of the parameter loaded, unless it is one of the data model alone. -/
def loadSampled (store : ParameterStore) (param : Parameter) : ParameterStore :=
  if param.storageMode = .dmOnly then store else ctx.loadLeaf store param.name

/-- The round of one parameter; none where it is not there any more. -/
def pushLeaf (plan : ReportPlan) (keepValue : Bool) (store : ParameterStore) (prmName : Text) :
    Option ParameterStore := do
  let store := loadSampled ctx store (← store.getParameter prmName)
  let param ← store.getParameter prmName
  let sCurrentValue := param.value
  let store := if keepValue then store else store.put (param.updateValue (some []) false)
  let shortName := prmName.drop (statObject ++ currentPeriodNode).length
  match getStatParameter store (statObject ++ samplesReportNode) shortName with
  | none => return store
  | some param =>
    if param.storageMode = .computed then return store
    else return updateNewValue store param (some (← reportSample plan param.value sCurrentValue))

/-- The store with the times of the report and the status of the sample set. -/
def prepareReport (a : PushArguments) (store : ParameterStore) : ParameterStore :=
  let samplesNode := statObject ++ samplesReportNode
  let store := updateStat store samplesNode endTimeName fun _ => some (ctx.dateTimeToString a.timestamp)
  let store :=
    match a.plan.startReport with
    | none => store
    | some startReport =>
      updateStat store samplesNode startTimeName fun _ => some (ctx.dateTimeToString startReport)
  if a.triggers then updateStat store statObject sampleStatusName fun _ => some statusTrigger else store

/-- The parameters of the current sample that are there when the loop starts. -/
def sampledNames (store : ParameterStore) : List Text := store.names.filter (isSampled statObject)

def pushLeaves (plan : ReportPlan) (keepValue : Bool) (store : ParameterStore) : Option ParameterStore :=
  exec (pushLeaf ctx statObject plan keepValue) store (sampledNames statObject store)

/-- `_pushSample`: whether something is pushed. None where a division by zero or an access outside of an
object ends the program. -/
def pushSample (pushCase : PushCase) (argTime : Int) (slidingMode : Bool) (store : ParameterStore) :
    Option (Bool × ParameterStore) :=
  match pushArguments ctx statObject pushCase argTime store with
  | none => some (false, store)
  | some a =>
    if a.settings.sampleInterval = 0 then none
    else if a.tooEarly then some (false, store)
    else if a.ignored then
      some (false, if a.closes then
          updateStat store (statObject ++ samplesReportNode) endTimeName fun _ =>
            some (ctx.dateTimeToString a.bound)
        else store)
    else if a.fetches ∧ a.fetchInterval = 0 then none
    else
      (pushLeaves ctx statObject a.plan (pushCase = .forceSample || slidingMode)
        (prepareReport ctx statObject a store)).map fun store => (true, store)

end Push

end Tr069Agent.Engine.Sampling
