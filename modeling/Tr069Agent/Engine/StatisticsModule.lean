import Mathlib.Tactic.Common
import Tr069Agent.Engine.ParameterValue

/-! # The statistics of a variable

Each statistic of a variable is a parameter of its own, named after the variable. In the plain mode
it is brought up to date from its previous value, in the sliding mode it is computed again from the
list of the values in the window.
-/

namespace Tr069Agent.Engine

open Library Library.Lines Library.Decimal

set_option autoImplicit false

/-- What the statistics ask of the rest of the agent and of the system. -/
structure StatisticsContext where
  dmPrefix : Text
  dateTimeToString : Int → Text
  dateStringToTime : Text → Option Int
  /-- What `DM_ENG_ParameterManager_getParameterValue` gives when it succeeds. -/
  parameterValue : ParameterStore → Text → Option Text

/-- What `DM_ENG_stringToBool` writes, which it also does when more text follows. -/
def writtenBool (ch : Text) : Option Bool :=
  let ch := ch.dropWhile isspace
  if falseString.isPrefixOf (ch.map Char.toLower) then some false
  else if trueString.isPrefixOf (ch.map Char.toLower) then some true
  else match ch with
    | '0' :: _ => some false
    | '1' :: _ => some true
    | _ => none

def uintOr (default : Nat) (value : Option Text) : Nat := (value.bind stringToUint).getD default

/-- `DM_ENG_Parameter_updateValue` with a new value, without the notifications to the scheduler. -/
def Parameter.updateNewValue (param : Parameter) (value : Option Text) : Parameter :=
  { param with value, state := { param.state with valueChanged := true, pushed := true } }.commit

namespace Statistics

section Names

def lastValueSuffix : Text := "!LastValue".toList
def valueSuffix : Text := "!Value".toList
def sumSuffix : Text := "!Sum".toList
def minSuffix : Text := "!Min".toList
def minTimeSuffix : Text := "!MinTime".toList
def maxSuffix : Text := "!Max".toList
def maxTimeSuffix : Text := "!MaxTime".toList
def countSuffix : Text := "!Count".toList
def averageSuffix : Text := "!Average".toList
def csvSuffix : Text := "!Csv".toList
def orSuffix : Text := "!Or".toList
def histogramSuffix : Text := "!Histogram".toList
def timestampCsvName : Text := "TimestampCsv".toList

end Names

section Access

def getStatParameter (store : ParameterStore) (statObject paramName : Text) : Option Parameter :=
  store.getParameter (statObject ++ paramName)

def updateNewValue (store : ParameterStore) (prm : Parameter) (val : Option Text) : ParameterStore :=
  store.put (prm.updateNewValue (some (val.getD [])))

/-- The statistic, where there is one, gets what `new` makes of its value, if anything. -/
def updateStat (store : ParameterStore) (name suffix : Text) (new : Option Text → Option Text) :
    ParameterStore :=
  match getStatParameter store name suffix with
  | none => store
  | some param =>
    match new param.value with
    | none => store
    | some val => updateNewValue store param (some val)

/-- `_getUIntArgValue` for one argument: a number, or the name of the parameter that holds it. -/
def uintArgValue (ctx : StatisticsContext) (store : ParameterStore) (destName arg : Text) : Option Nat :=
  stringToUint arg <|>
    (ctx.parameterValue store (getLongName ctx.dmPrefix arg destName)).bind stringToUint

end Access

section Cells

/-- The value of the parameter of that name, if there is one. -/
def valueAt (store : ParameterStore) (name : Text) : Option (Option Text) :=
  (store.getParameter name).map (·.value)

variable {store : ParameterStore} {name : Text}

theorem valueAt_getStatParameter {suffix : Text} {param : Parameter}
    (h : getStatParameter store name suffix = some param) :
    valueAt store (name ++ suffix) = some param.value := by
  rw [getStatParameter] at h
  rw [valueAt, h]
  rfl

theorem valueAt_eq_none {suffix : Text} (h : getStatParameter store name suffix = none) :
    valueAt store (name ++ suffix) = none := by
  rw [getStatParameter] at h
  rw [valueAt, h]
  rfl

theorem isSome_getStatParameter (store : ParameterStore) (name suffix : Text) :
    (getStatParameter store name suffix).isSome = (valueAt store (name ++ suffix)).isSome := by
  rw [valueAt, Option.isSome_map, getStatParameter]

theorem isNone_getStatParameter {suffix : Text} :
    (getStatParameter store name suffix).isNone = true ↔ valueAt store (name ++ suffix) = none := by
  rw [Option.isNone_iff_eq_none, valueAt, Option.map_eq_none_iff, getStatParameter]

theorem valueAt_updateNewValue (store : ParameterStore) (prm : Parameter) (val : Option Text)
    (other : Text) :
    valueAt (updateNewValue store prm val) other =
      if other = prm.name then (valueAt store other).map fun _ => some (val.getD [])
      else valueAt store other := by
  have hName : (prm.updateNewValue (some (val.getD []))).name = prm.name := rfl
  rw [valueAt, updateNewValue, ParameterStore.getParameter_put, hName]
  simp only [valueAt]
  split
  · rw [Option.map_map, Option.map_map]
    rfl
  · rfl

theorem valueAt_updateStat (store : ParameterStore) (name suffix : Text)
    (new : Option Text → Option Text) (other : Text) :
    valueAt (updateStat store name suffix new) other =
      if other = name ++ suffix then (valueAt store other).map fun value => new value <|> value
      else valueAt store other := by
  rw [updateStat]
  cases hParam : getStatParameter store name suffix with
  | none =>
    dsimp only
    split
    · rename_i hName
      rw [hName, valueAt_eq_none hParam]
      rfl
    · rfl
  | some param =>
    have hOld := valueAt_getStatParameter hParam
    dsimp only
    cases hNew : new param.value with
    | none =>
      dsimp only
      split
      · rename_i hName
        simp [hName, hOld, hNew]
      · rfl
    | some val =>
      simp only [valueAt_updateNewValue, ParameterStore.name_of_getParameter hParam]
      split
      · rename_i hName
        simp [hName, hOld, hNew]
      · rfl

theorem valueAt_updateStat_self (store : ParameterStore) (name suffix : Text)
    (new : Option Text → Option Text) :
    valueAt (updateStat store name suffix new) (name ++ suffix) =
      (valueAt store (name ++ suffix)).map fun value => new value <|> value := by
  rw [valueAt_updateStat, if_pos rfl]

theorem valueAt_updateStat_of_ne {suffix other : Text} (h : other ≠ name ++ suffix)
    (store : ParameterStore) (new : Option Text → Option Text) :
    valueAt (updateStat store name suffix new) other = valueAt store other := by
  rw [valueAt_updateStat, if_neg h]

/-- The value of the sum, which has two names. -/
def totalAt (store : ParameterStore) (name : Text) : Option (Option Text) :=
  (valueAt store (name ++ sumSuffix)).or (valueAt store (name ++ valueSuffix))

/-- Of the statistics of `name`, only those of these suffixes may have changed. -/
def Changes (name : Text) (suffixes : List Text) (store store' : ParameterStore) : Prop :=
  ∀ suffix, suffix ∉ suffixes → valueAt store' (name ++ suffix) = valueAt store (name ++ suffix)

theorem Changes.totalAt {suffixes : List Text} {store' : ParameterStore}
    (h : Changes name suffixes store store') (hSum : sumSuffix ∉ suffixes) (hValue : valueSuffix ∉ suffixes) :
    totalAt store' name = totalAt store name := by
  rw [Statistics.totalAt, Statistics.totalAt, h _ hSum, h _ hValue]

namespace Changes

variable {suffixes others : List Text} {store' store'' : ParameterStore}

theorem refl (store : ParameterStore) : Changes name suffixes store store := fun _ _ => rfl

theorem trans (h : Changes name suffixes store store') (hNext : Changes name others store' store'') :
    Changes name (suffixes ++ others) store store'' := by
  intro suffix hNot
  rw [List.mem_append, not_or] at hNot
  rw [hNext suffix hNot.2, h suffix hNot.1]

theorem mono (h : Changes name suffixes store store') (hSub : suffixes ⊆ others) :
    Changes name others store store' :=
  fun suffix hNot => h suffix fun hMem => hNot (hSub hMem)

theorem updateNewValue {suffix : Text} {param : Parameter}
    (h : getStatParameter store name suffix = some param) (val : Option Text) :
    Changes name [suffix] store (updateNewValue store param val) := by
  intro other hNot
  rw [valueAt_updateNewValue, ParameterStore.name_of_getParameter h, if_neg]
  intro hName
  exact hNot (List.mem_singleton.mpr (List.append_cancel_left hName))

theorem updateStat (store : ParameterStore) (suffix : Text) (new : Option Text → Option Text) :
    Changes name [suffix] store (updateStat store name suffix new) := by
  intro other hNot
  apply valueAt_updateStat_of_ne
  intro hName
  exact hNot (List.mem_singleton.mpr (List.append_cancel_left hName))

end Changes

end Cells

section Histogram

def maxIntervals : Nat := 20

def uintMaxBound (i : Nat) : Nat := if i = 0 then 0 else uintMax

def readIntervals (ctx : StatisticsContext) (store : ParameterStore) (nameHisto sIntervals : Text) :
    List Nat :=
  ((sIntervals.splitOn ':').take maxIntervals).zipIdx.map fun (arg, i) =>
    (uintArgValue ctx store nameHisto arg).getD (uintMaxBound i)

def readHistogram (ctx : StatisticsContext) (store : ParameterStore) (nameHisto : Text)
    (nbIntervals : Nat) (value : Option Text) : List Nat :=
  let read := (value.elim [] (·.splitOn ':')).map fun arg => (uintArgValue ctx store nameHisto arg).getD 0
  (read ++ List.replicate nbIntervals 0).take nbIntervals

def computeHisto (ctx : StatisticsContext) (nameHisto : Text) (value : Nat) (store : ParameterStore) :
    ParameterStore :=
  match store.getParameter nameHisto with
  | none => store
  | some param =>
    match param.definition with
    | none => store
    | some definition =>
      if definition = [] then store
      else
        let longName := getLongName ctx.dmPrefix definition nameHisto
        let sIntervals := (ctx.parameterValue store longName).getD definition
        let intervals := readIntervals ctx store nameHisto sIntervals
        let histogram := readHistogram ctx store nameHisto intervals.length param.value
        let column := intervals.findIdx fun bound => value ≤ bound
        let histogram := histogram.modify column fun n => wrap (n + 1)
        updateNewValue store param (some (join ':' (histogram.map fun n => showInt n)))

end Histogram

section Stats

variable (ctx : StatisticsContext) (name : Text)

/-- The items of a list that stay when one more is added and at most `maxValues` are kept, read
backward. -/
def lastItems (maxValues : Nat) : Nat → Text → Text → Text
  | _, kept, [] => kept
  | nbVal, kept, ch :: before =>
    if ch = ',' then
      if maxValues ≤ nbVal + 1 then kept else lastItems maxValues (nbVal + 1) (ch :: kept) before
    else lastItems maxValues nbVal (ch :: kept) before

def appendCsv (maxValues : Nat) (sNewValue : Text) (value : Option Text) : Text :=
  match value with
  | none => sNewValue
  | some csv =>
    if maxValues = 1 then sNewValue
    else lastItems maxValues 1 [] csv.reverse ++ ',' :: sNewValue

def computeSum (newValue : Nat) (store : ParameterStore) : ParameterStore :=
  let add (value : Option Text) : Option Text := some (showInt (wrap (uintOr 0 value + newValue)))
  if newValue = 0 then store
  else if (getStatParameter store name sumSuffix).isSome then updateStat store name sumSuffix add
  else updateStat store name valueSuffix add

/-- The minimum or the maximum, with the time at which it was reached. -/
def computeExtremum (suffix timeSuffix : Text) (better : Option Text → Bool) (sNewValue : Text)
    (timestamp : Int) (store : ParameterStore) : ParameterStore :=
  match getStatParameter store name suffix with
  | none => store
  | some param =>
    if better param.value then
      updateStat (updateNewValue store param (some sNewValue)) name timeSuffix fun _ =>
        some (ctx.dateTimeToString timestamp)
    else store

def computeMin (newValue : Nat) (sNewValue : Text) (timestamp : Int) (store : ParameterStore) :
    ParameterStore :=
  computeExtremum ctx name minSuffix minTimeSuffix (fun value => newValue < uintOr uintMax value)
    sNewValue timestamp store

def computeMax (newValue : Nat) (sNewValue : Text) (timestamp : Int) (store : ParameterStore) :
    ParameterStore :=
  computeExtremum ctx name maxSuffix maxTimeSuffix (fun value => uintOr 0 value < newValue)
    sNewValue timestamp store

/-- None for the division by zero, when the count is back to zero. -/
def computeCount (newValue : Nat) (store : ParameterStore) : Option ParameterStore :=
  match getStatParameter store name countSuffix with
  | none => some store
  | some param =>
    let count := wrap (uintOr 0 param.value + 1)
    let store := updateNewValue store param (some (showInt count))
    if (getStatParameter store name averageSuffix).isNone then some store
    else if count = 0 then none
    else
      some (updateStat store name averageSuffix fun value =>
        some (showInt (wrap (wrap ((count - 1) * uintOr 0 value) + newValue) / count : Nat)))

def computeCsv (sNewValue : Text) (store : ParameterStore) : ParameterStore :=
  match getStatParameter store name csvSuffix with
  | none => store
  | some param =>
    let limit := param.definition.bind fun args =>
      uintArgValue ctx store name (args.takeWhile (· ≠ ':'))
    let maxValues := limit.getD 20
    if maxValues = 0 then store
    else updateNewValue store param (some (appendCsv maxValues sNewValue param.value))

def computeOr (sNewValue : Text) (store : ParameterStore) : ParameterStore :=
  updateStat store name orSuffix fun value =>
    let oldVal := (value.bind writtenBool).getD false
    let newVal := (writtenBool sNewValue).getD false
    if !oldVal && newVal then some trueString else none

/-- `_computeStats`: the statistics of `name` take one more value. -/
def computeStats (newValue : Nat) (sNewValue : Text) (timestamp : Int) (store : ParameterStore) :
    Option ParameterStore := do
  let store := updateStat store name lastValueSuffix fun _ => some sNewValue
  let store := computeSum name newValue store
  let store := computeMin ctx name newValue sNewValue timestamp store
  let store := computeMax ctx name newValue sNewValue timestamp store
  let store ← computeCount name newValue store
  let store := computeCsv ctx name sNewValue store
  let store := computeOr name sNewValue store
  return computeHisto ctx (name ++ histogramSuffix) newValue store

theorem changes_computeSum (newValue : Nat) (store : ParameterStore) :
    Changes name [sumSuffix, valueSuffix] store (computeSum name newValue store) := by
  dsimp only [computeSum]
  split
  · exact Changes.refl store
  · split
    · exact (Changes.updateStat store sumSuffix _).mono (by simp)
    · exact (Changes.updateStat store valueSuffix _).mono (by simp)

theorem changes_computeExtremum (suffix timeSuffix : Text) (better : Option Text → Bool)
    (sNewValue : Text) (timestamp : Int) (store : ParameterStore) :
    Changes name [suffix, timeSuffix] store
      (computeExtremum ctx name suffix timeSuffix better sNewValue timestamp store) := by
  rw [computeExtremum]
  cases hParam : getStatParameter store name suffix with
  | none => exact Changes.refl store
  | some param =>
    dsimp only
    split
    · exact (Changes.updateNewValue hParam _).trans (Changes.updateStat _ timeSuffix _)
    · exact Changes.refl store

theorem changes_computeMin (newValue : Nat) (sNewValue : Text) (timestamp : Int) (store : ParameterStore) :
    Changes name [minSuffix, minTimeSuffix] store
      (computeMin ctx name newValue sNewValue timestamp store) :=
  changes_computeExtremum ctx name _ _ _ _ _ store

theorem changes_computeMax (newValue : Nat) (sNewValue : Text) (timestamp : Int) (store : ParameterStore) :
    Changes name [maxSuffix, maxTimeSuffix] store
      (computeMax ctx name newValue sNewValue timestamp store) :=
  changes_computeExtremum ctx name _ _ _ _ _ store

theorem changes_computeCount {newValue : Nat} {store store' : ParameterStore}
    (h : computeCount name newValue store = some store') :
    Changes name [countSuffix, averageSuffix] store store' := by
  dsimp only [computeCount] at h
  cases hParam : getStatParameter store name countSuffix with
  | none =>
    rw [hParam] at h
    obtain rfl := Option.some.inj h
    exact Changes.refl store
  | some param =>
    rw [hParam] at h
    dsimp only at h
    split at h
    · obtain rfl := Option.some.inj h
      exact (Changes.updateNewValue hParam _).mono (by simp)
    · split at h
      · cases h
      · obtain rfl := Option.some.inj h
        exact (Changes.updateNewValue hParam _).trans (Changes.updateStat _ averageSuffix _)

theorem changes_computeCsv (sNewValue : Text) (store : ParameterStore) :
    Changes name [csvSuffix] store (computeCsv ctx name sNewValue store) := by
  rw [computeCsv]
  cases hParam : getStatParameter store name csvSuffix with
  | none => exact Changes.refl store
  | some param =>
    dsimp only
    split
    · exact Changes.refl store
    · exact Changes.updateNewValue hParam _

theorem changes_computeHisto (newValue : Nat) (store : ParameterStore) :
    Changes name [histogramSuffix] store (computeHisto ctx (name ++ histogramSuffix) newValue store) := by
  rw [computeHisto]
  cases hParam : store.getParameter (name ++ histogramSuffix) with
  | none => exact Changes.refl store
  | some param =>
    dsimp only
    cases param.definition with
    | none => exact Changes.refl store
    | some definition =>
      dsimp only
      split
      · exact Changes.refl store
      · exact Changes.updateNewValue hParam _

theorem totalAt_computeSum (newValue : Nat) (store : ParameterStore) :
    totalAt (computeSum name newValue store) name =
      (totalAt store name).map fun value =>
        if newValue = 0 then value else some (showInt (wrap (uintOr 0 value + newValue))) := by
  have hNames : valueSuffix ∉ [sumSuffix] ∧ sumSuffix ∉ [valueSuffix] := by decide
  dsimp only [computeSum]
  split
  · simp
  · rw [isSome_getStatParameter, totalAt, totalAt]
    cases hSum : valueAt store (name ++ sumSuffix) with
    | none =>
      rw [if_neg (by simp), Changes.updateStat store _ _ _ hNames.2, valueAt_updateStat_self, hSum]
      simp
    | some value =>
      rw [if_pos Option.isSome_some, Changes.updateStat store _ _ _ hNames.1, valueAt_updateStat_self, hSum]
      simp

theorem valueAt_computeExtremum {suffix timeSuffix : Text} (hNames : suffix ≠ timeSuffix)
    (better : Option Text → Bool) (sNewValue : Text) (timestamp : Int) (store : ParameterStore) :
    valueAt (computeExtremum ctx name suffix timeSuffix better sNewValue timestamp store)
        (name ++ suffix) =
      (valueAt store (name ++ suffix)).map fun value => if better value then some sNewValue else value := by
  rw [computeExtremum]
  cases hParam : getStatParameter store name suffix with
  | none => simp [valueAt_eq_none hParam]
  | some param =>
    have hOld := valueAt_getStatParameter hParam
    dsimp only
    split
    · rename_i hBetter
      rw [Changes.updateStat _ _ _ _ (by simpa using hNames), valueAt_updateNewValue, if_pos, hOld]
      · simp [hBetter]
      · exact (ParameterStore.name_of_getParameter hParam).symm
    · rename_i hBetter
      simp [hOld, hBetter]

theorem valueAt_computeCount {newValue : Nat} {store store' : ParameterStore}
    (h : computeCount name newValue store = some store') :
    valueAt store' (name ++ countSuffix) =
      (valueAt store (name ++ countSuffix)).map fun value =>
        some (showInt (wrap (uintOr 0 value + 1))) := by
  have hNames : countSuffix ∉ [averageSuffix] := by decide
  dsimp only [computeCount] at h
  cases hParam : getStatParameter store name countSuffix with
  | none =>
    rw [hParam] at h
    obtain rfl := Option.some.inj h
    rw [valueAt_eq_none hParam]
    rfl
  | some param =>
    have hOld := valueAt_getStatParameter hParam
    have hName := ParameterStore.name_of_getParameter hParam
    rw [hParam] at h
    dsimp only at h
    split at h
    · obtain rfl := Option.some.inj h
      rw [valueAt_updateNewValue, if_pos hName.symm, hOld]
      rfl
    · split at h
      · cases h
      · obtain rfl := Option.some.inj h
        rw [Changes.updateStat _ _ _ _ hNames, valueAt_updateNewValue, if_pos hName.symm, hOld]
        rfl

theorem average_computeCount {newValue : Nat} {store store' : ParameterStore} {old : Option Text}
    (hCount : valueAt store (name ++ countSuffix) = some old)
    (h : computeCount name newValue store = some store') :
    let count := wrap (uintOr 0 old + 1)
    ((valueAt store (name ++ averageSuffix)).isSome → count ≠ 0) ∧
      valueAt store' (name ++ averageSuffix) =
        (valueAt store (name ++ averageSuffix)).map fun value =>
          some (showInt (wrap (wrap ((count - 1) * uintOr 0 value) + newValue) / count : Nat)) := by
  have hNames : averageSuffix ∉ [countSuffix] := by decide
  dsimp only [computeCount] at h ⊢
  cases hParam : getStatParameter store name countSuffix with
  | none =>
    rw [valueAt_eq_none hParam] at hCount
    cases hCount
  | some param =>
    obtain rfl : param.value = old := by
      rw [valueAt_getStatParameter hParam] at hCount
      exact Option.some.inj hCount
    have hKept := Changes.updateNewValue hParam (some (showInt (wrap (uintOr 0 param.value + 1)))) _ hNames
    rw [hParam] at h
    dsimp only at h
    split at h
    · rename_i hNone
      obtain rfl := Option.some.inj h
      rw [isNone_getStatParameter, hKept] at hNone
      rw [hKept, hNone]
      simp
    · split at h
      · cases h
      · rename_i hPos
        obtain rfl := Option.some.inj h
        refine ⟨fun _ => hPos, ?_⟩
        rw [valueAt_updateStat_self, hKept]
        rfl

theorem computeCount_of_none {newValue : Nat} {store store' : ParameterStore}
    (hCount : valueAt store (name ++ countSuffix) = none)
    (h : computeCount name newValue store = some store') : store' = store := by
  rw [computeCount] at h
  cases hParam : getStatParameter store name countSuffix with
  | none =>
    rw [hParam] at h
    exact (Option.some.inj h).symm
  | some param =>
    rw [valueAt_getStatParameter hParam] at hCount
    cases hCount

theorem exists_computeCount {store : ParameterStore} (newValue : Nat)
    (h : ∀ old, valueAt store (name ++ countSuffix) = some old →
      (valueAt store (name ++ averageSuffix)).isSome → wrap (uintOr 0 old + 1) ≠ 0) :
    ∃ store', computeCount name newValue store = some store' := by
  have hNames : averageSuffix ∉ [countSuffix] := by decide
  rw [computeCount]
  cases hParam : getStatParameter store name countSuffix with
  | none => exact ⟨_, rfl⟩
  | some param =>
    have hKept := Changes.updateNewValue hParam (some (showInt (wrap (uintOr 0 param.value + 1)))) _ hNames
    dsimp only
    split
    · exact ⟨_, rfl⟩
    · rename_i hSome
      rw [isNone_getStatParameter, hKept, ← ne_eq, Option.ne_none_iff_isSome] at hSome
      rw [if_neg (h _ (valueAt_getStatParameter hParam) hSome)]
      exact ⟨_, rfl⟩

theorem computeStats_cases {newValue : Nat} {sNewValue : Text} {timestamp : Int}
    {store store' : ParameterStore}
    (h : computeStats ctx name newValue sNewValue timestamp store = some store') :
    ∃ maxed counted : ParameterStore,
      Changes name [lastValueSuffix, sumSuffix, valueSuffix, minSuffix, minTimeSuffix, maxSuffix,
        maxTimeSuffix] store maxed ∧
      totalAt maxed name = (totalAt store name).map (fun value =>
        if newValue = 0 then value else some (showInt (wrap (uintOr 0 value + newValue)))) ∧
      valueAt maxed (name ++ minSuffix) = (valueAt store (name ++ minSuffix)).map (fun value =>
        if newValue < uintOr uintMax value then some sNewValue else value) ∧
      valueAt maxed (name ++ maxSuffix) = (valueAt store (name ++ maxSuffix)).map (fun value =>
        if uintOr 0 value < newValue then some sNewValue else value) ∧
      computeCount name newValue maxed = some counted ∧
      Changes name [csvSuffix, orSuffix, histogramSuffix] counted store' ∧
      valueAt store' (name ++ orSuffix) = (valueAt store (name ++ orSuffix)).map (fun value =>
        if !((value.bind writtenBool).getD false) && (writtenBool sNewValue).getD false then
          some trueString else value) := by
  have hNames : minSuffix ≠ minTimeSuffix ∧ maxSuffix ≠ maxTimeSuffix := by decide
  dsimp only [computeStats] at h
  obtain ⟨counted, hCount, hRest⟩ := Option.bind_eq_some_iff.mp h
  obtain rfl := Option.some.inj hRest
  have hLast : Changes name [lastValueSuffix] store
      (updateStat store name lastValueSuffix fun _ => some sNewValue) := Changes.updateStat store _ _
  have hSum := changes_computeSum name newValue (updateStat store name lastValueSuffix fun _ => some sNewValue)
  have hTotal := totalAt_computeSum name newValue (updateStat store name lastValueSuffix fun _ => some sNewValue)
  generalize computeSum name newValue _ = summed at *
  have hMin := changes_computeMin ctx name newValue sNewValue timestamp summed
  have hMinimum := valueAt_computeExtremum ctx name hNames.1
    (fun value => newValue < uintOr uintMax value) sNewValue timestamp summed
  rw [← computeMin] at hMinimum
  generalize computeMin ctx name newValue sNewValue timestamp summed = minimized at *
  have hMax := changes_computeMax ctx name newValue sNewValue timestamp minimized
  have hMaximum := valueAt_computeExtremum ctx name hNames.2
    (fun value => uintOr 0 value < newValue) sNewValue timestamp minimized
  rw [← computeMax] at hMaximum
  generalize computeMax ctx name newValue sNewValue timestamp minimized = maximized at *
  have hCsv := changes_computeCsv ctx name sNewValue counted
  generalize computeCsv ctx name sNewValue counted = listed at *
  have hOr : Changes name [orSuffix] listed (computeOr name sNewValue listed) := Changes.updateStat listed _ _
  have hHisto := changes_computeHisto ctx name newValue (computeOr name sNewValue listed)
  have hBefore := ((hLast.trans hSum).trans hMin).trans hMax
  refine ⟨maximized, counted, hBefore, ?_, ?_, ?_, hCount, (hCsv.trans hOr).trans hHisto, ?_⟩
  · rw [(hMin.trans hMax).totalAt (by decide) (by decide), hTotal, hLast.totalAt (by decide) (by decide)]
  · rw [hMax _ (by decide), hMinimum, (hLast.trans hSum) _ (by decide)]
    simp only [decide_eq_true_eq]
  · rw [hMaximum, ((hLast.trans hSum).trans hMin) _ (by decide)]
    simp only [decide_eq_true_eq]
  · have hUntil := ((hBefore.trans (changes_computeCount name hCount)).trans hCsv) orSuffix (by decide)
    rw [hHisto _ (by decide), computeOr, valueAt_updateStat_self, hUntil]
    congr 1
    funext value
    dsimp only
    split <;> rfl

theorem exists_computeStats {newValue : Nat} {sNewValue : Text} {timestamp : Int} {store : ParameterStore}
    (h : ∀ old, valueAt store (name ++ countSuffix) = some old →
      (valueAt store (name ++ averageSuffix)).isSome → wrap (uintOr 0 old + 1) ≠ 0) :
    ∃ store', computeStats ctx name newValue sNewValue timestamp store = some store' := by
  have hLast : Changes name [lastValueSuffix] store
      (updateStat store name lastValueSuffix fun _ => some sNewValue) := Changes.updateStat store _ _
  dsimp only [computeStats]
  have hBefore := ((hLast.trans (changes_computeSum name newValue _)).trans
    (changes_computeMin ctx name newValue sNewValue timestamp _)).trans
    (changes_computeMax ctx name newValue sNewValue timestamp _)
  rw [← hBefore countSuffix (by decide), ← hBefore averageSuffix (by decide)] at h
  obtain ⟨counted, hCount⟩ := exists_computeCount name newValue h
  rw [hCount]
  exact ⟨_, rfl⟩

end Stats

section Window

/-- What stays of a list of which the last `valuesToSave` items are kept, read backward. The first
character is not looked at. -/
def slide (valuesToSave : Nat) : Nat → Text → Text → Text
  | _, kept, [] => kept
  | _, kept, [ch] => ch :: kept
  | k, kept, ch :: before =>
    if ch = ',' then
      if k + 1 = valuesToSave then kept else slide valuesToSave (k + 1) (ch :: kept) before
    else slide valuesToSave k (ch :: kept) before

def slidOldValue (valuesToSave : Nat) (value : Option Text) : Text :=
  match value with
  | none => []
  | some old => if valuesToSave = 0 then [] else slide valuesToSave 0 [] old.reverse

/-- What `_addSlidingValue` makes of the value of a parameter. -/
def addSlidingValue (sValue : Option Text) (valuesToSave : Nat) (value : Option Text) : Text :=
  let sOldValue := slidOldValue valuesToSave value
  if sOldValue = [] then sValue.getD [] else sOldValue ++ ',' :: sValue.getD []

/-- The items that the loops over a list come to: they end with the text, so that an empty last item
is not one of them. -/
def csvItems (csv : Option Text) : List Text :=
  match csv with
  | none => []
  | some csv =>
    let items := csv.splitOn ','
    if items.getLast? = some [] then items.dropLast else items

def countCsv (csv : Option Text) : Nat :=
  (csvItems csv).foldl (fun res item => if (stringToUint item).isSome then wrap (res + 1) else res) 0

def sumCsv (csv : Option Text) : Nat :=
  (csvItems csv).foldl (fun res item => wrap (res + uintOr 0 (some item))) 0

/-- The best number of a list and its place. -/
def bestCsv (better : Nat → Nat → Bool) (start : Nat) (csv : Option Text) : Nat × Nat :=
  (csvItems csv).zipIdx.foldl
    (fun (res, index) (item, i) =>
      match stringToUint item with
      | some v => if better v res then (v, i) else (res, index)
      | none => (res, index))
    (start, 0)

def minCsv (csv : Option Text) : Nat × Nat := bestCsv (fun v res => v < res) uintMax csv

def maxCsv (csv : Option Text) : Nat × Nat := bestCsv (fun v res => res < v) 0 csv

def getCsvItem (csv : Option Text) (index : Nat) : Option Text := csv.bind fun csv => (csv.splitOn ',')[index]?

def orCsv (csv : Option Text) : Bool :=
  (csvItems csv).any fun item => (writtenBool item).getD false

end Window

section SlidingStats

variable (name currentNodeName : Text)

/-- The minimum or the maximum of the window, with the time that stands at its place in the list of
times. -/
def slideExtremum (suffix timeSuffix : Text) (best : Nat × Nat) (store : ParameterStore) :
    ParameterStore :=
  match getStatParameter store name suffix with
  | none => store
  | some param =>
    let store := updateNewValue store param (some (showInt best.1))
    match getStatParameter store currentNodeName timestampCsvName with
    | none => store
    | some times => updateStat store name timeSuffix fun _ => some ((getCsvItem times.value best.2).getD [])

def slideLastValue (sNewValue : Option Text) (store : ParameterStore) : ParameterStore :=
  updateStat store name lastValueSuffix fun _ => sNewValue

def slideCsv (sNewValue : Option Text) (valuesToSave : Nat) (store : ParameterStore) : ParameterStore :=
  updateStat store name csvSuffix fun value => some (addSlidingValue sNewValue valuesToSave value)

def slideSum (sCsvValue : Option Text) (store : ParameterStore) : ParameterStore :=
  let suffix := if (getStatParameter store name sumSuffix).isSome then sumSuffix else valueSuffix
  updateStat store name suffix fun _ => some (showInt (sumCsv sCsvValue))

def slideCount (sCsvValue : Option Text) (store : ParameterStore) : ParameterStore :=
  updateStat store name countSuffix fun _ => some (showInt (countCsv sCsvValue))

def slideAverage (sCsvValue : Option Text) (store : ParameterStore) : ParameterStore :=
  updateStat store name averageSuffix fun _ =>
    let sum := sumCsv sCsvValue
    let count := countCsv sCsvValue
    some (if count = 0 then [] else showInt (sum / count : Nat))

def slideOr (sCsvValue : Option Text) (store : ParameterStore) : ParameterStore :=
  updateStat store name orSuffix fun _ => some (if orCsv sCsvValue then trueString else falseString)

/-- `_computeSlidingStats`; the histogram of the window is not computed by the source. -/
def computeSlidingStats (sNewValue : Option Text) (valuesToSave : Nat) (store : ParameterStore) :
    ParameterStore :=
  let store := slideLastValue name sNewValue store
  let store := slideCsv name sNewValue valuesToSave store
  let sCsvValue := (getStatParameter store name csvSuffix).bind (·.value)
  let store := slideSum name sCsvValue store
  let store := slideExtremum name currentNodeName minSuffix minTimeSuffix (minCsv sCsvValue) store
  let store := slideExtremum name currentNodeName maxSuffix maxTimeSuffix (maxCsv sCsvValue) store
  let store := slideCount name sCsvValue store
  let store := slideAverage name sCsvValue store
  slideOr name sCsvValue store

theorem changes_slideSum (sCsvValue : Option Text) (store : ParameterStore) :
    Changes name [sumSuffix, valueSuffix] store (slideSum name sCsvValue store) := by
  dsimp only [slideSum]
  split
  · exact (Changes.updateStat store sumSuffix _).mono (by simp)
  · exact (Changes.updateStat store valueSuffix _).mono (by simp)

theorem totalAt_slideSum (sCsvValue : Option Text) (store : ParameterStore) :
    totalAt (slideSum name sCsvValue store) name =
      (totalAt store name).map fun _ => some (showInt (sumCsv sCsvValue)) := by
  have hNames : valueSuffix ∉ [sumSuffix] ∧ sumSuffix ∉ [valueSuffix] := by decide
  dsimp only [slideSum]
  rw [isSome_getStatParameter, totalAt, totalAt]
  cases hSum : valueAt store (name ++ sumSuffix) with
  | none =>
    rw [if_neg (by simp), Changes.updateStat store _ _ _ hNames.2, valueAt_updateStat_self, hSum]
    simp
  | some value =>
    rw [if_pos Option.isSome_some, Changes.updateStat store _ _ _ hNames.1, valueAt_updateStat_self, hSum]
    simp

theorem changes_slideExtremum (suffix timeSuffix : Text) (best : Nat × Nat) (store : ParameterStore) :
    Changes name [suffix, timeSuffix] store
      (slideExtremum name currentNodeName suffix timeSuffix best store) := by
  rw [slideExtremum]
  cases hParam : getStatParameter store name suffix with
  | none => exact Changes.refl store
  | some param =>
    have hUpdate := Changes.updateNewValue hParam (some (showInt best.1))
    dsimp only
    split
    · exact hUpdate.mono (by simp)
    · exact hUpdate.trans (Changes.updateStat _ timeSuffix _)

theorem valueAt_slideExtremum {suffix timeSuffix : Text} (hNames : suffix ≠ timeSuffix)
    (best : Nat × Nat) (store : ParameterStore) :
    valueAt (slideExtremum name currentNodeName suffix timeSuffix best store) (name ++ suffix) =
      (valueAt store (name ++ suffix)).map fun _ => some (showInt best.1) := by
  rw [slideExtremum]
  cases hParam : getStatParameter store name suffix with
  | none => simp [valueAt_eq_none hParam]
  | some param =>
    have hName := ParameterStore.name_of_getParameter hParam
    dsimp only
    split
    · rw [valueAt_updateNewValue, if_pos hName.symm]
      rfl
    · rw [Changes.updateStat _ _ _ _ (by simpa using hNames), valueAt_updateNewValue, if_pos hName.symm]
      rfl

theorem computeSlidingStats_spec {sNewValue csv : Option Text} {valuesToSave : Nat}
    {store store' : ParameterStore}
    (hStore : computeSlidingStats name currentNodeName sNewValue valuesToSave store = store')
    (hCsv : valueAt store' (name ++ csvSuffix) = some csv) :
    totalAt store' name = (totalAt store name).map (fun _ => some (showInt (sumCsv csv))) ∧
      valueAt store' (name ++ minSuffix) =
        (valueAt store (name ++ minSuffix)).map (fun _ => some (showInt (minCsv csv).1)) ∧
      valueAt store' (name ++ maxSuffix) =
        (valueAt store (name ++ maxSuffix)).map (fun _ => some (showInt (maxCsv csv).1)) ∧
      valueAt store' (name ++ countSuffix) =
        (valueAt store (name ++ countSuffix)).map (fun _ => some (showInt (countCsv csv))) ∧
      valueAt store' (name ++ averageSuffix) =
        (valueAt store (name ++ averageSuffix)).map (fun _ =>
          some (if countCsv csv = 0 then [] else showInt (sumCsv csv / countCsv csv : Nat))) ∧
      valueAt store' (name ++ orSuffix) =
        (valueAt store (name ++ orSuffix)).map (fun _ =>
          some (if orCsv csv then trueString else falseString)) := by
  have hNames : minSuffix ≠ minTimeSuffix ∧ maxSuffix ≠ maxTimeSuffix := by decide
  dsimp only [computeSlidingStats] at hStore
  have hSlid : Changes name [lastValueSuffix, csvSuffix] store
      (slideCsv name sNewValue valuesToSave (slideLastValue name sNewValue store)) :=
    (Changes.updateStat store lastValueSuffix _).trans (Changes.updateStat _ csvSuffix _)
  generalize slideCsv name sNewValue valuesToSave (slideLastValue name sNewValue store) = slid at *
  generalize hBind : (getStatParameter slid name csvSuffix).bind (·.value) = used at hStore
  have hSum := changes_slideSum name used slid
  have hTotal := totalAt_slideSum name used slid
  generalize slideSum name used slid = summed at *
  have hMin := changes_slideExtremum name currentNodeName minSuffix minTimeSuffix (minCsv used) summed
  have hMinimum := valueAt_slideExtremum name currentNodeName hNames.1 (minCsv used) summed
  generalize slideExtremum name currentNodeName minSuffix minTimeSuffix _ _ = minimized at *
  have hMax := changes_slideExtremum name currentNodeName maxSuffix maxTimeSuffix (maxCsv used) minimized
  have hMaximum := valueAt_slideExtremum name currentNodeName hNames.2 (maxCsv used) minimized
  generalize slideExtremum name currentNodeName maxSuffix maxTimeSuffix _ _ = maximized at *
  have hCount : Changes name [countSuffix] maximized (slideCount name used maximized) :=
    Changes.updateStat maximized _ _
  have hCounted : valueAt (slideCount name used maximized) (name ++ countSuffix) =
      (valueAt maximized (name ++ countSuffix)).map fun _ => some (showInt (countCsv used)) :=
    valueAt_updateStat_self maximized name countSuffix _
  generalize slideCount name used maximized = counted at *
  have hAverage : Changes name [averageSuffix] counted (slideAverage name used counted) :=
    Changes.updateStat counted _ _
  have hAveraged : valueAt (slideAverage name used counted) (name ++ averageSuffix) =
      (valueAt counted (name ++ averageSuffix)).map fun _ =>
        some (if countCsv used = 0 then [] else showInt (sumCsv used / countCsv used : Nat)) :=
    valueAt_updateStat_self counted name averageSuffix _
  generalize slideAverage name used counted = averaged at *
  have hOr : Changes name [orSuffix] averaged (slideOr name used averaged) := Changes.updateStat averaged _ _
  have hOred : valueAt (slideOr name used averaged) (name ++ orSuffix) =
      (valueAt averaged (name ++ orSuffix)).map fun _ => some (if orCsv used then trueString else falseString) :=
    valueAt_updateStat_self averaged name orSuffix _
  generalize slideOr name used averaged = ored at *
  subst hStore
  obtain rfl : used = csv := by
    have hAfter := (((((hSum.trans hMin).trans hMax).trans hCount).trans hAverage).trans hOr) csvSuffix
      (by decide)
    rw [hCsv] at hAfter
    obtain ⟨param, hParam, hValue⟩ := Option.map_eq_some_iff.mp hAfter.symm
    rw [← hBind, getStatParameter, hParam]
    exact hValue
  have hToMin := hSlid.trans hSum
  have hToMax := hToMin.trans hMin
  have hToCount := hToMax.trans hMax
  have hToAverage := hToCount.trans hCount
  have hToOr := hToAverage.trans hAverage
  have hFromAverage := hAverage.trans hOr
  have hFromCount := hCount.trans hFromAverage
  have hFromMax := hMax.trans hFromCount
  refine ⟨?_, ?_, ?_, ?_, ?_, ?_⟩
  · rw [(hMin.trans hFromMax).totalAt (by decide) (by decide), hTotal, hSlid.totalAt (by decide) (by decide)]
  · rw [hFromMax _ (by decide), hMinimum, hToMin _ (by decide)]
  · rw [hFromCount _ (by decide), hMaximum, hToMax _ (by decide)]
  · rw [hFromAverage _ (by decide), hCounted, hToCount _ (by decide)]
  · rw [hOr _ (by decide), hAveraged, hToAverage _ (by decide)]
  · rw [hOred, hToOr _ (by decide)]

end SlidingStats

end Statistics

end Tr069Agent.Engine
