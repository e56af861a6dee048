import Tr069Agent.Engine.PeriodicInform

/-! # Setting values

`DM_ENG_SetParameterValues` on a data model whose values are all in the store: parameters that are
DM_ONLY, or COMPUTED and redirected. A definition that leads outside, to the device, gives none. So
do the calls of the system, which are notifications of the device. What the statistics module does when
one of its control parameters is committed is a parameter of the model.
-/

namespace Tr069Agent.Engine

open Library

set_option autoImplicit false

/-- What no request changes. -/
def Parameter.static (param : Parameter) : Text × ParameterType × StorageMode × Option Text × Int :=
  (param.name, param.type, param.storageMode, param.definition, param.loadingMode)

namespace ParameterStore

/-- The static parts of the parameters, in their order. -/
def statics (store : ParameterStore) : List (Text × ParameterType × StorageMode × Option Text × Int) :=
  store.parameters.map Parameter.static

def map (store : ParameterStore) (f : Parameter → Parameter) (hf : ∀ p, (f p).name = p.name) :
    ParameterStore where
  parameters := store.parameters.map f
  nodup := by simpa [Function.comp_def, hf] using store.nodup

theorem getParameter_map (store : ParameterStore) {f : Parameter → Parameter}
    (hf : ∀ p, (f p).name = p.name) (name : Text) :
    (store.map f hf).getParameter name = (store.getParameter name).map f := by
  have hSame : (fun prm : Parameter => decide (prm.name = name)) ∘ f = fun prm => decide (prm.name = name) := by
    funext prm
    rw [Function.comp_apply, hf]
  rw [getParameter, map, List.find?_map, hSame, getParameter]

end ParameterStore

@[simp]
theorem Parameter.name_withDefault (param : Parameter) : param.withDefault.name = param.name := by
  unfold withDefault
  split <;> rfl

@[simp]
theorem Parameter.name_markLoaded (param : Parameter) : param.markLoaded.name = param.name := by
  unfold markLoaded
  split <;> rfl

@[simp]
theorem Parameter.name_clearTemporaryValue (level : Nat) (param : Parameter) :
    (param.clearTemporaryValue level).name = param.name := by
  unfold clearTemporaryValue
  grind

/-- The statistics module: what the setting of a control parameter of an object makes of the parameters, of
which it changes the values only. -/
structure StatisticsModule where
  performParameterSetting (objName paramName : Text) (store : ParameterStore) : ParameterStore
  statics_perform (objName paramName : Text) (store : ParameterStore) :
    (performParameterSetting objName paramName store).statics = store.statics

namespace SetParameterValues

variable (dmPrefix : Text) (dateOk : Text → Bool) (statistics : StatisticsModule)

/-! ## Looking up the names -/

/-- The test `isLoaded` on the parameters selected. -/
def checkLoaded (select : Text → Bool) (store : ParameterStore) : ParameterStore :=
  store.map (fun p => if select p.name then p.withDefault else p) fun p => by
    split
    · exact p.name_withDefault
    · rfl

/-- `_computeProto`: the rightmost number between two dots is taken out, where `k` is the place of
the last dot met and `i` places are still to be looked at. -/
def computeProto (name : Text) (k : Nat) : Nat → Option Text
  | 0 => none
  | i + 1 =>
    let c := name.getD i ' '
    if k = 0 then computeProto name (if c = '.' then i else 0) i
    else if c = '.' then
      if k - i = 1 then computeProto name i i
      else if i = 0 then none
      else some (name.take (i + 1) ++ name.drop k)
    else computeProto name (if c.isDigit then k else 0) i

def findProto (store : ParameterStore) : Nat → Text → Option Parameter
  | 0, _ => none
  | fuel + 1, name =>
    (computeProto name 0 name.length).bind fun proto =>
      (store.getParameter proto).or (findProto store fuel proto)

def isBelow (node name : Text) : Bool :=
  node.length < name.length && node.isPrefixOf name && !isProto name

/-- The values that `DM_ENG_ParameterManager_loadSystemParameters` tests. -/
def isChecked (store : ParameterStore) (path name : Text) : Bool :=
  if path = [] then !isProto name
  else
    match (store.getParameter path).or (findProto store path.length path) with
    | none => false
    | some param =>
      name = param.name || (!param.withDefault.isLoaded false && isBelow param.name name)

/-- The objects that the device describes are loaded from it. -/
def asksDevice (store : ParameterStore) : Bool :=
  store.parameters.any fun param => param.loadingMode % 2 ≠ 0

/-- `DM_ENG_ParameterManager_loadSystemParameters` without values. -/
def loadSystemParameters (store : ParameterStore) (path : Text) : Option (Int × ParameterStore) :=
  if asksDevice store then none
  else if path = [] then some (0, checkLoaded (isChecked store path) store)
  else
    match (store.getParameter path).or (findProto store path.length path) with
    | none => some (Fault.invalidParameterName, store)
    | some param =>
      let checked := checkLoaded (isChecked store path) store
      if param.withDefault.isLoaded false then some (0, checked)
      else some (0, checked.put param.withDefault.markLoaded)

/-! ## Setting one value -/

/-- `_setParameterValue`: only a value that the device holds is loaded before it is set. -/
def setChecked (param : Parameter) (value : Option Text) : Option (Int × Parameter) :=
  let res := param.checkBeforeSetValue dateOk value
  if res ≠ 0 then some (res, param)
  else if param.storageMode = .systemOnly ∨ param.storageMode = .mixed then none
  else some (0, param.setValue value)

/-- `DM_ENG_ParameterManager_setParameterValue` with a bound on the redirections. -/
def setParameterValue (entity : EntityType) :
    Nat → ParameterStatus → Text → Option Text → ParameterStore →
      Option (Int × ParameterStatus × ParameterStore)
  | 0, _, _, _, _ => none
  | fuel + 1, status, name, value, store =>
    match store.getParameter name with
    | none => some (Fault.invalidParameterName, status, store)
    | some param =>
      if isNodeName name ∨ status = .undefined ∧ param.isHidden then
        some (Fault.invalidParameterName, status, store)
      else if ¬ (param.writable ∧ entity.belongsTo param.accessList) then
        some (Fault.readOnlyParameter, status, store)
      else if param.state.beingEvaluated then
        some (Fault.internalError, status, store.put param.unmarkBeingEvaluated)
      else do
        let (res, param) ← setChecked dateOk param.markBeingEvaluated value
        let status : ParameterStatus := if param.immediateChanges ≠ 0 then .applied else .readyToApply
        let store := store.put param
        match res, param.redirection dmPrefix with
        | 0, some nextName =>
          let (res, status, store) ← setParameterValue entity fuel status nextName value store
          let param ← store.getParameter name
          return (res, status, store.put param.unmarkBeingEvaluated)
        | res, _ => return (res, status, store.put param.unmarkBeingEvaluated)

/-- More redirections than parameters cannot be followed. -/
def bound (store : ParameterStore) : Nat := store.parameters.length + 1

def setEntry (entity : EntityType) (store : ParameterStore) (entry : Text × Option Text) :
    Option (Int × ParameterStatus × ParameterStore) := do
  let (res, store) ← loadSystemParameters store entry.1
  if res ≠ 0 then return (res, .undefined, store)
  else setParameterValue dmPrefix dateOk entity (bound store) .undefined entry.1 entry.2 store

def setEntries (entity : EntityType) (status : ParameterStatus) (store : ParameterStore) :
    List (Text × Option Text) → Option (ParameterStatus × List (Text × Int) × ParameterStore)
  | [] => some (status, [], store)
  | entry :: parameterList => do
    let (res, stat, store) ← setEntry dmPrefix dateOk entity store entry
    let status := if res = 0 ∧ status ≠ .readyToApply then stat else status
    let (status, faults, store) ← setEntries entity status store parameterList
    return (status, if res = 0 then faults else (entry.1, res) :: faults, store)

/-! ## Committing and cancelling -/

/-- The object that holds a parameter or an object, where the name does not begin with a dot there. -/
def objectAbove (name : Text) : Option Text :=
  let objName := (name.dropLast.reverse.dropWhile (· ≠ '.')).reverse
  if 1 < objName.length then some objName else none

/-- The parameters of the diagnostics, of the periodic inform and of the ACS are no control parameters of
statistics objects: their changes are noted for the end of the session. -/
def isNoted (name : Text) : Bool :=
  Text.strstr name "Diagnostics.".toList ||
    ([periodicInformEnableName dmPrefix, periodicInformIntervalName dmPrefix, periodicInformTimeName dmPrefix] ++
      ["ManagementServer.URL", "ManagementServer.Username", "ManagementServer.Password"].map
        (dmPrefix ++ ·.toList)).contains name

def isStatistics (store : ParameterStore) (objName : Text) : Bool :=
  (store.getParameter objName).any (·.type = .statistics)

/-- The statistics object that a parameter controls: the one that holds it, or the one above that. -/
def controlledObject (store : ParameterStore) (name : Text) : Option Text :=
  if isNoted dmPrefix name then none
  else (objectAbove name).bind fun objName =>
    if isStatistics store objName then some objName else (objectAbove objName).filter (isStatistics store)

/-- The control parameters of the statistics objects take effect when they are committed. -/
def performSetting (store : ParameterStore) (name : Text) : ParameterStore :=
  match controlledObject dmPrefix store name with
  | none => store
  | some objName => statistics.performParameterSetting objName name store

/-- What is noted for the diagnostics, the periodic inform and the ACS is not part of the store. -/
def commitParameter : Nat → Text → ParameterStore → Option ParameterStore
  | 0, _, _ => none
  | fuel + 1, name, store =>
    match store.getParameter name with
    | none => some store
    | some param =>
      if isNodeName name then some store
      else
        let store := performSetting dmPrefix statistics (store.put param.commit) name
        match param.redirection dmPrefix with
        | none => some store
        | some nextName => commitParameter fuel nextName store

def unsetParameter : Nat → Text → ParameterStore → Option ParameterStore
  | 0, _, _ => none
  | fuel + 1, name, store =>
    match store.getParameter name with
    | none => some store
    | some param =>
      if isNodeName name ∨ param.state.changeRequested = false then some store
      else
        let store := store.put param.cancelChange
        match param.redirection dmPrefix with
        | none => some store
        | some defName => unsetParameter fuel defName store

def commitAll (store : ParameterStore) : List (Text × Option Text) → Option ParameterStore
  | [] => some store
  | entry :: parameterList => do
    let store ← commitParameter dmPrefix statistics (bound store) entry.1 store
    commitAll store parameterList

def unsetAll (store : ParameterStore) : List (Text × Option Text) → Option ParameterStore
  | [] => some store
  | entry :: parameterList => do
    let store ← unsetParameter dmPrefix (bound store) entry.1 store
    unsetAll store parameterList

def parameterKeyName : Text := dmPrefix ++ "ManagementServer.ParameterKey".toList

/-- None where there is no such parameter: its pointer is then NULL. -/
def setParameterKey (parameterKey : Option Text) (store : ParameterStore) : Option ParameterStore :=
  match parameterKey with
  | none => some store
  | some key => do
    let param ← store.getParameter (parameterKeyName dmPrefix)
    let (_, param) ← setChecked dateOk param (some key)
    return store.put param.commit

/-- What the end of a call clears: computed values within a session (`sync`), and else also the
marks of the nodes (`unlock`, which then turns to the notifications of the device). -/
def release (inSession : Bool) (store : ParameterStore) : ParameterStore :=
  store.map (·.clearTemporaryValue (if inSession then 0 else 1)) (·.name_clearTemporaryValue _)

end SetParameterValues

structure SetParameterValuesResult where
  codeRetour : Int
  status : ParameterStatus
  faults : List (Text × Int)
  store : ParameterStore

open SetParameterValues in
def setParameterValues (dmPrefix : Text) (dateOk : Text → Bool) (statistics : StatisticsModule) (entity : EntityType)
    (inSession : Bool) (parameterKey : Option Text) (store : ParameterStore)
    (parameterList : List (Text × Option Text)) : Option SetParameterValuesResult :=
  if entity = .system then none
  else do
    let (status, faults, store) ← setEntries dmPrefix dateOk entity .undefined store parameterList
    if faults = [] then
      let store ← if entity = .acs then setParameterKey dmPrefix dateOk parameterKey store else store
      let store ← commitAll dmPrefix statistics store parameterList
      return ⟨0, status, [], release inSession store⟩
    else
      let store ← unsetAll dmPrefix store parameterList
      return ⟨Fault.invalidArguments, status, faults, release inSession store⟩

end Tr069Agent.Engine
