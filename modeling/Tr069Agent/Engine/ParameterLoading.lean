import Tr069Agent.Engine.ComputedExp
import Tr069Agent.Engine.SetParameterValues
import Tr069Agent.Engine.SystemUpdates
import Tr069Agent.Library.Action

/-! # Loading parameters from the device

Values and names come from the device one at a time, or all those of an object that is loaded as a
group. What is loaded is marked, and is not loaded again. The definitions of parameters are evaluated on
the way, which may load other parameters.
-/

namespace Tr069Agent.Engine

open Library Library.Decimal

set_option autoImplicit false

structure DeviceReadings where
  time : Nat → Int
  getValue : Nat → Text → Option Text → Nat × Option Text
  getObject : Nat → Text → Option Text → Nat × List (Text × Option Text)
  getNames : Nat → Text → Option Text → Nat × Option (List Text)

structure LoadContext where
  dmPrefix : Text
  dateStringToTime : Text → Option Int
  device : DeviceReadings

structure LoadState where
  dm : DataModel
  readings : Nat
  /-- `_current`, the place in the list of the parameters. -/
  current : Option Text
  /-- The loops over the parameters that were begun; the source does not count them. -/
  loops : Nat
  deriving DecidableEq

/-- An action comes to nothing where the source follows a null pointer or goes beyond a bound. -/
abbrev Load := Action LoadState

namespace Loading

section List

def find (name : Text) : Load (Option Parameter) := do return (← get).dm.getParameter name

def update (name : Text) (f : Parameter → Parameter) : Load Unit :=
  modify fun s => { s with dm := s.dm.modify name f }

def getFirstName : Load Unit := modify fun s => { s with current := s.dm.names.head?, loops := s.loops + 1 }

def getNextName : Load Unit := modify fun s =>
  { s with current := s.current.bind fun name => (s.dm.names.dropWhile (· ≠ name)).tail.head? }

/-- A change by a loop over the parameters that goes on to the end of the list. -/
def loopToEnd (f : DataModel → DataModel) : Load Unit := modify fun s =>
  { s with dm := f s.dm, current := none, loops := s.loops + 1 }

def reading {α : Type} (answer : Nat → α) : Load α := do
  let s ← get
  modify fun s => { s with readings := s.readings + 1 }
  return answer s.readings

/-- `DM_ENG_Parameter_isLoaded` -/
def testLoaded (name : Text) (withValues : Bool) : Load Bool := do
  update name (·.withDefault)
  match ← find name with
  | none => failure
  | some param => return param.isLoaded withValues

end List

structure Callbacks where
  getValue : Text → Text → Load (Option Text)
  loadNames : Text → Load Unit

section Loads

variable (ctx : LoadContext) (calls : Callbacks)

/-- `DM_ENG_ComputedExp_eval` with the values of parameters that are loaded when needed. -/
def evaluate (definition destName : Text) : Load (Bool × Option Text) := do
  match ComputedExp.parse definition with
  | .ok exp =>
    let now ← reading ctx.device.time
    (ComputedExp.evaluators ctx.dateStringToTime now exp).eval.runM fun prmName => calls.getValue prmName destName
  | .error .noExpression => return (false, none)
  | .error .missingToken | .error .unfinished => failure

def evaluateData (param : Parameter) : Load (Option Text) := do
  match param.definition with
  | none | some [] => return none
  | some definition => return (← evaluate ctx calls definition param.name).2

/-- `_loadSystemParameter`; none where the parameter is deleted by the evaluation of its data. -/
def loadSystemValue (param : Parameter) : Load Nat :=
  if (param.storageMode = .systemOnly || param.storageMode = .mixed) && param.value.isNone then do
    let data ← evaluateData ctx calls param
    let (res, val) ← reading fun n => ctx.device.getValue n param.name data
    if res ≠ 0 then return res
    match ← find param.name with
    | none => failure
    | some _ =>
      update param.name (.updateSystemValue val false)
      return 0
  else return 0

def isInstanceOf (objName pName : Text) : Bool :=
  let behind := pName.drop objName.length
  objName.isPrefixOf pName && behind.takeWhile (· ≠ '.') ≠ [] && behind.dropWhile (· ≠ '.') = ['.']

/-- `_computeNumberOfIntances` -/
def computeNumberOfInstances (objName : Text) : Load Text := do
  calls.loadNames objName
  loopToEnd id
  return showInt ((← get).dm.names.countP (isInstanceOf objName) : Nat)

/-- A definition that begins with a hash counts the instances of an object. -/
def evaluateComputed (name : Text) : Text → Load (Bool × Option Text)
  | '#' :: objName => do
    let count ← computeNumberOfInstances calls (getLongName ctx.dmPrefix objName name)
    return (true, some count)
  | definition => evaluate ctx calls definition name

def evaluateDefinition (param : Parameter) : Load (Bool × Option Text) :=
  match param.definition with
  | none => return (true, none)
  | some definition => do
    update param.name (·.markBeingEvaluated)
    let res ← evaluateComputed ctx calls param.name definition
    match ← find param.name with
    | none => failure
    | some _ =>
      update param.name (·.unmarkBeingEvaluated)
      return res

def loadComputedParameter (param : Parameter) (checkChange : Bool) : Load Nat :=
  if param.state.beingEvaluated then return Fault.internalError.toNat
  else do
    let (bRes, prmVal) ← evaluateDefinition ctx calls param
    if bRes && prmVal.isSome && prmVal ≠ param.value then
      update param.name (.updateSystemValue prmVal checkChange)
    update param.name (.markLoadedWith true)
    return if bRes then 0 else 1

/-- `DM_ENG_ParameterManager_loadLeafParameterValue` without a check of changes. -/
def loadLeafParameterValue (name : Text) : Load Nat := do
  match ← find name with
  | none => failure
  | some param =>
    if param.storageMode = .computed then
      if ← testLoaded name true then return 0
      match ← find name with
      | none => failure
      | some param => loadComputedParameter ctx calls param false
    else loadSystemValue ctx calls param

def loadObject (param : Parameter) : Load Nat := do
  let data ← evaluateData ctx calls param
  let (res, paramVal) ← reading fun n => ctx.device.getObject n param.name data
  if res ≠ 0 then return res
  let paramVal := paramVal.map fun (name, value) => (getLongName ctx.dmPrefix name param.name, value)
  loopToEnd (updateObject ctx.dmPrefix param.name paramVal false)
  return 0

def markName (dm : DataModel) (paramName : Text) : DataModel :=
  match getParameterOrCreate ctx.dmPrefix dm paramName with
  | (dm, true) => dm.modify paramName (·.markLoaded)
  | (dm, false) => dm

def loadNames (param : Parameter) : Load Nat := do
  let data ← evaluateData ctx calls param
  let (res, paramNames) ← reading fun n => ctx.device.getNames n param.name data
  if res ≠ 0 then return res
  match paramNames with
  | none => return 0
  | some paramNames =>
    let paramNames := paramNames.map (getLongName ctx.dmPrefix · param.name)
    loopToEnd fun dm => markInstancesLoaded param.name paramNames false (paramNames.foldl (markName ctx) dm)
    return 0

/-- What `_loadFinal` loads: 1 where there is nothing to load. -/
def loadParameter (param : Parameter) (withValues : Bool) : Load Nat :=
  if withValues then
    if isNodeName param.name then loadObject ctx calls param else loadLeafParameterValue ctx calls param.name
  else if isNodeName param.name ∧ param.loadingMode / 2 % 2 = 1 then loadNames ctx calls param
  else return 1

def loadFinal (name : Text) (withValues : Bool) : Load Nat := do
  if ← testLoaded name withValues then return 0
  if isProto name then return 0
  match ← find name with
  | none => failure
  | some param =>
    let res ← loadParameter ctx calls param withValues
    if res = 0 ∨ res = 1 then
      match ← find name with
      | none => return Fault.internalError.toNat
      | some _ =>
        update name (.markLoadedWith withValues)
        return 0
    return res

def isGrouped (param : Parameter) : Bool := param.loadingMode % 2 ≠ 0

/-- A parameter below the node that is no prototype; every one is below no node. -/
def isSubParameter (node : Option Text) (prmName : Text) : Bool :=
  node.all (fun name => name.length < prmName.length && name.isPrefixOf prmName) && !isProto prmName

structure ScanResult where
  found : Option Text := none
  foundComputed : Option Text := none
  res : Nat := 0

/-- One parameter of a scan, which is over when the result is not zero: a value that the device gives
alone is read at once, and of the others the name is kept. -/
def scanParameter (withValues : Bool) (prmName : Text) (r : ScanResult) : Load ScanResult := do
  match ← find prmName with
  | none => failure
  | some current =>
    if isGrouped current || !isNodeName prmName then
      if ← testLoaded prmName withValues then return r
      match ← find prmName with
      | none => failure
      | some current =>
        if !isGrouped current && current.storageMode ≠ .computed then
          let res ← loadSystemValue ctx calls current
          return if res = 0 then r else { r with found := none, res }
        else if r.found.isNone && r.foundComputed.isNone && current.storageMode = .computed then
          return { r with foundComputed := some prmName }
        else return { r with found := some prmName }
    else return r

/-- Above what was found already, nothing but the objects it belongs to is looked at. -/
def scanCurrent (node : Option Text) (withValues : Bool) (prmName : Text) (r : ScanResult) : Load ScanResult :=
  if isSubParameter node prmName &&
      r.found.all (fun found => prmName.length < found.length && prmName.isPrefixOf found) then
    scanParameter ctx calls withValues prmName r
  else pure r

/-- The loop of `_loadSubParameters` from the current parameter on. -/
def scan (node : Option Text) (withValues : Bool) : Nat → ScanResult → Load ScanResult
  | 0, _ => failure
  | fuel + 1, r => do
    match (← get).current with
    | none => return r
    | some prmName =>
      let r ← scanCurrent ctx calls node withValues prmName r
      if r.res ≠ 0 then return r
      getNextName
      scan node withValues fuel r

/-- One scan, and what it has found: the computed parameter comes last. -/
def scanAll (fuel : Nat) (node : Option Text) (withValues : Bool) : Load (Option Text × Nat) := do
  getFirstName
  let r ← scan ctx calls node withValues fuel {}
  return (r.found.or r.foundComputed, r.res)

/-- The scans of `_loadSubParameters`, of which one is allowed after 501. -/
def scanAgain (fuel : Nat) (node : Option Text) (withValues : Bool) : Nat → Load Nat
  | 0 => return Fault.internalError.toNat
  | rounds + 1 => do
    let (found, res) ← scanAll ctx calls fuel node withValues
    match found with
    | none => return if rounds = 0 then Fault.internalError.toNat else res
    | some found =>
      let res ← loadFinal ctx calls found withValues
      if rounds = 0 then return Fault.internalError.toNat
      if res ≠ 0 then return res
      scanAgain fuel node withValues rounds

def maxSystemEntry : Nat := 500

/-- `_loadSubParameters` on a node, or on the whole data model. -/
def loadSubParameters (fuel : Nat) (node : Option Text) (withValues : Bool) : Load Nat :=
  match node with
  | none => scanAgain ctx calls fuel none withValues (maxSystemEntry + 2)
  | some name => do
    update name (.markLoadedWith withValues)
    scanAgain ctx calls fuel (some name) withValues (maxSystemEntry + 2)

/-- A name up to its last single dot, where the name is reversed. -/
def objectBefore : Text → Option Text
  | [] => none
  | c :: before =>
    if c = '.' ∧ before ≠ [] ∧ before.head? ≠ some '.' then some (c :: before).reverse else objectBefore before

def parentName (name : Text) : Option Text := objectBefore name.reverse.tail

def groupRoot (dm : DataModel) : Nat → Text → Text
  | 0, name => name
  | levels + 1, name =>
    match (parentName name).bind dm.getParameter with
    | none => name
    | some parent => if isGrouped parent then groupRoot dm levels parent.name else name

def loadSystemParameter (fuel : Nat) (name : Text) (withValues : Bool) : Load Nat := do
  if ← testLoaded name withValues then return 0
  match ← find name with
  | none => failure
  | some param =>
    if isGrouped param then loadFinal ctx calls (groupRoot (← get).dm name.length name) withValues
    else if isNodeName name then loadSubParameters ctx calls fuel (some name) withValues
    else if withValues then loadLeafParameterValue ctx calls name
    else return 0

/-- The parameter that a name is for: itself, or the prototype of which it can be an instance. -/
def findTarget (dm : DataModel) : Nat → Text → Option Parameter
  | 0, name => dm.getParameter name
  | rounds + 1, name =>
    (dm.getParameter name).or ((SetParameterValues.computeProto name 0 name.length).bind (findTarget dm rounds))

def loadSystemParameters (fuel : Nat) (name : Text) (withValues : Bool) : Load Nat := do
  if name = [] then loadSubParameters ctx calls fuel none withValues
  else
    match findTarget (← get).dm name.length name with
    | none => return Fault.invalidParameterName.toNat
    | some param => loadSystemParameter ctx calls fuel param.name withValues

def getValue (fuel : Nat) (prmName destName : Text) : Load (Option Text) := do
  let longName := getLongName ctx.dmPrefix prmName destName
  match ← find longName with
  | none => return none
  | some prm =>
    if prm.storageMode = .dmOnly ∧ !isNodeName longName ∧ !isProto longName then
      if prm.type = .boolean ∧ prm.value.getD [] = [] then
        update longName (·.updateValue (some falseString) false)
    else if prm.value.isNone then
      if prm.storageMode = .computed then discard (loadComputedParameter ctx calls prm false)
      else discard (loadSystemParameter ctx calls fuel longName true)
    return (← find longName).bind (·.value)

end Loads

def callbacks (ctx : LoadContext) : Nat → Callbacks
  | 0 => ⟨fun _ _ => failure, fun _ => failure⟩
  | depth + 1 =>
    { getValue := getValue ctx (callbacks ctx depth) depth
      loadNames := fun objName =>
        discard (loadSystemParameters ctx (callbacks ctx depth) depth objName false) }

end Loading

end Tr069Agent.Engine
