import Tr069Agent.Engine.ParameterStore

/-! # The value of a parameter

Setting a value keeps the value before it, for the case that the change is cancelled.
-/

namespace Tr069Agent.Engine

open Library Library.Decimal

set_option autoImplicit false

inductive ParameterStatus where
  | applied
  | readyToApply
  | undefined
  deriving DecidableEq

section Texts

def unknownTime : Text := "0001-01-01T00:00:00Z".toList

def falseString : Text := "false".toList

def trueString : Text := "true".toList

def longMin : Int := -2 ^ 63

def longMax : Int := 2 ^ 63 - 1

def stringToLong (ch : Text) : Option Int :=
  if ch = [] then none
  else
    let (val, rest) := strtol ch
    if val < longMin ∨ val > longMax ∨ rest.dropWhile isspace ≠ [] then none else some val

def stringToBool (ch : Text) : Option Bool :=
  let ch := ch.dropWhile isspace
  let word : Option (Bool × Text) :=
    if falseString.isPrefixOf (ch.map Char.toLower) then some (false, ch.drop falseString.length)
    else if trueString.isPrefixOf (ch.map Char.toLower) then some (true, ch.drop trueString.length)
    else match ch with
      | '0' :: rest => some (false, rest)
      | '1' :: rest => some (true, rest)
      | _ => none
  word.bind fun (val, rest) => if rest.dropWhile isspace = [] then some val else none

/-- A name or a number alone, with blanks around it. -/
def isNameOrNumber (definition : Text) : Bool :=
  ((definition.dropWhile (· = ' ')).dropWhile
    (fun c => c.isAlphanum || c = '.' || c = '_')).dropWhile (· = ' ') = []

/-- From a reversed name, what stays of it behind the `pts`-th dot. -/
def upward (pts : Nat) (best : Text) : Text → Text
  | [] => best
  | c :: rest =>
    if c = '.' then (if pts ≤ 1 then c :: rest else upward (pts - 1) (c :: rest) rest)
    else upward pts best rest

/-- `DM_ENG_Parameter_getLongName`: a name relative to the node where `destName` is. -/
def getLongName (dmPrefix prmName destName : Text) : Text :=
  if destName = [] ∨ dmPrefix.isPrefixOf prmName then prmName
  else
    let pts := (prmName.takeWhile (· = '.')).length
    (upward (max pts 1) destName.reverse destName.reverse).reverse ++ prmName.dropWhile (· = '.')

end Texts

namespace Parameter

/-- A date or a boolean without a value, which `DM_ENG_Parameter_isLoaded` gives its default. -/
def isUnset (param : Parameter) : Bool :=
  !isNodeName param.name && (param.type = .date || param.type = .boolean) &&
    (param.value = some [] || (param.storageMode = .dmOnly && param.value = none))

def defaultValue (param : Parameter) : Text := if param.type = .date then unknownTime else falseString

def withDefault (param : Parameter) : Parameter :=
  if param.isUnset then { param with value := some param.defaultValue } else param

/-- What `DM_ENG_Parameter_isLoaded` returns once the default is given. -/
def isLoaded (param : Parameter) (withValues : Bool) : Bool :=
  (param.value.isSome && (param.storageMode ≠ .computed || param.state.loaded)) ||
    (!isNodeName param.name && param.storageMode = .dmOnly) ||
    (!withValues && (!isNodeName param.name || param.backValue.isSome))

/-- `DM_ENG_Parameter_markLoaded` without values. -/
def markLoaded (param : Parameter) : Parameter :=
  if param.value = none ∧ param.backValue = none then { param with backValue := some [] } else param

def markBeingEvaluated (param : Parameter) : Parameter :=
  { param with state := { param.state with beingEvaluated := true } }

def unmarkBeingEvaluated (param : Parameter) : Parameter :=
  { param with state := { param.state with beingEvaluated := false } }

/-- `dateOk` tells which texts that are not empty are read as dates; the source asks `mktime`. -/
def typeOk (dateOk : Text → Bool) (param : Parameter) (value : Option Text) : Bool :=
  match param.type with
  | .int => (value.bind stringToInt).any fun n => param.minValue ≤ n && n ≤ param.maxValue
  | .uint =>
    (value.bind stringToUint).any fun n => toUint param.minValue ≤ n && n ≤ toUint param.maxValue
  | .long => (value.bind stringToLong).isSome
  | .boolean => (value.bind stringToBool).isSome
  | .date => value.any fun ch => ch ≠ [] && dateOk ch
  | .string => value.any fun ch => param.minValue = -1 || (ch.length : Int) ≤ param.minValue
  | _ => true

def checkBeforeSetValue (dateOk : Text → Bool) (param : Parameter) (value : Option Text) : Int :=
  if param.state.changeRequested then Fault.invalidArguments
  else if param.typeOk dateOk value then 0
  else Fault.invalidParameterValue

def setValue (param : Parameter) (value : Option Text) : Parameter :=
  { param with
    backValue := param.value
    value
    state := { param.state with changeRequested := true, valueChanged := true } }

/-- Without the notifications to the scheduler. -/
def commit (param : Parameter) : Parameter :=
  { param with
    state := { param.state with changeRequested := false }
    backValue := if param.writable then none else param.backValue }

/-- A value that comes from the system; it is pushed when it is a new one. -/
def updateValue (param : Parameter) (value : Option Text) (newValue : Bool) : Parameter :=
  if newValue then
    { param with value, state := { param.state with valueChanged := true, pushed := true } }.commit
  else { param with value }

/-- What `DM_ENG_Parameter_cancelChange` does when a change was requested. -/
def cancelChange (param : Parameter) : Parameter :=
  { param with value := param.backValue, backValue := none, state := .initial }

def flagTrigger : Int := 3

def clearsValue (param : Parameter) : Bool :=
  param.storageMode = .computed && param.definition.any isNameOrNumber

def clearTemporaryValue (level : Nat) (param : Parameter) : Parameter :=
  if level = 2 ∨ level = 1 ∧
      (isNodeName param.name ∧ param.storageMode ≠ .mixed ∨ param.storageMode = .systemOnly) then
    let backValue :=
      if param.writable ∨ param.immediateChanges ≠ flagTrigger then none else param.backValue
    if param.value.isSome ∧ (param.state.valueChanged = false ∨ level = 2) then
      { param with backValue, value := none, state := .initial }
    else { param with backValue }
  else if param.storageMode = .computed then
    { param with
      value := if param.clearsValue then none else param.value
      state := { param.state with loaded := false, pushed := false } }
  else param

/-- Where a set or a cancel goes on to. -/
def redirection (dmPrefix : Text) (param : Parameter) : Option Text :=
  if param.storageMode = .computed then
    param.definition.map (getLongName dmPrefix · param.name)
  else none

end Parameter

namespace EntityType

def name : EntityType → Text
  | acs => "ACS".toList
  | selfcareApp => "SelfcareApp".toList
  | system => "System".toList
  | subscriber => "Subscriber".toList
  | any => "Any".toList

/-- The ACS, the selfcare application and the system belong to every list. -/
def belongsTo (entity : EntityType) (accessList : Option (List Text)) : Bool :=
  entity = acs || entity = selfcareApp || entity = system ||
    accessList.any fun list => list.contains entity.name

end EntityType

end Tr069Agent.Engine
