import Tr069Agent.Engine.DataModel
import Tr069Agent.Library.Transition

/-! # Updates from the system

The system names parameters that are not in the data model; the instances they belong to are then made
from the prototypes. Instances of an object that the system does not name any more are deleted.
-/

namespace Tr069Agent.Engine

open Library Library.Decimal Library.NumberedNames Library.Transition

set_option autoImplicit false

/-- A name of the form "Xxx...Zzz.999.". -/
def isNodeInstance (prmName : Text) : Bool :=
  let front := prmName.dropLast.reverse
  let rest := front.dropWhile Char.isDigit
  isNodeName prmName && front.takeWhile Char.isDigit ≠ [] && rest.head? = some '.' && 1 < rest.length

section Creation

/-- The rounds in which `_getParameter` takes the numbers out of a name from the right, until a prototype
is found: the object and the number of its instance. `front` is the name up to the place in the loop,
reversed, and `tail` is the rest. -/
def findInstance (dm : DataModel) : Nat → Text → Text → Option (Text × Nat)
  | 0, _, _ => none
  | rounds + 1, front, tail =>
    let tail := (front.takeWhile (· ≠ '.')).reverse ++ tail
    let front := front.dropWhile (· ≠ '.')
    let digits := (front.tail.takeWhile Char.isDigit).reverse
    match front.tail.dropWhile Char.isDigit with
    | [] | [_] => none
    | c :: rest =>
      if c ≠ '.' then findInstance dm rounds rest (c :: (digits ++ '.' :: tail))
      else
        match stringToUint digits with
        | none => none
        | some instanceNb =>
          let objName := (c :: rest).reverse
          -- no ".." at the end of a node
          let behind := if tail = [] then [] else '.' :: tail
          if (dm.getParameter (objName ++ behind)).isSome then some (objName, instanceNb)
          else findInstance dm rounds rest ('.' :: behind)

/-- The iterations of `_getParameter`: the data model with the instances that were missing, and whether
the parameter is found. -/
def getParameterFrom (dmPrefix : Text) : Nat → DataModel → Text → DataModel × Bool
  | 0, dm, _ => (dm, false)
  | iterations + 1, dm, paramName =>
    if (dm.getParameter paramName).isSome then (dm, true)
    else
      match findInstance dm paramName.length paramName.reverse [] with
      | none => (dm, false)
      | some (proto, instanceNb) =>
        match dm.getParameter proto with
        | none => (dm, false)
        | some param => getParameterFrom dmPrefix iterations (addInstance dmPrefix dm param instanceNb) paramName

/-- `_getParameter`, with five iterations at most. -/
def getParameterOrCreate (dmPrefix : Text) (dm : DataModel) (paramName : Text) : DataModel × Bool :=
  getParameterFrom dmPrefix 5 dm paramName

theorem isInner_of_findInstance {dm : DataModel} {rounds : Nat} {front tail objName : Text} {instanceNb : Nat}
    (h : findInstance dm rounds front tail = some (objName, instanceNb)) : IsInner '.' objName := by
  induction rounds generalizing front tail with
  | zero => cases h
  | succ rounds ih =>
    dsimp only [findInstance] at h
    split at h
    · cases h
    · cases h
    · rename_i c rest _ _
      split at h
      · exact ih h
      · rename_i hDot
        split at h
        · cases h
        · generalize (if (List.reverse _ ++ tail : Text) = [] then ([] : Text) else _) = behind at h
          split at h
          · obtain rfl := (Prod.mk.inj (Option.some.inj h)).1
            rw [IsInner, List.getLast?_reverse, List.head?_cons, not_not.mp hDot]
          · exact ih h

end Creation

section Deletion

def isSubNode (name prmName : Text) : Bool :=
  name.length < prmName.length && name.isPrefixOf prmName && isNodeName prmName && !isProto prmName

def isListed (names : List Text) (prmName : Text) : Bool := names.any prmName.isPrefixOf

def Parameter.markLoadedWith (withValues : Bool) (param : Parameter) : Parameter :=
  if withValues then
    { param with
      value := some (param.value.getD [])
      state := if param.storageMode = .computed then { param.state with loaded := true } else param.state }
  else param.markLoaded

/-- One scan of `_markInstancesLoaded`, which ends at the first instance that is not listed. -/
def markUntilObsolete (name : Text) (names : List Text) (withValues : Bool) :
    DataModel → DataModel × Option Text
  | [] => ([], none)
  | param :: rest =>
    if isSubNode name param.name && isListed names param.name then
      let (rest, obsolete) := markUntilObsolete name names withValues rest
      (param.markLoadedWith withValues :: rest, obsolete)
    else if isSubNode name param.name && isNodeInstance param.name then (param :: rest, some param.name)
    else
      let (rest, obsolete) := markUntilObsolete name names withValues rest
      (param :: rest, obsolete)

def markInstancesLoadedFrom (name : Text) (names : List Text) (withValues : Bool) : Nat → DataModel → DataModel
  | 0, dm => dm
  | scans + 1, dm =>
    match markUntilObsolete name names withValues dm with
    | (dm, none) => dm
    | (dm, some obsolete) =>
      markInstancesLoadedFrom name names withValues scans (dm.deleteObject obsolete)

def markInstancesLoaded (name : Text) (names : List Text) (withValues : Bool) (dm : DataModel) : DataModel :=
  markInstancesLoadedFrom name names withValues (dm.length + 1) dm

def deleteObsoleteFrom (name : Text) (names : List Text) : Nat → DataModel → DataModel
  | 0, dm => dm
  | scans + 1, dm =>
    match dm.names.find? fun prmName =>
        isSubNode name prmName && isNodeInstance prmName && !isListed names prmName with
    | none => dm
    | some obsolete => deleteObsoleteFrom name names scans (dm.deleteObject obsolete)

end Deletion

section Updates

variable (dmPrefix : Text)

def Parameter.updateSystemValue (value : Option Text) (newValue : Bool) (param : Parameter) : Parameter :=
  param.updateValue (some (value.getD [])) newValue

def updateEntry (pushedObject : Bool) (dm : DataModel) (entry : Text × Option Text) : DataModel :=
  match getParameterOrCreate dmPrefix dm entry.1 with
  | (dm, true) => dm.modify entry.1 (.updateSystemValue entry.2 pushedObject)
  | (dm, false) => dm

def updateObject (objName : Text) (parameterList : List (Text × Option Text)) (pushedObject : Bool)
    (dm : DataModel) : DataModel :=
  markInstancesLoaded objName (parameterList.map Prod.fst) true
    (parameterList.foldl (updateEntry dmPrefix pushedObject) dm)

/-- `DM_ENG_ParameterManager_updateParameterValues`: none where the object to clear is not there. -/
def updateParameterValues (dm : DataModel) : List (Text × Option Text) → Option DataModel
  | [] => some dm
  | (name, value) :: paramList =>
    if isNodeName name then
      let dm := updateObject dmPrefix name paramList true dm
      if (dm.getParameter name).isSome then some (dm.modify name (·.updateValue none true)) else none
    else updateParameterValues (dm.modify name (.updateSystemValue value true)) paramList

def updateParameterNames (dm : DataModel) (name : Text) (names : List Text) : DataModel :=
  let dm := names.foldl (fun dm paramName => (getParameterOrCreate dmPrefix dm paramName).1) dm
  deleteObsoleteFrom name names (dm.length + 1) dm

end Updates

end Tr069Agent.Engine
