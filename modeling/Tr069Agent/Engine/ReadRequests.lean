import Tr069Agent.Com.RpcCommands
import Tr069Agent.Engine.LoadingSafety

/-! # Reading names and values

`DM_ENG_GetParameterNames` and `DM_ENG_GetParameterValues` load what they are asked for, and answer from
the parameters as the load has left them. The names of prototypes are answered to neither of them, but
`DM_ENG_GetParameterValues` does not refuse them. Hidden parameters are treated as if they did not exist.

The requests are made within a session, whose lock they do not take and give back.
-/

namespace Tr069Agent.Engine

open Library

set_option autoImplicit false

def withheldNames (dmPrefix : Text) : List Text :=
  ["ManagementServer.Password", "ManagementServer.ConnectionRequestPassword", "ManagementServer.STUNPassword"].map
    (dmPrefix ++ ·.toList)

namespace Parameter

def getFilteredValue (dmPrefix : Text) (param : Parameter) : Option Text :=
  if param.name ∈ withheldNames dmPrefix then some [] else param.value

def isValuable (name : Text) : Bool := !isNodeName name && !isProto name

end Parameter

namespace ReadRequests

/-- Only what the ACS and subscribers are told is filtered. -/
def filteredValue (dmPrefix : Text) (entity : EntityType) (param : Parameter) : Option Text :=
  if entity = .acs ∨ entity = .subscriber then param.getFilteredValue dmPrefix else param.value

/-- What follows the path has no dot but one at its end. -/
def isNextLevel (path prmName : Text) : Bool :=
  path.length < prmName.length &&
    match (prmName.drop path.length).dropWhile (· ≠ '.') with
    | [] => true
    | _ :: dotAfter => dotAfter.isEmpty

def infoOf (param : Parameter) : ParameterInfoStruct := ⟨param.name, param.writable⟩

def valueOf (dmPrefix : Text) (entity : EntityType) (param : Parameter) : ParameterValueStruct :=
  ⟨param.name, param.type, filteredValue dmPrefix entity param⟩

/-- The parameters at or below a node that are no prototypes and not hidden. -/
def shownBelow (dm : DataModel) (path : Text) : List Parameter :=
  dm.filter fun param => path.isPrefixOf param.name && !isProto param.name && !param.isHidden

def infosBelow (dm : DataModel) (path : Text) (nextLevel : Bool) : List ParameterInfoStruct :=
  ((shownBelow dm path).filter fun param => !nextLevel || isNextLevel path param.name).map infoOf

def valuesBelow (dmPrefix : Text) (entity : EntityType) (dm : DataModel) (name : Text) : List ParameterValueStruct :=
  (dm.filter fun param => name.isPrefixOf param.name && Parameter.isValuable param.name && !param.isHidden).map
    (valueOf dmPrefix entity)

section Requests

variable (ctx : LoadContext) (calls : Loading.Callbacks) (fuel : Nat) (entity : EntityType)

/-- The system is answered without a load. -/
def loadFor (name : Text) (withValues : Bool) : Load Nat :=
  if entity = .system then return 0 else Loading.loadSystemParameters ctx calls fuel name withValues

/-- The answer to a request of names once they are loaded. -/
def namesOf (dm : DataModel) (path : Text) (nextLevel : Bool) : Except Int (List ParameterInfoStruct) :=
  let isNode := path.isEmpty || isNodeName path
  if (!path.isEmpty && (dm.getParameter path).isNone) || (nextLevel && !isNode) || isProto path then
    .error Fault.invalidParameterName
  else
    match dm.getParameter path with
    | some param =>
      if param.isHidden then .error Fault.invalidParameterName
      else if isNode then .ok (infosBelow dm path nextLevel)
      else .ok [infoOf param]
    | none => .ok (if isNode then infosBelow dm path nextLevel else [])

def getParameterNames (path : Option Text) (nextLevel : Bool) : Load (Except Int (List ParameterInfoStruct)) := do
  match path with
  | none => return .error Fault.invalidParameterName
  | some path =>
    let res ← loadFor ctx calls fuel entity path false
    if res ≠ 0 then return .error res
    match namesOf (← get).dm path nextLevel with
    | .error codeRetour => return .error codeRetour
    | .ok infos =>
      if path.isEmpty || isNodeName path then Loading.loopToEnd id
      return .ok infos

def valuesOf (dm : DataModel) (name : Text) : Except Int (List ParameterValueStruct) :=
  if name.isEmpty then .ok (valuesBelow ctx.dmPrefix entity dm name)
  else
    match dm.getParameter name with
    | none => .error Fault.invalidParameterName
    | some param =>
      if param.isHidden then .error Fault.invalidParameterName
      else if isNodeName name then .ok (valuesBelow ctx.dmPrefix entity dm name)
      else .ok [valueOf ctx.dmPrefix entity param]

/-- `DM_ENG_GetParameterValues`; a fault for one of the names is the answer to all. -/
def getParameterValues : List Text → Load (Except Int (List ParameterValueStruct))
  | [] => return .ok []
  | name :: parameterNames => do
    let res ← loadFor ctx calls fuel entity name true
    if res ≠ 0 then return .error res
    match valuesOf ctx entity (← get).dm name with
    | .error codeRetour => return .error codeRetour
    | .ok values =>
      if name.isEmpty || isNodeName name then Loading.loopToEnd id
      return (← getParameterValues parameterNames).map (values ++ ·)

end Requests

end ReadRequests

end Tr069Agent.Engine
