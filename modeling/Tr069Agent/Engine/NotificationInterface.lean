import Tr069Agent.Engine.EventStruct
import Tr069Agent.Engine.InformMessageScheduler
import Tr069Agent.Engine.ParameterStore

/-! # The notification of the listeners

An Inform goes to the ACS and to the selfcare application, each of which has a list of values that
it is taken to know. A value that is known, and not mandatory in every Inform, is left out, and when
nothing has changed for a listener it gets no value change event, or no Inform at all.
-/

namespace Tr069Agent.Engine

open Library

set_option autoImplicit false

/-- A parameter and its value; the type of a value plays no role here. -/
abbrev ParameterValue := Text × Option Text

structure Listener where
  knownParameters : List ParameterValue
  knownParametersToRemove : List Text
  deriving DecidableEq

def ParameterStore.isInformParameter (store : ParameterStore) (name : Text) : Bool :=
  match store.getParameter name with
  | none => false
  | some param =>
    param.mandatoryNotification || param.notification = .passive || param.notification = .active

def ParameterStore.getMandatoryParameters (store : ParameterStore) : List Text :=
  (store.parameters.filter (·.mandatoryNotification)).map (·.name)

namespace Listener

def init : Listener := ⟨[], []⟩

def knownValue (known : List ParameterValue) (name : Text) : Option (Option Text) :=
  (known.find? (·.1 = name)).map (·.2)

/-- A mandatory parameter that is not in the list is added with the value it has. -/
def addMandatory (store : ParameterStore) (known : List ParameterValue) (name : Text) :
    List ParameterValue :=
  if (knownValue known name).isSome then known
  else
    match store.getParameter name with
    | none => known
    | some param => known ++ [(name, param.value)]

/-- `setKnownParameterList`, with the mandatory parameters of the store already loaded. -/
def setKnownParameterList (store : ParameterStore) (mandatory : List Text)
    (parameterList : List ParameterValue) (listener : Listener) : Listener :=
  { listener with
    knownParameters := mandatory.foldl (addMandatory store)
      (parameterList.filter fun pvs => store.isInformParameter pvs.1) }

def clearKnownParameters (listener : Listener) : Listener where
  knownParameters := listener.knownParametersToRemove.foldl
    (fun known name => known.eraseP (·.1 = name)) listener.knownParameters
  knownParametersToRemove := []

/-- The loop over the parameters of an Inform: whether there is a change, the parameters passed on
and the known ones to be removed. -/
def scan (parameterKeyName : Text) (known : List ParameterValue) (mandatory : List Text) :
    Bool → List ParameterValue → Bool × List ParameterValue × List Text
  | change, [] => (change, [], [])
  | change, (name, newVal) :: parameterList =>
    match knownValue known name with
    | none =>
      let (change, newList, toRemove) := scan parameterKeyName known mandatory true parameterList
      (change, (name, newVal) :: newList, toRemove)
    | some knownVal =>
      if name ∈ mandatory then
        let change := if !change && name ≠ parameterKeyName then newVal ≠ knownVal else change
        let (change, newList, toRemove) := scan parameterKeyName known mandatory change parameterList
        (change, (name, newVal) :: newList, toRemove)
      else if newVal ≠ knownVal then
        let (change, newList, toRemove) := scan parameterKeyName known mandatory true parameterList
        (change, (name, newVal) :: newList, name :: toRemove)
      else
        let (change, newList, toRemove) := scan parameterKeyName known mandatory change parameterList
        (change, newList, name :: toRemove)

def isValueChange (event : EventStruct) : Bool := event.eventCode.text = EventCode.valueChange.text

/-- What the callback of a listener is called with. -/
structure Call where
  events : List EventStruct
  parameterList : List ParameterValue
  deriving DecidableEq

/-- The part of `DM_ENG_NotificationInterface_inform` for one listener, whose callback returns
`result`. None where the first event is asked for and there is none. -/
def inform (parameterKeyName : Text) (mandatory : List Text) (events : List EventStruct)
    (parameterList : List ParameterValue) (result : NotificationStatus) (listener : Listener) :
    Option (Option Call × NotificationStatus × Listener) :=
  let known := listener.knownParameters
  if known = [] then some (some ⟨events, parameterList⟩, result, listener)
  else
    let (change, newList, toRemove) := scan parameterKeyName known mandatory false parameterList
    let listener : Listener :=
      ⟨if known.length ≤ mandatory.length then [] else known, toRemove⟩
    if !change && events = [] then none
    else if change || 1 < events.length || !(events.any isValueChange) then
      let newEvents := if change then events else events.eraseP isValueChange
      some (some ⟨newEvents, newList⟩, result,
        if result = .completed then listener.clearKnownParameters else listener)
    else some (none, .completed, listener.clearKnownParameters)

end Listener

structure NotificationInterface where
  mandatoryParameterList : Option (List Text)
  acs : Listener
  selfcareApp : Option Listener
  deriving DecidableEq

namespace NotificationInterface

def init : NotificationInterface := ⟨none, .init, none⟩

def mandatory (ni : NotificationInterface) : List Text := ni.mandatoryParameterList.getD []

def activate (entity : EntityType) (ni : NotificationInterface) : NotificationInterface :=
  match entity with
  | .acs => { ni with acs := .init }
  | .selfcareApp => { ni with selfcareApp := some .init }
  | _ => ni

def setKnownParameterList (entity : EntityType) (store : ParameterStore)
    (parameterList : List ParameterValue) (ni : NotificationInterface) : NotificationInterface :=
  let mandatory := ni.mandatoryParameterList.getD store.getMandatoryParameters
  match entity, ni.selfcareApp with
  | .acs, _ =>
    { ni with
      mandatoryParameterList := some mandatory
      acs := ni.acs.setKnownParameterList store mandatory parameterList }
  | .selfcareApp, some listener =>
    { ni with
      mandatoryParameterList := some mandatory
      selfcareApp := some (listener.setKnownParameterList store mandatory parameterList) }
  | _, _ => ni

/-- What the ACS is called with, the status and the state after an Inform. -/
def inform (parameterKeyName : Text) (events : List EventStruct)
    (parameterList : List ParameterValue) (acsResult selfcareResult : NotificationStatus)
    (ni : NotificationInterface) :
    Option (Option Listener.Call × NotificationStatus × NotificationInterface) := do
  let (call, status, acs) ←
    ni.acs.inform parameterKeyName ni.mandatory events parameterList acsResult
  match ni.selfcareApp with
  | none => return (call, status, { ni with acs })
  | some listener =>
    let (_, _, listener) ←
      listener.inform parameterKeyName ni.mandatory events parameterList selfcareResult
    return (call, status, { ni with acs, selfcareApp := some listener })

end NotificationInterface

end Tr069Agent.Engine
