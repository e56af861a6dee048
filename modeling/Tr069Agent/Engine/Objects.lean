import Tr069Agent.Engine.SystemUpdates

/-! # AddObject and DeleteObject

An object is extended when it is found and writable, and an object is deleted when the object above it
is writable. Neither function asks whether the object is an instance, so that the calls whose effect
stays within the collections and their instances are those that a check refuses otherwise.
-/

namespace Tr069Agent.Engine

open Library Library.Decimal Library.NumberedNames Library.Transition

set_option autoImplicit false

namespace Fault

def resourcesExceeded : Int := 9004

end Fault

structure Reply where
  res : Int
  status : Option ParameterStatus
  instanceNumber : Option Nat

section Names

/-- The name up to the last dot but one and what follows it. -/
def splitObjectName (objectName : Text) : Option (Text × Text) :=
  let front := objectName.reverse.drop 2
  let proto := front.dropWhile (· ≠ '.')
  if proto.length ≤ 1 then none
  else some (proto.reverse, objectName.drop proto.length)

/-- `strtoul` on 64 bits: none where the number is out of range. -/
def strtoul (text : Text) : Option Nat :=
  let (val, _) := strtol text
  if val.natAbs < 2 ^ 64 then some (val % 2 ^ 64).toNat else none

/-- The number that the end of an object name stands for. -/
def readInstanceNumber (last : Text) : Option Nat :=
  (strtoul last).bind fun l => if l > uintMax then none else some l

theorem isNodeInstance_child {name : Text} (hNode : isNodeName name = true) (hLength : 1 < name.length)
    (n : Nat) : isNodeInstance (child '.' name n) = true := by
  have hDigits : ∀ c ∈ (Nat.toDigits 10 n).reverse, c.isDigit = true := fun c hMem =>
    isDigit_of_mem_toDigits (List.mem_reverse.mp hMem)
  have hSome : Nat.toDigits 10 n ≠ [] := Nat.toDigits_ne_nil
  have hFront : (child '.' name n).dropLast.reverse = (Nat.toDigits 10 n).reverse ++ name.reverse := by
    rw [child, ← List.append_assoc, List.dropLast_concat, List.reverse_append]
    rfl
  have hLast : name.reverse.head? = some '.' := by
    rw [List.head?_reverse]
    simpa [isNodeName] using hNode
  obtain ⟨front, hReverse⟩ := List.head?_eq_some_iff.mp hLast
  have hStop : name.reverse.takeWhile Char.isDigit = [] ∧ name.reverse.dropWhile Char.isDigit = name.reverse := by
    rw [hReverse]
    exact ⟨rfl, rfl⟩
  have hChild : isNodeName (child '.' name n) = true := by simp [isNodeName, child]
  simp only [isNodeInstance, hFront, hChild, List.takeWhile_append_of_pos hDigits,
    List.dropWhile_append_of_pos hDigits, hStop, hLast]
  simpa [hSome] using hLength

theorem isNodeName_of_isInner {name : Text} (h : IsInner '.' name) : isNodeName name = true := by
  rw [isNodeName, decide_eq_true_eq]
  exact h

end Names

namespace Parameter

/-- The number of the last instance, kept in the lower bound. -/
def counter (param : Parameter) : Nat := toUint param.minValue

/-- `INT_MAX` -/
def maxCounter : Nat := 2 ^ 31 - 1

def status (param : Parameter) : ParameterStatus :=
  if param.immediateChanges ≠ 0 then .applied else .readyToApply

def isNode (param : Parameter) : Bool := isNodeName param.name

def countInstance (param : Parameter) : Parameter := { param with minValue := param.minValue + 1 }.commit

theorem counter_countInstance {param : Parameter} (hRoom : param.counter < maxCounter) :
    param.countInstance.counter = param.counter + 1 := by
  simp only [countInstance, commit, counter, toUint, maxCounter] at *
  omega

end Parameter

namespace ParameterManager

/-- The object is extended: its value is given up and the parameters of the instance are added. -/
def extend (dmPrefix : Text) (dm : DataModel) (param : Parameter) (instanceNumber : Nat) : DataModel :=
  let param := param.updateValue none true
  addInstance dmPrefix (dm.modify param.name fun _ => param) param instanceNumber

/-- `answer` is what `DM_ENG_Device_addObject` returns, with the number that it gives. -/
def addObject (dmPrefix : Text) (entity : EntityType) (dm : DataModel) (objectName : Text)
    (answer : Int × Nat) : DataModel × Reply :=
  match dm.getParameter objectName with
  | none => (dm, ⟨Fault.invalidParameterName, none, none⟩)
  | some param =>
    if !param.isNode then (dm, ⟨Fault.invalidParameterName, none, none⟩)
    else if !param.writable then (dm, ⟨Fault.requestDenied, none, none⟩)
    else if param.storageMode = .dmOnly then
      if param.counter ≥ Parameter.maxCounter then (dm, ⟨Fault.resourcesExceeded, param.status, none⟩)
      else
        let param := param.countInstance
        (extend dmPrefix dm param param.counter, ⟨0, param.status, some param.counter⟩)
    else if entity ≠ .system then
      if answer.1 ≠ 0 then (dm, ⟨answer.1, param.status, none⟩)
      else (extend dmPrefix dm param answer.2, ⟨0, param.status, some answer.2⟩)
    else (dm, ⟨Fault.requestDenied, param.status, none⟩)

/-- `answer` is what `DM_ENG_Device_deleteObject` returns. -/
def deleteObject (entity : EntityType) (dm : DataModel) (objectName : Text) (answer : Int) :
    DataModel × Reply :=
  let invalid := (dm, ⟨Fault.invalidParameterName, none, none⟩)
  match dm.getParameter objectName with
  | none => invalid
  | some param =>
    if !param.isNode then invalid
    else
      match splitObjectName objectName with
      | none => invalid
      | some (protoName, last) =>
        match readInstanceNumber last, dm.getParameter protoName with
        | some _, some proto =>
          if !proto.isNode then invalid
          else if !proto.writable then (dm, ⟨Fault.requestDenied, none, none⟩)
          else
            let res := if proto.storageMode ≠ .dmOnly ∧ entity ≠ .system then answer else 0
            if res = 0 ∨ res = Fault.invalidParameterName then
              ((dm.modify protoName (·.updateValue none true)).deleteObject objectName,
                ⟨res, proto.status, none⟩)
            else (dm, ⟨res, proto.status, none⟩)
        | _, _ => invalid

/-- AddObject leaves the data model as it is and returns no number, or it extends a collection with the
next number, or an object with the number of the device. -/
theorem addObject_cases (dmPrefix : Text) (entity : EntityType) (dm : DataModel) (objectName : Text)
    (answer : Int × Nat) :
    ((addObject dmPrefix entity dm objectName answer).1 = dm ∧
        (addObject dmPrefix entity dm objectName answer).2.instanceNumber = none) ∨
      ∃ param, dm.getParameter objectName = some param ∧ param.isNode ∧ param.writable ∧
        (param.storageMode = .dmOnly ∧ param.counter < Parameter.maxCounter ∧
            (addObject dmPrefix entity dm objectName answer).1 =
              extend dmPrefix dm param.countInstance (param.counter + 1) ∧
            (addObject dmPrefix entity dm objectName answer).2.instanceNumber = some (param.counter + 1) ∨
          param.storageMode ≠ .dmOnly ∧ entity ≠ .system ∧ answer.1 = 0 ∧
            (addObject dmPrefix entity dm objectName answer).1 = extend dmPrefix dm param answer.2 ∧
            (addObject dmPrefix entity dm objectName answer).2.instanceNumber = some answer.2) := by
  cases hParam : dm.getParameter objectName with
  | none => simp [addObject, hParam]
  | some param =>
    obtain hRoom | hFull := Nat.lt_or_ge param.counter Parameter.maxCounter
    · have hCount := Parameter.counter_countInstance hRoom
      simp only [addObject, hParam, hCount]
      grind
    · simp only [addObject, hParam]
      grind

theorem getParameter_extend (dmPrefix : Text) {dm : DataModel} (param : Parameter) (n : Nat)
    (hProto : param.name ++ ['.'] ∉ dm.names) :
    (extend dmPrefix dm param n).getParameter (child '.' param.name n) =
      some (relocateParameter dmPrefix param.name n
        (newInstanceParameter (child '.' param.name n) (param.updateValue none true))) := by
  have hNames : (dm.modify param.name fun _ => param.updateValue none true).names = dm.names :=
    DataModel.names_modify fun _ _ => rfl
  rw [← hNames] at hProto
  have hFound : (createInstance _ (param.updateValue none true) n).getParameter _ = some _ :=
    getParameter_createInstance hProto
  rw [extend, addInstance, relocateInstances, DataModel.getParameter_map (name_relocateParameter _ _ _)]
  exact congrArg (Option.map _) hFound

end ParameterManager

section Calls

/-- A call on an object, with the answer of the device. -/
inductive ObjectCall where
  | addObject (objectName : Text) (answer : Int × Nat)
  | deleteObject (objectName : Text) (answer : Int)

variable (dmPrefix : Text) (entity : EntityType)

namespace ObjectCall

def apply (dm : DataModel) : ObjectCall → DataModel × Reply
  | addObject objectName answer => ParameterManager.addObject dmPrefix entity dm objectName answer
  | deleteObject objectName answer => ParameterManager.deleteObject entity dm objectName answer

def step (dm : DataModel) (call : ObjectCall) : Option DataModel := some (call.apply dmPrefix entity dm).1

/-- A collection is to be extended, an instance that exists is to be deleted. -/
def OnTarget (dm : DataModel) : ObjectCall → Prop
  | addObject objectName _ =>
    (dm.getParameter objectName).isSome ∧ isNodeName objectName ∧ isNodeInstance objectName = false
  | deleteObject objectName _ =>
    (dm.getParameter objectName).isSome ∧ isNodeInstance objectName ∧
      (splitObjectName objectName).any fun split => (dm.getParameter split.1).isSome

instance (dm : DataModel) (call : ObjectCall) : Decidable (call.OnTarget dm) := by
  cases call <;> exact inferInstanceAs (Decidable (_ ∧ _ ∧ _))

/-- A call succeeds on its target only, and in every other case the store is unchanged and a fault is
returned. -/
def KeepsToTarget (dm : DataModel) (call : ObjectCall) : Prop :=
  ((call.apply dmPrefix entity dm).2.res = 0 → call.OnTarget dm) ∧
    (¬ call.OnTarget dm →
      (call.apply dmPrefix entity dm).1 = dm ∧ (call.apply dmPrefix entity dm).2.res ≠ 0)

/-- What the functions ask before they change the data model. -/
def Accepted (dm : DataModel) : ObjectCall → Prop
  | addObject objectName answer =>
    ∃ param ∈ dm.getParameter objectName, param.isNode ∧ param.writable ∧
      (if param.storageMode = .dmOnly then param.counter < Parameter.maxCounter else answer.1 = 0)
  | deleteObject objectName answer =>
    (dm.getParameter objectName).any Parameter.isNode ∧
      ∃ split ∈ splitObjectName objectName, (readInstanceNumber split.2).isSome ∧
        ∃ proto ∈ dm.getParameter split.1, proto.isNode ∧ proto.writable ∧
          (proto.storageMode = .dmOnly ∨ answer = 0 ∨ answer = Fault.invalidParameterName)

instance (dm : DataModel) (call : ObjectCall) : Decidable (call.Accepted dm) := by
  cases call with
  | addObject objectName answer =>
    exact inferInstanceAs (Decidable (∃ param ∈ dm.getParameter objectName, _ ∧ _ ∧ _))
  | deleteObject objectName answer =>
    exact inferInstanceAs (Decidable (_ ∧ ∃ split ∈ splitObjectName objectName, _ ∧
      ∃ proto ∈ dm.getParameter split.1, _ ∧ _ ∧ _))

instance (dm : DataModel) (call : ObjectCall) : Decidable (call.KeepsToTarget dmPrefix entity dm) :=
  inferInstanceAs (Decidable ((_ → _) ∧ (_ → _)))

/-- The name is of the right form, or a check refuses the call. -/
def FormChecked (dm : DataModel) (call : ObjectCall) : Prop :=
  call.Accepted dm →
    match call with
    | addObject objectName _ => isNodeInstance objectName = false
    | deleteObject objectName _ => isNodeInstance objectName = true

instance (dm : DataModel) (call : ObjectCall) : Decidable (call.FormChecked dm) := by
  cases call <;> exact inferInstanceAs (Decidable (_ → _))

variable {dmPrefix entity} {dm : DataModel}

theorem onTarget_iff_formChecked {call : ObjectCall} (h : call.Accepted dm) :
    call.OnTarget dm ↔ call.FormChecked dm := by
  have hAccepted := h
  cases call with
  | addObject objectName answer =>
    obtain ⟨param, hParam, hNode, -⟩ := h
    have hName : isNodeName objectName = true := by
      rw [← DataModel.name_of_getParameter hParam]
      exact hNode
    have hFound : (dm.getParameter objectName).isSome = true := Option.isSome_iff_exists.mpr ⟨param, hParam⟩
    simp [OnTarget, FormChecked, hName, hFound, hAccepted]
  | deleteObject objectName answer =>
    have hFound := Option.isSome_of_any h.1
    obtain ⟨-, split, hSplit, -, proto, hProto, -⟩ := h
    have hAbove : (dm.getParameter split.1).isSome = true := Option.isSome_iff_exists.mpr ⟨proto, hProto⟩
    have hSplit : splitObjectName objectName = some split := hSplit
    simp [OnTarget, FormChecked, hSplit, hFound, hAbove, hAccepted]

theorem invalidParameterName_ne_zero : Fault.invalidParameterName ≠ 0 := by decide

/-- A call that is refused leaves the data model as it is. -/
theorem apply_of_not_accepted (hEntity : entity ≠ .system) {call : ObjectCall} (h : ¬ call.Accepted dm) :
    (call.apply dmPrefix entity dm).1 = dm ∧ (call.apply dmPrefix entity dm).2.res ≠ 0 := by
  cases call with
  | addObject objectName answer =>
    simp only [apply, ParameterManager.addObject, Accepted] at h ⊢
    cases hParam : dm.getParameter objectName with
    | none => exact ⟨rfl, invalidParameterName_ne_zero⟩
    | some param =>
      simp only [hParam, Option.mem_some_iff, exists_eq_left'] at h
      grind [Fault.invalidParameterName, Fault.requestDenied, Fault.resourcesExceeded]
  | deleteObject objectName answer =>
    simp only [apply, ParameterManager.deleteObject, Accepted] at h ⊢
    cases hParam : dm.getParameter objectName with
    | none => exact ⟨rfl, invalidParameterName_ne_zero⟩
    | some param =>
      cases hSplit : splitObjectName objectName with
      | none =>
        dsimp only
        split <;> exact ⟨rfl, invalidParameterName_ne_zero⟩
      | some split =>
        simp only [hParam, hSplit, Option.mem_some_iff, exists_eq_left', Option.any_some] at h
        grind [Fault.invalidParameterName, Fault.requestDenied]

theorem apply_of_accepted (hEntity : entity ≠ .system) {call : ObjectCall} (h : call.Accepted dm) :
    (call.apply dmPrefix entity dm).2.res = 0 ∨ (call.apply dmPrefix entity dm).1 ≠ dm := by
  cases call with
  | addObject objectName answer =>
    obtain ⟨param, hParam, hNode, hWritable, hRoom⟩ := h
    have hParam : dm.getParameter objectName = some param := hParam
    simp only [apply, ParameterManager.addObject, hParam]
    grind
  | deleteObject objectName answer =>
    obtain ⟨hFound, split, hSplit, hNumber, proto, hProto, hNode, hWritable, hAnswer⟩ := h
    obtain ⟨param, hParam, hParamNode⟩ := (Option.any_eq_true _ _).mp hFound
    have hMem := DataModel.mem_names_of_getParameter hParam
    have hSplit : splitObjectName objectName = some split := hSplit
    have hProto : dm.getParameter split.1 = some proto := hProto
    obtain ⟨number, hNumber⟩ := Option.isSome_iff_exists.mp hNumber
    refine .inr fun hSame => ?_
    have hGone : objectName ∉
        ((dm.modify split.1 (·.updateValue none true)).deleteObject objectName).names := fun hIn =>
      (DataModel.mem_names_deleteObject.mp hIn).2 (List.prefix_refl _)
    simp only [apply, ParameterManager.deleteObject, hParam, hSplit, hNumber, hProto] at hSame
    grind

/-- A call keeps to its target if and only if a check refuses it or its name is of the right form. -/
theorem keepsToTarget_iff (hEntity : entity ≠ .system) {call : ObjectCall} :
    call.KeepsToTarget dmPrefix entity dm ↔ call.FormChecked dm := by
  obtain hAccepted | hRefused := em (call.Accepted dm)
  · rw [KeepsToTarget, ← onTarget_iff_formChecked hAccepted]
    refine ⟨fun h => ?_, fun h => ⟨fun _ => h, fun hNot => absurd h hNot⟩⟩
    obtain hRes | hChanged := apply_of_accepted hEntity hAccepted
    · exact h.1 hRes
    · exact Classical.byContradiction fun hNot => hChanged (h.2 hNot).1
  · have hUnchanged : (call.apply dmPrefix entity dm).1 = dm ∧ (call.apply dmPrefix entity dm).2.res ≠ 0 :=
      apply_of_not_accepted hEntity hRefused
    refine iff_of_true ⟨fun hRes => absurd hRes hUnchanged.2, fun _ => hUnchanged⟩ ?_
    exact fun hAccepted => absurd hAccepted hRefused

/-- Below a collection with room for two instances, the first instance is extended as the collection
itself is. -/
theorem not_keepsToTarget_instance (hEntity : entity ≠ .system) {objectName : Text} {param : Parameter}
    (hParam : dm.getParameter objectName = some param) (hNode : isNodeName objectName = true)
    (hLength : 1 < objectName.length) (hWritable : param.writable = true)
    (hMode : param.storageMode = .dmOnly) (hRoom : param.counter + 1 < Parameter.maxCounter)
    (hProto : objectName ++ ['.'] ∉ dm.names) (answer answer' : Int × Nat) :
    ¬ (addObject (child '.' objectName (param.counter + 1)) answer').KeepsToTarget dmPrefix entity
      ((addObject objectName answer).apply dmPrefix entity dm).1 := by
  obtain rfl := DataModel.name_of_getParameter hParam
  have hCount : param.countInstance.counter = param.counter + 1 :=
    Parameter.counter_countInstance (by omega)
  have hName : param.isNode = true := hNode
  have hNoRoom : ¬ param.counter ≥ Parameter.maxCounter := by omega
  have hApply : ((addObject param.name answer).apply dmPrefix entity dm).1 =
      ParameterManager.extend dmPrefix dm param.countInstance (param.counter + 1) := by
    simp [apply, ParameterManager.addObject, hParam, hName, hWritable, hMode, hNoRoom, hCount]
  have hFound := ParameterManager.getParameter_extend dmPrefix param.countInstance
    (param.counter + 1) hProto
  obtain ⟨definition, hEq⟩ := exists_relocateParameter_eq dmPrefix param.countInstance.name
    (param.counter + 1) (newInstanceParameter (child '.' param.countInstance.name (param.counter + 1))
      (param.countInstance.updateValue none true))
  rw [keepsToTarget_iff hEntity, hApply]
  intro hForm
  have hInstance : isNodeInstance (child '.' param.name (param.counter + 1)) = false := by
    refine hForm ⟨_, hFound, ?_⟩
    rw [hEq]
    refine ⟨isNodeName_of_isInner isInner_child, hWritable, (if_pos hMode).mpr ?_⟩
    simp only [newInstanceParameter, Parameter.counter]
    split
    · decide
    · exact hCount.trans_lt hRoom
  rw [isNodeInstance_child hNode hLength] at hInstance
  cases hInstance

/-- Calls that are refused with another answer than that the device does not know the instance leave the
data model as it is. -/
theorem unchanged_of_fault {call : ObjectCall} (hRes : (call.apply dmPrefix entity dm).2.res ≠ 0)
    (hKnown : (call.apply dmPrefix entity dm).2.res ≠ Fault.invalidParameterName) :
    (call.apply dmPrefix entity dm).1 = dm := by
  cases call with
  | addObject objectName answer =>
    simp only [apply, ParameterManager.addObject] at hRes ⊢
    cases hParam : dm.getParameter objectName with
    | none => rfl
    | some param =>
      simp only [hParam] at hRes
      grind
  | deleteObject objectName answer =>
    simp only [apply, ParameterManager.deleteObject] at hRes hKnown ⊢
    grind

/-- Along any calls, each keeps to its target if and only if each has a name of the right form or is
refused. -/
theorem keepsToTarget_along_iff (dmPrefix : Text) {entity : EntityType} (hEntity : entity ≠ .system)
    (dm : DataModel) (calls : List ObjectCall) :
    Along (step dmPrefix entity) (KeepsToTarget dmPrefix entity) dm calls ↔
      Along (step dmPrefix entity) FormChecked dm calls :=
  along_congr fun _ _ => keepsToTarget_iff hEntity

/-- A node or a leaf of a sample data model. -/
def sampleNode (name : Text) (writable : Bool) : Parameter where
  name
  type := .any
  minValue := 0
  maxValue := -1
  storageMode := .dmOnly
  writable
  immediateChanges := 0
  accessList := none
  notification := .off
  mandatoryNotification := false
  activeNotificationDenied := false
  loadingMode := 0
  state := .initial
  backValue := none
  value := none
  configKey := none
  definition := none

def sampleModel : DataModel :=
  [sampleNode "Device.".toList false, sampleNode "Device.Host.".toList true,
    sampleNode "Device.Host..Name".toList true]

/-- Two instances are added and the first is deleted. -/
theorem keepsToTarget_sampleModel :
    Along (step "Device.".toList .acs) (KeepsToTarget "Device.".toList .acs) sampleModel
      [addObject "Device.Host.".toList (0, 0), addObject "Device.Host.".toList (0, 0),
        deleteObject "Device.Host.1.".toList 0] :=
  (keepsToTarget_along_iff "Device.".toList (by decide) sampleModel _).mpr (by decide +kernel)

/-- The first instance is extended itself, and the extension gives the instance an instance. -/
theorem instance_extended :
    ¬ Along (step "Device.".toList .acs) (KeepsToTarget "Device.".toList .acs) sampleModel
      [addObject "Device.Host.".toList (0, 0), addObject "Device.Host.1.".toList (0, 0)] := by
  decide +kernel

end ObjectCall

end Calls

end Tr069Agent.Engine
