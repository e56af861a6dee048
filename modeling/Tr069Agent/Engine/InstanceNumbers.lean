import Tr069Agent.Data.ParameterRoundTrip
import Tr069Agent.Engine.InstanceCounters

/-! # The numbers of new instances

AddObject numbers the instances of a collection by its counter. Instances also come by name, from
updates of the system, and with numbers of the device, and a reload takes the counters from the file.
-/

namespace Tr069Agent.Engine

open Library Library.NumberedNames Library.Transition Data

set_option autoImplicit false

section Updates

variable (dmPrefix : Text) (past : List Text)

/-- Every instance that `_getParameter` makes fits. -/
def CreationsFit : Nat → DataModel → Text → Prop
  | 0, _, _ => True
  | iterations + 1, dm, paramName =>
    dm.getParameter paramName = none →
      ∀ found ∈ findInstance dm paramName.length paramName.reverse [],
        ∀ param ∈ dm.getParameter found.1,
          InstanceFits past dm param found.2 ∧
            CreationsFit iterations (addInstance dmPrefix dm param found.2) paramName

instance decidableCreationsFit :
    ∀ (iterations : Nat) (dm : DataModel) (paramName : Text),
      Decidable (CreationsFit dmPrefix past iterations dm paramName)
  | 0, _, _ => isTrue trivial
  | iterations + 1, dm, paramName =>
    have := fun dm => decidableCreationsFit iterations dm paramName
    inferInstanceAs (Decidable (_ → ∀ found ∈ findInstance dm paramName.length paramName.reverse [],
      ∀ param ∈ dm.getParameter found.1, _ ∧ CreationsFit dmPrefix past iterations _ paramName))

/-- The instances that an update of the values makes fit. -/
def ValuesFit (dm : DataModel) : List (Text × Option Text) → Prop
  | [] => True
  | (name, value) :: paramList =>
    if isNodeName name then
      Along (fun dm entry => some (updateEntry dmPrefix true dm entry))
        (fun dm entry => CreationsFit dmPrefix past 5 dm entry.1) dm paramList
    else ValuesFit (dm.modify name (.updateSystemValue value true)) paramList

instance decidableValuesFit :
    ∀ (dm : DataModel) (paramList : List (Text × Option Text)), Decidable (ValuesFit dmPrefix past dm paramList)
  | _, [] => isTrue trivial
  | dm, (name, value) :: paramList =>
    have := decidableValuesFit (dm.modify name (.updateSystemValue value true)) paramList
    inferInstanceAs (Decidable (if isNodeName name then
      Along (fun dm entry => some (updateEntry dmPrefix true dm entry))
        (fun dm entry => CreationsFit dmPrefix past 5 dm entry.1) dm paramList
      else ValuesFit dmPrefix past (dm.modify name (.updateSystemValue value true)) paramList))

/-- The instances that an update of the names makes fit. -/
def NamesFit (dm : DataModel) (names : List Text) : Prop :=
  Along (fun dm paramName => some (getParameterOrCreate dmPrefix dm paramName).1)
    (CreationsFit dmPrefix past 5) dm names

instance (dm : DataModel) (names : List Text) : Decidable (NamesFit dmPrefix past dm names) :=
  inferInstanceAs (Decidable (Along _ _ dm names))

variable {dmPrefix past} {dm : DataModel}

theorem counted_getParameterFrom {iterations : Nat} {paramName : Text} (hCounted : Counted past dm)
    (hFit : CreationsFit dmPrefix past iterations dm paramName) :
    Counted past (getParameterFrom dmPrefix iterations dm paramName).1 := by
  induction iterations generalizing dm with
  | zero => exact hCounted
  | succ iterations ih =>
    rw [getParameterFrom]
    split
    · exact hCounted
    · rename_i hMissing
      have hNone : dm.getParameter paramName = none := by simpa using hMissing
      split
      · exact hCounted
      · rename_i proto instanceNb hFound
        split
        · exact hCounted
        · rename_i param hParam
          obtain ⟨hFits, hRest⟩ := hFit hNone (proto, instanceNb) hFound param hParam
          obtain rfl := DataModel.name_of_getParameter hParam
          exact ih (counted_addInstance dmPrefix hCounted (isInner_of_findInstance hFound) hParam hFits) hRest

theorem continues_markLoadedWith (withValues : Bool) (param : Parameter) :
    param.Continues (param.markLoadedWith withValues) := by
  cases withValues with
  | true => exact .of_eq rfl rfl rfl rfl
  | false =>
    simp only [Parameter.markLoadedWith, Bool.false_eq_true, if_false, Parameter.markLoaded]
    split
    · exact .of_eq rfl rfl rfl rfl
    · exact .refl param

theorem continues_markUntilObsolete (name : Text) (names : List Text) (withValues : Bool) (dm : DataModel) :
    List.Forall₂ Parameter.Continues dm (markUntilObsolete name names withValues dm).1 := by
  induction dm with
  | nil => exact .nil
  | cons param rest ih =>
    rw [markUntilObsolete]
    split
    · exact .cons (continues_markLoadedWith withValues param) ih
    · split
      · exact List.forall₂_same.mpr fun p _ => .refl p
      · exact .cons (.refl param) ih

theorem shrinks_markInstancesLoadedFrom (name : Text) (names : List Text) (withValues : Bool) (scans : Nat) :
    Shrinks dm (markInstancesLoadedFrom name names withValues scans dm) := by
  induction scans generalizing dm with
  | zero => exact .refl dm
  | succ scans ih =>
    have hMarked := shrinks_of_forall₂ (continues_markUntilObsolete name names withValues dm)
    rw [markInstancesLoadedFrom]
    split
    · rename_i hScan
      rwa [hScan] at hMarked
    · rename_i obsolete hScan
      rw [hScan] at hMarked
      exact (hMarked.trans (shrinks_deleteObject obsolete)).trans ih

theorem shrinks_deleteObsoleteFrom (name : Text) (names : List Text) (scans : Nat) :
    Shrinks dm (deleteObsoleteFrom name names scans dm) := by
  induction scans generalizing dm with
  | zero => exact .refl dm
  | succ scans ih =>
    rw [deleteObsoleteFrom]
    split
    · exact .refl dm
    · rename_i obsolete _
      exact (shrinks_deleteObject obsolete).trans ih

theorem counted_updateEntry {pushedObject : Bool} {entry : Text × Option Text} (hCounted : Counted past dm)
    (hFit : CreationsFit dmPrefix past 5 dm entry.1) :
    Counted past (updateEntry dmPrefix pushedObject dm entry) := by
  have hCreated := counted_getParameterFrom hCounted hFit
  rw [updateEntry, getParameterOrCreate]
  split
  · rename_i hFound
    rw [hFound] at hCreated
    exact hCreated.shrinks (shrinks_updateValue entry.1 _ pushedObject)
  · rename_i hFound
    rwa [hFound] at hCreated

theorem counted_updateParameterValues {paramList : List (Text × Option Text)} {dm' : DataModel}
    (hCounted : Counted past dm) (hFit : ValuesFit dmPrefix past dm paramList)
    (h : updateParameterValues dmPrefix dm paramList = some dm') : Counted past dm' := by
  induction paramList generalizing dm with
  | nil =>
    obtain rfl := Option.some.inj h
    exact hCounted
  | cons entry paramList ih =>
    obtain ⟨name, value⟩ := entry
    rw [updateParameterValues] at h
    rw [ValuesFit] at hFit
    split at h
    · rename_i hNode
      rw [if_pos hNode] at hFit
      have hEntries : Counted past (paramList.foldl (updateEntry dmPrefix true) dm) :=
        foldl_of_along (fun _ _ => counted_updateEntry) hCounted hFit
      have hUpdated : Counted past (updateObject dmPrefix name paramList true dm) :=
        hEntries.shrinks (shrinks_markInstancesLoadedFrom name _ true _)
      dsimp only at h
      split at h
      · obtain rfl := Option.some.inj h
        exact hUpdated.shrinks (shrinks_updateValue name none true)
      · cases h
    · rename_i hLeaf
      rw [if_neg hLeaf] at hFit
      exact ih (hCounted.shrinks (shrinks_updateValue name _ true)) hFit h

theorem counted_updateParameterNames {name : Text} {names : List Text} (hCounted : Counted past dm)
    (hFit : NamesFit dmPrefix past dm names) : Counted past (updateParameterNames dmPrefix dm name names) := by
  have hCreated : Counted past
      (names.foldl (fun dm paramName => (getParameterOrCreate dmPrefix dm paramName).1) dm) :=
    foldl_of_along (f := fun dm paramName => (getParameterOrCreate dmPrefix dm paramName).1)
      (fun _ _ => counted_getParameterFrom) hCounted hFit
  exact hCreated.shrinks (shrinks_deleteObsoleteFrom name names _)

end Updates

section Reload

variable {dmPrefix : Text} {param : Parameter} {dm : DataModel}

/-- The line of the parameter is read back, no number of another mode becomes that of a collection of the data
model, and the type of a collection carries its counter. -/
structure Reloadable (dmPrefix : Text) (param : Parameter) : Prop where
  form : ParameterWellFormed dmPrefix param
  readable : ReadableParameter dmPrefix param
  mode : (reread param).storageMode = .dmOnly → param.storageMode = .dmOnly
  counter : param.isNode → param.storageMode = .dmOnly → param.writable →
    param.type.Bounded param.minValue param.maxValue

instance (param : Parameter) : Decidable (Reloadable dmPrefix param) :=
  decidable_of_iff
    ((dmPrefix <+: param.name ∧ (∀ text ∈ freeTexts param, IsAscii (text.getD [])) ∧ InInt param.minValue ∧
        InInt param.maxValue ∧ (parameterLine dmPrefix param).length + 1 < maxLineLen) ∧
      (IsField (param.name.drop dmPrefix.length) ∧
        (∀ items ∈ param.accessList, ∀ item ∈ items, ',' ∉ item ∧ IsField item) ∧
        (param.name.drop dmPrefix.length).head? ≠ some '#' ∧
        (param.name.drop dmPrefix.length).head? ≠ some '*') ∧
      ((reread param).storageMode = .dmOnly → param.storageMode = .dmOnly) ∧
      (param.isNode → param.storageMode = .dmOnly → param.writable →
        param.type.Bounded param.minValue param.maxValue))
    ⟨fun ⟨⟨hName, hAscii, hMin, hMax, hLength⟩, ⟨hField, hList, hComment, hCrc⟩, hMode, hCounter⟩ =>
      ⟨⟨hName, hAscii, hMin, hMax, hLength⟩, ⟨⟨hField, hList⟩, hComment, hCrc⟩, hMode, hCounter⟩,
    fun ⟨⟨hName, hAscii, hMin, hMax, hLength⟩, ⟨⟨hField, hList⟩, hComment, hCrc⟩, hMode, hCounter⟩ =>
      ⟨⟨hName, hAscii, hMin, hMax, hLength⟩, ⟨hField, hList, hComment, hCrc⟩, hMode, hCounter⟩⟩

theorem continues_reread (h : Reloadable dmPrefix param) : param.Continues (reread param) := by
  refine ⟨rfl, fun hGrows => ?_⟩
  -- nothing but the bounds of what is asked here goes through the text of the type
  have hSplit : ((param.isNode && (reread param).storageMode = .dmOnly && param.writable) &&
      decide ((reread param).counter < Parameter.maxCounter)) = true := hGrows
  simp only [Bool.and_eq_true, decide_eq_true_eq] at hSplit
  obtain ⟨⟨⟨hNode, hStored⟩, hWritable⟩, hRoom⟩ := hSplit
  have hMode := h.mode hStored
  have hType := (ParameterType.stringToType_typeToString h.form.minValue h.form.maxValue).mpr
    (h.counter hNode hMode hWritable)
  rw [ParameterType.stringToType_eq_bounds, Option.some.injEq, Prod.mk.injEq] at hType
  have hMin : (reread param).minValue = param.minValue := congrArg Prod.fst hType.2
  have hCounter : (reread param).counter = param.counter := by rw [Parameter.counter, hMin, Parameter.counter]
  refine ⟨?_, hCounter.ge⟩
  rw [hCounter] at hRoom
  simp [Parameter.grows, hNode, hMode, hWritable, hRoom]

/-- The data model is saved and read again from the file. -/
def reload (dmPrefix : Text) (dm : DataModel) : Option DataModel :=
  match readFileParameters dmPrefix false (writeParameters dmPrefix dm) with
  | some (0, parameters) => some parameters
  | _ => none

theorem shrinks_reload {dm' : DataModel} (hReload : ∀ param ∈ dm, Reloadable dmPrefix param)
    (h : reload dmPrefix dm = some dm') : Shrinks dm dm' := by
  rw [reload, reload_readableParameters (fun param hMem => (hReload param hMem).form)
    fun param hMem => (hReload param hMem).readable] at h
  obtain rfl := Option.some.inj h
  exact shrinks_map fun param hMem => continues_reread (hReload param hMem)

end Reload

section Run

/-- The data model, and the numbers that AddObject returned for its collections, the last one first. -/
structure Numbering where
  dm : DataModel
  returned : List (Text × Nat)

inductive NumberingEvent where
  | addObject (entity : EntityType) (objectName : Text) (answer : Int × Nat)
  | deleteObject (entity : EntityType) (objectName : Text) (answer : Int)
  | updateParameterValues (paramList : List (Text × Option Text))
  | updateParameterNames (name : Text) (names : List Text)
  | reload

namespace Numbering

variable (dmPrefix : Text)

def past (s : Numbering) : List Text := s.returned.map fun entry => child '.' entry.1 entry.2

def isDmOnly (s : Numbering) (objectName : Text) : Bool :=
  (s.dm.getParameter objectName).any (·.storageMode = .dmOnly)

/-- The state after AddObject, by its result. -/
def record (s : Numbering) (objectName : Text) (result : DataModel × Reply) : Numbering where
  dm := result.1
  returned := (if s.isDmOnly objectName then result.2.instanceNumber.toList else []).map (objectName, ·) ++ s.returned

def step (s : Numbering) : NumberingEvent → Option Numbering
  | .addObject entity objectName answer =>
    some (s.record objectName (ParameterManager.addObject dmPrefix entity s.dm objectName answer))
  | .deleteObject entity objectName answer =>
    some { s with dm := (ParameterManager.deleteObject entity s.dm objectName answer).1 }
  | .updateParameterValues paramList =>
    (Engine.updateParameterValues dmPrefix s.dm paramList).map ({ s with dm := · })
  | .updateParameterNames name names =>
    some { s with dm := Engine.updateParameterNames dmPrefix s.dm name names }
  | .reload => (Engine.reload dmPrefix s.dm).map ({ s with dm := · })

/-- A number that AddObject returns for a DM_ONLY collection belongs to no parameter, and is above the
numbers that were returned for the collection before. -/
def NumberFresh (s : Numbering) : NumberingEvent → Prop
  | .addObject entity objectName answer =>
    s.isDmOnly objectName →
      ∀ n ∈ (ParameterManager.addObject dmPrefix entity s.dm objectName answer).2.instanceNumber,
        (∀ name ∈ s.dm.names, ¬ child '.' objectName n <+: name) ∧
          ∀ entry ∈ s.returned, entry.1 = objectName → entry.2 < n
  | _ => True

/-- What a step must respect: the copies of a new instance count each other, an instance that is not
numbered by its collection fits, and a reload brings back the counters. -/
def Orderly (s : Numbering) : NumberingEvent → Prop
  | .addObject entity objectName answer =>
    ∀ param ∈ s.dm.getParameter objectName, param.isNode → param.writable →
      if param.storageMode = .dmOnly then
        param.counter < Parameter.maxCounter → CopiesCounted s.dm param.countInstance (param.counter + 1)
      else entity ≠ .system → answer.1 = 0 → InstanceFits s.past s.dm param answer.2
  | .deleteObject _ _ _ => True
  | .updateParameterValues paramList => ValuesFit dmPrefix s.past s.dm paramList
  | .updateParameterNames _ names => NamesFit dmPrefix s.past s.dm names
  | .reload => ∀ param ∈ s.dm, Reloadable dmPrefix param

instance (s : Numbering) (event : NumberingEvent) : Decidable (s.Orderly dmPrefix event) := by
  cases event with
  | addObject entity objectName answer =>
    exact inferInstanceAs (Decidable (∀ param ∈ s.dm.getParameter objectName, param.isNode → param.writable →
      if param.storageMode = .dmOnly then
        param.counter < Parameter.maxCounter → CopiesCounted s.dm param.countInstance (param.counter + 1)
      else entity ≠ .system → answer.1 = 0 → InstanceFits s.past s.dm param answer.2))
  | deleteObject => exact isTrue trivial
  | updateParameterValues paramList => exact inferInstanceAs (Decidable (ValuesFit _ _ _ _))
  | updateParameterNames name names => exact inferInstanceAs (Decidable (NamesFit _ _ _ _))
  | reload => exact inferInstanceAs (Decidable (∀ param ∈ s.dm, _))

instance (s : Numbering) (event : NumberingEvent) : Decidable (s.NumberFresh dmPrefix event) := by
  cases event with
  | addObject entity objectName answer =>
    exact inferInstanceAs (Decidable (_ → ∀ n ∈ Reply.instanceNumber _, _))
  | deleteObject | updateParameterValues | updateParameterNames | reload => exact isTrue trivial

def Inv (s : Numbering) : Prop := Counted s.past s.dm

variable {dmPrefix} {s s' : Numbering}

theorem grows_of_isDmOnly {param : Parameter} (hNode : param.isNode = true) (hWritable : param.writable = true)
    (hMode : param.storageMode = .dmOnly) (hRoom : param.counter < Parameter.maxCounter) : param.grows = true := by
  simp [Parameter.grows, hNode, hWritable, hMode, hRoom]

theorem numberFresh_of_inv (hInv : s.Inv) (event : NumberingEvent) : s.NumberFresh dmPrefix event := by
  cases event with
  | addObject entity objectName answer =>
    intro hDmOnly n hNumber
    obtain ⟨-, hNone⟩ | ⟨param, hParam, hNode, hWritable, hCollection | hDevice⟩ :=
      ParameterManager.addObject_cases dmPrefix entity s.dm objectName answer
    · rw [hNone] at hNumber
      cases hNumber
    · obtain ⟨hMode, hRoom, -, hReply⟩ := hCollection
      obtain rfl : param.counter + 1 = n := by rwa [hReply, Option.mem_some_iff] at hNumber
      obtain rfl := DataModel.name_of_getParameter hParam
      have hGrows := grows_of_isDmOnly hNode hWritable hMode hRoom
      refine ⟨fun name hName => ?_, fun entry hEntry hSame => ?_⟩
      · exact next_absent hInv hParam hGrows (List.mem_append_left _ hName)
      · -- the instance that was returned is counted
        have hPast : child '.' entry.1 entry.2 ∈ s.dm.names ++ s.past :=
          List.mem_append_right _ (List.mem_map.mpr ⟨entry, hEntry, rfl⟩)
        have hLe := Parameter.counts_iff.mp (hInv param.name param hParam) hGrows _ hPast entry.2
          (hSame ▸ List.prefix_refl _)
        omega
    · simp [isDmOnly, hParam, hDevice.1] at hDmOnly
  | deleteObject | updateParameterValues | updateParameterNames | reload => trivial

theorem inv_addObject {entity : EntityType} {objectName : Text} {answer : Int × Nat} (hInv : s.Inv)
    (hOrderly : s.Orderly dmPrefix (.addObject entity objectName answer))
    (h : s.step dmPrefix (.addObject entity objectName answer) = some s') : s'.Inv := by
  obtain rfl := Option.some.inj h
  obtain ⟨hSame, hNone⟩ | ⟨param, hParam, hNode, hWritable, hCollection | hDevice⟩ :=
    ParameterManager.addObject_cases dmPrefix entity s.dm objectName answer
  · simp only [Inv, past, record, hSame, hNone, Option.toList_none, ite_self, List.map_nil, List.nil_append]
    exact hInv
  · obtain ⟨hMode, hRoom, hExtend, hReply⟩ := hCollection
    obtain rfl := DataModel.name_of_getParameter hParam
    have hGrows := grows_of_isDmOnly hNode hWritable hMode hRoom
    have hCopies : CopiesCounted s.dm param.countInstance (param.counter + 1) := by
      have hBranch := hOrderly param hParam hNode hWritable
      rw [if_pos hMode] at hBranch
      exact hBranch hRoom
    have hDmOnly : s.isDmOnly param.name = true := by simp [isDmOnly, hParam, hMode]
    simp only [Inv, past, record, hExtend, hReply, hDmOnly, if_true, Option.toList_some, List.map_cons, List.map_nil,
      List.singleton_append]
    have hInner : IsInner '.' param.countInstance.name :=
      show IsInner '.' param.name from Parameter.isInner_of_grows hGrows
    refine counted_extend dmPrefix hInner ?_
      (counted_next hInv hParam hGrows hRoom) (instanceFits_next hInv hParam hGrows hRoom hCopies)
    exact Option.isSome_iff_exists.mpr ⟨param, hParam⟩
  · obtain ⟨hMode, hEntity, hAnswer, hExtend, -⟩ := hDevice
    obtain rfl := DataModel.name_of_getParameter hParam
    have hFits : InstanceFits s.past s.dm param answer.2 := by
      have hBranch := hOrderly param hParam hNode hWritable
      rw [if_neg hMode] at hBranch
      exact hBranch hEntity hAnswer
    have hDmOnly : s.isDmOnly param.name = false := by simp [isDmOnly, hParam, hMode]
    have hInner : IsInner '.' param.name := by simpa [Parameter.isNode, isNodeName, IsInner] using hNode
    simp only [Inv, past, record, hExtend, hDmOnly, Bool.false_eq_true, if_false, List.map_nil, List.nil_append]
    refine counted_extend dmPrefix hInner (Option.isSome_iff_exists.mpr ⟨param, hParam⟩) ?_ hFits
    refine Counted.shrinks hInv (shrinks_modify (fun _ _ => rfl) fun p hFound => ?_)
    obtain rfl : param = p := by rwa [hParam, Option.mem_some_iff] at hFound
    exact continues_updateValue param none true

theorem shrinks_deleteObject (entity : EntityType) (dm : DataModel) (objectName : Text) (answer : Int) :
    Shrinks dm (ParameterManager.deleteObject entity dm objectName answer).1 := by
  have hDelete (protoName : Text) :
      Shrinks dm ((dm.modify protoName (·.updateValue none true)).deleteObject objectName) :=
    (shrinks_updateValue protoName none true).trans (Engine.shrinks_deleteObject objectName)
  simp only [ParameterManager.deleteObject]
  grind [Shrinks.refl]

theorem inv_step {event : NumberingEvent} (hInv : s.Inv) (hOrderly : s.Orderly dmPrefix event)
    (h : s.step dmPrefix event = some s') : s'.Inv := by
  cases event with
  | addObject entity objectName answer => exact inv_addObject hInv hOrderly h
  | deleteObject entity objectName answer =>
    obtain rfl := Option.some.inj h
    exact Counted.shrinks hInv (shrinks_deleteObject entity s.dm objectName answer)
  | updateParameterValues paramList =>
    obtain ⟨dm, hUpdate, rfl⟩ := Option.map_eq_some_iff.mp h
    exact counted_updateParameterValues hInv hOrderly hUpdate
  | updateParameterNames name names =>
    obtain rfl := Option.some.inj h
    exact counted_updateParameterNames hInv hOrderly
  | reload =>
    obtain ⟨dm, hReload, rfl⟩ := Option.map_eq_some_iff.mp h
    exact Counted.shrinks hInv (shrinks_reload hOrderly hReload)

/-- In a run whose steps are orderly, from a data model whose collections count their instances, every
number that AddObject returns is fresh. -/
theorem numbers_fresh_of_orderly (dmPrefix : Text) (dm : DataModel) (events : List NumberingEvent)
    (hCounted : Counted [] dm) (hOrderly : Along (step dmPrefix) (Orderly dmPrefix) ⟨dm, []⟩ events) :
    Along (step dmPrefix) (NumberFresh dmPrefix) ⟨dm, []⟩ events :=
  along_of_along (fun _ event hInv _ => numberFresh_of_inv hInv event) (fun _ _ _ => inv_step) hCounted hOrderly

/-- Hosts with ports, both numbered by the agent, and radios that the system numbers. There has been one
host before. -/
def hostsModel : DataModel :=
  [ObjectCall.sampleNode "Device.".toList false,
    { ObjectCall.sampleNode "Device.Host.".toList true with minValue := 1 },
    ObjectCall.sampleNode "Device.Host..Name".toList true,
    ObjectCall.sampleNode "Device.Host..Port.".toList true,
    { ObjectCall.sampleNode "Device.Radio.".toList true with storageMode := .systemOnly },
    { ObjectCall.sampleNode "Device.Radio..Name".toList true with storageMode := .systemOnly }]

/-- A host with a port, two radios that the system names, and a second host. -/
def hostsRun : List NumberingEvent :=
  [.addObject .acs "Device.Host.".toList (0, 0), .addObject .acs "Device.Host.2.Port.".toList (0, 0),
    .updateParameterValues [("Device.Radio.".toList, none), ("Device.Radio.2.Name".toList, some "a".toList)],
    .updateParameterNames "Device.Radio.".toList ["Device.Radio.3.Name".toList],
    .deleteObject .acs "Device.Host.2.".toList 0, .addObject .acs "Device.Host.".toList (0, 0)]

theorem reload_hostsModel : Engine.reload "Device.".toList hostsModel = some hostsModel := by
  have hReload : ∀ param ∈ hostsModel, Reloadable "Device.".toList param := by decide +kernel
  rw [Engine.reload, reload_readableParameters (fun param hMem => (hReload param hMem).form)
    fun param hMem => (hReload param hMem).readable]
  decide +kernel

/-- The run follows on a reload. -/
theorem orderly_hostsRun :
    Along (step "Device.".toList) (Orderly "Device.".toList) ⟨hostsModel, []⟩ (.reload :: hostsRun) := by
  refine ⟨by decide +kernel, fun s hs => ?_⟩
  rw [Option.mem_def, step, reload_hostsModel] at hs
  obtain rfl := Option.some.inj hs
  decide +kernel

theorem numbers_fresh_hostsRun :
    Along (step "Device.".toList) (NumberFresh "Device.".toList) ⟨hostsModel, []⟩ (.reload :: hostsRun) :=
  numbers_fresh_of_orderly "Device.".toList hostsModel (.reload :: hostsRun) (by decide +kernel) orderly_hostsRun

/-- The system names a host that the counter does not know. -/
theorem number_of_named_instance_returned :
    ¬ Along (step "Device.".toList) (NumberFresh "Device.".toList) ⟨hostsModel, []⟩
      [.updateParameterValues [("Device.Host.".toList, none), ("Device.Host.2.Name".toList, some "a".toList)],
        .addObject .acs "Device.Host.".toList (0, 0)] := by
  decide +kernel

end Numbering

end Run

end Tr069Agent.Engine
