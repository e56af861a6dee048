import Mathlib.Data.List.Nodup
import Tr069Agent.Engine.Objects
import Tr069Agent.Engine.StorePreservation
import Tr069Agent.Engine.SystemUpdates
import Tr069Agent.Library.Transition

/-! # The names of the store are unique

Some operations replace the parameter of a name and others append one, after they have looked for the name.
-/

namespace Tr069Agent.Engine

open Library Library.Transition DataModelConfiguration

set_option autoImplicit false

/-- `_createParameter`, where only the last key of a list is given to a parameter that is there. -/
def createParameter (dmPrefix newName destName : Text) (type : ParameterType) (args configKey : Option Text)
    (dm : DataModel) : DataModel :=
  let longName := getLongName dmPrefix newName destName
  if (dm.getParameter longName).isSome then
    match configKey with
    | none => dm
    | some configKey =>
      dm.modify longName (·.addConfigKey (configKey.reverse.takeWhile (· ≠ ',')).reverse)
  else dm ++ [{ newDefinedParameter longName type args true with configKey }]

/-- The operations that put parameters into the store or take them out. -/
inductive StoreOperation where
  | createInstance (param : Parameter) (instanceNumber : Nat)
  | putParameter (param : Parameter)
  | getParameter (paramName : Text)
  | createParameter (newName destName : Text) (type : ParameterType) (args configKey : Option Text)
  | processDefinition (files : Files) (limit depth : Nat) (rootName : Option Text) (overwrite : Bool)
      (configKey : Text) (nodeDef : XmlNode)
  | deleteParameters (name : Text) (configKey : Option Text)
  | deleteObject (objectName : Text)

def StoreOperation.step (dmPrefix : Text) (dm : DataModel) : StoreOperation → Option DataModel
  | .createInstance param instanceNumber => some (Engine.createInstance dm param instanceNumber)
  | .putParameter param => some (dm.putParameter param)
  | .getParameter paramName => some (getParameterOrCreate dmPrefix dm paramName).1
  | .createParameter newName destName type args configKey =>
    some (Engine.createParameter dmPrefix newName destName type args configKey dm)
  | .processDefinition files limit depth rootName overwrite configKey nodeDef =>
    ((DataModelConfiguration.processDefinition dmPrefix limit rootName overwrite configKey nodeDef dm).run.runM
      (processPattern dmPrefix files limit depth)).join.map Prod.snd
  | .deleteParameters name configKey => some (dm.deleteParameters name configKey).1
  | .deleteObject objectName => some (dm.deleteObject objectName)

def DataModel.Unique (dm : DataModel) : Prop := dm.names.Nodup

namespace DataModel.Unique

variable {dm dm' : DataModel} {param : Parameter}

theorem append (h : dm.Unique) (hNew : param.name ∉ dm.names) : DataModel.Unique (dm ++ [param]) := by
  rw [DataModel.Unique, DataModel.names, List.map_append]
  exact List.Nodup.append h (List.nodup_singleton _) (List.disjoint_singleton.mpr hNew)

theorem sublist (h : dm.Unique) (hNames : dm'.names.Sublist dm.names) : dm'.Unique := List.Nodup.sublist hNames h

theorem of_names_eq (h : dm.Unique) (hNames : dm'.names = dm.names) : dm'.Unique :=
  h.sublist (hNames ▸ List.Sublist.refl _)

theorem putParameter (h : dm.Unique) (param : Parameter) : (dm.putParameter param).Unique := by
  unfold DataModel.putParameter
  split
  · exact h.of_names_eq (names_modify fun _ _ => rfl)
  · rename_i hNew
    exact h.append hNew

theorem putAll (h : dm.Unique) (params : List Parameter) : DataModel.Unique (params.foldl .putParameter dm) := by
  induction params generalizing dm with
  | nil => exact h
  | cons param params ih => exact ih (h.putParameter param)

theorem addInstance (h : dm.Unique) (dmPrefix : Text) (param : Parameter) (instanceNb : Nat) :
    (addInstance dmPrefix dm param instanceNb).Unique :=
  (h.putAll (instanceParameters dm param instanceNb)).of_names_eq
    (names_map (name_relocateParameter dmPrefix param.name instanceNb))

theorem getParameterFrom (h : dm.Unique) (dmPrefix : Text) (iterations : Nat) (paramName : Text) :
    (getParameterFrom dmPrefix iterations dm paramName).1.Unique := by
  induction iterations generalizing dm with
  | zero => exact h
  | succ iterations ih =>
    unfold Engine.getParameterFrom
    split
    · exact h
    · split
      · exact h
      · split
        · exact h
        · exact ih (h.addInstance dmPrefix _ _)

theorem not_mem_of_getParameter {name : Text} (h : dm.getParameter name = none) : name ∉ dm.names := by
  intro hMem
  obtain ⟨param, hParam, hName⟩ := List.mem_map.mp hMem
  simpa [hName] using List.find?_eq_none.mp h param hParam

theorem createParameter (h : dm.Unique) (dmPrefix newName destName : Text) (type : ParameterType)
    (args configKey : Option Text) :
    (createParameter dmPrefix newName destName type args configKey dm).Unique := by
  simp only [Engine.createParameter]
  split
  · split
    · exact h
    · exact h.of_names_eq (names_modify fun p hName => by rw [name_addConfigKey, hName])
  · rename_i hNone
    exact h.append (not_mem_of_getParameter (Option.not_isSome_iff_eq_none.mp hNone))

theorem ensureNode (h : dm.Unique) (configKey name : Text) :
    (DataModelConfiguration.ensureNode configKey dm name).Unique := by
  unfold DataModelConfiguration.ensureNode
  split
  · exact h.of_names_eq (names_modify fun p hName => by rw [name_addConfigKey, hName])
  · rename_i hNone
    exact h.append (not_mem_of_getParameter (Option.not_isSome_iff_eq_none.mp hNone))

theorem ensureNodes (h : dm.Unique) (configKey : Text) (nodes : List Text) :
    DataModel.Unique (nodes.foldl (DataModelConfiguration.ensureNode configKey) dm) := by
  induction nodes generalizing dm with
  | nil => exact h
  | cons name nodes ih => exact ih (h.ensureNode configKey name)

/-- The nodes above a parameter are shorter than it, so that none of them takes its name. -/
theorem define {dmPrefix longName configKey : Text} {d : Definition} {definition pattern left : Option Text}
    (h : dm.Unique) (hDefine : defineParameter dmPrefix d longName configKey definition pattern dm = some (dm', left)) :
    dm'.Unique := by
  obtain ⟨param, hName, ⟨hNone, -, rfl⟩ | ⟨prm, -, -, rfl⟩⟩ := defineParameter_eq hDefine
  · refine (h.ensureNodes configKey _).append ?_
    rw [hName, mem_names_ensureNodes, not_or]
    exact ⟨not_mem_of_getParameter hNone, fun hMem => absurd (length_lt_of_mem_parentNames hMem) (lt_irrefl _)⟩
  · exact (h.of_names_eq (names_modify fun p _ => hName)).ensureNodes configKey _

theorem names_deleteParameters_sublist (dm : DataModel) (name : Text) (configKey : Option Text) :
    (dm.deleteParameters name configKey).1.names.Sublist dm.names := by
  induction dm with
  | nil => exact List.Sublist.refl _
  | cons prm rest ih =>
    obtain ⟨-, hSame⟩ | ⟨-, kept, hWithout, hKept⟩ := deleteParameters_cases prm rest name configKey
    · rw [hSame]
      exact ih.cons_cons prm.name
    · have hName : (kept.toList.map Parameter.name).Sublist [prm.name] := by
        obtain ⟨csl, -, rfl | ⟨left, rfl⟩⟩ := withoutConfigKey_cases hWithout
        · exact List.nil_sublist _
        · exact List.Sublist.refl _
      rw [hKept, names, List.map_append]
      refine hName.append ?_
      split
      · exact ih
      · exact List.Sublist.refl _

theorem deleteParameters (h : dm.Unique) (name : Text) (configKey : Option Text) :
    (dm.deleteParameters name configKey).1.Unique := h.sublist (names_deleteParameters_sublist dm name configKey)

theorem stable (dmPrefix : Text) : Stable dmPrefix DataModel.Unique where
  define := fun h hDefine => h.define hDefine
  delete := fun name configKey h => h.deleteParameters name configKey

theorem step (h : dm.Unique) {dmPrefix : Text} {op : StoreOperation} (hStep : op.step dmPrefix dm = some dm') :
    dm'.Unique := by
  cases op with
  | createInstance param instanceNumber =>
    obtain rfl := Option.some.inj hStep
    exact h.putAll _
  | putParameter param =>
    obtain rfl := Option.some.inj hStep
    exact h.putParameter param
  | getParameter paramName =>
    obtain rfl := Option.some.inj hStep
    exact h.getParameterFrom dmPrefix 5 paramName
  | createParameter newName destName type args configKey =>
    obtain rfl := Option.some.inj hStep
    exact h.createParameter dmPrefix newName destName type args configKey
  | processDefinition files limit depth rootName overwrite configKey nodeDef =>
    obtain ⟨⟨res, store⟩, hRun, rfl⟩ := Option.map_eq_some_iff.mp hStep
    exact keep_of_run (stable dmPrefix) (keeps_processDefinition (stable dmPrefix) _ _ _ _ _ h) hRun
  | deleteParameters name configKey =>
    obtain rfl := Option.some.inj hStep
    exact h.deleteParameters name configKey
  | deleteObject objectName =>
    obtain rfl := Option.some.inj hStep
    exact h.sublist (List.filter_sublist.map _)

end DataModel.Unique

/-- From a store with unique names, the operations leave stores with unique names in any order and number. -/
theorem names_stay_unique (dmPrefix : Text) {dm : DataModel} (h : dm.Unique) (operations : List StoreOperation) :
    Throughout (StoreOperation.step dmPrefix) DataModel.Unique dm operations :=
  throughout_of_step (fun _ _ _ h hStep => h.step hStep) h

instance (dm : DataModel) : Decidable dm.Unique := inferInstanceAs (Decidable dm.names.Nodup)

/-- An instance is asked for, defined further and deleted. -/
theorem names_stay_unique_sampleModel :
    Throughout (StoreOperation.step "Device.".toList) DataModel.Unique ObjectCall.sampleModel
      [.getParameter "Device.Host.1.Name".toList,
        .createParameter ".Port".toList "Device.Host.1.Name".toList .any none (some "key".toList),
        .deleteObject "Device.Host.1.".toList] :=
  names_stay_unique "Device.".toList (by decide +kernel) _

end Tr069Agent.Engine
