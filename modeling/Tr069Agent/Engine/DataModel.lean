import Tr069Agent.Engine.ParameterStore
import Tr069Agent.Engine.ParameterValue
import Tr069Agent.Library.NumberedNames

/-! # The data model as a list

The parameters are looked up by their names, and the first of a name is the one that is found. An
object that ends with a dot is extended by copies of its prototype, whose names have a second dot behind
that of the object.
-/

namespace Tr069Agent.Engine

open Library Library.Decimal Library.NumberedNames

set_option autoImplicit false

abbrev DataModel := List Parameter

namespace DataModel

def names (dm : DataModel) : List Text := dm.map (·.name)

def getParameter (dm : DataModel) (name : Text) : Option Parameter := dm.find? (·.name = name)

/-- A change of the parameter that is found under the name. -/
def modify (name : Text) (f : Parameter → Parameter) : DataModel → DataModel
  | [] => []
  | param :: rest => if param.name = name then f param :: rest else param :: modify name f rest

/-- `_putParameter`: a parameter of the same name is replaced. -/
def putParameter (dm : DataModel) (param : Parameter) : DataModel :=
  if param.name ∈ dm.names then dm.modify param.name fun _ => param else dm ++ [param]

def deleteObject (dm : DataModel) (objectName : Text) : DataModel :=
  dm.filter fun prm => !objectName.isPrefixOf prm.name

end DataModel

section Instances

def newInstanceParameter (name : Text) (proto : Parameter) : Parameter :=
  { proto with
    name
    type := if proto.type = .statistics then .any else proto.type
    minValue := if proto.type = .statistics then 0 else proto.minValue
    loadingMode := proto.loadingMode % 2
    state := .initial }

/-- A parameter of the prototype behind the object. -/
def inPrototype (objectName : Text) (prm : Parameter) : Bool :=
  (objectName ++ ['.']).isPrefixOf prm.name

/-- What an instance is made of: a copy of the object and one of each parameter of its prototype. -/
def instanceParameters (dm : DataModel) (param : Parameter) (instanceNumber : Nat) : List Parameter :=
  newInstanceParameter (child '.' param.name instanceNumber) param ::
    (dm.filter (inPrototype param.name)).map fun prm =>
      newInstanceParameter
        (param.name ++ (showInt instanceNumber ++ prm.name.drop param.name.length)) prm

/-- `DM_ENG_ParameterData_createInstance`; no parameter of the prototype is among those that are put. -/
def createInstance (dm : DataModel) (param : Parameter) (instanceNumber : Nat) : DataModel :=
  (instanceParameters dm param instanceNumber).foldl .putParameter dm

/-- A definition whose first name is one of the prototype is moved to the instance. -/
def relocateDefinition (shortObjName instanceName : Text) : Text → Text
  | '#' :: definition =>
    '#' :: (if (shortObjName ++ ['.']).isPrefixOf definition
      then instanceName ++ definition.drop (shortObjName.length + 1) else definition)
  | definition =>
    if (shortObjName ++ ['.']).isPrefixOf definition
      then instanceName ++ definition.drop (shortObjName.length + 1) else definition

def relocateParameter (dmPrefix objName : Text) (instanceNb : Nat) (param : Parameter) : Parameter :=
  let shortObjName := objName.drop dmPrefix.length
  let instanceName := child '.' shortObjName instanceNb
  if instanceName.isPrefixOf (param.name.drop dmPrefix.length) ∧ param.storageMode = .computed then
    { param with definition := param.definition.map (relocateDefinition shortObjName instanceName) }
  else param

def relocateInstances (dmPrefix : Text) (dm : DataModel) (objName : Text) (instanceNb : Nat) : DataModel :=
  dm.map (relocateParameter dmPrefix objName instanceNb)

/-- The two steps by which an instance comes into the data model. -/
def addInstance (dmPrefix : Text) (dm : DataModel) (param : Parameter) (instanceNb : Nat) : DataModel :=
  relocateInstances dmPrefix (createInstance dm param instanceNb) param.name instanceNb

end Instances

namespace DataModel

variable {dm : DataModel} {param q : Parameter} {name x : Text}

theorem name_of_getParameter (h : dm.getParameter name = some q) : q.name = name := by
  simpa using List.find?_some h

theorem mem_names_of_getParameter (h : dm.getParameter name = some q) : name ∈ dm.names :=
  List.mem_map.mpr ⟨q, List.mem_of_find?_eq_some h, name_of_getParameter h⟩

section Modify

variable {f : Parameter → Parameter}

theorem names_modify (hf : ∀ p, p.name = name → (f p).name = name) : (dm.modify name f).names = dm.names := by
  induction dm with
  | nil => rfl
  | cons p rest ih =>
    rw [modify]
    split
    · rename_i hName
      simp [names, hf p hName, hName]
    · simpa [names] using ih

theorem getParameter_modify (hf : ∀ p, p.name = name → (f p).name = name) :
    (dm.modify name f).getParameter x =
      if x = name then (dm.getParameter name).map f else dm.getParameter x := by
  induction dm with
  | nil => simp [modify, getParameter]
  | cons p rest ih =>
    simp only [getParameter] at ih
    have hKeep := hf p
    simp only [modify, getParameter]
    grind

theorem filter_modify {keep : Parameter → Bool} (hBefore : ∀ p, p.name = name → keep p = false)
    (hAfter : ∀ p, p.name = name → keep (f p) = false) :
    (dm.modify name f).filter keep = dm.filter keep := by
  induction dm with
  | nil => rfl
  | cons p rest ih =>
    rw [modify]
    split
    · rename_i hName
      rw [List.filter_cons_of_neg (by simp [hAfter p hName]), List.filter_cons_of_neg (by simp [hBefore p hName])]
    · simp only [List.filter_cons, ih]

end Modify

theorem getParameter_map {f : Parameter → Parameter} (hf : ∀ p, (f p).name = p.name) :
    DataModel.getParameter (dm.map f) x = (dm.getParameter x).map f := by
  have hSame : (fun prm : Parameter => decide (prm.name = x)) ∘ f = fun prm => decide (prm.name = x) := by
    funext prm
    rw [Function.comp_apply, hf]
  rw [getParameter, List.find?_map, hSame, getParameter]

theorem names_map {f : Parameter → Parameter} (hf : ∀ p, (f p).name = p.name) :
    DataModel.names (dm.map f) = dm.names := by
  simp [names, Function.comp_def, hf]

theorem mem_names_putParameter : x ∈ (dm.putParameter param).names ↔ x ∈ dm.names ∨ x = param.name := by
  rw [putParameter]
  split
  · rename_i hMem
    rw [names_modify fun _ _ => rfl, or_iff_left_of_imp]
    rintro rfl
    exact hMem
  · simp [names]

theorem getParameter_putParameter :
    (dm.putParameter param).getParameter x = if x = param.name then some param else dm.getParameter x := by
  rw [putParameter]
  split
  · rename_i hMem
    rw [getParameter_modify fun _ _ => rfl]
    obtain ⟨p, hp, hName⟩ := List.mem_map.mp hMem
    have hFound : (dm.getParameter param.name).isSome = true :=
      List.find?_isSome.mpr ⟨p, hp, by simpa using hName⟩
    obtain ⟨first, hFirst⟩ := Option.isSome_iff_exists.mp hFound
    rw [hFirst, Option.map_some]
  · rename_i hMem
    have hNone : dm.find? (fun p => decide (p.name = param.name)) = none := by
      simpa [names] using hMem
    by_cases hx : x = param.name
    · rw [hx, if_pos rfl, getParameter, List.find?_append, hNone]
      simp
    · rw [if_neg hx, getParameter, List.find?_append, getParameter]
      simp [Ne.symm hx]

theorem mem_names_putAll {ps : List Parameter} :
    x ∈ DataModel.names (ps.foldl .putParameter dm) ↔ x ∈ dm.names ∨ x ∈ ps.map (·.name) := by
  induction ps generalizing dm with
  | nil => simp
  | cons p ps ih => rw [List.foldl_cons, ih, mem_names_putParameter, List.map_cons, List.mem_cons, or_assoc]

/-- The last parameter of a name that is put is the one that is found. -/
theorem getParameter_foldl_putParameter (ps : List Parameter) (dm : DataModel) (x : Text) :
    DataModel.getParameter (ps.foldl .putParameter dm) x = (ps.reverse.find? (·.name = x)).or (dm.getParameter x) := by
  induction ps generalizing dm with
  | nil => rfl
  | cons p ps ih =>
    rw [List.foldl_cons, ih, List.reverse_cons, List.find?_append, getParameter_putParameter, Option.or_assoc]
    congr 1
    obtain rfl | hName := eq_or_ne x p.name
    · simp
    · simp [hName, hName.symm]

theorem mem_or_getParameter_of_putAll {ps : List Parameter}
    (h : DataModel.getParameter (ps.foldl .putParameter dm) x = some q) :
    q ∈ ps ∨ dm.getParameter x = some q := by
  rw [getParameter_foldl_putParameter] at h
  obtain hPut | ⟨-, hOld⟩ := Option.or_eq_some_iff.mp h
  · exact .inl (List.mem_reverse.mp (List.mem_of_find?_eq_some hPut))
  · exact .inr hOld

theorem getParameter_putAll_of_notMem {ps : List Parameter} (h : ∀ p ∈ ps, p.name ≠ x) :
    DataModel.getParameter (ps.foldl .putParameter dm) x = dm.getParameter x := by
  have hNone : ps.reverse.find? (·.name = x) = none := by
    rw [List.find?_eq_none]
    intro p hp
    rw [decide_eq_true_eq]
    exact h p (List.mem_reverse.mp hp)
  rw [getParameter_foldl_putParameter, hNone, Option.none_or]

theorem not_isPrefixOf_iff {objectName : Text} : (!objectName.isPrefixOf x) = true ↔ ¬ objectName <+: x := by
  rw [Bool.not_eq_true', Bool.eq_false_iff, ne_eq, List.isPrefixOf_iff_prefix]

theorem mem_names_deleteObject {objectName : Text} :
    x ∈ (dm.deleteObject objectName).names ↔ x ∈ dm.names ∧ ¬ objectName <+: x := by
  simp only [names, deleteObject, List.mem_map, List.mem_filter, not_isPrefixOf_iff]
  constructor
  · rintro ⟨p, ⟨hp, hKeep⟩, rfl⟩
    exact ⟨⟨p, hp, rfl⟩, hKeep⟩
  · rintro ⟨⟨p, hp, rfl⟩, hKeep⟩
    exact ⟨p, ⟨hp, hKeep⟩, rfl⟩

theorem getParameter_of_deleteObject {objectName : Text}
    (h : (dm.deleteObject objectName).getParameter x = some q) : dm.getParameter x = some q := by
  rw [getParameter, deleteObject, List.find?_filter] at h
  obtain ⟨hKeep, hName⟩ : ¬ objectName <+: q.name ∧ q.name = x := by
    simpa only [not_isPrefixOf_iff, decide_eq_true_eq] using List.find?_some h
  subst hName
  rw [getParameter, ← h]
  congr 1
  funext p
  by_cases hName : p.name = q.name
  · simp only [hName, not_isPrefixOf_iff, hKeep, not_false_eq_true, decide_true, and_true]
  · simp only [hName, decide_false, Bool.false_eq_true, and_false]

end DataModel

section Instances

variable {dm : DataModel} {param q : Parameter} {n : Nat} {x : Text}

@[simp]
theorem name_newInstanceParameter (name : Text) (proto : Parameter) :
    (newInstanceParameter name proto).name = name := rfl

theorem inPrototype_of_name_eq (h : q.name = x) : inPrototype x q = false := by
  rw [inPrototype, Bool.eq_false_iff, ne_eq, List.isPrefixOf_iff_prefix]
  intro hPrefix
  have hLength := hPrefix.length_le
  rw [h, List.length_append, List.length_singleton] at hLength
  omega

theorem child_prefix_of_mem_instanceParameters (h : q ∈ instanceParameters dm param n) :
    child '.' param.name n <+: q.name := by
  obtain rfl | hCopy := List.mem_cons.mp h
  · exact List.prefix_refl _
  · obtain ⟨prm, hPrm, rfl⟩ := List.mem_map.mp hCopy
    have hProto : param.name ++ ['.'] <+: prm.name := by
      simpa [inPrototype] using (List.mem_filter.mp hPrm).2
    obtain ⟨rest, hRest⟩ := hProto
    refine ⟨rest, ?_⟩
    simp [child, ← hRest]

/-- The copy of the object is found under the name of the instance, where the prototype has no node of its
own behind the object. -/
theorem getParameter_createInstance (hNode : param.name ++ ['.'] ∉ dm.names) :
    (createInstance dm param n).getParameter (child '.' param.name n) =
      some (newInstanceParameter (child '.' param.name n) param) := by
  have hOthers : ∀ p ∈ (dm.filter (inPrototype param.name)).map fun prm =>
      newInstanceParameter (param.name ++ (showInt n ++ prm.name.drop param.name.length)) prm,
      p.name ≠ child '.' param.name n := by
    intro p hMem hName
    obtain ⟨prm, hPrm, rfl⟩ := List.mem_map.mp hMem
    obtain ⟨hIn, hProto⟩ := List.mem_filter.mp hPrm
    obtain ⟨rest, hRest⟩ : param.name ++ ['.'] <+: prm.name := by simpa [inPrototype] using hProto
    have hDot : prm.name = param.name ++ ['.'] := by
      rw [name_newInstanceParameter, child, List.append_cancel_left_eq, List.append_cancel_left_eq,
        ← hRest, List.append_assoc, List.drop_left] at hName
      rw [← hRest, List.append_assoc, hName]
    exact hNode (List.mem_map.mpr ⟨prm, hIn, hDot⟩)
  rw [createInstance, instanceParameters, List.foldl_cons, DataModel.getParameter_putAll_of_notMem hOthers,
    DataModel.getParameter_putParameter, name_newInstanceParameter, if_pos rfl]

theorem exists_relocateParameter_eq (dmPrefix objName : Text) (instanceNb : Nat) (param : Parameter) :
    ∃ definition, relocateParameter dmPrefix objName instanceNb param = { param with definition } := by
  dsimp only [relocateParameter]
  split
  · exact ⟨_, rfl⟩
  · exact ⟨param.definition, rfl⟩

@[simp]
theorem name_relocateParameter (dmPrefix objName : Text) (instanceNb : Nat) (param : Parameter) :
    (relocateParameter dmPrefix objName instanceNb param).name = param.name := by
  obtain ⟨definition, hEq⟩ := exists_relocateParameter_eq dmPrefix objName instanceNb param
  rw [hEq]

end Instances

end Tr069Agent.Engine
