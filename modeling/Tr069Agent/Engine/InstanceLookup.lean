import Tr069Agent.Engine.DataModelConfiguration
import Tr069Agent.Engine.PrototypeSearch

/-! # Looking up a parameter makes the instances that are missing

Each round of `_getParameter` makes one instance. It replaces what the instance has already, and it makes no
progress where the number in the name is not written as the number of the instance.
-/

namespace Tr069Agent.Engine

open Library Library.BackwardPath Library.Decimal Library.NumberedNames

set_option autoImplicit false

section Lookup

/-- The data models after the rounds of `_getParameter`, in this order. -/
def lookupStores (dmPrefix : Text) : Nat → DataModel → Text → List DataModel
  | 0, _, _ => []
  | iterations + 1, dm, paramName =>
    if (dm.getParameter paramName).isSome then []
    else
      match findInstance dm paramName.length paramName.reverse [] with
      | none => []
      | some (proto, instanceNb) =>
        match dm.getParameter proto with
        | none => []
        | some param =>
          addInstance dmPrefix dm param instanceNb ::
            lookupStores dmPrefix iterations (addInstance dmPrefix dm param instanceNb) paramName

/-- The parameters of a data model are found in another one as they were. -/
def KeepsParameters (before after : DataModel) : Prop :=
  ∀ x prm, before.getParameter x = some prm → after.getParameter x = some prm

/-- The prototype that is tried first is there, with the object of each number that was taken out. -/
def Fits (dm : DataModel) (name : Text) : Prop :=
  name ∈ dm.names ∨ ∃ step ∈ (prototypeSteps name).find? (hasPrototype dm),
    step.object ∈ dm.names ∧
      ∀ node ∈ step.proto.inits, step.object <+: node → node.getLast? = some '.' → node ++ ['.'] <+: step.proto →
        node ∈ dm.names

def FitsNone (dm : DataModel) (name : Text) : Prop :=
  name ∉ dm.names ∧ ∀ step ∈ prototypeSteps name, step.proto ∉ dm.names

/-- A name that fits is found, with no parameter changed in the end nor by any round, and a name that does not
changes nothing. -/
def LookupCorrect (dmPrefix : Text) (dm : DataModel) (name : Text) : Prop :=
  (Fits dm name → (getParameterOrCreate dmPrefix dm name).2 = true ∧
      KeepsParameters dm (getParameterOrCreate dmPrefix dm name).1 ∧
      ∀ after ∈ lookupStores dmPrefix 5 dm name, KeepsParameters dm after) ∧
    (FitsNone dm name → getParameterOrCreate dmPrefix dm name = (dm, false))

end Lookup

section Round

variable {dmPrefix name x : Text} {dm before : DataModel} {param prm : Parameter} {n : Nat}

/-- What a round puts under a name: the last of the copies, or what is there, with its definition moved. -/
def placed (dmPrefix : Text) (dm : DataModel) (param : Parameter) (n : Nat) (x : Text) : Option Parameter :=
  (((instanceParameters dm param n).reverse.find? (·.name = x)).or (dm.getParameter x)).map
    (relocateParameter dmPrefix param.name n)

/-- The name is one of the instance, at least behind the prefix. -/
def InInstance (dmPrefix objectName : Text) (n : Nat) (x : Text) : Prop :=
  child '.' objectName n <+: x ∨ child '.' (objectName.drop dmPrefix.length) n <+: x.drop dmPrefix.length

/-- What the instance has already is what the round puts there. -/
def Harmless (dmPrefix : Text) (before dm : DataModel) (param : Parameter) (n : Nat) : Prop :=
  ∀ x prm, before.getParameter x = some prm → InInstance dmPrefix param.name n x →
    placed dmPrefix dm param n x = some prm

theorem getParameter_addInstance : (addInstance dmPrefix dm param n).getParameter x = placed dmPrefix dm param n x := by
  rw [addInstance, relocateInstances, DataModel.getParameter_map (name_relocateParameter dmPrefix param.name n),
    createInstance, DataModel.getParameter_foldl_putParameter, placed]

theorem getParameter_addInstance_outside (h : ¬ InInstance dmPrefix param.name n x) :
    (addInstance dmPrefix dm param n).getParameter x = dm.getParameter x := by
  obtain ⟨hName, hBehind⟩ := not_or.mp h
  have hCopies : (instanceParameters dm param n).reverse.find? (·.name = x) = none := by
    rw [List.find?_eq_none]
    intro copy hCopy
    rw [decide_eq_true_eq]
    rintro rfl
    exact hName (child_prefix_of_mem_instanceParameters (List.mem_reverse.mp hCopy))
  rw [getParameter_addInstance, placed, hCopies, Option.none_or]
  cases hFound : dm.getParameter x with
  | none => rfl
  | some prm =>
    rw [Option.map_some, relocateParameter]
    rw [if_neg]
    rintro ⟨hPrefix, -⟩
    rw [DataModel.name_of_getParameter hFound, List.isPrefixOf_iff_prefix] at hPrefix
    exact hBehind hPrefix

theorem KeepsParameters.refl (dm : DataModel) : KeepsParameters dm dm := fun _ _ h => h

theorem keeps_addInstance (hKeep : KeepsParameters before dm) (h : Harmless dmPrefix before dm param n) :
    KeepsParameters before (addInstance dmPrefix dm param n) := by
  intro x prm hFound
  by_cases hIn : InInstance dmPrefix param.name n x
  · rw [getParameter_addInstance]
    exact h x prm hFound hIn
  · rw [getParameter_addInstance_outside hIn]
    exact hKeep x prm hFound

theorem harmless_of_keeps (h : KeepsParameters before (addInstance dmPrefix dm param n)) :
    Harmless dmPrefix before dm param n := by
  intro x prm hFound _
  rw [← getParameter_addInstance]
  exact h x prm hFound

theorem mem_names_addInstance :
    x ∈ (addInstance dmPrefix dm param n).names ↔
      x ∈ dm.names ∨ x ∈ (instanceParameters dm param n).map (·.name) := by
  rw [addInstance, relocateInstances, DataModel.names_map (name_relocateParameter dmPrefix param.name n),
    createInstance, DataModel.mem_names_putAll]

theorem child_prefix_of_new (h : x ∈ (addInstance dmPrefix dm param n).names) (hOld : x ∉ dm.names) :
    child '.' param.name n <+: x := by
  obtain hHere | hNew := mem_names_addInstance.mp h
  · exact absurd hHere hOld
  · obtain ⟨copy, hCopy, rfl⟩ := List.mem_map.mp hNew
    exact child_prefix_of_mem_instanceParameters hCopy

end Round

section Run

variable {dmPrefix name x : Text} {dm before : DataModel} {param prm : Parameter} {step : PrototypeStep}
  {iterations rounds : Nat}

/-- One round: the prototype that is found first, and the object. -/
def Round (dm : DataModel) (name : Text) (step : PrototypeStep) (param : Parameter) : Prop :=
  name ∉ dm.names ∧ (prototypeSteps name).find? (hasPrototype dm) = some step ∧ dm.getParameter step.object = some param

theorem getParameterFrom_found (h : name ∈ dm.names) :
    getParameterFrom dmPrefix (iterations + 1) dm name = (dm, true) := by
  rw [getParameterFrom, if_pos (isSome_getParameter_iff.mpr h)]

theorem lookupStores_found (h : name ∈ dm.names) : lookupStores dmPrefix (iterations + 1) dm name = [] := by
  rw [lookupStores, if_pos (isSome_getParameter_iff.mpr h)]

theorem getParameterFrom_round (h : Round dm name step param) :
    getParameterFrom dmPrefix (iterations + 1) dm name =
      getParameterFrom dmPrefix iterations (addInstance dmPrefix dm param step.instanceNb) name := by
  obtain ⟨hAbsent, hStep, hObject⟩ := h
  rw [getParameterFrom, if_neg fun hFound => hAbsent (isSome_getParameter_iff.mp hFound), findInstance_name, hStep]
  simp only [Option.map_some, hObject]

theorem lookupStores_round (h : Round dm name step param) :
    lookupStores dmPrefix (iterations + 1) dm name =
      addInstance dmPrefix dm param step.instanceNb ::
        lookupStores dmPrefix iterations (addInstance dmPrefix dm param step.instanceNb) name := by
  obtain ⟨hAbsent, hStep, hObject⟩ := h
  rw [lookupStores, if_neg fun hFound => hAbsent (isSome_getParameter_iff.mp hFound), findInstance_name, hStep]
  simp only [Option.map_some, hObject]

/-- Where there is no round to make, the lookup ends with the data model as it is. -/
theorem getParameterFrom_stop (hAbsent : name ∉ dm.names) (h : ∀ step param, ¬ Round dm name step param) :
    getParameterFrom dmPrefix iterations dm name = (dm, false) ∧ lookupStores dmPrefix iterations dm name = [] := by
  cases iterations with
  | zero => exact ⟨rfl, rfl⟩
  | succ iterations =>
    have hNone : ¬ (dm.getParameter name).isSome = true := fun hFound => hAbsent (isSome_getParameter_iff.mp hFound)
    rw [getParameterFrom, lookupStores, if_neg hNone, if_neg hNone, findInstance_name]
    cases hStep : (prototypeSteps name).find? (hasPrototype dm) with
    | none => exact ⟨rfl, rfl⟩
    | some step =>
      cases hObject : dm.getParameter step.object with
      | none => simp only [Option.map_some, hObject, and_self]
      | some param => exact absurd ⟨hAbsent, hStep, hObject⟩ (h step param)

theorem getParameterFrom_fst :
    (getParameterFrom dmPrefix iterations dm name).1 = (lookupStores dmPrefix iterations dm name).getLastD dm := by
  induction iterations generalizing dm with
  | zero => rfl
  | succ iterations ih =>
    by_cases hFound : name ∈ dm.names
    · rw [getParameterFrom_found hFound, lookupStores_found hFound]
      rfl
    · by_cases hRound : ∃ step param, Round dm name step param
      · obtain ⟨step, param, hRound⟩ := hRound
        rw [getParameterFrom_round hRound, lookupStores_round hRound, ih, List.getLastD_cons]
      · simp only [not_exists] at hRound
        obtain ⟨hResult, hStores⟩ := @getParameterFrom_stop dmPrefix name dm (iterations + 1) hFound hRound
        rw [hResult, hStores]
        rfl

/-- Where the number has another spelling, the instance that is made is not the one of the name. -/
theorem absent_after {y : Text} (hDigits : step.digits.all Char.isDigit = true)
    (hSpelling : step.digits ≠ showInt step.instanceNb) (hObject : dm.getParameter step.object = some param)
    (hName : step.instanceName <+: y) (hAbsent : y ∉ dm.names) :
    y ∉ (addInstance dmPrefix dm param step.instanceNb).names := by
  intro hNew
  have hChild := child_prefix_of_new hNew hAbsent
  rw [DataModel.name_of_getParameter hObject] at hChild
  exact hSpelling (digits_unique hDigits hName hChild)

theorem step_again (hRound : Round dm name step param) (hSpelling : step.digits ≠ showInt step.instanceNb) :
    name ∉ (addInstance dmPrefix dm param step.instanceNb).names ∧
      (prototypeSteps name).find? (hasPrototype (addInstance dmPrefix dm param step.instanceNb)) = some step := by
  obtain ⟨hAbsent, hStep, hObject⟩ := hRound
  have hMem := List.mem_of_find?_eq_some hStep
  have hDigits := (spelling_of_mem hMem).2
  obtain ⟨hProto, first, later, hSteps, hFirst⟩ := List.find?_eq_some_iff_append.mp hStep
  refine ⟨absent_after hDigits hSpelling hObject (instanceName_prefix_of_mem hMem) hAbsent, ?_⟩
  refine List.find?_eq_some_iff_append.mpr ⟨?_, first, later, hSteps, ?_⟩
  · rw [hasPrototype_iff] at hProto ⊢
    exact mem_names_addInstance.mpr (.inl hProto)
  · intro other hOther
    have hOld : other.proto ∉ dm.names := by
      rw [← hasPrototype_iff]
      simpa using hFirst other hOther
    have hBefore : step.instanceName <+: other.object := by
      have hOrder := pairwise_prototypeSteps name
      rw [hSteps, List.pairwise_append] at hOrder
      exact hOrder.2.2 other hOther step List.mem_cons_self
    have hNew := @absent_after dmPrefix dm param step other.proto hDigits hSpelling hObject
      (hBefore.trans (List.prefix_append other.object other.behind)) hOld
    rw [Bool.not_eq_true', Bool.eq_false_iff, ne_eq, hasPrototype_iff]
    exact hNew

/-- With another spelling of the number, the rounds come to nothing. -/
theorem never_found (hAbsent : name ∉ dm.names) (hStep : (prototypeSteps name).find? (hasPrototype dm) = some step)
    (hSpelling : step.digits ≠ showInt step.instanceNb) : (getParameterFrom dmPrefix iterations dm name).2 = false := by
  induction iterations generalizing dm with
  | zero => rfl
  | succ iterations ih =>
    cases hObject : dm.getParameter step.object with
    | none =>
      have hStop : ∀ other param, ¬ Round dm name other param := by
        rintro other param ⟨-, hOther, hParam⟩
        obtain rfl : step = other := Option.some.inj (hStep.symm.trans hOther)
        rw [hObject] at hParam
        cases hParam
      rw [(getParameterFrom_stop hAbsent hStop).1]
    | some param =>
      have hRound : Round dm name step param := ⟨hAbsent, hStep, hObject⟩
      obtain ⟨hStill, hAgain⟩ := @step_again dmPrefix name dm param step hRound hSpelling
      rw [getParameterFrom_round hRound]
      exact ih hStill hAgain

end Run

section Correctness

variable {dmPrefix name : Text} {dm before : DataModel} {rounds : Nat}

/-- So many harmless rounds lead to the name, each with a number written as that of the instance. -/
def Reaches (dmPrefix : Text) (before : DataModel) (name : Text) : Nat → DataModel → Prop
  | 0, dm => name ∈ dm.names
  | rounds + 1, dm => name ∈ dm.names ∨ ∃ step param, Round dm name step param ∧
      step.digits = showInt step.instanceNb ∧ Harmless dmPrefix before dm param step.instanceNb ∧
      Reaches dmPrefix before name rounds (addInstance dmPrefix dm param step.instanceNb)

theorem found_of_reaches (hKeep : KeepsParameters before dm) (h : Reaches dmPrefix before name rounds dm) :
    (getParameterFrom dmPrefix (rounds + 1) dm name).2 = true ∧
      ∀ after ∈ lookupStores dmPrefix (rounds + 1) dm name, KeepsParameters before after := by
  induction rounds generalizing dm with
  | zero =>
    rw [getParameterFrom_found h, lookupStores_found h]
    exact ⟨rfl, fun after hMem => nomatch hMem⟩
  | succ rounds ih =>
    obtain hFound | ⟨step, param, hRound, -, hHarmless, hRest⟩ := h
    · rw [getParameterFrom_found hFound, lookupStores_found hFound]
      exact ⟨rfl, fun after hMem => nomatch hMem⟩
    · have hNext := keeps_addInstance hKeep hHarmless
      obtain ⟨hResult, hStores⟩ := ih hNext hRest
      rw [getParameterFrom_round hRound, lookupStores_round hRound]
      exact ⟨hResult, List.forall_mem_cons.mpr ⟨hNext, hStores⟩⟩

theorem reaches_of_found (hFound : (getParameterFrom dmPrefix (rounds + 1) dm name).2 = true)
    (hStores : ∀ after ∈ lookupStores dmPrefix (rounds + 1) dm name, KeepsParameters before after) :
    Reaches dmPrefix before name rounds dm := by
  induction rounds generalizing dm with
  | zero =>
    by_contra hAbsent
    by_cases hRound : ∃ step param, Round dm name step param
    · obtain ⟨step, param, hRound⟩ := hRound
      rw [getParameterFrom_round hRound] at hFound
      cases hFound
    · simp only [not_exists] at hRound
      rw [(getParameterFrom_stop hAbsent hRound).1] at hFound
      cases hFound
  | succ rounds ih =>
    by_cases hHere : name ∈ dm.names
    · exact .inl hHere
    · by_cases hRound : ∃ step param, Round dm name step param
      · obtain ⟨step, param, hRound⟩ := hRound
        have hSpelling : step.digits = showInt step.instanceNb := by
          by_contra hOther
          rw [never_found hHere hRound.2.1 hOther] at hFound
          cases hFound
        rw [getParameterFrom_round hRound] at hFound
        rw [lookupStores_round hRound] at hStores
        obtain ⟨hNext, hRest⟩ := List.forall_mem_cons.mp hStores
        exact .inr ⟨step, param, hRound, hSpelling, harmless_of_keeps hNext, ih hFound hRest⟩
      · simp only [not_exists] at hRound
        rw [(getParameterFrom_stop hHere hRound).1] at hFound
        cases hFound

theorem getParameterOrCreate_of_fitsNone (h : FitsNone dm name) :
    getParameterOrCreate dmPrefix dm name = (dm, false) := by
  obtain ⟨hAbsent, hNone⟩ := h
  refine (getParameterFrom_stop hAbsent ?_).1
  rintro step param ⟨-, hStep, -⟩
  exact hNone step (List.mem_of_find?_eq_some hStep) (hasPrototype_iff.mp (List.find?_some hStep))

theorem lookupCorrect_of_reaches (h : Fits dm name → Reaches dmPrefix dm name 4 dm) :
    LookupCorrect dmPrefix dm name := by
  constructor
  · intro hFits
    obtain ⟨hFound, hStores⟩ := found_of_reaches (KeepsParameters.refl dm) (h hFits)
    refine ⟨hFound, ?_, hStores⟩
    rw [getParameterOrCreate, getParameterFrom_fst]
    cases hLast : (lookupStores dmPrefix 5 dm name).getLast? with
    | none =>
      rw [List.getLastD_eq_getLast?, hLast]
      exact KeepsParameters.refl dm
    | some after =>
      rw [List.getLastD_eq_getLast?, hLast]
      exact hStores after (List.mem_of_getLast? hLast)
  · exact getParameterOrCreate_of_fitsNone

/-- The lookup is as it should be exactly when at most four harmless rounds are enough. -/
theorem lookupCorrect_iff (dmPrefix : Text) (dm : DataModel) (name : Text) :
    LookupCorrect dmPrefix dm name ↔ (Fits dm name → Reaches dmPrefix dm name 4 dm) := by
  constructor
  · rintro ⟨hCorrect, -⟩ hFits
    obtain ⟨hFound, -, hStores⟩ := hCorrect hFits
    exact reaches_of_found hFound hStores
  · exact lookupCorrect_of_reaches

instance (dm : DataModel) (name : Text) : Decidable (Fits dm name) := inferInstanceAs (Decidable (_ ∨ _))

/-- A prototype with two parameters, of which the first instance has one. -/
def partialStore : DataModel :=
  ["Device.".toList, "Device.A.".toList, "Device.A..X".toList, "Device.A..Y".toList, "Device.A.1.".toList].map
      (fun name => newDefinedParameter name .any none false) ++
    [{ newDefinedParameter "Device.A.1.Y".toList .any none false with value := some "5".toList }]

/-- `Device.A.1.Y` loses its value. -/
theorem partialInstance_overwritten : ¬ LookupCorrect "Device.".toList partialStore "Device.A.1.X".toList := by
  have hFits : Fits partialStore "Device.A.1.X".toList := by decide +kernel
  have hBefore : (partialStore.getParameter "Device.A.1.Y".toList).map (·.value) = some (some "5".toList) := by
    decide +kernel
  have hAfter : ((getParameterOrCreate "Device.".toList partialStore "Device.A.1.X".toList).1.getParameter
      "Device.A.1.Y".toList).map (·.value) = some none := by decide +kernel
  rintro ⟨hCorrect, -⟩
  obtain ⟨prm, hFound, hValue⟩ := Option.map_eq_some_iff.mp hBefore
  obtain ⟨-, hKeep, -⟩ := hCorrect hFits
  rw [hKeep _ prm hFound, Option.map_some, hValue] at hAfter
  cases hAfter

end Correctness

section Fresh

variable {dmPrefix name x node top : Text} {dm before : DataModel} {param : Parameter} {n rounds : Nat}
  {step : PrototypeStep} {first later : List PrototypeStep}

theorem mem_names_instanceParameters :
    x ∈ (instanceParameters dm param n).map (·.name) ↔
      x = child '.' param.name n ∨
        ∃ rest, x = child '.' param.name n ++ rest ∧ param.name ++ '.' :: rest ∈ dm.names := by
  rw [instanceParameters, List.map_cons, List.mem_cons, name_newInstanceParameter]
  refine or_congr_right ?_
  simp only [List.mem_map, List.mem_filter, inPrototype, List.isPrefixOf_iff_prefix]
  constructor
  · rintro ⟨copy, ⟨prm, ⟨hMem, rest, hRest⟩, rfl⟩, rfl⟩
    refine ⟨rest, ?_, List.mem_map.mpr ⟨prm, hMem, ?_⟩⟩
    · simp [child, ← hRest]
    · simp [← hRest]
  · rintro ⟨rest, rfl, hMem⟩
    obtain ⟨prm, hPrm, hName⟩ := List.mem_map.mp hMem
    refine ⟨_, ⟨prm, ⟨hPrm, rest, ?_⟩, rfl⟩, ?_⟩
    · simp [hName]
    · simp [hName, child]

theorem leftBefore_mem (hLeads : Leads x step) (hSpelling : step.digits = showInt step.instanceNb)
    (hProto : step.proto ∈ dm.names) (hObject : param.name = step.object) :
    x ∈ (addInstance dmPrefix dm param step.instanceNb).names := by
  obtain ⟨rest, rfl, hBehind⟩ := hLeads
  have hName : step.instanceName = child '.' param.name step.instanceNb := by
    rw [PrototypeStep.instanceName, hSpelling, hObject, child]
  rw [hName, mem_names_addInstance, mem_names_instanceParameters]
  obtain rfl | hRest := eq_or_ne rest []
  · exact .inr (.inl (List.append_nil _))
  · rw [PrototypeStep.proto, hBehind, if_neg hRest, ← hObject] at hProto
    exact .inr (.inr ⟨rest, rfl, hProto⟩)

def IsNode (node : Text) : Prop := IsInner '.' node ∧ ¬ ['.', '.'] <:+ node

/-- The nodes between `top` and the parameters below it are there. -/
def NodesBelow (top : Text) (dm : DataModel) : Prop :=
  ∀ x ∈ dm.names, ∀ node, top <+: node → node <+: x → IsNode node → node ∈ dm.names

theorem doubleDot_iff {front : Text} {c : Char} : ['.', '.'] <:+ front ++ [c, '.'] ↔ c = '.' := by
  constructor
  · intro h
    have hSame := List.suffix_or_suffix_of_suffix h (List.suffix_append front [c, '.'])
    obtain hShort | hShort := hSame
    · have hEq := hShort.eq_of_length rfl
      exact (List.cons.inj hEq).1.symm
    · have hEq := hShort.eq_of_length rfl
      exact (List.cons.inj hEq).1
  · rintro rfl
    exact List.suffix_append front ['.', '.']

theorem isNode_proto {owner rest : Text} (h : IsNode (child '.' owner n ++ rest)) (hRest : rest ≠ []) :
    IsNode (owner ++ '.' :: rest) := by
  obtain ⟨hInner, hSingle⟩ := h
  rw [IsInner, List.getLast?_append_of_ne_nil _ hRest] at hInner
  obtain ⟨front, rfl⟩ := List.getLast?_eq_some_iff.mp hInner
  obtain rfl | ⟨before, c, rfl⟩ := front.eq_nil_or_concat'
  · have hDouble : child '.' owner n ++ ([] ++ ['.']) = (owner ++ showInt n) ++ ['.', '.'] := by simp [child]
    rw [hDouble] at hSingle
    exact absurd (doubleDot_iff.mpr rfl) hSingle
  · have hEnd : ∀ top : Text, top ++ (before ++ [c] ++ ['.']) = (top ++ before) ++ [c, '.'] := by simp
    have hLast : owner ++ '.' :: (before ++ [c] ++ ['.']) = ((owner ++ ['.']) ++ before) ++ [c, '.'] := by simp
    rw [hEnd, doubleDot_iff] at hSingle
    rw [hLast]
    exact ⟨by rw [IsInner, List.getLast?_append]; rfl, fun h => hSingle (doubleDot_iff.mp h)⟩

theorem nodesBelow_addInstance (h : NodesBelow top dm) (hTop : top <+: param.name) (hObject : param.name ∈ dm.names) :
    NodesBelow top (addInstance dmPrefix dm param n) := by
  intro x hx node hAbove hBelow hNode
  rw [mem_names_addInstance] at hx ⊢
  obtain hOld | hNew := hx
  · exact .inl (h x hOld node hAbove hBelow hNode)
  · have hCopy : ∃ rest, x = child '.' param.name n ++ rest ∧ (rest = [] ∨ param.name ++ '.' :: rest ∈ dm.names) := by
      obtain rfl | ⟨rest, rfl, hProto⟩ := mem_names_instanceParameters.mp hNew
      · exact ⟨[], (List.append_nil _).symm, .inl rfl⟩
      · exact ⟨rest, rfl, .inr hProto⟩
    obtain ⟨rest, rfl, hProto⟩ := hCopy
    have hWhole : param.name <+: child '.' param.name n ++ rest := owner_prefix_child.trans (List.prefix_append _ _)
    obtain hOver | hUnder := List.prefix_or_prefix_of_prefix hBelow hWhole
    · exact .inl (h param.name hObject node hAbove hOver hNode)
    · obtain rfl | ⟨below, rfl⟩ := eq_or_child_prefix (by decide) (by decide) hNode.1 hUnder hBelow
      · exact .inl hObject
      · rw [List.prefix_append_right_inj] at hBelow
        rw [mem_names_instanceParameters]
        obtain rfl | hNe := eq_or_ne below []
        · exact .inr (.inl (List.append_nil _))
        · have hProto' : param.name ++ '.' :: rest ∈ dm.names := by
            obtain rfl | hThere := hProto
            · exact absurd (List.prefix_nil.mp hBelow) hNe
            · exact hThere
          refine .inr (.inr ⟨below, rfl,
            h _ hProto' _ (hTop.trans (List.prefix_append _ _)) ?_ (isNode_proto hNode hNe)⟩)
          exact (List.prefix_append_right_inj _).mpr (List.cons_prefix_cons.mpr ⟨rfl, hBelow⟩)

/-- What lies in an instance that is made in another one lies in that one. -/
theorem inInstance_of_inner {inner : PrototypeStep} (hLong : dmPrefix.length ≤ step.object.length)
    (hSpelling : step.digits = showInt step.instanceNb) (hInner : step.instanceName <+: inner.object)
    (h : InInstance dmPrefix inner.object inner.instanceNb x) : InInstance dmPrefix step.object step.instanceNb x := by
  have hName : step.instanceName = child '.' step.object step.instanceNb := by
    rw [PrototypeStep.instanceName, hSpelling, child]
  rw [hName] at hInner
  obtain hWhole | hBehind := h
  · exact .inl (hInner.trans (owner_prefix_child.trans hWhole))
  · have hDrop : (child '.' step.object step.instanceNb).drop dmPrefix.length =
        child '.' (step.object.drop dmPrefix.length) step.instanceNb := by
      rw [child, child, List.drop_append_of_le_length hLong]
    refine .inr ?_
    rw [← hDrop]
    exact (hInner.drop _).trans (owner_prefix_child.trans hBehind)

theorem reaches_found (h : name ∈ dm.names) : Reaches dmPrefix before name rounds dm := by
  cases rounds with
  | zero => exact h
  | succ rounds => exact .inl h

/-- The rounds go on to the right until the name is there. -/
theorem reaches_of_fresh (hSingle : ¬ ['.', '.'] <:+: name) (hSteps : prototypeSteps name = first ++ step :: later)
    (hFind : (prototypeSteps name).find? (hasPrototype dm) = some step) (hFew : first.length < rounds)
    (hSpelling : ∀ s ∈ first ++ [step], s.digits = showInt s.instanceNb) (hLong : dmPrefix.length ≤ step.object.length)
    (hTop : top <+: step.object) (hNodes : NodesBelow top dm) (hObject : step.object ∈ dm.names)
    (hFresh : ∀ x ∈ before.names, ¬ InInstance dmPrefix step.object step.instanceNb x) :
    Reaches dmPrefix before name rounds dm := by
  induction rounds generalizing dm first step later with
  | zero => exact absurd hFew (Nat.not_lt_zero _)
  | succ rounds ih =>
    by_cases hHere : name ∈ dm.names
    · exact .inl hHere
    obtain ⟨param, hParam⟩ := Option.isSome_iff_exists.mp (isSome_getParameter_iff.mpr hObject)
    have hName := DataModel.name_of_getParameter hParam
    have hCanonical := hSpelling step (List.mem_append_right _ List.mem_cons_self)
    have hHarmless : Harmless dmPrefix before dm param step.instanceNb := by
      intro x prm hFound hIn
      rw [hName] at hIn
      exact absurd hIn (hFresh x (DataModel.mem_names_of_getParameter hFound))
    refine .inr ⟨step, param, ⟨hHere, hFind, hParam⟩, hCanonical, hHarmless, ?_⟩
    have hLeads : Leads (leftBefore name first) step := leads_of_leadsAll (hSteps ▸ leadsAll_prototypeSteps name)
    have hMade : leftBefore name first ∈ (addInstance dmPrefix dm param step.instanceNb).names :=
      leftBefore_mem hLeads hCanonical (hasPrototype_iff.mp (List.find?_some hFind)) hName
    obtain rfl | ⟨front, last, rfl⟩ := first.eq_nil_or_concat'
    · exact reaches_found hMade
    · have hLast : hasPrototype (addInstance dmPrefix dm param step.instanceNb) last = true := by
        rw [hasPrototype_iff]
        simpa [leftBefore] using hMade
      obtain ⟨inner, hInner⟩ : ∃ inner, (front ++ [last]).find?
          (hasPrototype (addInstance dmPrefix dm param step.instanceNb)) = some inner :=
        Option.isSome_iff_exists.mp (List.find?_isSome.mpr ⟨last, List.mem_append_right _ List.mem_cons_self, hLast⟩)
      obtain ⟨hProto, first', rest, hFirst, -⟩ := List.find?_eq_some_iff_append.mp hInner
      have hNext : (prototypeSteps name).find?
          (hasPrototype (addInstance dmPrefix dm param step.instanceNb)) = some inner := by
        rw [hSteps, List.find?_append, hInner, Option.some_or]
      have hMem : inner ∈ prototypeSteps name := List.mem_of_find?_eq_some hNext
      have hOrder : step.instanceName <+: inner.object := by
        have hPairs := pairwise_prototypeSteps name
        rw [hSteps, List.pairwise_append] at hPairs
        exact hPairs.2.2 inner (List.mem_of_find?_eq_some hInner) step List.mem_cons_self
      have hBelow : step.object <+: inner.object := (List.prefix_append _ _).trans hOrder
      have hNodes' : NodesBelow top (addInstance dmPrefix dm param step.instanceNb) :=
        nodesBelow_addInstance hNodes (hName ▸ hTop) (hName ▸ hObject)
      have hNode : IsNode inner.object := by
        refine ⟨(spelling_of_mem hMem).1, fun hDouble => hSingle ?_⟩
        exact hDouble.isInfix.trans ((List.prefix_append _ _).trans (instanceName_prefix_of_mem hMem)).isInfix
      have hSteps' : prototypeSteps name = first' ++ inner :: (rest ++ step :: later) := by
        rw [hSteps, hFirst, List.append_assoc, List.cons_append]
      refine ih hSteps' hNext ?_ ?_ (hLong.trans hBelow.length_le) (hTop.trans hBelow) hNodes' ?_
        fun x hx hIn => hFresh x hx (inInstance_of_inner hLong hCanonical hOrder hIn)
      · have hLength := congrArg List.length hFirst
        simp only [List.length_append, List.length_cons] at hLength hFew
        omega
      · intro s hs
        refine hSpelling s (List.mem_append_left _ ?_)
        rw [hFirst, List.append_cons]
        exact List.mem_append_left _ hs
      · exact hNodes' _ (hasPrototype_iff.mp hProto) _ (hTop.trans hBelow) (List.prefix_append _ _) hNode

/-- With three more levels at most, no part of the instance and every node there, the lookup is as it should be. -/
theorem lookupCorrect_of_fresh (hSingle : ¬ ['.', '.'] <:+: name)
    (hSteps : prototypeSteps name = first ++ step :: later)
    (hFind : (prototypeSteps name).find? (hasPrototype dm) = some step) (hFew : first.length ≤ 3)
    (hSpelling : ∀ s ∈ first ++ [step], s.digits = showInt s.instanceNb) (hLong : dmPrefix.length ≤ step.object.length)
    (hNodes : NodesBelow step.object dm) (hObject : step.object ∈ dm.names)
    (hFresh : ∀ x ∈ dm.names, ¬ InInstance dmPrefix step.object step.instanceNb x) :
    LookupCorrect dmPrefix dm name :=
  lookupCorrect_of_reaches fun _ =>
    reaches_of_fresh hSingle hSteps hFind (Nat.lt_succ_of_le hFew) hSpelling hLong (List.prefix_refl _) hNodes hObject
      hFresh

end Fresh

end Tr069Agent.Engine
