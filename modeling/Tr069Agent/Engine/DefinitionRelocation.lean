import Tr069Agent.Engine.ParentNodes

/-! # Definitions of a new instance

A definition of the prototype that is an absolute name is looked for without the prefix of the data model
when it is relocated, and with the prefix when it is resolved.
-/

namespace Tr069Agent.Engine

open Library Library.Decimal Library.NumberedNames

set_option autoImplicit false

/-- The values of `DM_PREFIX`. -/
def dmPrefixes : List Text := ["Device.".toList, "InternetGatewayDevice.".toList]

/-- The name that a definition stands for, or of which it counts the elements. -/
def denotedName (dmPrefix definition prmName : Text) : Text :=
  match definition with
  | '#' :: name => getLongName dmPrefix name prmName
  | name => getLongName dmPrefix name prmName

/-- In the instance, the copy of the parameter denotes the copy of what the parameter denotes. -/
def DefinitionFollows (dmPrefix : Text) (dm : DataModel) (param : Parameter) (n : Nat) (below rest : Text) : Prop :=
  ∃ copy ∈ (addInstance dmPrefix dm param n).getParameter (child '.' param.name n ++ below),
    ∃ definition ∈ copy.definition, denotedName dmPrefix definition copy.name = child '.' param.name n ++ rest

instance (dmPrefix : Text) (dm : DataModel) (param : Parameter) (n : Nat) (below rest : Text) :
    Decidable (DefinitionFollows dmPrefix dm param n below rest) :=
  inferInstanceAs (Decidable (∃ copy ∈ (addInstance dmPrefix dm param n).getParameter _,
    ∃ definition ∈ copy.definition, _))

section Shift

variable {head short : Text}

/-- A name that ends with a dot or is empty, followed by a second dot, does not begin the same name behind a
component. -/
theorem not_prefix_behind (hHead : '.' ∉ head) (hNe : head ≠ []) (hShort : short = [] ∨ IsInner '.' short)
    (tail : Text) : ¬ short ++ ['.'] <+: head ++ '.' :: (short ++ tail) := by
  obtain ⟨length, hLength⟩ : ∃ length, short.length = length := ⟨_, rfl⟩
  induction length using Nat.strong_induction_on generalizing short with
  | _ length ih =>
    intro hPrefix
    obtain ⟨c, body, rfl⟩ := List.exists_cons_of_ne_nil hNe
    obtain rfl | hInner := hShort
    · exact hHead ((List.cons_prefix_cons.mp hPrefix).1 ▸ List.mem_cons_self)
    · have hFirst : (c :: body) ++ ['.'] <+: short := by
        have hLeft : short <+: (c :: body) ++ '.' :: (short ++ tail) := (List.prefix_append _ _).trans hPrefix
        have hRight : (c :: body) ++ ['.'] <+: (c :: body) ++ '.' :: (short ++ tail) :=
          (List.prefix_append_right_inj _).mpr (List.cons_prefix_cons.mpr ⟨rfl, List.nil_prefix⟩)
        obtain hBefore | hBehind := List.prefix_or_prefix_of_prefix hLeft hRight
        · obtain hSame | hInside := List.prefix_concat_iff.mp hBefore
          · exact hSame ▸ List.prefix_refl _
          · exact absurd (hInside.subset (sep_mem_of_isInner hInner)) hHead
        · exact hBehind
      obtain ⟨more, rfl⟩ := hFirst
      have hMore : more ++ ['.'] <+: (c :: body) ++ '.' :: (more ++ tail) := by
        simpa only [List.append_assoc, List.cons_append, List.nil_append, List.singleton_append,
          List.cons_prefix_cons, true_and, List.prefix_append_right_inj] using hPrefix
      refine ih more.length ?_ ?_ rfl hMore
      · rw [← hLength, List.length_append, List.length_append, List.length_singleton]
        omega
      · obtain rfl | hNonempty := eq_or_ne more []
        · exact .inl rfl
        · rw [IsInner, List.getLast?_append_of_ne_nil _ hNonempty] at hInner
          exact .inr hInner

end Shift

section Relocation

variable {dmPrefix objName instanceName rest : Text}

theorem exists_head_of_dmPrefixes (h : dmPrefix ∈ dmPrefixes) :
    ∃ c body, dmPrefix = c :: body ++ ['.'] ∧ '.' ∉ c :: body ∧ c ≠ '#' := by
  rcases List.mem_cons.mp h with rfl | h
  · exact ⟨'D', "evice".toList, by decide⟩
  · rw [List.mem_singleton.mp h]
    exact ⟨'I', "nternetGatewayDevice".toList, by decide⟩

/-- An absolute name of the prototype is not what the relocation looks for. -/
theorem relocateDefinition_absolute (hPrefix : dmPrefix ∈ dmPrefixes) (hObject : dmPrefix <+: objName)
    (hNode : IsInner '.' objName) :
    relocateDefinition (objName.drop dmPrefix.length) instanceName (objName ++ '.' :: rest) =
        objName ++ '.' :: rest ∧
      relocateDefinition (objName.drop dmPrefix.length) instanceName ('#' :: (objName ++ '.' :: rest)) =
        '#' :: (objName ++ '.' :: rest) := by
  obtain ⟨c, body, rfl, hHead, hHash⟩ := exists_head_of_dmPrefixes hPrefix
  obtain ⟨short, rfl⟩ := hObject
  have hShort : short = [] ∨ IsInner '.' short := by
    obtain rfl | hNonempty := eq_or_ne short []
    · exact .inl rfl
    · rw [IsInner, List.getLast?_append_of_ne_nil _ hNonempty] at hNode
      exact .inr hNode
  have hOther : (short ++ ['.']).isPrefixOf ((c :: body) ++ '.' :: (short ++ '.' :: rest)) = false := by
    rw [Bool.eq_false_iff, ne_eq, List.isPrefixOf_iff_prefix]
    exact not_prefix_behind hHead (List.cons_ne_nil _ _) hShort _
  have hName : c :: body ++ ['.'] ++ short ++ '.' :: rest = c :: body ++ '.' :: (short ++ '.' :: rest) := by
    simp
  rw [List.drop_left, hName]
  constructor
  · unfold relocateDefinition
    split
    · rename_i hEq
      exact absurd (List.cons.inj hEq).1 hHash
    · rw [hOther]
      rfl
  · rw [relocateDefinition, hOther]
    rfl

theorem denotedName_absolute {definition prmName name : Text} (hPrefix : dmPrefix ∈ dmPrefixes)
    (hAbsolute : dmPrefix <+: name) (hDefinition : definition = name ∨ definition = '#' :: name) :
    denotedName dmPrefix definition prmName = name := by
  have hLong : getLongName dmPrefix name prmName = name :=
    if_pos (.inr (List.isPrefixOf_iff_prefix.mpr hAbsolute))
  obtain rfl | rfl := hDefinition
  · obtain ⟨c, body, rfl, -, hHash⟩ := exists_head_of_dmPrefixes hPrefix
    obtain ⟨tail, rfl⟩ := hAbsolute
    unfold denotedName
    split
    · rename_i hEq
      exact absurd (List.cons.inj hEq).1 hHash
    · exact hLong
  · exact hLong

/-- The copy of the parameter keeps its definition, and so denotes what the parameter denotes. -/
theorem denotes_prototype {dm : DataModel} {param q : Parameter} {n : Nat} {below : Text}
    (hPrefix : dmPrefix ∈ dmPrefixes) (hUnique : dm.Unique) (hObject : dmPrefix <+: param.name)
    (hNode : IsInner '.' param.name) (hFound : dm.getParameter (param.name ++ '.' :: below) = some q)
    (hDefinition : q.definition = some (param.name ++ '.' :: rest) ∨
      q.definition = some ('#' :: (param.name ++ '.' :: rest))) :
    ∃ copy, (addInstance dmPrefix dm param n).getParameter (child '.' param.name n ++ below) = some copy ∧
      copy.definition = q.definition ∧
      ∀ definition ∈ copy.definition, denotedName dmPrefix definition copy.name = param.name ++ '.' :: rest := by
  have hCreated : (createInstance dm param n).getParameter (child '.' param.name n ++ below) =
      some (newInstanceParameter (child '.' param.name n ++ below) q) := by
    rw [getParameter_createInstance_child hUnique, hFound, Option.map_some, Option.some_or]
  obtain ⟨hPlain, hCount⟩ := @relocateDefinition_absolute dmPrefix param.name
    (child '.' (param.name.drop dmPrefix.length) n) rest hPrefix hObject hNode
  have hKept : (relocateParameter dmPrefix param.name n
      (newInstanceParameter (child '.' param.name n ++ below) q)).definition = q.definition := by
    unfold relocateParameter
    dsimp only
    split
    · change q.definition.map _ = q.definition
      obtain hEq | hEq := hDefinition
      · rw [hEq, Option.map_some, hPlain]
      · rw [hEq, Option.map_some, hCount]
    · rfl
  refine ⟨_, ?_, hKept, fun definition hMem => ?_⟩
  · rw [addInstance, relocateInstances,
      DataModel.getParameter_map (name_relocateParameter dmPrefix param.name n), hCreated]
    rfl
  · rw [hKept] at hMem
    refine denotedName_absolute hPrefix (hObject.trans (List.prefix_append _ _)) ?_
    obtain hEq | hEq := hDefinition
    · exact .inl (Option.some.inj (hMem.symm.trans hEq))
    · exact .inr (Option.some.inj (hMem.symm.trans hEq))

end Relocation

theorem prototype_ne_instance {objName rest rest' : Text} {n : Nat} :
    objName ++ '.' :: rest ≠ child '.' objName n ++ rest' := by
  intro h
  obtain ⟨c, digits, hDigits, hDigit⟩ := exists_toDigits_cons n
  have hShow : showInt n = c :: digits := hDigits
  rw [child, List.append_assoc, List.append_cancel_left_eq, hShow] at h
  rw [← (List.cons.inj h).1] at hDigit
  cases hDigit

/-- No definition that is an absolute name of the prototype follows its instance. -/
theorem definition_not_followed {dmPrefix : Text} {dm : DataModel} {param q : Parameter} {n : Nat}
    {below rest : Text} (hPrefix : dmPrefix ∈ dmPrefixes) (hUnique : dm.Unique) (hObject : dmPrefix <+: param.name)
    (hNode : IsInner '.' param.name) (hFound : dm.getParameter (param.name ++ '.' :: below) = some q)
    (hDefinition : q.definition = some (param.name ++ '.' :: rest) ∨
      q.definition = some ('#' :: (param.name ++ '.' :: rest))) :
    ¬ DefinitionFollows dmPrefix dm param n below rest := by
  obtain ⟨copy, hCopy, -, hDenotes⟩ :=
    @denotes_prototype dmPrefix rest dm param q n below hPrefix hUnique hObject hNode hFound hDefinition
  rintro ⟨found, hSame, definition, hMem, hFollows⟩
  obtain rfl : copy = found := Option.some.inj (hCopy.symm.trans hSame)
  rw [hDenotes definition hMem] at hFollows
  exact prototype_ne_instance hFollows

def computedParameter (name definition : Text) : Parameter :=
  { newDefinedParameter name .any none false with storageMode := .computed, definition := some definition }

/-- A counter of the elements below the prototype. -/
theorem counter_not_followed :
    ¬ DefinitionFollows "InternetGatewayDevice.".toList
      [computedParameter "InternetGatewayDevice.A.".toList [],
        computedParameter "InternetGatewayDevice.A..Count".toList "#InternetGatewayDevice.A..B.".toList]
      (computedParameter "InternetGatewayDevice.A.".toList []) 2 "Count".toList "B.".toList :=
  definition_not_followed (by decide) (by decide) (by decide) rfl rfl (.inr rfl)

/-- `Device.A.1.X` is computed from `Device.A..Y`. -/
theorem plain_not_followed :
    ¬ DefinitionFollows "Device.".toList
      [computedParameter "Device.A.".toList [], computedParameter "Device.A..X".toList "Device.A..Y".toList,
        newDefinedParameter "Device.A..Y".toList .any none false]
      (computedParameter "Device.A.".toList []) 1 "X".toList "Y".toList := by
  decide +kernel

end Tr069Agent.Engine
