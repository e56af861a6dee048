import Mathlib.Data.List.Basic
import Mathlib.Tactic.Common
import Tr069Agent.Data.ParameterFile

/-! # Saving and reloading the parameters

The numbers coded by one digit are read from their first digit only, so a state of two digits is lost.
-/

namespace Tr069Agent.Data

open Library Library.Lines Library.Decimal Engine

set_option autoImplicit false

variable {dmPrefix : Text}

section Range

theorem mem_splitLine {line : Text} {i : Nat} {c : Char} (h : c ∈ splitLine line i) :
    c ≠ ';' ∧ c ∈ line := by
  rw [splitLine] at h
  cases hAttr : ((line.splitOn ';').take maxNbAttr)[i]? with
  | none => simp [hAttr] at h
  | some attr =>
    rw [hAttr, Option.getD_some] at h
    obtain ⟨hFree, hSub⟩ := mem_splitOn (List.mem_of_mem_take (List.mem_of_getElem? hAttr))
    exact ⟨fun hSep => hFree (hSep ▸ h), hSub h⟩

theorem head_splitLine {line : Text} {c : Char} (h : (splitLine line 0).head? = some c) : line.head? = some c := by
  cases line with
  | nil => cases h
  | cons d line =>
    obtain ⟨first, fields, hSplit⟩ := List.exists_cons_of_ne_nil (List.splitOn_ne_nil ';' line)
    rw [splitLine, List.splitOn_cons_eq_if_modifyHead, hSplit] at h
    split at h
    · cases h
    · exact h

theorem mem_trim {item : Text} {c : Char} (h : c ∈ trim item) : c ∈ item :=
  (List.dropWhile_suffix _).subset ((List.rdropWhile_prefix _ _).subset h)

/-- A text that goes through a line file unchanged as a field. -/
def IsField (text : Text) : Prop := ';' ∉ text ∧ '\n' ∉ text

instance (text : Text) : Decidable (IsField text) := inferInstanceAs (Decidable (_ ∧ _))

theorem isField_of_subset {text other : Text} (h : IsField other) (hSub : text ⊆ other) :
    IsField text := ⟨fun hMem => h.1 (hSub hMem), fun hMem => h.2 (hSub hMem)⟩

theorem isField_splitLine {line : Text} (h : '\n' ∉ line) (i : Nat) : IsField (splitLine line i) :=
  ⟨fun hMem => (mem_splitLine hMem).1 rfl, fun hMem => h (mem_splitLine hMem).2⟩

/-- The entries of an access list that comes from a field. -/
theorem mem_newAccessList {attr : Text} (h : IsField attr) {items : List Text}
    (hItems : newAccessList attr false = some items) : ∀ item ∈ items, ',' ∉ item ∧ IsField item := by
  simp only [newAccessList, Bool.false_eq_true, if_false] at hItems
  split_ifs at hItems
  · obtain rfl := Option.some.inj hItems
    decide
  · obtain rfl := Option.some.inj hItems
    intro item hMem
    obtain ⟨part, hPart, rfl⟩ := List.mem_map.mp hMem
    obtain ⟨hComma, hSub⟩ := mem_splitOn hPart
    refine ⟨fun hIn => hComma (mem_trim hIn), ?_⟩
    exact isField_of_subset h fun c hIn => hSub (mem_trim hIn)

/-- What holds of every parameter that is read from a data file. -/
structure FromFile (dmPrefix : Text) (param : Parameter) : Prop where
  name : IsField (param.name.drop dmPrefix.length)
  accessList : ∀ items ∈ param.accessList, ∀ item ∈ items, ',' ∉ item ∧ IsField item
  storageMode : param.storageMode.number ≤ 9
  immediateChanges : 0 ≤ param.immediateChanges ∧ param.immediateChanges ≤ 9
  notification : param.notification.number ≤ 9
  loadingMode : 0 ≤ param.loadingMode ∧ param.loadingMode ≤ 9
  state : param.state.mask ≤ 9

theorem fromFile_readParameter {line : Text} (h : '\n' ∉ line) {param : Parameter}
    (hRead : readParameter dmPrefix false line = some param) : FromFile dmPrefix param := by
  obtain ⟨⟨type, minValue, maxValue⟩, -, hParam⟩ := Option.bind_eq_some_iff.mp hRead
  obtain rfl := Option.some.inj hParam
  have hImmediate := digitOrLiteral_le "Y".toList (decodeAttr (splitLine line) 4)
  have hLoading : digitOr 0 (decodeAttr (splitLine line) 10) ≤ 9 := digitOr_le (by decide) _
  have hState : digitOr 0 (decodeAttr (splitLine line) 11) ≤ 9 := digitOr_le (by decide) _
  constructor
  · rw [List.drop_left]
    exact isField_splitLine h 0
  · intro items hItems
    exact mem_newAccessList (isField_splitLine h 8) hItems
  · rw [StorageMode.number_ofNumber]
    exact digitOr_le (by decide) _
  · dsimp only
    omega
  · rw [NotificationMode.number_ofNumber]
    exact digitOr_le (by decide) _
  · dsimp only
    omega
  · exact ParameterState.mask_ofMask_le hState

theorem fromFile_readFileParameters {file : Text} {res : Nat} {parameters : List Parameter}
    (hRead : readFileParameters dmPrefix false file = some (res, parameters)) :
    ∀ param ∈ parameters, FromFile dmPrefix param := by
  obtain ⟨params, hParams, hResult⟩ := Option.bind_eq_some_iff.mp hRead
  obtain ⟨-, rfl⟩ := Prod.mk.inj (Option.some.inj hResult)
  intro param hMem
  obtain ⟨line, hLine, hParam⟩ := exists_of_mem_mapM hParams hMem
  have hRead : line ∈ (readLines (.open file)).1 := (List.mem_filter.mp hLine).1
  exact fromFile_readParameter (newline_notMem_of_mem_readLines hRead) hParam

theorem isSome_readParameter (dmPrefix : Text) (isIniFile : Bool) (line : Text) :
    (readParameter dmPrefix isIniFile line).isSome = true := by
  obtain ⟨type, hType⟩ := Option.isSome_iff_exists.mp
    (ParameterType.isSome_stringToType (decodeAttr (splitLine line) 1))
  rw [readParameter, newParameter, hType]
  rfl

/-- Every file gives a list, and the code says whether it passes its check. -/
theorem exists_readFileParameters (dmPrefix : Text) (isIniFile : Bool) (file : Text) :
    ∃ parameters, readFileParameters dmPrefix isIniFile file =
      some (if !isIniFile && !(readLines (.open file)).2.crcOK then 2 else 0, parameters) := by
  obtain ⟨parameters, hRead⟩ : ∃ parameters, ((readLines (.open file)).1.filter fun line => !isSkipped line).mapM
      (readParameter dmPrefix isIniFile) = some parameters := by
    refine Option.ne_none_iff_exists'.mp fun hFails => ?_
    obtain ⟨line, -, hLine⟩ := mapM_eq_none_iff.mp hFails
    have hSome := isSome_readParameter dmPrefix isIniFile line
    rw [hLine] at hSome
    cases hSome
  refine ⟨parameters, ?_⟩
  simp only [readFileParameters, hRead]
  rfl

end Range

section Line

def freeTexts (param : Parameter) : List (Option Text) :=
  [param.value, param.backValue, param.configKey, param.definition]

/-- The parameters the program keeps: the name begins with the prefix, the free texts are in ASCII, the
bounds are `int` values and the line fits the line buffer. -/
structure ParameterWellFormed (dmPrefix : Text) (param : Parameter) : Prop where
  name : dmPrefix <+: param.name
  ascii : ∀ text ∈ freeTexts param, IsAscii (text.getD [])
  minValue : InInt param.minValue
  maxValue : InInt param.maxValue
  length : (parameterLine dmPrefix param).length + 1 < maxLineLen

/-- The name and the entries of the access list can be fields. -/
structure HasFields (dmPrefix : Text) (param : Parameter) : Prop where
  name : IsField (param.name.drop dmPrefix.length)
  accessList : ∀ items ∈ param.accessList, ∀ item ∈ items, ',' ∉ item ∧ IsField item

theorem isField_showInt (n : Int) : IsField (showInt n) :=
  ⟨not_mem_showInt (by decide) (by decide) n, not_mem_showInt (by decide) (by decide) n⟩

theorem belowSpace_of_mem_encoded {str : Option Text} (h : IsAscii (str.getD [])) {c : Char}
    (hMem : c ∈ encoded str) : c ≠ ';' ∧ belowSpace c = false := by
  rcases mem_encoded h hMem with rfl | hPlain
  · decide
  · simp only [needsEncoding, Bool.or_eq_false_iff] at hPlain
    refine ⟨?_, by simp [belowSpace, hPlain.1]⟩
    rintro rfl
    exact absurd hPlain.2 (by decide)

theorem isField_encoded {str : Option Text} (h : IsAscii (str.getD [])) : IsField (encoded str) := by
  constructor
  · exact fun hMem => (belowSpace_of_mem_encoded h hMem).1 rfl
  · exact fun hMem => absurd (belowSpace_of_mem_encoded h hMem).2 (by decide)

theorem isField_join {sep : Char} (hSep : IsField [sep]) {fields : List Text}
    (h : ∀ field ∈ fields, IsField field) : IsField (join sep fields) := by
  constructor
  · intro hMem
    rcases mem_join hMem with rfl | ⟨field, hField, hIn⟩
    · exact hSep.1 List.mem_cons_self
    · exact (h field hField).1 hIn
  · intro hMem
    rcases mem_join hMem with rfl | ⟨field, hField, hIn⟩
    · exact hSep.2 List.mem_cons_self
    · exact (h field hField).2 hIn

theorem isField_typeToString (type : ParameterType) (min max : Int) :
    IsField (type.typeToString min max) := by
  refine isField_join (by decide) fun part hMem => ?_
  rcases List.mem_cons.mp hMem with rfl | hBound
  · exact isField_showInt _
  · have hEmpty : IsField [] := by decide
    cases type <;> simp only [ParameterType.boundParts] at hBound <;> grind [isField_showInt]

theorem isField_accessList {accessList : Option (List Text)}
    (h : ∀ items ∈ accessList, ∀ item ∈ items, ',' ∉ item ∧ IsField item) :
    IsField ((buildCommaSeparatedList accessList).getD []) := by
  rw [buildCommaSeparatedList.eq_def]
  split
  · decide
  · decide
  · rename_i items _
    exact isField_join (by decide) fun item hMem => (h items rfl item hMem).2

theorem isField_attributes {param : Parameter} (hForm : ParameterWellFormed dmPrefix param)
    (hFields : HasFields dmPrefix param) : ∀ attr ∈ attributes dmPrefix param, IsField attr := by
  have hAscii := hForm.ascii
  simp only [freeTexts, List.forall_mem_cons] at hAscii
  obtain ⟨hValue, hBack, hKey, hDefinition, -⟩ := hAscii
  simp only [attributes, List.forall_mem_cons]
  exact ⟨hFields.name, isField_typeToString _ _ _, isField_showInt _, isField_showInt _,
    isField_showInt _, isField_showInt _, isField_showInt _, isField_showInt _,
    isField_accessList hFields.accessList, isField_encoded hValue, isField_showInt _,
    isField_showInt _, isField_encoded hBack, isField_encoded hKey, isField_encoded hDefinition,
    by simp⟩

theorem splitOn_parameterLine {param : Parameter} (hForm : ParameterWellFormed dmPrefix param)
    (hFields : HasFields dmPrefix param) :
    (parameterLine dmPrefix param).splitOn ';' = attributes dmPrefix param :=
  splitOn_join (fun attr hMem => (isField_attributes hForm hFields attr hMem).1) (List.cons_ne_nil _ _)

theorem fits_parameterLine {param : Parameter} (hForm : ParameterWellFormed dmPrefix param)
    (hFields : HasFields dmPrefix param) : Fits (parameterLine dmPrefix param) := by
  refine ⟨hForm.length, ?_, ?_⟩
  · intro hMem
    rcases mem_join hMem with hSep | ⟨attr, hAttr, hIn⟩
    · exact absurd hSep (by decide)
    · exact (isField_attributes hForm hFields attr hAttr).2 hIn
  · -- the line ends with the definition, which is encoded
    have hAscii : IsAscii (param.definition.getD []) := hForm.ascii param.definition (by simp [freeTexts])
    have hSplit : attributes dmPrefix param =
        (attributes dmPrefix param).take 14 ++ [encoded param.definition] := rfl
    have hFront : (attributes dmPrefix param).take 14 ≠ [] := by simp [attributes]
    intro c hLast
    rw [parameterLine, hSplit, join_concat hFront, List.getLast?_append_of_ne_nil _ (List.cons_ne_nil _ _)] at hLast
    rcases List.mem_cons.mp (List.mem_of_getLast? hLast) with rfl | hIn
    · decide
    · exact (belowSpace_of_mem_encoded hAscii hIn).2

end Line

section Reread

/-- The parameter with its empty texts taken for missing ones. -/
def blanked (param : Parameter) : Parameter :=
  { param with
    backValue := emptyAsNull (param.backValue.getD [])
    value := emptyAsNull (param.value.getD [])
    configKey := emptyAsNull (param.configKey.getD [])
    definition := emptyAsNull (param.definition.getD []) }

theorem emptyAsNull_getD_getD (text : Option Text) :
    emptyAsNull ((emptyAsNull (text.getD [])).getD []) = emptyAsNull (text.getD []) := by
  simp only [emptyAsNull]
  split <;> simp_all

/-- The bounds, the digits and the access list after they went through the file. -/
def reread (param : Parameter) : Parameter :=
  let parts := ParameterType.parts param.type param.minValue param.maxValue
  let bounds := ParameterType.bounds param.type parts[1]? parts[2]?
  { blanked param with
    minValue := bounds.1
    maxValue := bounds.2
    storageMode := .ofNumber (digitOr 0 (showInt (ofUint param.storageMode.number)))
    immediateChanges := digitOrLiteral "Y".toList (showInt param.immediateChanges)
    accessList := newAccessList ((buildCommaSeparatedList param.accessList).getD []) false
    notification := .ofNumber (digitOr 0 (showInt (ofUint param.notification.number)))
    loadingMode := digitOr 0 (showInt param.loadingMode)
    state := .ofMask (digitOr 0 (showInt param.state.mask)) }

theorem readParameter_parameterLine {param : Parameter} (hForm : ParameterWellFormed dmPrefix param)
    (hFields : HasFields dmPrefix param) :
    readParameter dmPrefix false (parameterLine dmPrefix param) = some (reread param) := by
  have hAscii := hForm.ascii
  simp only [freeTexts, List.forall_mem_cons] at hAscii
  obtain ⟨hValue, hBack, hKey, hDefinition, -⟩ := hAscii
  have hSplit : splitLine (parameterLine dmPrefix param) =
      fun i => (attributes dmPrefix param)[i]?.getD [] := by
    funext i
    rw [splitLine, splitOn_parameterLine hForm hFields]
    rfl
  have hName : dmPrefix ++ param.name.drop dmPrefix.length = param.name := by
    obtain ⟨rest, hRest⟩ := hForm.name
    rw [← hRest, List.drop_left]
  have hBool (literal : Text) (b : Bool) :
      decide (digitOrLiteral literal (boolDigit b) = 0) = !b := by
    cases b with
    | false => rfl
    | true => rfl
  rw [readParameter, hSplit]
  simp [newParameter, decodeAttr, attributes, ParameterType.stringToType_eq_bounds, hName,
    decoded_encoded hValue, decoded_encoded hBack, decoded_encoded hKey, decoded_encoded hDefinition,
    reread, blanked]
  exact ⟨hBool _ _, hBool _ _, hBool _ _⟩

/-- The access lists that their text carries. -/
def ListCarried (accessList : Option (List Text)) : Prop :=
  ∀ items ∈ accessList, join ',' items ≠ [] ∧ ∀ item ∈ items, trim item = item

theorem newAccessList_build_iff {accessList : Option (List Text)}
    (hComma : ∀ items ∈ accessList, ∀ item ∈ items, ',' ∉ item) :
    newAccessList ((buildCommaSeparatedList accessList).getD []) false = accessList ↔
      ListCarried accessList := by
  cases accessList with
  | none => simp [newAccessList, buildCommaSeparatedList, ListCarried]
  | some items =>
    have hBuild : (buildCommaSeparatedList (some items)).getD [] = join ',' items := by
      cases items <;> rfl
    have hCarried : ListCarried (some items) ↔
        join ',' items ≠ [] ∧ ∀ item ∈ items, trim item = item := by
      simp [ListCarried]
    rw [hBuild, hCarried, newAccessList]
    rcases eq_or_ne (join ',' items) [] with hEmpty | hEmpty
    · simp [hEmpty]
    · have hSome : items ≠ [] := by
        rintro rfl
        exact hEmpty rfl
      have hSplit := splitOn_join (hComma items rfl) hSome
      rw [if_neg hEmpty, and_iff_right hEmpty]
      split_ifs with hDefault
      · rw [hDefault] at hSplit
        obtain rfl : defaultAccessList = items := hSplit
        exact iff_of_true rfl (by decide)
      · rw [splitCommaSeparatedList, hSplit, Option.some.injEq]
        simpa only [List.map_id, id] using List.map_inj_left (f := trim) (g := id) (l := items)

theorem digitOr_showInt_iff {n : Int} : (digitOr 0 (showInt n) : Int) = n ↔ 0 ≤ n ∧ n ≤ 9 := by
  constructor
  · intro hSame
    have := digitOr_le (by decide : 0 ≤ 9) (showInt n)
    omega
  · rintro ⟨hLow, hHigh⟩
    obtain ⟨k, rfl⟩ := Int.eq_ofNat_of_zero_le hLow
    rw [digitOr_showInt (by omega)]

theorem digitOr_showInt_ofUint_iff {n : Nat} : digitOr 0 (showInt (ofUint n)) = n ↔ n ≤ 9 := by
  constructor
  · intro hSame
    rw [← hSame]
    exact digitOr_le (by decide) _
  · intro hDigit
    have hShort : ofUint n = n := if_pos (by omega)
    rw [hShort, digitOr_showInt hDigit]

theorem ofNumber_storageMode_iff {storageMode : StorageMode} :
    StorageMode.ofNumber (digitOr 0 (showInt (ofUint storageMode.number))) = storageMode ↔
      storageMode.number ≤ 9 := by
  rw [← digitOr_showInt_ofUint_iff]
  constructor
  · intro hSame
    rw [← StorageMode.number_ofNumber (digitOr 0 _), hSame]
  · intro hSame
    rw [hSame, StorageMode.ofNumber_number]

theorem ofNumber_notification_iff {notification : NotificationMode} :
    NotificationMode.ofNumber (digitOr 0 (showInt (ofUint notification.number))) = notification ↔
      notification.number ≤ 9 := by
  rw [← digitOr_showInt_ofUint_iff]
  constructor
  · intro hSame
    rw [← NotificationMode.number_ofNumber (digitOr 0 _), hSame]
  · intro hSame
    rw [hSame, NotificationMode.ofNumber_number]

theorem digitOrLiteral_showInt_iff {literal : Text} {n : Int} :
    (digitOrLiteral literal (showInt n) : Int) = n ↔ 0 ≤ n ∧ n ≤ 9 := by
  constructor
  · intro hSame
    have := digitOrLiteral_le literal (showInt n)
    omega
  · rintro ⟨hLow, hHigh⟩
    obtain ⟨k, rfl⟩ := Int.eq_ofNat_of_zero_le hLow
    rw [digitOrLiteral, digitOr_showInt (by omega)]

theorem ofMask_digitOr_iff {state : ParameterState} :
    ParameterState.ofMask (digitOr 0 (showInt state.mask)) = state ↔ state.mask ≤ 9 := by
  constructor
  · intro hSame
    rw [← hSame]
    exact ParameterState.mask_ofMask_le (digitOr_le (by decide) _)
  · intro hMask
    rw [digitOr_showInt hMask, ParameterState.ofMask_mask]

structure ValuesCarried (param : Parameter) : Prop where
  bounds : ParameterType.Bounded param.type param.minValue param.maxValue
  storageMode : param.storageMode.number ≤ 9
  immediateChanges : 0 ≤ param.immediateChanges ∧ param.immediateChanges ≤ 9
  listCarried : ListCarried param.accessList
  notification : param.notification.number ≤ 9
  loadingMode : 0 ≤ param.loadingMode ∧ param.loadingMode ≤ 9
  state : param.state.mask ≤ 9

theorem reread_eq_blanked_iff {param : Parameter} (hForm : ParameterWellFormed dmPrefix param)
    (hFields : HasFields dmPrefix param) : reread param = blanked param ↔ ValuesCarried param := by
  have hBounds : _ ↔ ParameterType.Bounded param.type _ _ :=
    ParameterType.stringToType_typeToString hForm.minValue hForm.maxValue
  rw [ParameterType.stringToType_eq_bounds, Option.some.injEq, Prod.mk.injEq, eq_self, true_and,
    Prod.ext_iff] at hBounds
  have hList := newAccessList_build_iff fun items hItems item hItem =>
    (hFields.accessList items hItems item hItem).1
  simp only [reread, blanked, Parameter.mk.injEq, true_and, and_true, hList, digitOr_showInt_iff,
    digitOrLiteral_showInt_iff, ofMask_digitOr_iff, ofNumber_storageMode_iff, ofNumber_notification_iff]
  rw [← and_assoc, hBounds]
  constructor
  · rintro ⟨hBounded, hStorage, hImmediate, hAccess, hNotification, hLoading, hState⟩
    exact ⟨hBounded, hStorage, hImmediate, hAccess, hNotification, hLoading, hState⟩
  · rintro ⟨hBounded, hStorage, hImmediate, hAccess, hNotification, hLoading, hState⟩
    exact ⟨hBounded, hStorage, hImmediate, hAccess, hNotification, hLoading, hState⟩

end Reread

section RoundTrip

/-- The parameters that come back from the file: the name can be a field and does not make its line a
comment or a checksum line, the entries of the access list can be fields, hold no comma and no blank at
an end, and the file carries the numbers and the bounds. -/
structure StorableParameter (dmPrefix : Text) (param : Parameter) : Prop
    extends HasFields dmPrefix param, ValuesCarried param where
  noComment : (param.name.drop dmPrefix.length).head? ≠ some '#'
  noCrcLine : (param.name.drop dmPrefix.length).head? ≠ some '*'

theorem isSkipped_append_eq_false_iff (field : Text) {rest : Text} (h : rest ≠ []) :
    isSkipped (field ++ ';' :: rest) = false ↔ field.head? ≠ some '#' := by
  have := List.length_pos_of_ne_nil h
  cases field with
  | nil => simp [isSkipped, h]
  | cons c field => simp [isSkipped]

theorem parameterLine_eq_append (dmPrefix : Text) (param : Parameter) :
    ∃ rest ≠ [], parameterLine dmPrefix param = param.name.drop dmPrefix.length ++ ';' :: rest := by
  refine ⟨_, ?_, join_cons (List.cons_ne_nil _ _) _⟩
  have hLength : _ ≤ (join ';' (attributes dmPrefix param).tail).length + 1 :=
    length_le_length_join (attributes dmPrefix param).tail
  intro hEmpty
  rw [attributes, List.tail_cons, hEmpty] at hLength
  exact absurd hLength (by simp)

theorem isSkipped_parameterLine_iff (param : Parameter) :
    isSkipped (parameterLine dmPrefix param) = false ↔
      (param.name.drop dmPrefix.length).head? ≠ some '#' := by
  obtain ⟨rest, hRest, hLine⟩ := parameterLine_eq_append dmPrefix param
  rw [hLine, isSkipped_append_eq_false_iff _ hRest]

theorem isCrcLine_parameterLine_iff (param : Parameter) :
    isCrcLine (parameterLine dmPrefix param) = false ↔
      (param.name.drop dmPrefix.length).head? ≠ some '*' := by
  obtain ⟨rest, -, hLine⟩ := parameterLine_eq_append dmPrefix param
  rw [hLine, isCrcLine_append_eq_false_iff]

theorem parameterLines_eq_map {parameters : List Parameter}
    (hForm : ∀ param ∈ parameters, ParameterWellFormed dmPrefix param) :
    parameterLines dmPrefix parameters = parameters.map (parameterLine dmPrefix) := by
  have hAll : parameters.filter (fun param => dmPrefix.isPrefixOf param.name) = parameters :=
    List.filter_eq_self.mpr fun param hMem => List.isPrefixOf_iff_prefix.mpr (hForm param hMem).name
  rw [parameterLines, hAll]

theorem readFileParameters_lines {lines : List Text} (hFits : ∀ line ∈ lines, Fits line) :
    readFileParameters dmPrefix false (writeFile lines) = do
      let parameters ← ((lines.takeWhile fun line => !isCrcLine line).filter
        fun line => !isSkipped line).mapM (readParameter dmPrefix false)
      return (if (readLines (.open (writeFile lines))).2.crcOK then 0 else 2, parameters) := by
  have hPlain : ∀ line ∈ lines ++ [crcLine lines], EndsPlain line :=
    fun line hMem => (fits_writeFile hFits line hMem).2.2
  have hTake : (lines ++ [crcLine lines]).takeWhile (fun line => !isCrcLine line) =
      lines.takeWhile fun line => !isCrcLine line := by
    apply takeWhile_concat_of_neg
    simp [isCrcLine_crcLine]
  have hLines : (readLines (.open (writeFile lines))).1 = lines.takeWhile fun line => !isCrcLine line := by
    rw [readLines, LineReader.open, fgets_writeFile hFits, readLinesFrom_lines hPlain, hTake]
  simp only [readFileParameters, hLines]
  cases (readLines (.open (writeFile lines))).2.crcOK <;> rfl

/-- The parameters whose lines are read back as lines of parameters. -/
structure ReadableParameter (dmPrefix : Text) (param : Parameter) : Prop extends HasFields dmPrefix param where
  noComment : (param.name.drop dmPrefix.length).head? ≠ some '#'
  noCrcLine : (param.name.drop dmPrefix.length).head? ≠ some '*'

theorem readable_of_mem_readFileParameters {file : Text} {res : Nat} {parameters : List Parameter}
    (hRead : readFileParameters dmPrefix false file = some (res, parameters)) :
    ∀ param ∈ parameters, ReadableParameter dmPrefix param := by
  intro param hMem
  have hFile := fromFile_readFileParameters hRead param hMem
  obtain ⟨params, hParams, hResult⟩ := Option.bind_eq_some_iff.mp hRead
  obtain ⟨-, rfl⟩ := Prod.mk.inj (Option.some.inj hResult)
  obtain ⟨line, hLine, hParam⟩ := exists_of_mem_mapM hParams hMem
  obtain ⟨hRead, hSkipped⟩ := List.mem_filter.mp hLine
  have hCrc := isCrcLine_of_mem_readLinesFrom hRead
  obtain ⟨⟨type, minValue, maxValue⟩, -, hSame⟩ := Option.bind_eq_some_iff.mp hParam
  obtain rfl := Option.some.inj hSame
  -- the name without the prefix is the first field of a line that was not left out
  have hHead {c : Char} (h : ((dmPrefix ++ decodeAttr (splitLine line) 0).drop dmPrefix.length).head? = some c) :
      line.head? = some c := by
    rw [List.drop_left] at h
    exact head_splitLine h
  refine ⟨⟨hFile.name, hFile.accessList⟩, fun hComment => ?_, fun hStar => ?_⟩
  · simp [isSkipped, hHead hComment] at hSkipped
  · simp [isCrcLine, hHead hStar] at hCrc
    simp [isSkipped] at hSkipped
    omega

theorem reload_readableParameters {parameters : List Parameter}
    (hForm : ∀ param ∈ parameters, ParameterWellFormed dmPrefix param)
    (hReadable : ∀ param ∈ parameters, ReadableParameter dmPrefix param) :
    readFileParameters dmPrefix false (writeParameters dmPrefix parameters) =
      some (0, parameters.map reread) := by
  have hFits : ∀ line ∈ parameters.map (parameterLine dmPrefix), Fits line := by
    intro line hMem
    obtain ⟨param, hParam, rfl⟩ := List.mem_map.mp hMem
    exact fits_parameterLine (hForm param hParam) (hReadable param hParam).toHasFields
  have hCrc : ∀ line ∈ parameters.map (parameterLine dmPrefix), isCrcLine line = false := by
    intro line hMem
    obtain ⟨param, hParam, rfl⟩ := List.mem_map.mp hMem
    exact (isCrcLine_parameterLine_iff param).mpr (hReadable param hParam).noCrcLine
  have hTake : (parameters.map (parameterLine dmPrefix)).takeWhile (fun line => !isCrcLine line) = _ :=
    List.takeWhile_eq_self_iff.mpr fun line hMem => by simp [hCrc line hMem]
  have hFilter : (parameters.map (parameterLine dmPrefix)).filter (fun line => !isSkipped line) =
      parameters.map (parameterLine dmPrefix) := by
    refine List.filter_eq_self.mpr fun line hMem => ?_
    obtain ⟨param, hParam, rfl⟩ := List.mem_map.mp hMem
    simp [(isSkipped_parameterLine_iff param).mpr (hReadable param hParam).noComment]
  have hRead : (parameters.map (parameterLine dmPrefix)).mapM (readParameter dmPrefix false) =
      some (parameters.map reread) := by
    rw [mapM_eq_some_iff, List.forall₂_map_left_iff, List.forall₂_map_right_iff, List.forall₂_same]
    intro param hMem
    exact readParameter_parameterLine (hForm param hMem) (hReadable param hMem).toHasFields
  rw [writeParameters, parameterLines_eq_map hForm, readFileParameters_lines hFits, hTake, hFilter, hRead,
    readLines_crcOK_writeFile hFits hCrc]
  rfl

theorem reload_storableParameters {parameters : List Parameter}
    (hForm : ∀ param ∈ parameters, ParameterWellFormed dmPrefix param)
    (hStorable : ∀ param ∈ parameters, StorableParameter dmPrefix param) :
    readFileParameters dmPrefix false (writeParameters dmPrefix parameters) =
      some (0, parameters.map blanked) := by
  have hSame : parameters.map reread = parameters.map blanked := List.map_congr_left fun param hMem =>
    (reread_eq_blanked_iff (hForm param hMem) (hStorable param hMem).toHasFields).mpr
      (hStorable param hMem).toValuesCarried
  rw [← hSame]
  refine reload_readableParameters hForm fun param hMem => ?_
  have h := hStorable param hMem
  exact ⟨h.toHasFields, h.noComment, h.noCrcLine⟩

theorem hasFields_of_blanked {param : Parameter} (h : FromFile dmPrefix (blanked param)) :
    HasFields dmPrefix param := ⟨h.name, h.accessList⟩

/-- A list as long as the one that was saved has come of the lines of all its parameters. -/
theorem eq_map_reread_of_reload {parameters loaded : List Parameter} {res : Nat}
    (hForm : ∀ param ∈ parameters, ParameterWellFormed dmPrefix param)
    (hFields : ∀ param ∈ parameters, HasFields dmPrefix param)
    (hReload : readFileParameters dmPrefix false (writeParameters dmPrefix parameters) = some (res, loaded))
    (hLength : loaded.length = parameters.length) :
    loaded = parameters.map reread ∧ ∀ param ∈ parameters, ReadableParameter dmPrefix param := by
  have hFits : ∀ line ∈ parameters.map (parameterLine dmPrefix), Fits line := by
    intro line hMem
    obtain ⟨param, hParam, rfl⟩ := List.mem_map.mp hMem
    exact fits_parameterLine (hForm param hParam) (hFields param hParam)
  rw [writeParameters, parameterLines_eq_map hForm, readFileParameters_lines hFits] at hReload
  obtain ⟨params, hParams, hResult⟩ := Option.bind_eq_some_iff.mp hReload
  obtain rfl : params = loaded := (Prod.mk.inj (Option.some.inj hResult)).2
  -- every line gives at most one parameter, so none of them is left out
  have hEach := mapM_eq_some_iff.mp hParams
  have hAll : ((parameters.map (parameterLine dmPrefix)).takeWhile fun line => !isCrcLine line).filter
      (fun line => !isSkipped line) = parameters.map (parameterLine dmPrefix) := by
    refine (List.filter_sublist.trans (List.takeWhile_sublist _)).eq_of_length ?_
    rw [hEach.length_eq, hLength, List.length_map]
  have hReread : (parameters.map (parameterLine dmPrefix)).mapM (readParameter dmPrefix false) =
      some (parameters.map reread) := by
    rw [mapM_eq_some_iff, List.forall₂_map_left_iff, List.forall₂_map_right_iff, List.forall₂_same]
    exact fun param hMem => readParameter_parameterLine (hForm param hMem) (hFields param hMem)
  rw [hAll, hReread] at hParams
  refine ⟨(Option.some.inj hParams).symm, fun param hMem => ?_⟩
  have hLine : parameterLine dmPrefix param ∈ ((parameters.map (parameterLine dmPrefix)).takeWhile
      fun line => !isCrcLine line).filter fun line => !isSkipped line := by
    rw [hAll]
    exact List.mem_map_of_mem hMem
  obtain ⟨hTaken, hSkipped⟩ := List.mem_filter.mp hLine
  have hCrc := List.mem_takeWhile_imp hTaken
  exact { hFields param hMem with
    noComment := (isSkipped_parameterLine_iff param).mp (by simpa using hSkipped)
    noCrcLine := (isCrcLine_parameterLine_iff param).mp (by simpa using hCrc) }

/-- Saving and reloading gives back the same list, up to empty texts, if and only if every parameter of
it is storable. -/
theorem reload_parameters_iff_storable (dmPrefix : Text) (parameters : List Parameter)
    (hForm : ∀ param ∈ parameters, ParameterWellFormed dmPrefix param) :
    readFileParameters dmPrefix false (writeParameters dmPrefix parameters) =
        some (0, parameters.map blanked) ↔
      ∀ param ∈ parameters, StorableParameter dmPrefix param := by
  refine ⟨fun hReload => ?_, reload_storableParameters hForm⟩
  have hFields : ∀ param ∈ parameters, HasFields dmPrefix param := fun param hMem =>
    hasFields_of_blanked (fromFile_readFileParameters hReload _ (List.mem_map_of_mem hMem))
  obtain ⟨hSame, hReadable⟩ := eq_map_reread_of_reload hForm hFields hReload (by rw [List.length_map])
  intro param hMem
  have hCarried := (reread_eq_blanked_iff (hForm param hMem) (hFields param hMem)).mp
    (List.map_inj_left.mp hSame param hMem).symm
  exact { hFields param hMem, hCarried, hReadable param hMem with }

/-- A parameter that comes back from the file as it was, where no free text is empty. -/
structure RestorableParameter (dmPrefix : Text) (param : Parameter) : Prop
    extends StorableParameter dmPrefix param where
  texts : some [] ∉ freeTexts param

theorem emptyAsNull_getD_eq_iff {text : Option Text} : emptyAsNull (text.getD []) = text ↔ text ≠ some [] := by
  cases text with
  | none => simp [emptyAsNull]
  | some text =>
    rw [Option.getD_some, emptyAsNull]
    split <;> simp_all

theorem blanked_eq_self_iff {param : Parameter} : blanked param = param ↔ some [] ∉ freeTexts param := by
  obtain ⟨⟩ := param
  simp only [blanked, Parameter.mk.injEq, true_and, emptyAsNull_getD_eq_iff, freeTexts, List.mem_cons, List.not_mem_nil,
    or_false, not_or, ne_eq]
  grind

theorem blanked_reread (param : Parameter) : blanked (reread param) = reread param := by
  simp [blanked, reread, emptyAsNull_getD_getD]

theorem reread_eq_self_iff {param : Parameter} (hForm : ParameterWellFormed dmPrefix param)
    (hFields : HasFields dmPrefix param) :
    reread param = param ↔ ValuesCarried param ∧ some [] ∉ freeTexts param := by
  rw [← reread_eq_blanked_iff hForm hFields, ← blanked_eq_self_iff]
  constructor
  · intro hSame
    have hBlanked := blanked_reread param
    rw [hSame] at hBlanked
    exact ⟨hSame.trans hBlanked.symm, hBlanked⟩
  · rintro ⟨hCarried, hBlanked⟩
    exact hCarried.trans hBlanked

theorem reload_restorableParameters {parameters : List Parameter}
    (hForm : ∀ param ∈ parameters, ParameterWellFormed dmPrefix param)
    (hRestorable : ∀ param ∈ parameters, RestorableParameter dmPrefix param) :
    readFileParameters dmPrefix false (writeParameters dmPrefix parameters) = some (0, parameters) := by
  have hSame : parameters.map blanked = parameters := by
    conv_rhs => rw [← List.map_id parameters]
    exact List.map_congr_left fun param hMem => blanked_eq_self_iff.mpr (hRestorable param hMem).texts
  rw [reload_storableParameters hForm fun param hMem => (hRestorable param hMem).toStorableParameter, hSame]

theorem restorable_of_reload {parameters : List Parameter} {res : Nat}
    (hForm : ∀ param ∈ parameters, ParameterWellFormed dmPrefix param)
    (hFields : ∀ param ∈ parameters, HasFields dmPrefix param)
    (hReload : readFileParameters dmPrefix false (writeParameters dmPrefix parameters) = some (res, parameters)) :
    ∀ param ∈ parameters, RestorableParameter dmPrefix param := by
  obtain ⟨hSame, hReadable⟩ := eq_map_reread_of_reload hForm hFields hReload rfl
  intro param hMem
  have hReread : reread param = param :=
    (List.map_inj_left.mp (hSame.symm.trans (List.map_id parameters).symm) param hMem)
  obtain ⟨hCarried, hTexts⟩ := (reread_eq_self_iff (hForm param hMem) (hFields param hMem)).mp hReread
  exact { hFields param hMem, hCarried, hReadable param hMem with texts := hTexts }

def devicePrefix : Text := "Device.".toList

def sampleParameter : Parameter where
  name := "Device.Time.NTPServer1".toList
  type := .string
  minValue := 64
  maxValue := 0
  storageMode := .mixed
  writable := true
  immediateChanges := 1
  accessList := some ["Subscriber".toList]
  notification := .active
  mandatoryNotification := false
  activeNotificationDenied := false
  loadingMode := 0
  state := ⟨true, true, false, false, false⟩
  backValue := some "a;b".toList
  value := some "100%".toList
  configKey := none
  definition := some []

theorem wellFormed_sampleParameter : ParameterWellFormed devicePrefix sampleParameter :=
  ⟨by decide, by decide, by decide, by decide, by decide⟩

theorem reload_sampleParameter :
    readFileParameters devicePrefix false (writeParameters devicePrefix [sampleParameter]) =
      some (0, [blanked sampleParameter]) := by
  have hForm : ∀ param ∈ [sampleParameter], ParameterWellFormed devicePrefix param :=
    List.forall_mem_singleton.mpr wellFormed_sampleParameter
  refine (reload_parameters_iff_storable devicePrefix [sampleParameter] hForm).mpr ?_
  refine List.forall_mem_singleton.mpr ⟨⟨by decide, ?_⟩, ⟨⟨by decide, rfl⟩, by decide, by decide, ?_,
    by decide, by decide, by decide⟩, by decide, by decide⟩
  · intro items hItems
    obtain rfl := Option.some.inj hItems
    decide
  · intro items hItems
    obtain rfl := Option.some.inj hItems
    decide

/-- A parameter that was loaded and pushed, whose state is written with two digits. -/
def loadedParameter : Parameter :=
  { sampleParameter with state := ⟨false, false, false, true, true⟩ }

theorem loadedParameter_not_reloaded :
    ParameterWellFormed devicePrefix loadedParameter ∧
      readFileParameters devicePrefix false (writeParameters devicePrefix [loadedParameter]) =
        some (0, [{ blanked loadedParameter with state := ⟨false, true, false, false, false⟩ }]) ∧
      readFileParameters devicePrefix false (writeParameters devicePrefix [loadedParameter]) ≠
        some (0, [blanked loadedParameter]) :=
  ⟨⟨by decide, by decide, by decide, by decide, by decide⟩, by decide +kernel, by decide +kernel⟩

end RoundTrip

end Tr069Agent.Data
