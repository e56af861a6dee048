import Mathlib.Data.List.Basic
import Tr069Agent.Data.LineFile
import Tr069Agent.Engine.ParameterDeletion

/-! # Instances are copies of their prototype

The loop that copies a prototype goes through the list to which it adds the copies, and it builds their
names in the line buffer of the data file.
-/

namespace Tr069Agent.Engine

open Library Library.Decimal Library.NumberedNames
open Data (maxLineLen)

set_option autoImplicit false

section Source

/-- The buffer is too small for the text, a parameter is used that was just deleted, or the loop is not
at its end when its turns are. -/
inductive CreateError where
  | lineOverflow
  | freedParameter
  | unfinished
  deriving DecidableEq

/-- `sprintf` into the line buffer, the final zero included. -/
def writeLine (text : Text) : Except CreateError Text :=
  if text.length < maxLineLen then .ok text else .error .lineOverflow

namespace ParameterData

/-- `_putParameter`. -/
def put (data : ParameterData) (param : Parameter) : ParameterData where
  parameters := data.parameters.putParameter param
  nbParameters := if param.name ∈ data.parameters.names then data.nbParameters else data.nbParameters + 1

/-- The place of the parameter that `_putParameter` replaces and deletes. -/
def replaced (data : ParameterData) (param : Parameter) : Option Nat :=
  data.parameters.findIdx? (·.name = param.name)

/-- The loop of `DM_ENG_ParameterData_createInstance` from a place of the list on. -/
def createLoop (objectName : Text) (instanceNumber : Nat) :
    Nat → Nat → Text → ParameterData → Except CreateError ParameterData
  | 0, _, _, _ => .error .unfinished
  | turns + 1, i, line, data =>
    match data.parameters[i]? with
    | none => .ok data
    | some prm =>
      if inPrototype objectName prm then
        match writeLine (line.take objectName.length ++
            (showInt instanceNumber ++ prm.name.drop objectName.length)) with
        | .error e => .error e
        | .ok line =>
          if data.replaced (newInstanceParameter line prm) = some i then .error .freedParameter
          else createLoop objectName instanceNumber turns (i + 1) line (data.put (newInstanceParameter line prm))
      else createLoop objectName instanceNumber turns (i + 1) line data

/-- `DM_ENG_ParameterData_createInstance` with a bound on its turns. -/
def createInstance (turns : Nat) (data : ParameterData) (param : Parameter) (instanceNumber : Nat) :
    Except CreateError ParameterData :=
  match writeLine (child '.' param.name instanceNumber) with
  | .error e => .error e
  | .ok line => createLoop param.name instanceNumber turns 0 line (data.put (newInstanceParameter line param))

end ParameterData

end Source

section Loop

variable {objectName line : Text} {n : Nat} {dm : DataModel} {param prm : Parameter}

def instanceCopy (objectName : Text) (instanceNumber : Nat) (prm : Parameter) : Parameter :=
  newInstanceParameter (objectName ++ (showInt instanceNumber ++ prm.name.drop objectName.length)) prm

/-- The copies of the parameters of a list that are in the prototype. -/
def instanceCopies (objectName : Text) (instanceNumber : Nat) (params : List Parameter) : List Parameter :=
  (params.filter (inPrototype objectName)).map (instanceCopy objectName instanceNumber)

def FitInLine (copies : List Parameter) : Prop := ∀ copy ∈ copies, copy.name.length < maxLineLen

instance (copies : List Parameter) : Decidable (FitInLine copies) :=
  inferInstanceAs (Decidable (∀ copy ∈ copies, copy.name.length < maxLineLen))

theorem instanceCopies_skip {params : List Parameter} (h : inPrototype objectName prm = false) :
    instanceCopies objectName n (prm :: params) = instanceCopies objectName n params :=
  congrArg (List.map _) (List.filter_cons_of_neg (by simp [h]))

theorem instanceCopies_cons {params : List Parameter} (h : inPrototype objectName prm = true) :
    instanceCopies objectName n (prm :: params) =
      instanceCopy objectName n prm :: instanceCopies objectName n params := by
  rw [instanceCopies, List.filter_cons_of_pos h]
  rfl

theorem instanceParameters_eq (dm : DataModel) (param : Parameter) (n : Nat) :
    instanceParameters dm param n =
      newInstanceParameter (child '.' param.name n) param :: instanceCopies param.name n dm := rfl

theorem not_inPrototype_of_digit {rest : Text} (h : param.name = objectName ++ (showInt n ++ rest)) :
    inPrototype objectName param = false := by
  obtain ⟨c, digits, hDigits, hDigit⟩ := exists_toDigits_cons n
  have hShow : showInt n = c :: digits := hDigits
  refine Bool.eq_false_iff.mpr fun hPrefix => ?_
  obtain ⟨tail, hTail⟩ := List.isPrefixOf_iff_prefix.mp hPrefix
  rw [h, hShow, List.append_assoc, List.append_cancel_left_eq, List.singleton_append, List.cons_append,
    List.cons.injEq] at hTail
  rw [← hTail.1] at hDigit
  cases hDigit

/-- What is put is named otherwise than what the loop looks for. -/
theorem not_inPrototype_instanceCopy (prm : Parameter) :
    inPrototype objectName (instanceCopy objectName n prm) = false :=
  not_inPrototype_of_digit rfl

theorem not_inPrototype_child : inPrototype objectName (newInstanceParameter (child '.' objectName n) param) = false :=
  not_inPrototype_of_digit rfl

theorem inPrototype_congr {param prm : Parameter} (h : param.name = prm.name) :
    inPrototype objectName param = inPrototype objectName prm := by
  rw [inPrototype, inPrototype, h]

/-- Putting a parameter outside the prototype leaves those of the prototype where they are. -/
theorem filter_drop_putParameter (h : inPrototype objectName param = false) (k : Nat) :
    ((dm.putParameter param).drop k).filter (inPrototype objectName) =
      (dm.drop k).filter (inPrototype objectName) := by
  unfold DataModel.putParameter
  split
  · rename_i hMem
    clear hMem
    induction dm generalizing k with
    | nil => rfl
    | cons prm rest ih =>
      unfold DataModel.modify
      split
      · rename_i hName
        cases k with
        | zero =>
          rw [List.drop_zero, List.drop_zero, List.filter_cons_of_neg (by simp [h]),
            List.filter_cons_of_neg (by simp [inPrototype_congr hName, h])]
        | succ k => rfl
      · cases k with
        | zero =>
          have hRest := ih 0
          rw [List.drop_zero, List.drop_zero] at hRest
          simp only [List.drop_zero, List.filter_cons, hRest]
        | succ k => exact ih k
  · rw [List.drop_append, List.filter_append, List.append_right_eq_self, List.filter_eq_nil_iff]
    intro prm hMem
    rw [List.mem_singleton.mp (List.mem_of_mem_drop hMem), h]
    decide

theorem length_putParameter :
    (dm.putParameter param).length = if param.name ∈ dm.names then dm.length else dm.length + 1 := by
  unfold DataModel.putParameter
  split
  · have hNames := congrArg List.length (@DataModel.names_modify dm param.name (fun _ => param) fun _ _ => rfl)
    simpa [DataModel.names] using hNames
  · simp

theorem length_putParameter_le : (dm.putParameter param).length ≤ dm.length + 1 := by
  rw [length_putParameter]
  split <;> omega

namespace ParameterData

def putAll (data : ParameterData) (copies : List Parameter) : ParameterData := copies.foldl .put data

theorem parameters_putAll (data : ParameterData) (copies : List Parameter) :
    (data.putAll copies).parameters = copies.foldl .putParameter data.parameters := by
  induction copies generalizing data with
  | nil => rfl
  | cons copy copies ih => exact ih (data.put copy)

/-- The place where the loop is holds no parameter that a copy replaces. -/
theorem replaced_ne {data : ParameterData} {i : Nat} (hPrm : data.parameters[i]? = some prm)
    (hProto : inPrototype objectName prm = true) (hCopy : inPrototype objectName param = false) :
    data.replaced param ≠ some i := by
  intro hReplaced
  obtain ⟨hLength, hName, -⟩ := List.findIdx?_eq_some_iff_getElem.mp hReplaced
  obtain ⟨hLength', hAt⟩ := List.getElem?_eq_some_iff.mp hPrm
  rw [hAt, decide_eq_true_eq] at hName
  rw [inPrototype_congr hName, hCopy] at hProto
  cases hProto

theorem createLoop_end {turns i : Nat} {data : ParameterData} (h : data.parameters[i]? = none) :
    createLoop objectName n (turns + 1) i line data = .ok data := by
  rw [createLoop, h]

theorem createLoop_skip {turns i : Nat} {data : ParameterData} (h : data.parameters[i]? = some prm)
    (hProto : inPrototype objectName prm = false) :
    createLoop objectName n (turns + 1) i line data = createLoop objectName n turns (i + 1) line data := by
  rw [createLoop, h]
  dsimp only
  rw [hProto]
  rfl

theorem createLoop_copy {turns i : Nat} {data : ParameterData} (h : data.parameters[i]? = some prm)
    (hProto : inPrototype objectName prm = true) (hLine : objectName <+: line) :
    createLoop objectName n (turns + 1) i line data =
      if (instanceCopy objectName n prm).name.length < maxLineLen then
        createLoop objectName n turns (i + 1) (instanceCopy objectName n prm).name
          (data.put (instanceCopy objectName n prm))
      else .error .lineOverflow := by
  have hTake : line.take objectName.length = objectName := (List.prefix_iff_eq_take.mp hLine).symm
  have hReplaced : data.replaced (instanceCopy objectName n prm) ≠ some i :=
    replaced_ne h hProto (not_inPrototype_instanceCopy prm)
  rw [createLoop, h]
  dsimp only
  rw [if_pos hProto, hTake]
  by_cases hFits : (instanceCopy objectName n prm).name.length < maxLineLen
  · have hWrite : writeLine (objectName ++ (showInt n ++ prm.name.drop objectName.length)) =
        .ok (instanceCopy objectName n prm).name := if_pos hFits
    rw [hWrite, if_pos hFits]
    exact if_neg hReplaced
  · have hWrite : writeLine (objectName ++ (showInt n ++ prm.name.drop objectName.length)) =
        .error .lineOverflow := if_neg hFits
    rw [hWrite, if_neg hFits]

/-- From a place of the list on, the loop puts the copies of the parameters of the prototype that are left,
unless a name is too long. -/
theorem createLoop_eq {turns i : Nat} {data : ParameterData} (hLine : objectName <+: line)
    (hTurns : (data.parameters.drop i).length +
      (instanceCopies objectName n (data.parameters.drop i)).length < turns) :
    createLoop objectName n turns i line data =
      if FitInLine (instanceCopies objectName n (data.parameters.drop i))
      then .ok (data.putAll (instanceCopies objectName n (data.parameters.drop i)))
      else .error .lineOverflow := by
  induction turns generalizing i line data with
  | zero => exact absurd hTurns (Nat.not_lt_zero _)
  | succ turns ih =>
    cases hPrm : data.parameters[i]? with
    | none =>
      rw [createLoop_end hPrm, List.drop_eq_nil_of_le (List.getElem?_eq_none_iff.mp hPrm)]
      exact (if_pos (by simp [instanceCopies, FitInLine])).symm
    | some prm =>
      obtain ⟨hLength, hAt⟩ := List.getElem?_eq_some_iff.mp hPrm
      rw [List.drop_eq_getElem_cons hLength, hAt] at hTurns ⊢
      cases hProto : inPrototype objectName prm with
      | false =>
        rw [instanceCopies_skip hProto] at hTurns ⊢
        rw [List.length_cons] at hTurns
        rw [createLoop_skip hPrm hProto]
        exact ih hLine (by omega)
      | true =>
        rw [instanceCopies_cons hProto] at hTurns ⊢
        rw [List.length_cons, List.length_cons] at hTurns
        have hRest : instanceCopies objectName n
            ((data.put (instanceCopy objectName n prm)).parameters.drop (i + 1)) =
              instanceCopies objectName n (data.parameters.drop (i + 1)) :=
          congrArg (List.map _) (filter_drop_putParameter (not_inPrototype_instanceCopy prm) (i + 1))
        have hGrow : (data.put (instanceCopy objectName n prm)).parameters.length ≤ data.parameters.length + 1 :=
          length_putParameter_le
        rw [createLoop_copy hPrm hProto hLine]
        by_cases hFits : (instanceCopy objectName n prm).name.length < maxLineLen
        · have hNext := @ih (instanceCopy objectName n prm).name (i + 1)
            (data.put (instanceCopy objectName n prm)) (List.prefix_append _ _) (by
              rw [hRest, List.length_drop]
              rw [List.length_drop] at hTurns
              omega)
          rw [if_pos hFits, hNext, hRest]
          simp only [FitInLine, List.forall_mem_cons, hFits, true_and]
          rfl
        · rw [if_neg hFits, if_neg fun h => hFits (h _ List.mem_cons_self)]

/-- `DM_ENG_ParameterData_createInstance` needs at most two turns for each parameter. -/
theorem createInstance_eq {turns : Nat} (data : ParameterData) (param : Parameter) (n : Nat)
    (hTurns : 2 * data.parameters.length + 1 < turns) :
    data.createInstance turns param n =
      if FitInLine (instanceParameters data.parameters param n)
      then .ok (data.putAll (instanceParameters data.parameters param n))
      else .error .lineOverflow := by
  rw [instanceParameters_eq, createInstance]
  by_cases hFits : (child '.' param.name n).length < maxLineLen
  · have hWrite : writeLine (child '.' param.name n) = .ok (child '.' param.name n) := if_pos hFits
    have hCopies : instanceCopies param.name n
        ((data.put (newInstanceParameter (child '.' param.name n) param)).parameters.drop 0) =
          instanceCopies param.name n data.parameters :=
      congrArg (List.map _) (filter_drop_putParameter not_inPrototype_child 0)
    have hGrow : (data.put (newInstanceParameter (child '.' param.name n) param)).parameters.length ≤
        data.parameters.length + 1 := length_putParameter_le
    have hFew : (instanceCopies param.name n data.parameters).length ≤ data.parameters.length := by
      rw [instanceCopies, List.length_map]
      exact List.length_filter_le _ _
    rw [hWrite]
    dsimp only
    rw [createLoop_eq owner_prefix_child (by rw [hCopies, List.drop_zero]; omega), hCopies]
    simp only [FitInLine, List.forall_mem_cons, name_newInstanceParameter, hFits, true_and]
    rfl
  · have hWrite : writeLine (child '.' param.name n) = .error .lineOverflow := if_neg hFits
    rw [hWrite, if_neg fun h => hFits (h _ List.mem_cons_self)]

end ParameterData

end Loop

section Result

variable {dm : DataModel} {param prm : Parameter} {copies : List Parameter} {i : Nat}

theorem getElem?_modify_of_ne {name : Text} {f : Parameter → Parameter} (h : dm[i]? = some prm)
    (hName : prm.name ≠ name) : (dm.modify name f)[i]? = some prm := by
  induction dm generalizing i with
  | nil => exact h
  | cons first rest ih =>
    unfold DataModel.modify
    split
    · rename_i hFirst
      cases i with
      | zero =>
        obtain rfl := Option.some.inj h
        exact absurd hFirst hName
      | succ i => exact h
    · cases i with
      | zero => exact h
      | succ i => exact ih h

theorem getElem?_putParameter_of_ne (h : dm[i]? = some prm) (hName : prm.name ≠ param.name) :
    (dm.putParameter param)[i]? = some prm := by
  unfold DataModel.putParameter
  split
  · exact getElem?_modify_of_ne h hName
  · exact List.getElem?_append_left (List.getElem?_eq_some_iff.mp h).1 |>.trans h

theorem getElem?_of_putParameter (h : (dm.putParameter param)[i]? = some prm) :
    dm[i]? = some prm ∨ prm = param := by
  unfold DataModel.putParameter at h
  split at h
  · rename_i hMem
    clear hMem
    induction dm generalizing i with
    | nil => exact .inl h
    | cons first rest ih =>
      unfold DataModel.modify at h
      split at h
      · cases i with
        | zero => exact .inr (Option.some.inj h).symm
        | succ i => exact .inl h
      · cases i with
        | zero => exact .inl h
        | succ i => exact ih h
  · rcases Nat.lt_or_ge i dm.length with hLt | hGe
    · exact .inl (List.getElem?_append_left hLt ▸ h)
    · rw [List.getElem?_append_right hGe] at h
      exact .inr (List.mem_singleton.mp (List.mem_of_getElem? h))

theorem names_prefix_putParameter : dm.names <+: (dm.putParameter param).names := by
  unfold DataModel.putParameter
  split
  · rw [DataModel.names_modify fun _ _ => rfl]
  · rw [DataModel.names, DataModel.names, List.map_append]
    exact List.prefix_append _ _

theorem getElem?_putAll_of_ne (h : dm[i]? = some prm) (hName : ∀ copy ∈ copies, prm.name ≠ copy.name) :
    (copies.foldl DataModel.putParameter dm)[i]? = some prm := by
  induction copies generalizing dm with
  | nil => exact h
  | cons copy copies ih =>
    obtain ⟨hHead, hTail⟩ := List.forall_mem_cons.mp hName
    exact ih (getElem?_putParameter_of_ne h hHead) hTail

theorem getElem?_of_putAll (h : (copies.foldl DataModel.putParameter dm)[i]? = some prm) :
    dm[i]? = some prm ∨ prm ∈ copies := by
  induction copies generalizing dm with
  | nil => exact .inl h
  | cons copy copies ih =>
    rcases ih h with hBefore | hMem
    · rcases getElem?_of_putParameter hBefore with hBefore | rfl
      · exact .inl hBefore
      · exact .inr List.mem_cons_self
    · exact .inr (List.mem_cons_of_mem copy hMem)

theorem names_prefix_putAll : dm.names <+: DataModel.names (copies.foldl DataModel.putParameter dm) := by
  induction copies generalizing dm with
  | nil => exact List.prefix_refl _
  | cons copy copies ih => exact names_prefix_putParameter.trans ih

theorem getParameter_putAll_of_mem {copy : Parameter} (hMem : copy ∈ copies)
    (hSame : ∀ other ∈ copies, other.name = copy.name → other = copy) :
    DataModel.getParameter (copies.foldl DataModel.putParameter dm) copy.name = some copy := by
  have hFound : (copies.reverse.find? (·.name = copy.name)).isSome = true := by
    rw [List.find?_isSome]
    exact ⟨copy, List.mem_reverse.mpr hMem, decide_eq_true rfl⟩
  obtain ⟨other, hOther⟩ := Option.isSome_iff_exists.mp hFound
  have hName : other.name = copy.name := by simpa using List.find?_some hOther
  have hCopy : other = copy := hSame other (List.mem_reverse.mp (List.mem_of_find?_eq_some hOther)) hName
  rw [DataModel.getParameter_foldl_putParameter, hOther, Option.some_or, hCopy]

theorem ParameterData.Counted.put {data : ParameterData} (h : data.Counted) (param : Parameter) :
    (data.put param).Counted := by
  unfold ParameterData.Counted ParameterData.put at *
  dsimp only
  rw [length_putParameter, h]
  split
  · rfl
  · rw [Int.natCast_add, Int.natCast_one]

theorem ParameterData.Counted.putAll {data : ParameterData} (h : data.Counted) (copies : List Parameter) :
    (data.putAll copies).Counted := by
  induction copies generalizing data with
  | nil => exact h
  | cons copy copies ih => exact ih (h.put copy)

end Result

section Exactness

/-- The node and the parameters of the prototype are copied, every other parameter is as and where it was,
nothing else is there, and the number of the parameters is right if it was. -/
structure CopiesPrototype (before : ParameterData) (param : Parameter) (n : Nat) (after : ParameterData) : Prop where
  copied : ∀ copy ∈ instanceParameters before.parameters param n,
    after.parameters.getParameter copy.name = some copy
  kept : ∀ (i : Nat) (prm : Parameter), before.parameters[i]? = some prm →
    (∀ copy ∈ instanceParameters before.parameters param n, prm.name ≠ copy.name) →
    after.parameters[i]? = some prm
  places : before.parameters.names <+: after.parameters.names
  nothingElse : ∀ (i : Nat) (prm : Parameter), after.parameters[i]? = some prm →
    before.parameters[i]? = some prm ∨ prm ∈ instanceParameters before.parameters param n
  counted : before.Counted → after.Counted

/-- The function ends, and it has copied the prototype. -/
def InstanceCreated (data : ParameterData) (param : Parameter) (n : Nat) : Prop :=
  ∃ after, CopiesPrototype data param n after ∧
    ∀ turns, 2 * data.parameters.length + 1 < turns → data.createInstance turns param n = .ok after

/-- Two copies of one name are the same copy. -/
def NoneClash (copies : List Parameter) : Prop :=
  ∀ copy ∈ copies, ∀ other ∈ copies, other.name = copy.name → other = copy

instance (copies : List Parameter) : Decidable (NoneClash copies) :=
  inferInstanceAs (Decidable (∀ copy ∈ copies, ∀ other ∈ copies, other.name = copy.name → other = copy))

theorem copiesPrototype_putAll {data : ParameterData} {param : Parameter} {n : Nat}
    (h : NoneClash (instanceParameters data.parameters param n)) :
    CopiesPrototype data param n (data.putAll (instanceParameters data.parameters param n)) where
  copied copy hMem := by
    rw [ParameterData.parameters_putAll]
    exact getParameter_putAll_of_mem hMem (h copy hMem)
  kept i prm hPrm hName := by
    rw [ParameterData.parameters_putAll]
    exact getElem?_putAll_of_ne hPrm hName
  places := by
    rw [ParameterData.parameters_putAll]
    exact names_prefix_putAll
  nothingElse i prm hPrm := by
    rw [ParameterData.parameters_putAll] at hPrm
    exact getElem?_of_putAll hPrm
  counted hCounted := hCounted.putAll _

theorem InstanceCreated.fit {data : ParameterData} {param : Parameter} {n : Nat} (h : InstanceCreated data param n) :
    FitInLine (instanceParameters data.parameters param n) := by
  obtain ⟨after, -, hAfter⟩ := h
  have hRun := hAfter _ (Nat.lt_succ_self _)
  rw [ParameterData.createInstance_eq data param n (Nat.lt_succ_self _)] at hRun
  split at hRun
  · assumption
  · cases hRun

/-- The prototype is copied exactly when the names fit in the line buffer and no two parameters that differ
get one name. -/
theorem instanceCreated_iff (data : ParameterData) (param : Parameter) (n : Nat) :
    InstanceCreated data param n ↔
      FitInLine (instanceParameters data.parameters param n) ∧
        NoneClash (instanceParameters data.parameters param n) := by
  constructor
  · intro h
    refine ⟨h.fit, fun copy hMem other hOther hName => ?_⟩
    obtain ⟨after, hCopies, -⟩ := h
    have hFirst := hCopies.copied copy hMem
    have hSecond := hCopies.copied other hOther
    rw [hName, hFirst] at hSecond
    exact (Option.some.inj hSecond).symm
  · rintro ⟨hFit, hClash⟩
    refine ⟨_, copiesPrototype_putAll hClash, fun turns hTurns => ?_⟩
    rw [ParameterData.createInstance_eq data param n hTurns, if_pos hFit]

def longNode : Parameter :=
  newDefinedParameter ("Device.".toList ++ (List.replicate 790 'X' ++ ['.'])) .any none false

/-- The name of the instance has 800 characters, and there is no place for the zero behind it. -/
theorem longNode_overflows : ¬ InstanceCreated ⟨[longNode], 1⟩ longNode 1 := by
  have hFit : ¬ FitInLine (instanceParameters [longNode] longNode 1) := by decide +kernel
  exact fun h => hFit h.fit

/-- The data model is the one of the creation without a buffer. -/
theorem parameters_createInstance {data after : ParameterData} {param : Parameter} {n turns : Nat}
    (hTurns : 2 * data.parameters.length + 1 < turns) (h : data.createInstance turns param n = .ok after) :
    after.parameters = Engine.createInstance data.parameters param n := by
  rw [ParameterData.createInstance_eq data param n hTurns] at h
  split at h
  · obtain rfl := Except.ok.inj h
    exact ParameterData.parameters_putAll data _
  · cases h

end Exactness

end Tr069Agent.Engine
