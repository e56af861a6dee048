import Mathlib.Data.List.Forall2
import Tr069Agent.Engine.Objects

/-! # The counters of the collections

The number of a new instance is counted in the lower bound of its collection. A data model is counted
when the counter of every collection that can grow is not below the number of any instance, present or
past. A new instance keeps this when it respects the counters and the copies it is made of do.
-/

namespace Tr069Agent.Engine

open Library Library.NumberedNames

set_option autoImplicit false

section Counting

namespace Parameter

/-- A collection that AddObject numbers itself, with room. -/
def grows (param : Parameter) : Bool :=
  param.isNode && param.storageMode = .dmOnly && param.writable && param.counter < maxCounter

/-- No name lies below an instance with a number above the counter. -/
def Counts (names : List Text) (param : Parameter) : Prop :=
  param.grows → ∀ name ∈ names, ∀ n ∈ numberBelow '.' param.name name, n ≤ param.counter

instance (names : List Text) (param : Parameter) : Decidable (param.Counts names) :=
  inferInstanceAs (Decidable (_ → _))

/-- `param'` counts at least what `param` counts. -/
def Continues (param param' : Parameter) : Prop :=
  param'.name = param.name ∧ (param'.grows → param.grows ∧ param.counter ≤ param'.counter)

theorem Continues.refl (param : Parameter) : param.Continues param := ⟨rfl, fun h => ⟨h, le_rfl⟩⟩

theorem Continues.trans {p q r : Parameter} (h : p.Continues q) (h' : q.Continues r) : p.Continues r := by
  refine ⟨h'.1.trans h.1, fun hGrows => ?_⟩
  obtain ⟨hMid, hLe'⟩ := h'.2 hGrows
  obtain ⟨hFirst, hLe⟩ := h.2 hMid
  exact ⟨hFirst, hLe.trans hLe'⟩

theorem Continues.of_eq {p q : Parameter} (hName : q.name = p.name) (hMode : q.storageMode = p.storageMode)
    (hWritable : q.writable = p.writable) (hMin : q.minValue = p.minValue) : p.Continues q := by
  have hCounter : q.counter = p.counter := by rw [counter, hMin, counter]
  refine ⟨hName, fun hGrows => ⟨?_, hCounter.ge⟩⟩
  simpa [grows, isNode, hName, hMode, hWritable, hCounter] using hGrows

theorem counts_iff {names : List Text} {param : Parameter} :
    param.Counts names ↔
      (param.grows → ∀ name ∈ names, ∀ n, child '.' param.name n <+: name → n ≤ param.counter) := by
  have hDot : '.'.isDigit = false := by decide
  simp only [Counts, Option.mem_def, numberBelow_eq_some_iff hDot]

theorem Counts.continues {names : List Text} {p q : Parameter} (h : p.Counts names) (hPQ : p.Continues q) :
    q.Counts names := by
  rw [counts_iff] at h ⊢
  intro hGrows name hName n hBelow
  obtain ⟨hBefore, hLe⟩ := hPQ.2 hGrows
  rw [hPQ.1] at hBelow
  exact (h hBefore name hName n hBelow).trans hLe

theorem Counts.mono {names names' : List Text} {p : Parameter} (h : p.Counts names) (hSub : names' ⊆ names) :
    p.Counts names' := fun hGrows name hName => h hGrows name (hSub hName)

theorem isInner_of_grows {param : Parameter} (h : param.grows = true) : IsInner '.' param.name := by
  simp only [grows, isNode, isNodeName, Bool.and_eq_true, decide_eq_true_eq] at h
  exact h.1.1.1

end Parameter

/-- Every collection of the data model counts the names in it and the names in `past`. -/
def Counted (past : List Text) (dm : DataModel) : Prop :=
  ∀ name, ∀ param ∈ dm.getParameter name, param.Counts (dm.names ++ past)

instance (past : List Text) (dm : DataModel) : Decidable (Counted past dm) :=
  decidable_of_iff (∀ name ∈ dm.names, ∀ param ∈ dm.getParameter name, param.Counts (dm.names ++ past))
    ⟨fun h name param hParam => h name (DataModel.mem_names_of_getParameter hParam) param hParam,
      fun h name _ => h name⟩

/-- `dm'` has no name that `dm` has not, and what is found in it continues what was found in `dm`. -/
def Shrinks (dm dm' : DataModel) : Prop :=
  dm'.names ⊆ dm.names ∧
    ∀ name, ∀ param' ∈ dm'.getParameter name, ∃ param ∈ dm.getParameter name, param.Continues param'

variable {dm dm' dm'' : DataModel} {past : List Text}

theorem Shrinks.refl (dm : DataModel) : Shrinks dm dm :=
  ⟨List.Subset.refl _, fun _ param hParam => ⟨param, hParam, .refl param⟩⟩

theorem Shrinks.trans (h : Shrinks dm dm') (h' : Shrinks dm' dm'') : Shrinks dm dm'' := by
  refine ⟨List.Subset.trans h'.1 h.1, fun name r hR => ?_⟩
  obtain ⟨q, hQ, hQR⟩ := h'.2 name r hR
  obtain ⟨p, hP, hPQ⟩ := h.2 name q hQ
  exact ⟨p, hP, hPQ.trans hQR⟩

theorem Counted.shrinks (h : Counted past dm) (hShrinks : Shrinks dm dm') : Counted past dm' := by
  intro name q hQ
  obtain ⟨p, hP, hPQ⟩ := hShrinks.2 name q hQ
  refine ((h name p hP).continues hPQ).mono (List.append_subset.mpr ⟨?_, ?_⟩)
  · exact List.subset_append_of_subset_left past hShrinks.1
  · exact List.subset_append_right dm.names past

theorem shrinks_modify {name : Text} {f : Parameter → Parameter}
    (hName : ∀ p : Parameter, p.name = name → (f p).name = name)
    (hf : ∀ p ∈ dm.getParameter name, p.Continues (f p)) : Shrinks dm (dm.modify name f) := by
  refine ⟨fun x hx => DataModel.names_modify hName ▸ hx, fun x q hQ => ?_⟩
  rw [DataModel.getParameter_modify hName] at hQ
  split at hQ
  · rename_i hx
    obtain ⟨p, hP, rfl⟩ := Option.map_eq_some_iff.mp hQ
    rw [hx]
    exact ⟨p, hP, hf p hP⟩
  · exact ⟨q, hQ, .refl q⟩

theorem shrinks_of_forall₂ (h : List.Forall₂ Parameter.Continues dm dm') : Shrinks dm dm' := by
  induction h with
  | nil => exact .refl []
  | cons hHead _ ih =>
    refine ⟨?_, fun name r hR => ?_⟩
    · simp only [DataModel.names, List.map_cons, hHead.1]
      exact List.cons_subset_cons _ ih.1
    · simp only [DataModel.getParameter, List.find?_cons, hHead.1] at hR ⊢
      split at hR
      · obtain rfl := Option.some.inj hR
        exact ⟨_, rfl, hHead⟩
      · exact ih.2 name r hR

theorem shrinks_map {f : Parameter → Parameter} (hf : ∀ p ∈ dm, p.Continues (f p)) : Shrinks dm (dm.map f) := by
  apply shrinks_of_forall₂
  rw [List.forall₂_map_right_iff, List.forall₂_same]
  exact hf

theorem shrinks_deleteObject (objectName : Text) : Shrinks dm (dm.deleteObject objectName) :=
  ⟨fun _ hName => (DataModel.mem_names_deleteObject.mp hName).1, fun _ q hQ =>
    ⟨q, DataModel.getParameter_of_deleteObject hQ, .refl q⟩⟩

theorem continues_updateValue (param : Parameter) (value : Option Text) (newValue : Bool) :
    param.Continues (param.updateValue value newValue) := by
  cases newValue with
  | false => exact .of_eq rfl rfl rfl rfl
  | true => exact .of_eq rfl rfl rfl rfl

theorem shrinks_updateValue (name : Text) (value : Option Text) (newValue : Bool) :
    Shrinks dm (dm.modify name (·.updateValue value newValue)) :=
  shrinks_modify (fun p hName => (continues_updateValue p value newValue).1.trans hName)
    fun p _ => continues_updateValue p value newValue

end Counting

section Creation

/-- The copies an instance is made of count each other. -/
def CopiesCounted (dm : DataModel) (param : Parameter) (n : Nat) : Prop :=
  ∀ copy ∈ instanceParameters dm param n, copy.Counts ((instanceParameters dm param n).map (·.name))

/-- Instance `n` does not go beyond the counter of its collection, the copies it is made of count what there
is, and what there is of the instance counts the copies. -/
structure InstanceFits (past : List Text) (dm : DataModel) (param : Parameter) (n : Nat) : Prop where
  counted : param.grows → n ≤ param.counter
  copies : ∀ copy ∈ instanceParameters dm param n,
    copy.Counts (dm.names ++ (instanceParameters dm param n).map (·.name) ++ past)
  kept : ∀ name ∈ dm.names, ∀ q ∈ dm.getParameter name, child '.' param.name n <+: name →
    q.Counts ((instanceParameters dm param n).map (·.name))

instance (dm : DataModel) (param : Parameter) (n : Nat) : Decidable (CopiesCounted dm param n) :=
  inferInstanceAs (Decidable (∀ copy ∈ instanceParameters dm param n, _))

instance (past : List Text) (dm : DataModel) (param : Parameter) (n : Nat) :
    Decidable (InstanceFits past dm param n) :=
  decidable_of_iff ((param.grows → n ≤ param.counter) ∧
      (∀ copy ∈ instanceParameters dm param n,
        copy.Counts (dm.names ++ (instanceParameters dm param n).map (·.name) ++ past)) ∧
      ∀ name ∈ dm.names, ∀ q ∈ dm.getParameter name, child '.' param.name n <+: name →
        q.Counts ((instanceParameters dm param n).map (·.name)))
    ⟨fun ⟨hCounted, hCopies, hKept⟩ => ⟨hCounted, hCopies, hKept⟩,
      fun ⟨hCounted, hCopies, hKept⟩ => ⟨hCounted, hCopies, hKept⟩⟩

variable {dm : DataModel} {past : List Text} {param q : Parameter} {n : Nat} {name : Text}

/-- An instance of which nothing is there and nothing was returned. -/
theorem InstanceFits.of_absent (hCounted : param.grows → n ≤ param.counter)
    (hAbsent : ∀ name ∈ dm.names, ¬ child '.' param.name n <+: name)
    (hUnused : ∀ name ∈ past, child '.' param.name n <+: name → name = child '.' param.name n)
    (hCopies : CopiesCounted dm param n) : InstanceFits past dm param n where
  counted := hCounted
  copies copy hCopy := by
    have hUnder := child_prefix_of_mem_instanceParameters hCopy
    rw [Parameter.counts_iff]
    intro hGrows name hName k hBelow
    have hInside : child '.' param.name n <+: name := (hUnder.trans owner_prefix_child).trans hBelow
    obtain hHere | hPast := List.mem_append.mp hName
    · obtain hOld | hNew := List.mem_append.mp hHere
      · exact absurd hInside (hAbsent name hOld)
      · exact Parameter.counts_iff.mp (hCopies copy hCopy) hGrows name hNew k hBelow
    · obtain rfl := hUnused name hPast hInside
      -- a child of the copy is longer than the copy
      have hSame := List.IsPrefix.eq_of_length_le (owner_prefix_child.trans hBelow) hUnder.length_le
      have hLonger := hBelow.length_le
      rw [← hSame, child, List.length_append, List.length_append, List.length_singleton] at hLonger
      omega
  kept name hName _ _ hInside := absurd hInside (hAbsent name hName)

theorem continues_relocateParameter (dmPrefix objName : Text) (instanceNb : Nat) (param : Parameter) :
    param.Continues (relocateParameter dmPrefix objName instanceNb param) := by
  obtain ⟨definition, hEq⟩ := exists_relocateParameter_eq dmPrefix objName instanceNb param
  rw [hEq]
  exact .of_eq rfl rfl rfl rfl

/-- A collection of old counts the names of the new instance. -/
theorem le_counter_of_below_copy (hCounted : Counted past dm) (hNode : IsInner '.' param.name)
    (hParam : dm.getParameter param.name = some param) (hFits : InstanceFits past dm param n)
    (hQ : dm.getParameter name = some q) (hGrows : q.grows = true) {copy : Parameter}
    (hCopy : copy ∈ instanceParameters dm param n) {k : Nat} (hBelow : child '.' q.name k <+: copy.name) :
    k ≤ q.counter := by
  have hDot : '.'.isDigit = false := by decide
  have hName := DataModel.name_of_getParameter hQ
  have hIn := DataModel.mem_names_of_getParameter hParam
  obtain ⟨rest, hRest⟩ := child_prefix_of_mem_instanceParameters hCopy
  have hPlace := child_prefix_cases hDot (by decide) hNode (Parameter.isInner_of_grows hGrows) (hRest ▸ hBelow)
  obtain hAbove | ⟨hSame, rfl⟩ | hInside := hPlace
  · exact Parameter.counts_iff.mp (hCounted name q hQ) hGrows _ (List.mem_append_left past hIn) k hAbove
  · -- the collection that is extended
    have hFound : some q = some param := by rw [← hQ, ← hParam, ← hSame, hName]
    obtain rfl := Option.some.inj hFound
    exact hFits.counted hGrows
  · have hKept := hFits.kept name (DataModel.mem_names_of_getParameter hQ) q hQ (hName ▸ hInside)
    exact Parameter.counts_iff.mp hKept hGrows _ (List.mem_map_of_mem hCopy) k hBelow

theorem counted_addInstance (dmPrefix : Text) (hCounted : Counted past dm) (hNode : IsInner '.' param.name)
    (hParam : dm.getParameter param.name = some param) (hFits : InstanceFits past dm param n) :
    Counted past (addInstance dmPrefix dm param n) := by
  have hShrinks : Shrinks (createInstance dm param n) (addInstance dmPrefix dm param n) :=
    shrinks_map fun p _ => continues_relocateParameter dmPrefix param.name n p
  refine Counted.shrinks ?_ hShrinks
  intro name q hQ
  have hNames : (createInstance dm param n).names ++ past ⊆
      dm.names ++ (instanceParameters dm param n).map (·.name) ++ past := by
    intro x hx
    simpa only [List.mem_append, createInstance, DataModel.mem_names_putAll] using hx
  refine Parameter.Counts.mono ?_ hNames
  obtain hCopy | hOld := DataModel.mem_or_getParameter_of_putAll hQ
  · exact hFits.copies q hCopy
  · rw [Parameter.counts_iff]
    intro hGrows x hx k hBelow
    obtain hHere | hPast := List.mem_append.mp hx
    · obtain hIn | hCopy := List.mem_append.mp hHere
      · exact Parameter.counts_iff.mp (hCounted name q hOld) hGrows x (List.mem_append_left past hIn) k hBelow
      · obtain ⟨copy, hMem, rfl⟩ := List.mem_map.mp hCopy
        exact le_counter_of_below_copy hCounted hNode hParam hFits hOld hGrows hMem hBelow
    · exact Parameter.counts_iff.mp (hCounted name q hOld) hGrows x (List.mem_append_right _ hPast) k hBelow

/-- The value of the object is given up before the instance is made. -/
theorem instanceFits_updateValue (hFits : InstanceFits past dm param n) :
    InstanceFits past (dm.modify param.name fun _ => param.updateValue none true)
      (param.updateValue none true) n := by
  have hNames : (dm.modify param.name fun _ => param.updateValue none true).names = dm.names :=
    DataModel.names_modify fun _ _ => rfl
  have hProto : (dm.modify param.name fun _ => param.updateValue none true).filter (inPrototype param.name) =
      dm.filter (inPrototype param.name) :=
    DataModel.filter_modify (fun _ => inPrototype_of_name_eq) fun _ _ => inPrototype_of_name_eq rfl
  have hCopyNames : (instanceParameters (dm.modify param.name fun _ => param.updateValue none true)
      (param.updateValue none true) n).map (·.name) = (instanceParameters dm param n).map (·.name) := by
    rw [instanceParameters, show (param.updateValue none true).name = param.name from rfl, hProto]
    rfl
  refine ⟨hFits.counted, fun copy hCopy => ?_, fun name hName q hQ hInside => ?_⟩
  · rw [hNames, hCopyNames]
    obtain rfl | hRest := List.mem_cons.mp hCopy
    · exact hFits.copies (newInstanceParameter (child '.' param.name n) param) List.mem_cons_self
    · rw [show (param.updateValue none true).name = param.name from rfl, hProto] at hRest
      exact hFits.copies copy (List.mem_cons_of_mem _ hRest)
  · rw [hCopyNames]
    refine hFits.kept name (hNames ▸ hName) q ?_ hInside
    have hOther : name ≠ param.name := by
      rintro rfl
      exact child_ne_owner (List.IsPrefix.eq_of_length_le hInside owner_prefix_child.length_le)
    have hGet : (dm.modify param.name fun _ => param.updateValue none true).getParameter name =
        if name = param.name then _ else dm.getParameter name := DataModel.getParameter_modify fun _ _ => rfl
    rwa [hGet, if_neg hOther] at hQ

/-- The object is extended, whoever numbers its instances. -/
theorem counted_extend (dmPrefix : Text) (hNode : IsInner '.' param.name)
    (hFound : (dm.getParameter param.name).isSome)
    (hCounted : Counted past (dm.modify param.name fun _ => param.updateValue none true))
    (hFits : InstanceFits past dm param n) : Counted past (ParameterManager.extend dmPrefix dm param n) := by
  refine counted_addInstance dmPrefix hCounted hNode ?_ (instanceFits_updateValue hFits)
  obtain ⟨found, hFound⟩ := Option.isSome_iff_exists.mp hFound
  rw [DataModel.getParameter_modify fun _ _ => rfl, if_pos rfl]
  exact congrArg (Option.map _) hFound

section Next

variable {objectName : Text}

theorem next_absent (hCounted : Counted past dm) (hParam : dm.getParameter objectName = some param)
    (hGrows : param.grows = true) (hName : name ∈ dm.names ++ past) :
    ¬ child '.' param.name (param.counter + 1) <+: name := by
  intro hBelow
  have hLe := Parameter.counts_iff.mp (hCounted objectName param hParam) hGrows name hName _ hBelow
  omega

theorem instanceFits_next (hCounted : Counted past dm) (hParam : dm.getParameter objectName = some param)
    (hGrows : param.grows = true) (hRoom : param.counter < Parameter.maxCounter)
    (hCopies : CopiesCounted dm param.countInstance (param.counter + 1)) :
    InstanceFits (child '.' param.name (param.counter + 1) :: past) dm param.countInstance
      (param.counter + 1) := by
  refine .of_absent (fun _ => (Parameter.counter_countInstance hRoom).ge) ?_ ?_ hCopies
  · exact fun name hName => next_absent hCounted hParam hGrows (List.mem_append_left past hName)
  · intro name hName hBelow
    obtain hHere | hPast := List.mem_cons.mp hName
    · exact hHere
    · exact absurd hBelow (next_absent hCounted hParam hGrows (List.mem_append_right _ hPast))

theorem counted_next (hCounted : Counted past dm) (hParam : dm.getParameter param.name = some param)
    (hGrows : param.grows = true) (hRoom : param.counter < Parameter.maxCounter) :
    Counted (child '.' param.name (param.counter + 1) :: past)
      (dm.modify param.name fun _ => param.countInstance.updateValue none true) := by
  have hDot : '.'.isDigit = false := by decide
  have hNames : (dm.modify param.name fun _ => param.countInstance.updateValue none true).names = dm.names :=
    DataModel.names_modify fun _ _ => rfl
  have hCount : (param.countInstance.updateValue none true).counter = param.counter + 1 :=
    Parameter.counter_countInstance hRoom
  intro name q hQ
  have hGet : (dm.modify param.name fun _ => param.countInstance.updateValue none true).getParameter name =
      if name = param.name then (dm.getParameter param.name).map fun _ => param.countInstance.updateValue none true
      else dm.getParameter name := DataModel.getParameter_modify fun _ _ => rfl
  rw [Option.mem_def, hGet] at hQ
  rw [Parameter.counts_iff, hNames]
  intro hQGrows x hx k hBelow
  obtain hOld | hNew : x ∈ dm.names ++ past ∨ x = child '.' param.name (param.counter + 1) := by
    simp only [List.mem_append, List.mem_cons] at hx ⊢
    tauto
  · split at hQ
    · obtain rfl : param.countInstance.updateValue none true = q := by simpa [hParam] using hQ
      have hLe := Parameter.counts_iff.mp (hCounted _ param hParam) hGrows x hOld k hBelow
      omega
    · exact Parameter.counts_iff.mp (hCounted name q hQ) hQGrows x hOld k hBelow
  · subst hNew
    split at hQ
    · obtain rfl : param.countInstance.updateValue none true = q := by simpa [hParam] using hQ
      rw [hCount, number_unique hDot hBelow (List.prefix_refl _)]
    · rename_i hOther
      have hName := DataModel.name_of_getParameter hQ
      have hIn := DataModel.mem_names_of_getParameter hParam
      rw [← List.append_nil (child '.' param.name (param.counter + 1))] at hBelow
      obtain hAbove | ⟨hSame, -⟩ | hInside := child_prefix_cases hDot (by decide)
        (Parameter.isInner_of_grows hGrows) (Parameter.isInner_of_grows hQGrows) hBelow
      · exact Parameter.counts_iff.mp (hCounted name q hQ) hQGrows _ (List.mem_append_left past hIn) k hAbove
      · exact absurd (hName.symm.trans hSame) hOther
      · have hQIn : q.name ∈ dm.names := hName ▸ DataModel.mem_names_of_getParameter hQ
        exact absurd hInside
          (next_absent hCounted hParam hGrows (List.mem_append_left past hQIn))

end Next

end Creation

end Tr069Agent.Engine
