import Tr069Agent.Engine.PlainReadings

/-! # What the answer for a group gives

The device answers for an object with the values of the parameters below it. Instances that it names are
made first, and those it does not name are deleted. A leaf that is not named keeps the value it had.
-/

namespace Tr069Agent.Engine.Loading

open Library

set_option autoImplicit false

/-- A name, and everything below it when it is the name of a node. -/
def AtOrBelow (name x : Text) : Prop := if name = [] ∨ isNodeName name = true then name <+: x else x = name

/-- A leaf at or below the name that is no prototype. -/
structure LeafBelow (name x : Text) : Prop where
  place : AtOrBelow name x
  leaf : isNodeName x = false
  real : isProto x = false

instance (name x : Text) : Decidable (AtOrBelow name x) :=
  inferInstanceAs (Decidable (if name = [] ∨ isNodeName name = true then name <+: x else x = name))

instance (name x : Text) : Decidable (LeafBelow name x) :=
  decidable_of_iff (AtOrBelow name x ∧ isNodeName x = false ∧ isProto x = false)
    ⟨fun ⟨place, leaf, real⟩ => ⟨place, leaf, real⟩, fun h => ⟨h.place, h.leaf, h.real⟩⟩

def LeavesLoaded (dm : DataModel) (name : Text) : Prop :=
  ∀ x ∈ dm.names, LeafBelow name x → ∀ p ∈ dm.getParameter x, p.isLoaded true = true

instance (dm : DataModel) (name : Text) : Decidable (LeavesLoaded dm name) :=
  inferInstanceAs (Decidable (∀ x ∈ dm.names, LeafBelow name x → ∀ p ∈ dm.getParameter x, p.isLoaded true = true))

section Conditions

variable (dmPrefix root name : Text)

/-- No value is missing, or the names to come give one. -/
def Supplied (names : List Text) (p : Parameter) : Prop :=
  p.isLoaded true = true ∨ p.name ∈ names ∧ p.storageMode ≠ .computed

/-- An instance below the root that is not named. -/
def isObsolete (names : List Text) (node : Text) : Bool :=
  isSubNode root node && isNodeInstance node && !isListed names node

def Dropped (names : List Text) (dm : DataModel) (x : Text) : Prop :=
  ∃ node ∈ dm.names, node <+: x ∧ isObsolete root names node = true

/-- The instances that `_getParameter` makes for a name have no leaf without a value that is not named, and
the name is found in the end. -/
def CopiesSupplied (names : List Text) : Nat → DataModel → Text → Prop
  | 0, dm, paramName => dm.getParameter paramName = none
  | iterations + 1, dm, paramName =>
    dm.getParameter paramName = none →
      ∀ found ∈ findInstance dm paramName.length paramName.reverse [],
        ∀ param ∈ dm.getParameter found.1,
          (∀ copy ∈ instanceParameters dm param found.2, LeafBelow name copy.name → Supplied names copy) ∧
            CopiesSupplied names iterations (addInstance dmPrefix dm param found.2) paramName

/-- The same of all the entries of an answer, where each name is looked up in its turn. -/
def EntriesSupplied : DataModel → List (Text × Option Text) → Prop
  | _, [] => True
  | dm, entry :: rest =>
    CopiesSupplied dmPrefix name (entry.1 :: rest.map Prod.fst) 5 dm entry.1 ∧
      EntriesSupplied (updateEntry dmPrefix false dm entry) rest

/-- An answer that leaves no leaf below the name without a value. -/
structure Answered (dm : DataModel) (values : List (Text × Option Text)) : Prop where
  there : ∀ x, LeafBelow name x → ∀ p ∈ dm.getParameter x,
    Supplied (values.map Prod.fst) p ∨ Dropped root (values.map Prod.fst) dm x
  made : EntriesSupplied dmPrefix name dm values

end Conditions

section Creation

variable {dmPrefix name : Text} {names : List Text} {dm : DataModel}

/-- Only the definition differs. -/
def SameValue (p p' : Parameter) : Prop := ∃ definition, p' = { p with definition }

theorem SameValue.trans {p p' p'' : Parameter} (h : SameValue p p') (h' : SameValue p' p'') : SameValue p p'' := by
  obtain ⟨_, rfl⟩ := h
  obtain ⟨definition, rfl⟩ := h'
  exact ⟨definition, rfl⟩

theorem Supplied.sameValue {p p' : Parameter} (h : Supplied names p) (hSame : SameValue p p') : Supplied names p' := by
  obtain ⟨_, rfl⟩ := hSame
  exact h

theorem names_addInstance {param : Parameter} {instanceNb : Nat} {x : Text} (h : x ∈ dm.names) :
    x ∈ (addInstance dmPrefix dm param instanceNb).names := by
  rw [addInstance, relocateInstances, DataModel.names_map (name_relocateParameter dmPrefix param.name instanceNb)]
  exact DataModel.mem_names_putAll.mpr (.inl h)

theorem getParameter_addInstance {param p' : Parameter} {instanceNb : Nat} {x : Text}
    (h : (addInstance dmPrefix dm param instanceNb).getParameter x = some p') :
    ∃ p, SameValue p p' ∧ (p ∈ instanceParameters dm param instanceNb ∧ p.name = x ∨ dm.getParameter x = some p) := by
  rw [addInstance, relocateInstances,
    DataModel.getParameter_map (name_relocateParameter dmPrefix param.name instanceNb)] at h
  obtain ⟨p, hp, rfl⟩ := Option.map_eq_some_iff.mp h
  refine ⟨p, exists_relocateParameter_eq dmPrefix param.name instanceNb p, ?_⟩
  obtain hCopy | hOld := DataModel.mem_or_getParameter_of_putAll hp
  · exact .inl ⟨hCopy, DataModel.name_of_getParameter hp⟩
  · exact .inr hOld

theorem names_getParameterFrom {iterations : Nat} {paramName x : Text} (h : x ∈ dm.names) :
    x ∈ (getParameterFrom dmPrefix iterations dm paramName).1.names := by
  induction iterations generalizing dm with
  | zero => exact h
  | succ iterations ih =>
    rw [getParameterFrom]
    split
    · exact h
    split
    · exact h
    split
    · exact h
    · exact ih (names_addInstance h)

/-- A leaf that is there after the look for a name was there before, or it is a copy. -/
theorem supplied_getParameterFrom {iterations : Nat} {paramName : Text}
    (h : CopiesSupplied dmPrefix name names iterations dm paramName) {x : Text} (hLeaf : LeafBelow name x) :
    ∀ p' ∈ (getParameterFrom dmPrefix iterations dm paramName).1.getParameter x,
      Supplied names p' ∨ ∃ p ∈ dm.getParameter x, SameValue p p' := by
  induction iterations generalizing dm with
  | zero => exact fun p' hp' => .inr ⟨p', hp', p'.definition, rfl⟩
  | succ iterations ih =>
    have hStays : ∀ p' ∈ dm.getParameter x, Supplied names p' ∨ ∃ p ∈ dm.getParameter x, SameValue p p' :=
      fun p' hp' => .inr ⟨p', hp', p'.definition, rfl⟩
    rw [getParameterFrom]
    split
    · exact hStays
    rename_i hMissing
    split
    · exact hStays
    rename_i proto instanceNb hFound
    split
    · exact hStays
    rename_i param hParam
    obtain ⟨hCopies, hRest⟩ := h (Option.not_isSome_iff_eq_none.mp hMissing) (proto, instanceNb) hFound param hParam
    intro p' hp'
    obtain hDone | ⟨q, hq, hSame⟩ := ih hRest p' hp'
    · exact .inl hDone
    obtain ⟨p, hSame', ⟨hCopy, hName⟩ | hOld⟩ := getParameter_addInstance hq
    · exact .inl ((hCopies p hCopy (hName ▸ hLeaf)).sameValue (hSame'.trans hSame))
    · exact .inr ⟨p, hOld, hSame'.trans hSame⟩

theorem notFound_getParameterFrom {iterations : Nat} {paramName : Text}
    (h : CopiesSupplied dmPrefix name names iterations dm paramName)
    (hNot : (getParameterFrom dmPrefix iterations dm paramName).2 = false) :
    (getParameterFrom dmPrefix iterations dm paramName).1.getParameter paramName = none := by
  induction iterations generalizing dm with
  | zero => exact h
  | succ iterations ih =>
    rw [getParameterFrom] at hNot ⊢
    split at hNot
    · cases hNot
    rename_i hMissing
    rw [if_neg hMissing]
    have hMissing := Option.not_isSome_iff_eq_none.mp hMissing
    split at hNot
    · exact hMissing
    rename_i proto instanceNb hFound
    split at hNot
    · exact hMissing
    rename_i param hParam
    exact ih (h hMissing (proto, instanceNb) hFound param hParam).2 hNot

end Creation

section Entries

variable {dmPrefix root name : Text} {all : List Text}

/-- The leaves that still have no value are named in the rest of the answer, or they are to be deleted. -/
def Outstanding (root name : Text) (all rest : List Text) (dm : DataModel) : Prop :=
  ∀ x, LeafBelow name x → ∀ p ∈ dm.getParameter x, Supplied rest p ∨ Dropped root all dm x

theorem Dropped.of_subset {dm dm' : DataModel} {x : Text} (h : Dropped root all dm x)
    (hNames : ∀ node ∈ dm.names, node ∈ dm'.names) : Dropped root all dm' x := by
  obtain ⟨node, hNode, hRest⟩ := h
  exact ⟨node, hNames node hNode, hRest⟩

theorem outstanding_updateEntry {dm : DataModel} {entry : Text × Option Text} {rest : List Text}
    (h : Outstanding root name all (entry.1 :: rest) dm)
    (hMade : CopiesSupplied dmPrefix name (entry.1 :: rest) 5 dm entry.1) :
    Outstanding root name all rest (updateEntry dmPrefix false dm entry) := by
  have hNames : ∀ x ∈ dm.names, x ∈ (getParameterOrCreate dmPrefix dm entry.1).1.names :=
    fun x => names_getParameterFrom
  have hCreated : Outstanding root name all (entry.1 :: rest) (getParameterOrCreate dmPrefix dm entry.1).1 := by
    intro x hLeaf p' hp'
    obtain hDone | ⟨p, hp, hSame⟩ := supplied_getParameterFrom hMade hLeaf p' hp'
    · exact .inl hDone
    · exact (h x hLeaf p hp).imp (fun hSupplied => hSupplied.sameValue hSame) fun hDropped => hDropped.of_subset hNames
  have hNot := notFound_getParameterFrom hMade
  rw [updateEntry]
  rw [← getParameterOrCreate] at hNot
  generalize getParameterOrCreate dmPrefix dm entry.1 = made at hCreated hNot
  obtain ⟨dm', found⟩ := made
  cases found with
  | true =>
    have hName (p : Parameter) (hp : p.name = entry.1) : (p.updateSystemValue entry.2 false).name = entry.1 := hp
    intro x hLeaf p' hp'
    have hDropped (h : Dropped root all dm' x) :
        Dropped root all (dm'.modify entry.1 (.updateSystemValue entry.2 false)) x :=
      h.of_subset fun node hNode => by rwa [DataModel.names_modify hName]
    rw [DataModel.getParameter_modify hName] at hp'
    split at hp'
    · rename_i hOwn
      obtain ⟨p, hp, rfl⟩ := Option.map_eq_some_iff.mp hp'
      refine (hCreated x hLeaf p (hOwn ▸ hp)).imp (fun hSupplied => .inl ?_) hDropped
      obtain hLoaded | ⟨-, hMode⟩ := hSupplied
      · exact (Parameter.grows_updateSystemValue entry.2 p).isLoaded hLoaded
      · exact (Parameter.isLoaded_true _).mpr (.inl ⟨rfl, fun hComputed => absurd hComputed hMode⟩)
    · rename_i hOther
      refine (hCreated x hLeaf p' hp').imp (fun hSupplied => hSupplied.imp id fun hNamed => ⟨?_, hNamed.2⟩) hDropped
      have hName := DataModel.name_of_getParameter hp'
      exact (List.mem_cons.mp hNamed.1).resolve_left fun hSame => hOther (hName.symm.trans hSame)
  | false =>
    intro x hLeaf p' hp'
    have hp' : p' ∈ dm'.getParameter x := hp'
    refine (hCreated x hLeaf p' hp').imp (fun hSupplied => hSupplied.imp id fun hNamed => ⟨?_, hNamed.2⟩) id
    have hName := DataModel.name_of_getParameter hp'
    refine (List.mem_cons.mp hNamed.1).resolve_left fun hSame => ?_
    rw [← hName, hSame, hNot rfl] at hp'
    cases hp'

theorem outstanding_entries {dm : DataModel} {values : List (Text × Option Text)}
    (h : Outstanding root name all (values.map Prod.fst) dm) (hMade : EntriesSupplied dmPrefix name dm values) :
    Outstanding root name all [] (values.foldl (updateEntry dmPrefix false) dm) := by
  induction values generalizing dm with
  | nil => exact h
  | cons entry values ih => exact ih (outstanding_updateEntry h hMade.1) hMade.2

end Entries

section Deletion

variable {root : Text} {names : List Text} {withValues : Bool}

theorem names_markUntilObsolete (dm : DataModel) : (markUntilObsolete root names withValues dm).1.names = dm.names := by
  have h := grows_markUntilObsolete root names withValues dm
  generalize (markUntilObsolete root names withValues dm).1 = dm' at h
  induction h with
  | nil => rfl
  | cons hHere _ ih =>
    rw [DataModel.names, List.map_cons, hHere.name]
    exact congrArg _ ih

theorem getParameter_of_forall₂ {dm dm' : DataModel} (h : List.Forall₂ Parameter.Grows dm dm') {x : Text} :
    ∀ p' ∈ dm'.getParameter x, ∃ p ∈ dm.getParameter x, p.Grows p' := by
  induction h with
  | nil => exact fun _ h => nomatch h
  | @cons p q _ _ hHere _ ih =>
    intro p' hp'
    by_cases hName : q.name = x
    · rw [Option.mem_def, DataModel.getParameter, List.find?_cons_of_pos (by simpa using hName)] at hp'
      obtain rfl := Option.some.inj hp'
      exact ⟨p, List.find?_cons_of_pos (by simpa [← hHere.name] using hName), hHere⟩
    · rw [Option.mem_def, DataModel.getParameter, List.find?_cons_of_neg (by simpa using hName)] at hp'
      obtain ⟨r, hr, hGrows⟩ := ih p' hp'
      exact ⟨r, (List.find?_cons_of_neg (by simpa [← hHere.name] using hName)).trans hr, hGrows⟩

theorem markUntilObsolete_obsolete (dm : DataModel) : ∀ node ∈ dm.names,
    isObsolete root names node = true → (markUntilObsolete root names withValues dm).2.isSome = true := by
  induction dm with
  | nil => exact fun _ h => nomatch h
  | cons param rest ih =>
    intro node hNode hObsolete
    simp only [isObsolete, Bool.and_eq_true, Bool.not_eq_true'] at hObsolete
    obtain ⟨⟨hSub, hInstance⟩, hNot⟩ := hObsolete
    rw [markUntilObsolete]
    obtain rfl | hRest := List.mem_cons.mp hNode
    · simp [hSub, hInstance, hNot]
    have hLater := ih node hRest (by simp [isObsolete, hSub, hInstance, hNot])
    split
    · exact hLater
    split
    · rfl
    · exact hLater

theorem mem_names_of_markUntilObsolete {dm : DataModel} {obsolete : Text}
    (h : (markUntilObsolete root names withValues dm).2 = some obsolete) : obsolete ∈ dm.names := by
  induction dm with
  | nil => cases h
  | cons param rest ih =>
    rw [markUntilObsolete] at h
    split at h
    · exact List.mem_cons_of_mem _ (ih h)
    split at h
    · obtain rfl := Option.some.inj h
      exact List.mem_cons_self
    · exact List.mem_cons_of_mem _ (ih h)

theorem length_deleteObject_lt {dm : DataModel} {x : Text} (h : x ∈ dm.names) :
    (dm.deleteObject x).length < dm.length := by
  obtain ⟨p, hp, rfl⟩ := List.mem_map.mp h
  refine List.length_filter_lt_length_iff_exists.mpr ⟨p, hp, ?_⟩
  rw [DataModel.not_isPrefixOf_iff, not_not]

/-- What is left has grown, and lies below no obsolete instance. -/
theorem markInstancesLoadedFrom_spec {scans : Nat} {dm : DataModel} (hScans : dm.length < scans) {x : Text} :
    ∀ p' ∈ (markInstancesLoadedFrom root names withValues scans dm).getParameter x,
      (∃ p ∈ dm.getParameter x, p.Grows p') ∧ ∀ node ∈ dm.names, node <+: x → isObsolete root names node = false := by
  induction scans generalizing dm with
  | zero => omega
  | succ scans ih =>
    have hMarked := grows_markUntilObsolete root names withValues dm
    have hNames := @names_markUntilObsolete root names withValues dm
    have hSome := @markUntilObsolete_obsolete root names withValues dm
    have hMem := @mem_names_of_markUntilObsolete root names withValues dm
    rw [markInstancesLoadedFrom]
    generalize markUntilObsolete root names withValues dm = marked at hMarked hNames hSome hMem
    obtain ⟨dm', found⟩ := marked
    cases found with
    | none =>
      refine fun p' hp' => ⟨getParameter_of_forall₂ hMarked p' hp', fun node hNode _ => ?_⟩
      exact Bool.eq_false_iff.mpr fun hObsolete => Bool.false_ne_true (hSome node hNode hObsolete)
    | some obsolete =>
      have hLength : (dm'.deleteObject obsolete).length < scans := by
        have hDeleted : (dm'.deleteObject obsolete).length < dm'.length :=
          length_deleteObject_lt (hNames.symm ▸ hMem rfl)
        have hSame : dm.length = dm'.length := hMarked.length_eq
        omega
      intro p' hp'
      obtain ⟨⟨q, hq, hGrows⟩, hBelow⟩ := ih hLength p' hp'
      have hLeft := DataModel.mem_names_deleteObject.mp (DataModel.mem_names_of_getParameter hq)
      obtain ⟨p, hp, hGrows'⟩ := getParameter_of_forall₂ hMarked q (DataModel.getParameter_of_deleteObject hq)
      refine ⟨⟨p, hp, hGrows'.trans hGrows⟩, fun node hNode hPrefix => hBelow node ?_ hPrefix⟩
      refine DataModel.mem_names_deleteObject.mpr ⟨hNames.symm ▸ hNode, fun hAbove => ?_⟩
      exact hLeft.2 (hAbove.trans hPrefix)

end Deletion

/-- After the update with an answer that leaves nothing out, the leaves are loaded. -/
theorem leavesLoaded_updateObject {dmPrefix root name : Text} {dm : DataModel} {values : List (Text × Option Text)}
    (h : Answered dmPrefix root name dm values) : LeavesLoaded (updateObject dmPrefix root values false dm) name := by
  intro x _ hLeaf p' hp'
  obtain ⟨⟨p, hp, hGrows⟩, hBelow⟩ := markInstancesLoadedFrom_spec (Nat.lt_succ_self _) p' hp'
  have hEntries := outstanding_entries (fun x hLeaf => h.there x hLeaf) h.made
  obtain hSupplied | ⟨node, hNode, hPrefix, hObsolete⟩ := hEntries x hLeaf p hp
  · exact hGrows.isLoaded (hSupplied.resolve_right fun hNamed => nomatch hNamed.1)
  · exact absurd hObsolete (Bool.eq_false_iff.mp (hBelow node hNode hPrefix))

end Tr069Agent.Engine.Loading
