import Tr069Agent.Engine.NamesWalk
import Tr069Agent.Engine.SetValuesDone

/-! # Reading back what was set

After a request to set values has gone through, a request to get them is answered with the values that
were set, each under the name it was set under. Only passwords are not told to the ACS.
-/

namespace Tr069Agent.Engine.ReadRequests

open Library Library.Action Loading SetParameterValues

set_option autoImplicit false

section Shown

variable {dmPrefix : Text} {dateOk : Text → Bool} {statistics : StatisticsModule} {store store' : ParameterStore}
  {entity : EntityType}  {parameterList : List (Text × Option Text)}

theorem untouched_accessList : Untouched Parameter.accessList where
  withDefault p := by
    unfold Parameter.withDefault
    split <;> rfl
  markLoaded p := by
    unfold Parameter.markLoaded
    split <;> rfl
  mark _ := rfl
  unmark _ := rfl
  setValue _ _ := rfl
  commit _ := rfl
  clear p level := by
    unfold Parameter.clearTemporaryValue
    grind

theorem isHidden_of_partsKept {x : Text} {prm prm' : Parameter} (h : PartsKept Parameter.accessList store store')
    (hFound : store.getParameter x = some prm) (hFound' : store'.getParameter x = some prm') :
    prm'.isHidden = prm.isHidden := by
  have hList := h x
  rw [hFound, hFound', Option.map_some, Option.map_some, Option.some.injEq] at hList
  rw [Parameter.isHidden, hList, ← Parameter.isHidden]

/-- A hidden parameter is not set under its own name. -/
theorem not_hidden_of_setParameterValue {fuel : Nat} {status' : ParameterStatus} {name : Text} {value : Option Text}
    (h : setParameterValue dmPrefix dateOk entity fuel .undefined name value store = some (0, status', store')) :
    ∃ prm, store.getParameter name = some prm ∧ prm.isHidden = false := by
  cases fuel with
  | zero => cases h
  | succ fuel =>
    unfold setParameterValue at h
    cases hFound : store.getParameter name with
    | none =>
      rw [hFound] at h
      cases h
    | some prm =>
      rw [hFound] at h
      dsimp only at h
      split at h
      · cases h
      · rename_i hAccess
        exact ⟨prm, rfl, Bool.eq_false_iff.mpr fun hHidden => hAccess (.inr ⟨rfl, hHidden⟩)⟩

theorem not_hidden_of_setEntries {status status' : ParameterStatus}
    (h : setEntries dmPrefix dateOk entity status store parameterList = some (status', [], store'))
    {entry : Text × Option Text} (hEntry : entry ∈ parameterList) :
    ∃ prm, store.getParameter entry.1 = some prm ∧ prm.isHidden = false := by
  induction parameterList generalizing store status status' with
  | nil => cases hEntry
  | cons first parameterList ih =>
    obtain ⟨⟨res, stat, store₁⟩, hFirst, h⟩ := Option.bind_eq_some_iff.mp h
    obtain ⟨⟨status₂, faults, store₂⟩, hRest, h⟩ := Option.bind_eq_some_iff.mp h
    obtain ⟨-, hFaults, rfl⟩ := by simpa using h
    obtain ⟨rfl, rfl⟩ : res = 0 ∧ faults = [] := by
      split at hFaults
      · exact ⟨‹_›, hFaults⟩
      · cases hFaults
    have hBack {s s' : ParameterStore} (hKept : PartsKept Parameter.accessList s s')
        (hShown : ∃ prm, s'.getParameter entry.1 = some prm ∧ prm.isHidden = false) :
        ∃ prm, s.getParameter entry.1 = some prm ∧ prm.isHidden = false := by
      obtain ⟨prm', hFound', hShown⟩ := hShown
      have hList := hKept entry.1
      rw [hFound', Option.map_some] at hList
      obtain ⟨prm, hFound, -⟩ := Option.map_eq_some_iff.mp hList.symm
      exact ⟨prm, hFound, (isHidden_of_partsKept hKept hFound hFound').symm.trans hShown⟩
    obtain ⟨⟨res₃, store₃⟩, hLoad, hSet⟩ := Option.bind_eq_some_iff.mp hFirst
    have hLoaded := partsKept_loadSystemParameters untouched_accessList hLoad
    dsimp only at hSet
    split at hSet
    · rename_i hNot
      obtain ⟨rfl, -, -⟩ := by simpa using hSet
      exact absurd rfl hNot
    · obtain rfl | hLater := List.mem_cons.mp hEntry
      · exact hBack hLoaded (not_hidden_of_setParameterValue hSet)
      · have hHere := partsKept_setParameterValue untouched_accessList hSet
        exact hBack (hLoaded.trans hHere) (ih hRest hLater)

theorem not_hidden_of_success {inSession : Bool} {parameterKey : Option Text} {result : SetParameterValuesResult}
    (h : setParameterValues dmPrefix dateOk statistics entity inSession parameterKey store parameterList = some result)
    (hDone : result.codeRetour = 0) (hNone : ∀ entry ∈ parameterList, ControlsNone dmPrefix store entry.1)
    {entry : Text × Option Text} (hEntry : entry ∈ parameterList) {prm : Parameter}
    (hFound : result.store.getParameter entry.1 = some prm) : prm.isHidden = false := by
  obtain ⟨status, store₁, store₂, store₃, hSet, hKey, hCommit, hResult⟩ := setParameterValues_done h hDone
  obtain ⟨prm₀, hFound₀, hShown⟩ := not_hidden_of_setEntries hSet hEntry
  have hKeyKept : PartsKept Parameter.accessList store₁ store₂ := by
    obtain rfl | hKey := hKey
    · exact fun _ => rfl
    · exact partsKept_setParameterKey untouched_accessList hKey
  have hStatics : store₂.statics = store.statics := by
    have hTracks := (tracks_setEntries dmPrefix dateOk hSet).statics
    obtain rfl | hKey := hKey
    · exact hTracks
    · exact (statics_setParameterKey hKey).trans hTracks
  have hEnd := partsKept_commitAll untouched_accessList.commit
    (fun entry hEntry => (hNone entry hEntry).congr hStatics) hCommit
  have hAll := (((partsKept_setEntries untouched_accessList hSet).trans hKeyKept).trans hEnd).trans
    (partsKept_release untouched_accessList inSession)
  rw [hResult] at hFound
  rw [isHidden_of_partsKept hAll hFound₀ hFound, hShown]

end Shown

section Read

variable (ctx : LoadContext) (calls : Callbacks) (fuel : Nat) (reader : EntityType)

/-- What a reader is told of a value that was set. -/
def told (entry : Text × Option Text) : Text × Option Text :=
  (entry.1, if (reader = .acs ∨ reader = .subscriber) ∧ entry.1 ∈ withheldNames ctx.dmPrefix then some [] else entry.2)

/-- A stored value that is not hidden, which a load leaves as it is. -/
structure Readable (dm : DataModel) (entry : Text × Option Text) : Prop where
  named : entry.1 ≠ []
  leaf : isNodeName entry.1 = false
  found : ∃ prm, dm.getParameter entry.1 = some prm ∧ prm.storageMode = .dmOnly ∧ prm.isHidden = false ∧
    prm.isUnset = false ∧ prm.value = entry.2

variable {s : LoadState} {entry : Text × Option Text} {asked : List (Text × Option Text)}

theorem run_loadFor_readable (h : Readable s.dm entry) : ∃ s',
    (loadFor ctx calls fuel reader entry.1 true).run s = some (0, s') ∧
      ∀ x, s'.dm.getParameter x = s.dm.getParameter x := by
  rw [loadFor]
  split
  · exact ⟨s, rfl, fun _ => rfl⟩
  obtain ⟨hNamed, hLeaf, prm, hFound, hMode, -, hUnset, -⟩ := h
  have hName := DataModel.name_of_getParameter hFound
  have hDefault : prm.withDefault = prm := by
    rw [Parameter.withDefault, if_neg (by rw [hUnset]; exact Bool.false_ne_true)]
  have hLoaded : prm.withDefault.isLoaded true = true := by
    rw [hDefault, Parameter.isLoaded_true, hName]
    exact .inr ⟨hLeaf, hMode⟩
  have hTarget : findTarget s.dm entry.1.length entry.1 = some prm := by
    cases entry.1.length with
    | zero => exact hFound
    | succ rounds => rw [findTarget, hFound, Option.some_or]
  rw [← hName] at hFound
  refine ⟨{ s with dm := s.dm.modify prm.name (·.withDefault) }, ?_, fun x => ?_⟩
  · rw [Loading.loadSystemParameters, if_neg hNamed]
    refine bind_eq_some_iff.mpr ⟨s, s, get_eq_some_iff.mpr ⟨rfl, rfl⟩, ?_⟩
    rw [hTarget]
    exact bind_eq_some_iff.mpr ⟨true, _, by rw [run_testLoaded hFound, hLoaded], rfl⟩
  · dsimp only
    rw [DataModel.getParameter_modify fun q hq => q.name_withDefault.trans hq]
    split
    · rename_i hSame
      rw [hSame, hFound, Option.map_some, hDefault]
    · rfl

theorem run_getParameterValues (h : ∀ entry ∈ asked, Readable s.dm entry) : ∃ values s',
    (getParameterValues ctx calls fuel reader (asked.map Prod.fst)).run s = some (.ok values, s') ∧
      values.map (fun pvs => (pvs.parameterName, pvs.value)) = asked.map (told ctx reader) := by
  induction asked generalizing s with
  | nil => exact ⟨[], s, rfl, rfl⟩
  | cons entry asked ih =>
    have hHere := h entry List.mem_cons_self
    obtain ⟨s₁, hLoad, hSame⟩ := run_loadFor_readable ctx calls fuel reader hHere
    have hLater : ∀ entry ∈ asked, Readable s₁.dm entry := by
      intro other hOther
      obtain ⟨hNamed, hLeaf, prm, hFound, hRest⟩ := h other (List.mem_cons_of_mem _ hOther)
      exact ⟨hNamed, hLeaf, prm, (hSame other.1).trans hFound, hRest⟩
    obtain ⟨values, s', hMore, hTold⟩ := ih hLater
    obtain ⟨hNamed, hLeaf, prm, hFound, -, hShown, -, hValue⟩ := hHere
    have hName := DataModel.name_of_getParameter hFound
    have hEmpty : entry.1.isEmpty = false := by simpa [List.isEmpty_iff] using hNamed
    have hAnswer : valuesOf ctx reader s₁.dm entry.1 = .ok [valueOf ctx.dmPrefix reader prm] := by
      rw [valuesOf, hSame, hFound, hEmpty]
      simp [hShown, hLeaf]
    refine ⟨valueOf ctx.dmPrefix reader prm :: values, s', ?_, ?_⟩
    · refine bind_eq_some_iff.mpr ⟨0, s₁, hLoad, ?_⟩
      refine bind_eq_some_iff.mpr ⟨s₁, s₁, get_eq_some_iff.mpr ⟨rfl, rfl⟩, ?_⟩
      rw [hAnswer]
      dsimp only
      rw [if_neg (by rw [hEmpty, hLeaf]; exact Bool.false_ne_true)]
      exact bind_eq_some_iff.mpr ⟨_, s', hMore, rfl⟩
    · rw [List.map_cons, List.map_cons, hTold]
      congr 1
      simp only [valueOf, filteredValue, Parameter.getFilteredValue, told, hName, hValue]
      split <;> split <;> simp_all

end Read

section Samples

/-- The state in which a later request finds the parameters. -/
def laterState (result : SetParameterValuesResult) : LoadState where
  dm := result.store.parameters
  readings := 0
  current := none
  loops := 0

def named : List (Text × Option Text) := [((hostName false).name, some "gateway".toList)]

end Samples

end Tr069Agent.Engine.ReadRequests
