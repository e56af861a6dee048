import Tr069Agent.Engine.SetValuesRollback

/-! # What a failed request leaves

The values and the pending value changes are those before the request exactly when no change was
pending on the parameters that the rollback goes through, and nothing was changed by the look-up of
the names or is cleared when the request ends.
-/

namespace Tr069Agent.Engine

open Library Library.Trail

set_option autoImplicit false

namespace SetParameterValues

variable (dmPrefix : Text) (dateOk : Text → Bool) (statistics : StatisticsModule)

/-! ## A request without faults -/

theorem statics_performSetting (store : ParameterStore) (name : Text) :
    (performSetting dmPrefix statistics store name).statics = store.statics := by
  rw [performSetting]
  split
  · rfl
  · exact statistics.statics_perform _ _ _

theorem statics_commitParameter {fuel : Nat} {name : Text} {store store' : ParameterStore}
    (h : commitParameter dmPrefix statistics fuel name store = some store') : store'.statics = store.statics := by
  induction fuel generalizing name store with
  | zero => cases h
  | succ fuel ih =>
    unfold commitParameter at h
    cases hFound : store.getParameter name with
    | none =>
      rw [hFound] at h
      obtain rfl := Option.some.inj h
      rfl
    | some param =>
      rw [hFound] at h
      have hPut : (performSetting dmPrefix statistics (store.put param.commit) name).statics = store.statics :=
        (statics_performSetting dmPrefix statistics _ name).trans (ParameterStore.statics_put hFound rfl)
      dsimp only at h
      split at h
      · obtain rfl := Option.some.inj h
        rfl
      split at h
      · obtain rfl := Option.some.inj h
        exact hPut
      · exact (ih h).trans hPut

/-- The commit follows the redirections that the set has followed. -/
theorem exists_commitParameter {entity : EntityType} {fuel : Nat} {status status' : ParameterStatus}
    {name : Text} {value : Option Text} {store store' s : ParameterStore}
    (h : setParameterValue dmPrefix dateOk entity fuel status name value store =
      some (0, status', store')) (hStatics : s.statics = store.statics) :
    ∃ s', commitParameter dmPrefix statistics fuel name s = some s' := by
  induction fuel generalizing status status' name store store' s with
  | zero => cases h
  | succ fuel ih =>
    unfold commitParameter
    cases hFound : s.getParameter name with
    | none => exact ⟨_, rfl⟩
    | some p =>
      dsimp only
      split
      · exact ⟨_, rfl⟩
      cases hNext : p.redirection dmPrefix with
      | none => exact ⟨_, rfl⟩
      | some nextName =>
        obtain ⟨param, hParam, hSame⟩ := ParameterStore.exists_of_statics hStatics.symm hFound
        unfold setParameterValue at h
        rw [hParam] at h
        dsimp only at h
        split at h
        · cases h
        split at h
        · cases h
        split at h
        · cases h
        obtain ⟨⟨res, param'⟩, hSet, h⟩ := Option.bind_eq_some_iff.mp h
        have hStatic : param'.static = param.static :=
          (static_of_setChecked dateOk hSet).trans (lived_mark param).static
        have hNext' : param'.redirection dmPrefix = some nextName := by
          rw [Parameter.redirection_congr dmPrefix (hStatic.trans hSame), hNext]
        rw [hNext'] at h
        split at h
        next other hOther =>
          obtain rfl := Option.some.inj hOther
          obtain ⟨⟨res₂, status₂, store₂⟩, hRest, h⟩ := Option.bind_eq_some_iff.mp h
          obtain ⟨param₂, -, h⟩ := Option.bind_eq_some_iff.mp h
          obtain ⟨rfl, -, -⟩ := by simpa using h
          have hCommit : (performSetting dmPrefix statistics (s.put p.commit) name).statics = s.statics :=
            (statics_performSetting dmPrefix statistics _ name).trans (ParameterStore.statics_put hFound rfl)
          have hPut := ParameterStore.statics_put hParam hStatic
          exact ih hRest (hCommit.trans (hStatics.trans hPut.symm))
        next hNot =>
          obtain ⟨rfl, -, -⟩ := by simpa using h
          exact absurd rfl (hNot nextName rfl)

theorem exists_commitAll {entity : EntityType} {store store' s : ParameterStore}
    {status status' : ParameterStatus} {parameterList : List (Text × Option Text)}
    (h : setEntries dmPrefix dateOk entity status store parameterList = some (status', [], store'))
    (hStatics : s.statics = store.statics) :
    ∃ s', commitAll dmPrefix statistics s parameterList = some s' := by
  induction parameterList generalizing status status' store s with
  | nil => exact ⟨_, rfl⟩
  | cons entry parameterList ih =>
    obtain ⟨⟨res, stat, store₁⟩, hEntry, h⟩ := Option.bind_eq_some_iff.mp h
    obtain ⟨⟨status₂, faults, store₂⟩, hRest, h⟩ := Option.bind_eq_some_iff.mp h
    obtain ⟨-, hFaults, rfl⟩ := by simpa using h
    have hRes : res = 0 := by
      refine not_not.mp fun hRes => ?_
      rw [if_neg hRes] at hFaults
      cases hFaults
    subst hRes
    obtain rfl : faults = [] := hFaults
    have hStatics₁ := (tracks_setEntry dmPrefix dateOk hEntry).statics
    obtain ⟨⟨res₃, store₃⟩, hLoad, hSet⟩ := Option.bind_eq_some_iff.mp hEntry
    have hStatics₃ := (tracks_loadSystemParameters hLoad).statics
    dsimp only at hSet
    split at hSet
    next hNot =>
      obtain ⟨rfl, -, -⟩ := by simpa using hSet
      exact absurd rfl hNot
    next =>
      have hSame : s.statics = store₃.statics := hStatics.trans hStatics₃.symm
      have hBound : bound store₃ = bound s := by
        rw [bound, bound, ParameterStore.length_of_statics hSame]
      obtain ⟨s₁, hFirst⟩ := exists_commitParameter dmPrefix dateOk statistics hSet hSame
      have hNext := (statics_commitParameter dmPrefix statistics hFirst).trans (hStatics.trans hStatics₁.symm)
      obtain ⟨s₂, hLater⟩ := ih hRest hNext
      rw [hBound] at hFirst
      unfold commitAll
      rw [hFirst]
      exact ⟨s₂, hLater⟩

theorem isNodeName_parameterKeyName : isNodeName (parameterKeyName dmPrefix) = false := by
  have hLast : (parameterKeyName dmPrefix).getLast? = some 'y' := by
    unfold parameterKeyName
    rw [List.getLast?_append_of_ne_nil _ (by decide)]
    decide
  simp [isNodeName, hLast]

/-- The parameter whose value is the key of the last request exists, where there is a key to set. -/
def KeyFound (entity : EntityType) (parameterKey : Option Text) (store : ParameterStore) : Prop :=
  entity = .acs → parameterKey ≠ none → parameterKeyName dmPrefix ∈ store.names

theorem exists_setParameterKey {store : ParameterStore} (hLocal : store.Local)
    {parameterKey : Option Text}
    (hKey : parameterKey ≠ none → parameterKeyName dmPrefix ∈ store.names) :
    ∃ store', setParameterKey dmPrefix dateOk parameterKey store = some store' ∧
      store'.statics = store.statics := by
  cases parameterKey with
  | none => exact ⟨store, rfl, rfl⟩
  | some key =>
    obtain ⟨param, hFound⟩ := ParameterStore.exists_of_mem_names (hKey (by simp))
    have hMode := storageMode_of_local hLocal hFound (isNodeName_parameterKeyName dmPrefix)
    obtain ⟨res, param', hSet⟩ := exists_setChecked dateOk hMode (some key)
    have hSame := static_of_setChecked dateOk hSet
    have hStatic : param'.commit.static = param.static := hSame
    refine ⟨store.put param'.commit, ?_, ParameterStore.statics_put hFound hStatic⟩
    simp [setParameterKey, hFound, hSet]

/-! ## The result of a request -/

theorem exists_setParameterValues {entity : EntityType} (hEntity : entity ≠ .system)
    (inSession : Bool) {parameterKey : Option Text} {store : ParameterStore} (hLocal : store.Local)
    (hKey : KeyFound dmPrefix entity parameterKey store) (parameterList : List (Text × Option Text)) :
    ∃ result, setParameterValues dmPrefix dateOk statistics entity inSession parameterKey store parameterList =
      some result := by
  obtain ⟨status, faults, store₁, hSet⟩ :=
    exists_setEntries dmPrefix dateOk entity hLocal .undefined parameterList
  have hStatics := (tracks_setEntries dmPrefix dateOk hSet).statics
  unfold setParameterValues
  rw [if_neg hEntity, hSet]
  dsimp only [Option.bind_eq_bind, Option.bind_some]
  split
  next hFaults =>
    subst hFaults
    by_cases hAcs : entity = .acs
    · rw [if_pos hAcs]
      have hKey₁ : parameterKey ≠ none → parameterKeyName dmPrefix ∈ store₁.names :=
        fun hSome => ParameterStore.names_of_statics hStatics ▸ hKey hAcs hSome
      obtain ⟨store₂, hSetKey, hStatics₂⟩ := exists_setParameterKey dmPrefix dateOk
        (hLocal.congr hStatics) hKey₁
      obtain ⟨store₃, hCommit⟩ :=
        exists_commitAll dmPrefix dateOk statistics hSet (hStatics₂.trans hStatics)
      rw [hSetKey]
      dsimp only [Option.bind_some]
      rw [hCommit]
      exact ⟨_, rfl⟩
    · rw [if_neg hAcs]
      obtain ⟨store₃, hCommit⟩ := exists_commitAll dmPrefix dateOk statistics hSet hStatics
      rw [hCommit]
      exact ⟨_, rfl⟩
  next =>
    obtain ⟨store₂, hUnset⟩ := exists_unsetAll dmPrefix store₁ parameterList
    rw [hUnset]
    exact ⟨_, rfl⟩

theorem setParameterValues_fault {entity : EntityType} {inSession : Bool} {parameterKey : Option Text}
    {store : ParameterStore} {parameterList : List (Text × Option Text)}
    {result : SetParameterValuesResult}
    (h : setParameterValues dmPrefix dateOk statistics entity inSession parameterKey store parameterList =
      some result) (hFault : result.codeRetour ≠ 0) :
    ∃ status faults store₁ store₂,
      setEntries dmPrefix dateOk entity .undefined store parameterList =
        some (status, faults, store₁) ∧
      unsetAll dmPrefix store₁ parameterList = some store₂ ∧ result.store = release inSession store₂ := by
  unfold setParameterValues at h
  split at h
  · cases h
  obtain ⟨⟨status, faults, store₁⟩, hSet, h⟩ := Option.bind_eq_some_iff.mp h
  dsimp only at h
  split at h
  · have hCode : result.codeRetour = 0 := by
      split at h
      · obtain ⟨store₂, -, h⟩ := Option.bind_eq_some_iff.mp h
        obtain ⟨store₃, -, h⟩ := Option.bind_eq_some_iff.mp h
        obtain rfl := Option.some.inj h
        rfl
      · obtain ⟨store₂, -, h⟩ := Option.bind_eq_some_iff.mp h
        obtain ⟨store₃, -, h⟩ := Option.bind_eq_some_iff.mp h
        obtain rfl := Option.some.inj h
        rfl
    exact absurd hCode hFault
  · obtain ⟨store₂, hUnset, h⟩ := Option.bind_eq_some_iff.mp h
    obtain rfl := Option.some.inj h
    exact ⟨status, faults, store₁, store₂, hSet, hUnset, rfl⟩

/-- The parameters that the rollback goes through: those whose change is requested, by this request
or before it, on the redirections from an entry. -/
def Undone (entity : EntityType) (store : ParameterStore) (parameterList : List (Text × Option Text))
    (name : Text) : Prop :=
  let m : Set Text :=
    {n | n ∈ requested store ∨ n ∈ changed dmPrefix dateOk entity store parameterList}
  ∃ entry ∈ parameterList, name ∈ reach (nextName dmPrefix store) m entry.1

/-- A rollback loses a pending value change, and it brings back what was there before a change that
an earlier request has left. Apart from that a value differs when it was given as a default, or when
it is a computed one, which is cleared. -/
def Reversible (entity : EntityType) (store : ParameterStore)
    (parameterList : List (Text × Option Text)) (name : Text) (prm : Parameter) : Prop :=
  (Undone dmPrefix dateOk entity store parameterList name → prm.state.valueChanged = false) ∧
  (prm.clearsValue = true → prm.value = none) ∧
  (prm.clearsValue = false →
    (prm.state.changeRequested = true ∧ Undone dmPrefix dateOk entity store parameterList name →
      prm.backValue = prm.value) ∧
    (¬ (prm.state.changeRequested = true ∧ Undone dmPrefix dateOk entity store parameterList name) →
      name ∉ filled dmPrefix dateOk entity store parameterList))

end SetParameterValues

/-- Every value, and whether its change is still to be notified, is as before. -/
def ValuesKept (store final : ParameterStore) : Prop :=
  ∀ name prm, store.getParameter name = some prm → isNodeName name = false →
    ∃ prm', final.getParameter name = some prm' ∧ prm'.value = prm.value ∧
      prm'.state.valueChanged = prm.state.valueChanged

namespace SetParameterValues

variable (dmPrefix : Text) (dateOk : Text → Bool)

theorem value_clearTemporaryValue {prm : Parameter} (level : Nat) (hLevel : level ≤ 1)
    (hLeaf : isNodeName prm.name = false)
    (hMode : prm.storageMode = .dmOnly ∨ prm.storageMode = .computed) :
    (prm.clearTemporaryValue level).value = (if prm.clearsValue then none else prm.value) ∧
      (prm.clearTemporaryValue level).state.valueChanged = prm.state.valueChanged := by
  have hFirst : ¬ (level = 2 ∨ level = 1 ∧
      (isNodeName prm.name = true ∧ prm.storageMode ≠ .mixed ∨ prm.storageMode = .systemOnly)) := by
    rcases hMode with hMode | hMode <;> simp [hLeaf, hMode] <;> omega
  unfold Parameter.clearTemporaryValue
  rw [if_neg hFirst]
  rcases hMode with hMode | hMode
  · simp [Parameter.clearsValue, hMode]
  · simp [hMode]

/-- After the entries a change is requested on what was set, and where it was requested before. -/
theorem requested_of_tracks {entity : EntityType} {store store₁ : ParameterStore}
    {parameterList : List (Text × Option Text)}
    (h : Tracks (changed dmPrefix dateOk entity store parameterList)
      (filled dmPrefix dateOk entity store parameterList) store store₁) :
    requested store₁ =
      {n | n ∈ requested store ∨ n ∈ changed dmPrefix dateOk entity store parameterList} := by
  ext n
  constructor
  · rintro ⟨hLeaf, prm₁, hFound₁, hCR⟩
    obtain ⟨prm, hFound, -⟩ := ParameterStore.exists_of_statics h.statics.symm hFound₁
    have hLived := h.lived n prm prm₁ hFound hLeaf hFound₁
    by_cases hMem : n ∈ changed dmPrefix dateOk entity store parameterList
    · exact .inr hMem
    · have hSame := (hLived.ofKept (by simpa using hMem)).1
      exact .inl ⟨hLeaf, prm, hFound, hSame ▸ hCR⟩
  · intro hn
    have hHere : isNodeName n = false ∧ ∃ prm, store.getParameter n = some prm := by
      rcases hn with ⟨hLeaf, prm, hFound, -⟩ | hMem
      · exact ⟨hLeaf, prm, hFound⟩
      · obtain ⟨hLeaf, hName⟩ := mem_changed dmPrefix dateOk hMem
        exact ⟨hLeaf, ParameterStore.exists_of_mem_names hName⟩
    obtain ⟨hLeaf, prm, hFound⟩ := hHere
    obtain ⟨prm₁, hFound₁, -⟩ := ParameterStore.exists_of_statics h.statics hFound
    have hLived := h.lived n prm prm₁ hFound hLeaf hFound₁
    refine ⟨hLeaf, prm₁, hFound₁, ?_⟩
    by_cases hMem : n ∈ changed dmPrefix dateOk entity store parameterList
    · exact (hLived.ofSet (by simpa using hMem)).2.1
    · obtain ⟨-, p, hp, hCR⟩ := hn.resolve_right hMem
      obtain rfl : prm = p := Option.some.inj (hFound.symm.trans hp)
      exact (hLived.ofKept (by simpa using hMem)).1.trans hCR

/-- The rollback cancels exactly the changes that it comes across. -/
theorem getParameter_unsetAll {entity : EntityType} {store store₁ store₂ : ParameterStore}
    {parameterList : List (Text × Option Text)}
    (hTracks : Tracks (changed dmPrefix dateOk entity store parameterList)
      (filled dmPrefix dateOk entity store parameterList) store store₁)
    (hUnset : unsetAll dmPrefix store₁ parameterList = some store₂) {name : Text} {prm₁ : Parameter}
    (hFound₁ : store₁.getParameter name = some prm₁) :
    (Undone dmPrefix dateOk entity store parameterList name →
      store₂.getParameter name = some prm₁.cancelChange) ∧
    (¬ Undone dmPrefix dateOk entity store parameterList name →
      store₂.getParameter name = some prm₁) := by
  obtain ⟨hFollows, hCancels⟩ := followsAll_unsetAll dmPrefix hUnset
  rw [nextName_congr dmPrefix hTracks.statics] at hFollows
  have hUndone : Undone dmPrefix dateOk entity store parameterList name ↔
      name ∈ requested store₁ ∧ name ∉ requested store₂ := by
    unfold Undone
    rw [hFollows.mem_iff, ← requested_of_tracks dmPrefix dateOk hTracks]
    constructor
    · rintro ⟨entry, hEntry, hReach⟩
      refine ⟨reach_subset _ _ hReach, fun hNot => ?_⟩
      exact hNot.2 entry.1 (List.mem_map_of_mem hEntry) hReach
    · rintro ⟨hMem, hNot⟩
      by_contra hNone
      refine hNot ⟨hMem, fun a ha hReach => ?_⟩
      obtain ⟨entry, hEntry, rfl⟩ := List.mem_map.mp ha
      exact hNone ⟨entry, hEntry, hReach⟩
  rw [hUndone]
  rcases hCancels.cancelled name prm₁ hFound₁ with hKept | ⟨hLeaf, hCR, hCancelled⟩
  · refine ⟨?_, fun _ => hKept⟩
    rintro ⟨⟨hLeaf, p, hp, hCR⟩, hNot⟩
    obtain rfl : prm₁ = p := Option.some.inj (hFound₁.symm.trans hp)
    exact absurd ⟨hLeaf, prm₁, hKept, hCR⟩ hNot
  · refine ⟨fun _ => hCancelled, fun hNot => absurd ⟨⟨hLeaf, prm₁, hFound₁, hCR⟩, ?_⟩ hNot⟩
    rintro ⟨-, p, hp, hCR'⟩
    obtain rfl := Option.some.inj (hCancelled.symm.trans hp)
    cases hCR'

theorem undone_of_mem_changed {entity : EntityType} {store : ParameterStore}
    {parameterList : List (Text × Option Text)} {name : Text}
    (h : name ∈ changed dmPrefix dateOk entity store parameterList) :
    Undone dmPrefix dateOk entity store parameterList name :=
  mem_reach_of_mem_changed dmPrefix dateOk rfl (fun _ hn => .inr hn) h

theorem startValue_eq_iff {prm : Parameter} {fill : Bool} (h : fill = true → prm.isUnset = true) :
    startValue fill prm = prm.value ↔ fill = false := by
  cases fill with
  | false => simp [startValue]
  | true => simpa [startValue] using (Parameter.value_of_isUnset (h rfl)).symm

/-- What becomes of a value: it lives through the entries, the rollback cancels it where it comes
across it, and the end may clear it. -/
theorem value_after_fault {entity : EntityType} {store store₁ store₂ : ParameterStore}
    (hLocal : store.Local) {parameterList : List (Text × Option Text)} {status : ParameterStatus}
    {faults : List (Text × Int)}
    (hSet : setEntries dmPrefix dateOk entity .undefined store parameterList =
      some (status, faults, store₁))
    (hUnset : unsetAll dmPrefix store₁ parameterList = some store₂) (inSession : Bool) {name : Text}
    {prm : Parameter} (hFound : store.getParameter name = some prm)
    (hLeaf : isNodeName name = false) :
    ∃ prm', (release inSession store₂).getParameter name = some prm' ∧
      (prm'.value = prm.value ∧ prm'.state.valueChanged = prm.state.valueChanged ↔
        Reversible dmPrefix dateOk entity store parameterList name prm) := by
  have hTracks := tracks_setEntries dmPrefix dateOk hSet
  obtain ⟨prm₁, hFound₁, hStatic₁⟩ := ParameterStore.exists_of_statics hTracks.statics hFound
  have hLived := hTracks.lived name prm prm₁ hFound hLeaf hFound₁
  obtain ⟨hCancelled, hKept⟩ := getParameter_unsetAll dmPrefix dateOk hTracks hUnset hFound₁
  have hMode := storageMode_of_local hLocal hFound hLeaf
  have hStart := startValue_eq_iff hLived.unset
  have hFill : decide (name ∈ filled dmPrefix dateOk entity store parameterList) = false ↔
      name ∉ filled dmPrefix dateOk entity store parameterList := decide_eq_false_iff_not
  rw [hFill] at hStart
  have hRelease : ∀ prm₂, store₂.getParameter name = some prm₂ → prm₂.static = prm.static →
      ∃ prm', (release inSession store₂).getParameter name = some prm' ∧
        prm'.value = (if prm.clearsValue then none else prm₂.value) ∧
        prm'.state.valueChanged = prm₂.state.valueChanged := by
    intro prm₂ hFound₂ hStatic₂
    obtain ⟨hName, -, hMode₂, -, -⟩ := Parameter.static_eq_iff.mp hStatic₂
    have hLeaf₂ : isNodeName prm₂.name = false := by
      rw [ParameterStore.name_of_getParameter hFound₂, hLeaf]
    obtain ⟨hValue, hVC⟩ := value_clearTemporaryValue (if inSession then 0 else 1)
      (by cases inSession <;> decide) hLeaf₂ (hMode₂ ▸ hMode)
    rw [Parameter.clearsValue_congr hStatic₂] at hValue
    refine ⟨_, ?_, hValue, hVC⟩
    rw [release, ParameterStore.getParameter_map, hFound₂]
    rfl
  unfold Reversible
  by_cases hUndone : Undone dmPrefix dateOk entity store parameterList name
  · obtain ⟨prm', hFound', hValue, hVC⟩ := hRelease _ (hCancelled hUndone) hStatic₁
    refine ⟨prm', hFound', ?_⟩
    have hVC' : prm'.state.valueChanged = false := hVC
    rw [hValue, hVC']
    have hFlag : false = prm.state.valueChanged ↔ prm.state.valueChanged = false := eq_comm
    change (if prm.clearsValue then none else prm₁.backValue) = prm.value ∧ _ ↔ _
    rw [hFlag]
    cases hClears : prm.clearsValue with
    | true =>
      have hNone : none = prm.value ↔ prm.value = none := eq_comm
      simp [hUndone, hNone, and_comm]
    | false =>
      by_cases hMem : name ∈ changed dmPrefix dateOk entity store parameterList
      · obtain ⟨hCR, -, hBack, -⟩ := hLived.ofSet (by simpa using hMem)
        simp [hUndone, hCR, hBack, hStart, and_comm]
      · obtain ⟨-, -, hBack, -⟩ := hLived.ofKept (by simpa using hMem)
        have hCR : prm.state.changeRequested = true := by
          obtain ⟨entry, -, hReach⟩ := hUndone
          obtain ⟨-, p, hp, hCR⟩ := (reach_subset _ _ hReach).resolve_right hMem
          obtain rfl : prm = p := Option.some.inj (hFound.symm.trans hp)
          exact hCR
        simp [hUndone, hCR, hBack, and_comm]
  · obtain ⟨prm', hFound', hValue, hVC⟩ := hRelease _ (hKept hUndone) hStatic₁
    refine ⟨prm', hFound', ?_⟩
    have hNotSet : name ∉ changed dmPrefix dateOk entity store parameterList :=
      fun h => hUndone (undone_of_mem_changed dmPrefix dateOk h)
    obtain ⟨hCR, hSame, -, hValue₁⟩ := hLived.ofKept (by simpa using hNotSet)
    rw [hValue, hVC, hSame, hValue₁]
    cases hClears : prm.clearsValue with
    | true =>
      have hNone : none = prm.value ↔ prm.value = none := eq_comm
      simp [hUndone, hNone]
    | false => simp [hUndone, hStart]

end SetParameterValues

open SetParameterValues in
/-- A call that is not the system's returns, and after a fault the values and the pending value
changes are those before it exactly when each of them is reversible. -/
theorem valuesKept_iff_reversible (dmPrefix : Text) (dateOk : Text → Bool) (statistics : StatisticsModule)
    {entity : EntityType}
    (hEntity : entity ≠ .system) (inSession : Bool) (parameterKey : Option Text)
    {store : ParameterStore} (hLocal : store.Local) (parameterList : List (Text × Option Text)) :
    (KeyFound dmPrefix entity parameterKey store → ∃ result,
      setParameterValues dmPrefix dateOk statistics entity inSession parameterKey store parameterList =
        some result) ∧
    ∀ result, setParameterValues dmPrefix dateOk statistics entity inSession parameterKey store parameterList =
        some result → result.codeRetour ≠ 0 →
      (ValuesKept store result.store ↔
        ∀ name prm, store.getParameter name = some prm → isNodeName name = false →
          Reversible dmPrefix dateOk entity store parameterList name prm) := by
  constructor
  · intro hKey
    exact exists_setParameterValues dmPrefix dateOk statistics hEntity inSession hLocal hKey parameterList
  · intro result hResult hFault
    obtain ⟨status, faults, store₁, store₂, hSet, hUnset, hStore⟩ :=
      setParameterValues_fault dmPrefix dateOk statistics hResult hFault
    rw [hStore]
    refine forall_congr' fun name => forall_congr' fun prm => forall_congr' fun hFound =>
      forall_congr' fun hLeaf => ?_
    obtain ⟨prm', hFound', hIff⟩ :=
      value_after_fault dmPrefix dateOk hLocal hSet hUnset inSession hFound hLeaf
    rw [← hIff]
    constructor
    · rintro ⟨p, hp, hKept⟩
      obtain rfl : prm' = p := Option.some.inj (hFound'.symm.trans hp)
      exact hKept
    · exact fun hKept => ⟨prm', hFound', hKept⟩

section Samples

open SetParameterValues

def devicePath : Text := "Device.".toList

def hostName (valueChanged : Bool) : Parameter where
  name := "Device.Info.HostName".toList
  type := .string
  minValue := 64
  maxValue := 0
  storageMode := .dmOnly
  writable := true
  immediateChanges := 1
  accessList := some defaultAccessList
  notification := .passive
  mandatoryNotification := false
  activeNotificationDenied := false
  loadingMode := 0
  state := { ParameterState.initial with valueChanged }
  backValue := none
  value := some "box".toList
  configKey := none
  definition := none

/-- Its values are those of the host name. -/
def hostAlias : Parameter :=
  { hostName false with
    name := "Device.Info.Alias".toList
    storageMode := .computed
    value := none
    definition := some "HostName".toList }

def infoStore (valueChanged : Bool) : ParameterStore :=
  ⟨[hostName valueChanged, hostAlias], by cases valueChanged <;> decide⟩

theorem local_infoStore (valueChanged : Bool) : (infoStore valueChanged).Local := by
  intro prm hMem
  simp only [infoStore, List.mem_cons, List.not_mem_nil, or_false] at hMem
  rcases hMem with rfl | rfl
  · exact ⟨rfl, .inr (.inl rfl)⟩
  · exact ⟨rfl, .inr (.inr rfl)⟩

def aliasAndUnknown : List (Text × Option Text) :=
  [(hostAlias.name, some "gateway".toList), ("Device.Info.Owner".toList, some "me".toList)]

def noDate : Text → Bool := fun _ => false

/-- No parameter of the samples controls a statistics object. -/
def noStatistics : StatisticsModule where
  performParameterSetting _ _ store := store
  statics_perform _ _ _ := rfl

def rejected (valueChanged : Bool) : Option SetParameterValuesResult :=
  setParameterValues devicePath noDate noStatistics .acs true none (infoStore valueChanged) aliasAndUnknown

theorem alias_change_undone : ∃ result, rejected false = some result ∧
    result.faults = [("Device.Info.Owner".toList, Fault.invalidParameterName)] ∧
      ValuesKept (infoStore false) result.store := by
  have hKey : KeyFound devicePath .acs none (infoStore false) := fun _ hNone => absurd rfl hNone
  have hEntity : EntityType.acs ≠ .system := by decide
  obtain ⟨hReturns, hIff⟩ := valuesKept_iff_reversible devicePath noDate noStatistics hEntity true none
    (local_infoStore false) aliasAndUnknown
  obtain ⟨result, hResult⟩ := hReturns hKey
  have hMap : (rejected false).map (fun r => (r.codeRetour, r.faults)) =
      some (Fault.invalidArguments, [("Device.Info.Owner".toList, Fault.invalidParameterName)]) := by
    decide +kernel
  rw [rejected, hResult] at hMap
  obtain ⟨hCode, hFaults⟩ := Prod.mk.inj (Option.some.inj hMap)
  have hFault : result.codeRetour ≠ 0 := by
    rw [show result.codeRetour = Fault.invalidArguments from hCode]
    decide
  refine ⟨result, hResult, hFaults, (hIff result hResult hFault).mpr ?_⟩
  intro name prm hFound _
  obtain rfl := ParameterStore.name_of_getParameter hFound
  have hMem : prm ∈ [hostName false, hostAlias] := List.mem_of_find?_eq_some hFound
  have hNotFilled : ∀ p ∈ [hostName false, hostAlias],
      p.name ∉ filled devicePath noDate .acs (infoStore false) aliasAndUnknown := by decide +kernel
  have hSettled : prm.state = .initial ∧ (prm.clearsValue = true → prm.value = none) := by
    simp only [List.mem_cons, List.not_mem_nil, or_false] at hMem
    rcases hMem with rfl | rfl <;> decide
  refine ⟨fun _ => by rw [hSettled.1]; rfl, hSettled.2, fun _ => ⟨?_, fun _ => hNotFilled prm hMem⟩⟩
  rintro ⟨hCR, -⟩
  rw [hSettled.1] at hCR
  cases hCR

/-- The change of the host name that was still to be notified is forgotten. -/
theorem pending_change_lost : (infoStore true).Local ∧ ∃ result, rejected true = some result ∧
    result.codeRetour ≠ 0 ∧ ¬ ValuesKept (infoStore true) result.store := by
  refine ⟨local_infoStore true, ?_⟩
  have hMap : (rejected true).map (fun r => (r.codeRetour,
      (r.store.getParameter (hostName true).name).map (·.state.valueChanged))) =
      some (Fault.invalidArguments, some false) := by decide +kernel
  obtain ⟨result, hResult, hFinal⟩ := Option.map_eq_some_iff.mp hMap
  obtain ⟨hCode, hFinal⟩ := Prod.mk.inj hFinal
  refine ⟨result, hResult, by rw [hCode]; decide, fun hKept => ?_⟩
  obtain ⟨prm, hFound, -, hPending⟩ :=
    hKept (hostName true).name (hostName true) (by decide) (by decide)
  have hLost : prm.state.valueChanged = false := by simpa [hFound] using hFinal
  exact absurd (hLost.symm.trans hPending) (by decide)

end Samples

end Tr069Agent.Engine
