import Tr069Agent.Engine.SetValuesTrack
import Tr069Agent.Library.Trail

/-! # All or nothing

When a request fails the changes are cancelled along the redirections of its entries. A cancelled
parameter has its value back, but its state is the initial one.
-/

namespace Tr069Agent.Engine

open Library Library.Trail

set_option autoImplicit false

/-- The values are in the store: the parameters are DM_ONLY or COMPUTED, and no object is loaded
from the device. -/
def ParameterStore.Local (store : ParameterStore) : Prop :=
  ∀ prm ∈ store.parameters, prm.loadingMode % 2 = 0 ∧
    (isNodeName prm.name = true ∨ prm.storageMode = .dmOnly ∨ prm.storageMode = .computed)

theorem ParameterStore.Local.congr {store store' : ParameterStore} (h : store.Local)
    (hStatics : store'.statics = store.statics) : store'.Local := by
  intro prm' hMem
  have hStatic : prm'.static ∈ store.statics := hStatics ▸ List.mem_map.mpr ⟨prm', hMem, rfl⟩
  obtain ⟨prm, hPrm, hSame⟩ := List.mem_map.mp hStatic
  obtain ⟨hName, -, hMode, -, hLoading⟩ := Parameter.static_eq_iff.mp hSame
  rw [← hName, ← hMode, ← hLoading]
  exact h prm hPrm

namespace SetParameterValues

variable (dmPrefix : Text) (dateOk : Text → Bool)

/-! ## The calls return -/

theorem asksDevice_of_local {store : ParameterStore} (h : store.Local) : asksDevice store = false := by
  simpa [asksDevice] using fun prm hMem => (h prm hMem).1

theorem exists_loadSystemParameters {store : ParameterStore} (h : store.Local) (path : Text) :
    ∃ res store', loadSystemParameters store path = some (res, store') := by
  unfold loadSystemParameters
  rw [asksDevice_of_local h]
  split
  · exact absurd ‹false = true› (by decide)
  split
  · exact ⟨_, _, rfl⟩
  cases (store.getParameter path).or (findProto store path.length path) with
  | none => exact ⟨_, _, rfl⟩
  | some param =>
    dsimp only
    split <;> exact ⟨_, _, rfl⟩

theorem storageMode_of_local {store : ParameterStore} (h : store.Local) {name : Text}
    {prm : Parameter} (hFound : store.getParameter name = some prm)
    (hLeaf : isNodeName name = false) : prm.storageMode = .dmOnly ∨ prm.storageMode = .computed := by
  have hMode := (h prm (List.mem_of_find?_eq_some hFound)).2
  rw [ParameterStore.name_of_getParameter hFound, hLeaf] at hMode
  exact hMode.resolve_left (by decide)

theorem exists_setChecked {prm : Parameter}
    (hMode : prm.storageMode = .dmOnly ∨ prm.storageMode = .computed) (value : Option Text) :
    ∃ res prm', setChecked dateOk prm value = some (res, prm') := by
  have hHere : ¬ (prm.storageMode = .systemOnly ∨ prm.storageMode = .mixed) := by
    rcases hMode with hMode | hMode <;> simp [hMode]
  dsimp only [setChecked]
  split
  · exact ⟨_, _, rfl⟩
  · exact ⟨_, _, rfl⟩

/-- The parameters that a redirection may still go through. -/
def free (store : ParameterStore) : Nat := store.parameters.countP fun p => !p.state.beingEvaluated

theorem exists_setParameterValue (entity : EntityType) {fuel : Nat} {store : ParameterStore}
    (hLocal : store.Local) (hFuel : free store < fuel) (status : ParameterStatus) (name : Text)
    (value : Option Text) : ∃ res status' store',
      setParameterValue dmPrefix dateOk entity fuel status name value store =
        some (res, status', store') := by
  induction fuel generalizing store status name with
  | zero => omega
  | succ fuel ih =>
    unfold setParameterValue
    cases hFound : store.getParameter name with
    | none => exact ⟨_, _, _, rfl⟩
    | some param =>
      dsimp only
      split
      · exact ⟨_, _, _, rfl⟩
      next hName =>
      split
      · exact ⟨_, _, _, rfl⟩
      split
      · exact ⟨_, _, _, rfl⟩
      next hLoop =>
        have hLeaf : isNodeName name = false := Bool.eq_false_iff.mpr fun hNode => hName (.inl hNode)
        have hMode := storageMode_of_local hLocal hFound hLeaf
        have hMarkedMode : param.markBeingEvaluated.storageMode = .dmOnly ∨
            param.markBeingEvaluated.storageMode = .computed := hMode
        obtain ⟨res, param', hSet⟩ := exists_setChecked dateOk hMarkedMode value
        have hStatic : param'.static = param.static :=
          (static_of_setChecked dateOk hSet).trans (lived_mark param).static
        have hMarked : param'.state.beingEvaluated = true := by
          rcases setChecked_cases dateOk hSet with ⟨-, rfl⟩ | ⟨-, -, -, rfl⟩ <;> rfl
        have hStatics := ParameterStore.statics_put hFound hStatic
        have hName' : param'.name = name := by
          rw [(Parameter.static_eq_iff.mp hStatic).1, ParameterStore.name_of_getParameter hFound]
        have hLess : free (store.put param') < free store := by
          refine ParameterStore.countP_put_lt hFound hName' ?_ ?_
          · simpa using hLoop
          · simp [hMarked]
        rw [hSet]
        dsimp only [Option.bind_eq_bind, Option.bind_some]
        split
        next nextName _ =>
          obtain ⟨res₂, status₂, store₂, hRest⟩ := ih (hLocal.congr hStatics) (by omega) _ nextName
          have hTracks := tracks_setParameterValue dmPrefix dateOk hRest
          obtain ⟨param₂, hFound₂, -⟩ := ParameterStore.exists_of_statics
            (hTracks.statics.trans hStatics) hFound
          rw [hRest]
          dsimp only [Option.bind_some]
          rw [hFound₂]
          exact ⟨_, _, _, rfl⟩
        next => exact ⟨_, _, _, rfl⟩

theorem exists_setEntry (entity : EntityType) {store : ParameterStore} (hLocal : store.Local)
    (entry : Text × Option Text) :
    ∃ res status store', setEntry dmPrefix dateOk entity store entry = some (res, status, store') := by
  obtain ⟨res, store₁, hLoad⟩ := exists_loadSystemParameters hLocal entry.1
  have hLocal₁ := hLocal.congr (tracks_loadSystemParameters hLoad).statics
  have hFuel : free store₁ < bound store₁ := Nat.lt_succ_of_le List.countP_le_length
  obtain ⟨res₂, status₂, store₂, hSet⟩ :=
    exists_setParameterValue dmPrefix dateOk entity hLocal₁ hFuel .undefined entry.1 entry.2
  unfold setEntry
  rw [hLoad]
  dsimp only [Option.bind_eq_bind, Option.bind_some]
  split
  · exact ⟨_, _, _, rfl⟩
  · exact ⟨_, _, _, hSet⟩

theorem exists_setEntries (entity : EntityType) {store : ParameterStore} (hLocal : store.Local)
    (status : ParameterStatus) (parameterList : List (Text × Option Text)) :
    ∃ status' faults store', setEntries dmPrefix dateOk entity status store parameterList =
      some (status', faults, store') := by
  induction parameterList generalizing store status with
  | nil => exact ⟨_, _, _, rfl⟩
  | cons entry parameterList ih =>
    obtain ⟨res, stat, store₁, hEntry⟩ := exists_setEntry dmPrefix dateOk entity hLocal entry
    have hLocal₁ := hLocal.congr (tracks_setEntry dmPrefix dateOk hEntry).statics
    obtain ⟨status₂, faults, store₂, hRest⟩ := ih hLocal₁
      (if res = 0 ∧ status ≠ .readyToApply then stat else status)
    unfold setEntries
    rw [hEntry]
    dsimp only [Option.bind_eq_bind, Option.bind_some]
    rw [hRest]
    exact ⟨_, _, _, rfl⟩

/-! ## The redirections -/

/-- Where the redirection of a parameter leads. -/
def nextName (store : ParameterStore) (name : Text) : Option Text :=
  (store.getParameter name).bind (·.redirection dmPrefix)

theorem nextName_congr {store store' : ParameterStore} (h : store'.statics = store.statics) :
    nextName dmPrefix store' = nextName dmPrefix store := by
  funext name
  unfold nextName
  cases hFound : store.getParameter name with
  | none =>
    cases hFound' : store'.getParameter name with
    | none => rfl
    | some prm' =>
      obtain ⟨prm, hPrm, -⟩ := ParameterStore.exists_of_statics h.symm hFound'
      rw [hFound] at hPrm
      cases hPrm
  | some prm =>
    obtain ⟨prm', hFound', hStatic⟩ := ParameterStore.exists_of_statics h hFound
    rw [hFound']
    exact Parameter.redirection_congr dmPrefix hStatic

/-- The values whose change is requested. -/
def requested (store : ParameterStore) : Set Text :=
  {name | isNodeName name = false ∧
    ∃ prm, store.getParameter name = some prm ∧ prm.state.changeRequested = true}

theorem mem_namesSet_succ {entity : EntityType} {fuel : Nat} {status : ParameterStatus}
    {name other : Text} {value : Option Text} {store : ParameterStore}
    (h : other ∈ namesSet dmPrefix dateOk entity (fuel + 1) status name value store) :
    ∃ status' store', isNodeName name = false ∧ name ∈ store.names ∧
      store'.statics = store.statics ∧
      namesSet dmPrefix dateOk entity (fuel + 1) status name value store =
        name :: match nextName dmPrefix store name with
          | none => []
          | some next => namesSet dmPrefix dateOk entity fuel status' next value store' := by
  rw [namesSet] at h
  cases hFound : store.getParameter name with
  | none => simp [hFound] at h
  | some param =>
    simp only [hFound] at h
    split at h
    · cases h
    next hAccess =>
    cases hChecked : setChecked dateOk param.markBeingEvaluated value with
    | none => simp [hChecked] at h
    | some result =>
      obtain ⟨res, param'⟩ := result
      simp only [hChecked] at h
      split at h
      · cases h
      next hRes =>
      have hStatic : param'.static = param.static :=
        (static_of_setChecked dateOk hChecked).trans (lived_mark param).static
      have hNext : nextName dmPrefix store name = param'.redirection dmPrefix := by
        rw [nextName, hFound, Option.bind_some, Parameter.redirection_congr dmPrefix hStatic]
      refine ⟨if param'.immediateChanges ≠ 0 then .applied else .readyToApply, store.put param',
        Bool.eq_false_iff.mpr fun hNode => hAccess (.inl hNode),
        ParameterStore.mem_names_of_getParameter hFound,
        ParameterStore.statics_put hFound hStatic, ?_⟩
      rw [namesSet, hNext]
      simp only [hFound, hChecked]
      refine (if_neg hAccess).trans ((if_neg hRes).trans ?_)
      cases param'.redirection dmPrefix <;> rfl

/-- A parameter that is set is the one named, or the redirection of the named one leads to it
through parameters that are set. -/
theorem mem_reach_of_mem_namesSet {entity : EntityType} {fuel : Nat} {status : ParameterStatus}
    {name other : Text} {value : Option Text} {store store₀ : ParameterStore} {m : Set Text}
    (hStatics : store.statics = store₀.statics)
    (hSet : ∀ n ∈ namesSet dmPrefix dateOk entity fuel status name value store, n ∈ m)
    (hOther : other ∈ namesSet dmPrefix dateOk entity fuel status name value store) :
    other ∈ reach (nextName dmPrefix store₀) m name := by
  induction fuel generalizing status name store with
  | zero => cases hOther
  | succ fuel ih =>
    obtain ⟨status', store', -, -, hStatics', hEq⟩ := mem_namesSet_succ dmPrefix dateOk hOther
    rw [hEq] at hSet hOther
    have hName : name ∈ m := hSet name List.mem_cons_self
    rcases List.mem_cons.mp hOther with rfl | hOther
    · exact mem_reach_self hName
    cases hNext : nextName dmPrefix store name with
    | none => simp [hNext] at hOther
    | some next =>
      simp only [hNext] at hOther hSet
      rw [nextName_congr dmPrefix hStatics] at hNext
      exact reach_of_next hName hNext
        (ih (hStatics'.trans hStatics) (fun n hn => hSet n (List.mem_cons_of_mem _ hn)) hOther)

theorem mem_namesSet_leaf {entity : EntityType} {fuel : Nat} {status : ParameterStatus}
    {name other : Text} {value : Option Text} {store : ParameterStore}
    (hOther : other ∈ namesSet dmPrefix dateOk entity fuel status name value store) :
    isNodeName other = false ∧ other ∈ store.names := by
  induction fuel generalizing status name store with
  | zero => cases hOther
  | succ fuel ih =>
    obtain ⟨status', store', hLeaf, hMem, hStatics, hEq⟩ := mem_namesSet_succ dmPrefix dateOk hOther
    rw [hEq] at hOther
    rcases List.mem_cons.mp hOther with rfl | hOther
    · exact ⟨hLeaf, hMem⟩
    cases hNext : nextName dmPrefix store name with
    | none => simp [hNext] at hOther
    | some next =>
      simp only [hNext] at hOther
      obtain ⟨hLeaf', hMem'⟩ := ih hOther
      exact ⟨hLeaf', ParameterStore.names_of_statics hStatics ▸ hMem'⟩

theorem mem_changed {entity : EntityType} {store : ParameterStore}
    {parameterList : List (Text × Option Text)} {name : Text}
    (h : name ∈ changed dmPrefix dateOk entity store parameterList) :
    isNodeName name = false ∧ name ∈ store.names := by
  induction parameterList generalizing store with
  | nil => cases h
  | cons entry parameterList ih =>
    unfold changed at h
    rcases List.mem_append.mp h with h | h
    · unfold setByEntry at h
      split at h
      next => cases h
      next res store₁ hLoad =>
        split at h
        · cases h
        obtain ⟨hLeaf, hMem⟩ := mem_namesSet_leaf dmPrefix dateOk h
        have hStatics := (tracks_loadSystemParameters hLoad).statics
        exact ⟨hLeaf, ParameterStore.names_of_statics hStatics ▸ hMem⟩
    · split at h
      next res status store₁ hEntry =>
        obtain ⟨hLeaf, hMem⟩ := ih h
        have hStatics := (tracks_setEntry dmPrefix dateOk hEntry).statics
        exact ⟨hLeaf, ParameterStore.names_of_statics hStatics ▸ hMem⟩
      next => cases h

theorem mem_reach_of_mem_changed {entity : EntityType} {store store₀ : ParameterStore}
    {parameterList : List (Text × Option Text)} {m : Set Text} {name : Text}
    (hStatics : store.statics = store₀.statics)
    (hSet : ∀ n ∈ changed dmPrefix dateOk entity store parameterList, n ∈ m)
    (h : name ∈ changed dmPrefix dateOk entity store parameterList) :
    ∃ entry ∈ parameterList, name ∈ reach (nextName dmPrefix store₀) m entry.1 := by
  induction parameterList generalizing store with
  | nil => cases h
  | cons entry parameterList ih =>
    unfold changed at h hSet
    rcases List.mem_append.mp h with h | h
    · refine ⟨entry, List.mem_cons_self, ?_⟩
      have hHere : ∀ n ∈ setByEntry dmPrefix dateOk entity store entry, n ∈ m :=
        fun n hn => hSet n (List.mem_append_left _ hn)
      unfold setByEntry at h hHere
      cases hLoad : loadSystemParameters store entry.1 with
      | none => simp [hLoad] at h
      | some result =>
        obtain ⟨res, store₁⟩ := result
        simp only [hLoad] at h hHere
        split at h
        · cases h
        next hRes =>
        rw [if_neg hRes] at hHere
        have hStatics₁ := (tracks_loadSystemParameters hLoad).statics.trans hStatics
        exact mem_reach_of_mem_namesSet dmPrefix dateOk hStatics₁ hHere h
    · cases hEntry : setEntry dmPrefix dateOk entity store entry with
      | none => simp [hEntry] at h
      | some result =>
        obtain ⟨res, status, store₁⟩ := result
        rw [hEntry] at h hSet
        have hStatics₁ := (tracks_setEntry dmPrefix dateOk hEntry).statics.trans hStatics
        obtain ⟨later, hLater, hReach⟩ :=
          ih hStatics₁ (fun n hn => hSet n (List.mem_append_right _ hn)) h
        exact ⟨later, List.mem_cons_of_mem _ hLater, hReach⟩

/-! ## The rollback -/

/-- From `store` to `store'` some of the requested changes are cancelled. -/
structure Cancels (store store' : ParameterStore) : Prop where
  statics : store'.statics = store.statics
  cancelled : ∀ name prm, store.getParameter name = some prm →
    store'.getParameter name = some prm ∨
      isNodeName name = false ∧ prm.state.changeRequested = true ∧
        store'.getParameter name = some prm.cancelChange

theorem Cancels.refl (store : ParameterStore) : Cancels store store := ⟨rfl, fun _ _ h => .inl h⟩

theorem Cancels.trans {s s' s'' : ParameterStore} (h : Cancels s s') (h' : Cancels s' s'') :
    Cancels s s'' := by
  refine ⟨h'.statics.trans h.statics, fun name prm hFound => ?_⟩
  rcases h.cancelled name prm hFound with hKept | ⟨hLeaf, hCR, hCancelled⟩
  · exact h'.cancelled name prm hKept
  · rcases h'.cancelled name _ hCancelled with hKept | ⟨-, hAgain, -⟩
    · exact .inr ⟨hLeaf, hCR, hKept⟩
    · cases hAgain

theorem cancels_put {store : ParameterStore} {name : Text} {prm : Parameter}
    (hFound : store.getParameter name = some prm) (hLeaf : isNodeName name = false)
    (hCR : prm.state.changeRequested = true) : Cancels store (store.put prm.cancelChange) := by
  have hName : prm.cancelChange.name = name :=
    show prm.name = name from ParameterStore.name_of_getParameter hFound
  refine ⟨ParameterStore.statics_put hFound rfl, fun other p hp => ?_⟩
  by_cases hSame : other = name
  · subst hSame
    obtain rfl : prm = p := Option.some.inj (hFound.symm.trans hp)
    exact .inr ⟨hLeaf, hCR, ParameterStore.getParameter_put_self hFound hName⟩
  · exact .inl (by rw [ParameterStore.getParameter_put_of_ne (hName ▸ hSame), hp])

theorem requested_put {store : ParameterStore} {name : Text} {prm : Parameter}
    (hFound : store.getParameter name = some prm) :
    requested (store.put prm.cancelChange) = requested store \ {name} := by
  have hName : prm.cancelChange.name = name :=
    show prm.name = name from ParameterStore.name_of_getParameter hFound
  ext other
  by_cases hSame : other = name
  · subst hSame
    have hPut := ParameterStore.getParameter_put_self hFound hName
    simp only [requested, Set.mem_ofPred_eq, hPut, Option.some.injEq, Set.mem_sdiff,
      Set.mem_singleton_iff, not_true, and_false, iff_false, not_and]
    rintro - ⟨p, rfl, hCR⟩
    cases hCR
  · have hPut : (store.put prm.cancelChange).getParameter other = store.getParameter other :=
      ParameterStore.getParameter_put_of_ne (hName ▸ hSame)
    simp [requested, hPut, hSame]

/-- A rollback along the redirections walks over the parameters whose change is requested. -/
theorem follows_unsetParameter {fuel : Nat} {name : Text} {store store' : ParameterStore}
    (h : unsetParameter dmPrefix fuel name store = some store') :
    Follows (nextName dmPrefix store) (requested store) name (requested store') ∧
      Cancels store store' := by
  induction fuel generalizing name store with
  | zero => cases h
  | succ fuel ih =>
    unfold unsetParameter at h
    cases hFound : store.getParameter name with
    | none =>
      rw [hFound] at h
      obtain rfl := Option.some.inj h
      refine ⟨.stop ?_, Cancels.refl store⟩
      rintro ⟨-, prm, hPrm, -⟩
      rw [hFound] at hPrm
      cases hPrm
    | some param =>
      rw [hFound] at h
      dsimp only at h
      split at h
      next hStop =>
        obtain rfl := Option.some.inj h
        refine ⟨.stop ?_, Cancels.refl store⟩
        rintro ⟨hLeaf, prm, hPrm, hCR⟩
        obtain rfl : param = prm := Option.some.inj (hFound.symm.trans hPrm)
        rcases hStop with hNode | hNot
        · exact absurd (hLeaf.symm.trans hNode) (by decide)
        · exact absurd (hCR.symm.trans hNot) (by decide)
      next hGo =>
        obtain ⟨hLeaf, hCR⟩ : isNodeName name = false ∧ param.state.changeRequested = true := by
          simpa using hGo
        have hMem : name ∈ requested store := ⟨hLeaf, param, hFound, hCR⟩
        have hPut := cancels_put hFound hLeaf hCR
        have hNext : nextName dmPrefix store name = param.redirection dmPrefix := by
          rw [nextName, hFound, Option.bind_some]
        split at h
        next hEnd =>
          obtain rfl := Option.some.inj h
          refine ⟨?_, hPut⟩
          rw [requested_put hFound]
          exact .last hMem (hNext.trans hEnd)
        next defName hDef =>
          obtain ⟨hFollows, hCancels⟩ := ih h
          rw [nextName_congr dmPrefix hPut.statics, requested_put hFound] at hFollows
          exact ⟨.step hMem (hNext.trans hDef) hFollows, hPut.trans hCancels⟩

theorem followsAll_unsetAll {parameterList : List (Text × Option Text)} {store store' : ParameterStore}
    (h : unsetAll dmPrefix store parameterList = some store') :
    FollowsAll (nextName dmPrefix store) (requested store) (parameterList.map (·.1))
        (requested store') ∧ Cancels store store' := by
  induction parameterList generalizing store with
  | nil =>
    obtain rfl := Option.some.inj h
    exact ⟨.nil, Cancels.refl store⟩
  | cons entry parameterList ih =>
    obtain ⟨store₁, hFirst, h⟩ := Option.bind_eq_some_iff.mp h
    obtain ⟨hFollows, hCancels⟩ := follows_unsetParameter dmPrefix hFirst
    obtain ⟨hRest, hCancels'⟩ := ih h
    rw [nextName_congr dmPrefix hCancels.statics] at hRest
    exact ⟨.cons hFollows hRest, hCancels.trans hCancels'⟩

theorem exists_unsetParameter {fuel : Nat} {store : ParameterStore}
    (hFuel : store.parameters.countP (·.state.changeRequested) < fuel) (name : Text) :
    ∃ store', unsetParameter dmPrefix fuel name store = some store' := by
  induction fuel generalizing store name with
  | zero => omega
  | succ fuel ih =>
    unfold unsetParameter
    cases hFound : store.getParameter name with
    | none => exact ⟨_, rfl⟩
    | some param =>
      dsimp only
      split
      · exact ⟨_, rfl⟩
      next hGo =>
        have hCR : param.state.changeRequested = true := by
          simpa using fun hNot => hGo (.inr hNot)
        have hName : param.cancelChange.name = name :=
          show param.name = name from ParameterStore.name_of_getParameter hFound
        have hLess := ParameterStore.countP_put_lt (P := (·.state.changeRequested)) hFound hName hCR rfl
        split
        · exact ⟨_, rfl⟩
        · exact ih (by omega) _

theorem exists_unsetAll (store : ParameterStore) (parameterList : List (Text × Option Text)) :
    ∃ store', unsetAll dmPrefix store parameterList = some store' := by
  induction parameterList generalizing store with
  | nil => exact ⟨_, rfl⟩
  | cons entry parameterList ih =>
    have hFuel : store.parameters.countP (·.state.changeRequested) < bound store :=
      Nat.lt_succ_of_le List.countP_le_length
    obtain ⟨store₁, hFirst⟩ := exists_unsetParameter dmPrefix hFuel entry.1
    obtain ⟨store₂, hRest⟩ := ih store₁
    unfold unsetAll
    rw [hFirst]
    exact ⟨store₂, hRest⟩

end SetParameterValues

end Tr069Agent.Engine
