import Mathlib.Logic.Relation
import Tr069Agent.Engine.SetValuesKept

/-! # What a successful request leaves

Every parameter that the redirections from an entry lead to has the value of the entry, and no change is
left to be committed there. The others keep their values, or are given their default by the look-up of
the names.
-/

namespace Tr069Agent.Engine.SetParameterValues

open Library Relation

set_option autoImplicit false

section Untouched

/-- A part of a parameter that no step of a request changes. -/
structure Untouched {β : Type} (part : Parameter → β) : Prop where
  withDefault : ∀ p, part p.withDefault = part p
  markLoaded : ∀ p, part p.markLoaded = part p
  mark : ∀ p, part p.markBeingEvaluated = part p
  unmark : ∀ p, part p.unmarkBeingEvaluated = part p
  setValue : ∀ p value, part (p.setValue value) = part p
  commit : ∀ p, part p.commit = part p
  clear : ∀ p level, part (p.clearTemporaryValue level) = part p

variable {β : Type} {part : Parameter → β} {store store' : ParameterStore} {name : Text}

/-- The part of every parameter is as before. -/
def PartsKept (part : Parameter → β) (store store' : ParameterStore) : Prop :=
  ∀ name, (store'.getParameter name).map part = (store.getParameter name).map part

theorem PartsKept.trans {store'' : ParameterStore} (h : PartsKept part store store')
    (h' : PartsKept part store' store'') : PartsKept part store store'' := fun name => (h' name).trans (h name)

theorem partsKept_put {prm prm' : Parameter} (hFound : store.getParameter name = some prm)
    (hName : prm'.name = name) (hPart : part prm' = part prm) : PartsKept part store (store.put prm') := by
  intro other
  obtain rfl | hOther := eq_or_ne other name
  · rw [ParameterStore.getParameter_put_self hFound hName, hFound, Option.map_some, Option.map_some, hPart]
  · rw [ParameterStore.getParameter_put_of_ne (hName ▸ hOther)]

theorem partsKept_map {f : Parameter → Parameter} (hf : ∀ p, (f p).name = p.name) (hPart : ∀ p, part (f p) = part p) :
    PartsKept part store (store.map f hf) := by
  intro other
  rw [ParameterStore.getParameter_map]
  cases store.getParameter other with
  | none => rfl
  | some prm => rw [Option.map_some, Option.map_some, Option.map_some, hPart]

variable {dmPrefix : Text} {dateOk : Text → Bool} {entity : EntityType}

variable (h : Untouched part)
include h

theorem partsKept_loadSystemParameters {path : Text} {res : Int}
    (hLoad : loadSystemParameters store path = some (res, store')) : PartsKept part store store' := by
  have hChecked : PartsKept part store (checkLoaded (isChecked store path) store) := by
    refine partsKept_map _ fun p => ?_
    split
    · exact h.withDefault p
    · rfl
  unfold loadSystemParameters at hLoad
  split at hLoad
  · cases hLoad
  split at hLoad
  · obtain ⟨-, rfl⟩ := Prod.mk.inj (Option.some.inj hLoad)
    exact hChecked
  cases hParam : (store.getParameter path).or (findProto store path.length path) with
  | none =>
    rw [hParam] at hLoad
    obtain ⟨-, rfl⟩ := Prod.mk.inj (Option.some.inj hLoad)
    exact fun _ => rfl
  | some param =>
    rw [hParam] at hLoad
    dsimp only at hLoad
    split at hLoad
    · obtain ⟨-, rfl⟩ := Prod.mk.inj (Option.some.inj hLoad)
      exact hChecked
    · obtain ⟨-, rfl⟩ := Prod.mk.inj (Option.some.inj hLoad)
      have hFound : store.getParameter param.name = some param := by
        rcases Option.or_eq_some_iff.mp hParam with hHere | ⟨-, hProto⟩
        · exact (ParameterStore.name_of_getParameter hHere).symm ▸ hHere
        · exact getParameter_of_findProto hProto
      intro other
      rw [← hChecked other]
      have hMid : ∃ q, (checkLoaded (isChecked store path) store).getParameter param.name = some q ∧
          part q = part param := by
        have hMap := hChecked param.name
        rw [hFound, Option.map_some] at hMap
        exact Option.map_eq_some_iff.mp hMap
      obtain ⟨q, hq, hPart⟩ := hMid
      refine partsKept_put hq (by simp) ?_ other
      rw [h.markLoaded, h.withDefault, hPart]

theorem part_setChecked {prm prm' : Parameter} {value : Option Text} {res : Int}
    (hSet : setChecked dateOk prm value = some (res, prm')) : part prm' = part prm := by
  obtain ⟨-, rfl⟩ | ⟨-, -, -, rfl⟩ := setChecked_cases dateOk hSet
  · rfl
  · exact h.setValue prm value

theorem partsKept_setParameterValue {fuel : Nat} {status status' : ParameterStatus} {value : Option Text} {res : Int}
    (hSet : setParameterValue dmPrefix dateOk entity fuel status name value store = some (res, status', store')) :
    PartsKept part store store' := by
  induction fuel generalizing status name store res status' store' with
  | zero => cases hSet
  | succ fuel ih =>
    unfold setParameterValue at hSet
    cases hFound : store.getParameter name with
    | none =>
      rw [hFound] at hSet
      obtain ⟨-, -, rfl⟩ := by simpa using hSet
      exact fun _ => rfl
    | some param =>
      rw [hFound] at hSet
      have hName := ParameterStore.name_of_getParameter hFound
      dsimp only at hSet
      split at hSet
      · obtain ⟨-, -, rfl⟩ := by simpa using hSet
        exact fun _ => rfl
      split at hSet
      · obtain ⟨-, -, rfl⟩ := by simpa using hSet
        exact fun _ => rfl
      split at hSet
      · obtain ⟨-, -, rfl⟩ := by simpa using hSet
        exact partsKept_put hFound hName (h.unmark param)
      obtain ⟨⟨res₁, param'⟩, hHere, hSet⟩ := Option.bind_eq_some_iff.mp hSet
      have hPart : part param' = part param := (part_setChecked h hHere).trans (h.mark param)
      have hName' : param'.name = name := by
        have hStatic := static_of_setChecked dateOk hHere
        rw [(Parameter.static_eq_iff.mp hStatic).1]
        exact hName
      have hPut := partsKept_put hFound hName' hPart
      have hPut' := ParameterStore.getParameter_put_self hFound hName'
      dsimp only at hSet
      split at hSet
      · obtain ⟨⟨res₂, status₂, store₂⟩, hRest, hSet⟩ := Option.bind_eq_some_iff.mp hSet
        obtain ⟨param₂, hFound₂, hSet⟩ := Option.bind_eq_some_iff.mp hSet
        obtain ⟨-, -, rfl⟩ := by simpa using hSet
        have hName₂ := ParameterStore.name_of_getParameter hFound₂
        have hUnmark : PartsKept part store₂ (store₂.put param₂.unmarkBeingEvaluated) :=
          partsKept_put hFound₂ hName₂ (h.unmark param₂)
        exact (hPut.trans (ih hRest)).trans hUnmark
      · obtain ⟨-, -, rfl⟩ := by simpa using hSet
        exact hPut.trans (partsKept_put hPut' hName' (h.unmark param'))

theorem partsKept_setEntries {status status' : ParameterStatus} {faults : List (Text × Int)}
    {parameterList : List (Text × Option Text)}
    (hSet : setEntries dmPrefix dateOk entity status store parameterList = some (status', faults, store')) :
    PartsKept part store store' := by
  induction parameterList generalizing store status status' faults with
  | nil =>
    obtain ⟨-, -, rfl⟩ := by simpa [setEntries] using hSet
    exact fun _ => rfl
  | cons entry parameterList ih =>
    obtain ⟨⟨res₁, stat₁, store₁⟩, hEntry, hSet⟩ := Option.bind_eq_some_iff.mp hSet
    obtain ⟨⟨status₂, faults₂, store₂⟩, hRest, hSet⟩ := Option.bind_eq_some_iff.mp hSet
    obtain ⟨-, -, rfl⟩ := by simpa using hSet
    refine PartsKept.trans ?_ (ih hRest)
    obtain ⟨⟨res₃, store₃⟩, hLoad, hEntry⟩ := Option.bind_eq_some_iff.mp hEntry
    have hLoaded := partsKept_loadSystemParameters h hLoad
    dsimp only at hEntry
    split at hEntry
    · obtain ⟨-, -, rfl⟩ := by simpa using hEntry
      exact hLoaded
    · exact hLoaded.trans (partsKept_setParameterValue h hEntry)

theorem partsKept_setParameterKey {parameterKey : Option Text}
    (hSet : setParameterKey dmPrefix dateOk parameterKey store = some store') : PartsKept part store store' := by
  cases parameterKey with
  | none =>
    obtain rfl := Option.some.inj hSet
    exact fun _ => rfl
  | some key =>
    obtain ⟨param, hFound, hSet⟩ := Option.bind_eq_some_iff.mp hSet
    obtain ⟨⟨res, param'⟩, hHere, hSet⟩ := Option.bind_eq_some_iff.mp hSet
    obtain rfl := Option.some.inj hSet
    have hStatic := static_of_setChecked dateOk hHere
    refine partsKept_put hFound ?_ ((h.commit param').trans (part_setChecked h hHere))
    exact (Parameter.static_eq_iff.mp hStatic).1.trans (ParameterStore.name_of_getParameter hFound)

theorem partsKept_release (inSession : Bool) : PartsKept part store (release inSession store) :=
  partsKept_map _ fun p => h.clear p _

end Untouched

section Done

variable (dmPrefix : Text) (dateOk : Text → Bool)

/-- The parameters that the redirections from a name lead to, the name included. -/
def redirected (store : ParameterStore) (name : Text) : Set Text :=
  {x | ReflTransGen (fun a b => nextName dmPrefix store a = some b) name x}

/-- A change to the value is requested of the leaf. -/
structure Pending (store : ParameterStore) (name : Text) (value : Option Text) : Prop where
  leaf : isNodeName name = false
  found : ∃ prm, store.getParameter name = some prm ∧ prm.value = value ∧ prm.state.changeRequested = true ∧
    prm.isUnset = false

variable {dmPrefix dateOk} {statistics : StatisticsModule} {store store' : ParameterStore} {name x : Text}
  {value : Option Text} {entity : EntityType} {parameterList : List (Text × Option Text)}

theorem redirected_congr (h : store'.statics = store.statics) :
    redirected dmPrefix store' name = redirected dmPrefix store name := by
  simp only [redirected, nextName_congr dmPrefix h]

section Quiet

variable {β : Type} {part : Parameter → β}

theorem controlledObject_congr (h : store'.statics = store.statics) :
    controlledObject dmPrefix store' name = controlledObject dmPrefix store name := by
  have hSame : isStatistics store' = isStatistics store := by
    funext objName
    have hStatic (s : ParameterStore) :
        isStatistics s objName = (s.statics.find? (·.1 = objName)).any (·.2.1 = .statistics) := by
      rw [← ParameterStore.getParameter_static, Option.any_map]
      rfl
    rw [hStatic, hStatic, h]
  rw [controlledObject, controlledObject, hSame]

/-- No parameter that the redirections from a name lead to controls a statistics object. -/
def ControlsNone (dmPrefix : Text) (store : ParameterStore) (name : Text) : Prop :=
  ∀ y ∈ redirected dmPrefix store name, controlledObject dmPrefix store y = none

theorem ControlsNone.congr (h : ControlsNone dmPrefix store name) (hStatics : store'.statics = store.statics) :
    ControlsNone dmPrefix store' name := by
  intro y hy
  rw [redirected_congr hStatics] at hy
  rw [controlledObject_congr hStatics]
  exact h y hy

theorem ControlsNone.next {other : Text} (h : ControlsNone dmPrefix store name)
    (hLink : nextName dmPrefix store name = some other) : ControlsNone dmPrefix store other :=
  fun y hy => h y (.head hLink hy)

theorem controlsNone_of_noStatistics (h : ∀ p ∈ store.parameters, p.type ≠ .statistics) :
    ControlsNone dmPrefix store name := by
  have hNone : isStatistics store = fun _ => false := by
    funext objName
    rw [isStatistics, Option.any_eq_false]
    exact fun p hp => decide_eq_false (h p (List.mem_of_find?_eq_some hp))
  intro y _
  rw [controlledObject, hNone]
  split
  · rfl
  · cases objectAbove y with
    | none => rfl
    | some objName => simp

/-- A commit that controls nothing does no more than put the parameter. -/
theorem commitParameter_quiet {fuel : Nat} {prm : Parameter} (h : ControlsNone dmPrefix store name)
    (hFound : store.getParameter name = some prm) (hLeaf : isNodeName name = false) :
    commitParameter dmPrefix statistics (fuel + 1) name store =
      match nextName dmPrefix store name with
      | none => some (store.put prm.commit)
      | some other => commitParameter dmPrefix statistics fuel other (store.put prm.commit) := by
  have hStatics : (store.put prm.commit).statics = store.statics := ParameterStore.statics_put hFound rfl
  have hNone : controlledObject dmPrefix (store.put prm.commit) name = none := by
    rw [controlledObject_congr hStatics]
    exact h name .refl
  have hSet : performSetting dmPrefix statistics (store.put prm.commit) name = store.put prm.commit := by
    simp only [performSetting, hNone]
  cases hNext : prm.redirection dmPrefix <;>
    simp only [commitParameter, nextName, hFound, hLeaf, hSet, hNext, Option.bind_some, Bool.false_eq_true, if_false]

theorem partsKept_commitParameter (h : ∀ p, part p.commit = part p) {fuel : Nat}
    (hNone : ControlsNone dmPrefix store name)
    (hCommit : commitParameter dmPrefix statistics fuel name store = some store') : PartsKept part store store' := by
  induction fuel generalizing name store with
  | zero => cases hCommit
  | succ fuel ih =>
    cases hFound : store.getParameter name with
    | none =>
      rw [commitParameter, hFound] at hCommit
      obtain rfl := Option.some.inj hCommit
      exact fun _ => rfl
    | some param =>
      cases hLeaf : isNodeName name with
      | true =>
        rw [commitParameter, hFound] at hCommit
        dsimp only at hCommit
        rw [if_pos hLeaf] at hCommit
        obtain rfl := Option.some.inj hCommit
        exact fun _ => rfl
      | false =>
        have hName := ParameterStore.name_of_getParameter hFound
        have hPut : PartsKept part store (store.put param.commit) := partsKept_put hFound hName (h param)
        rw [commitParameter_quiet hNone hFound hLeaf] at hCommit
        split at hCommit
        · obtain rfl := Option.some.inj hCommit
          exact hPut
        · rename_i other hLink
          exact hPut.trans (ih ((hNone.next hLink).congr (ParameterStore.statics_put hFound rfl)) hCommit)

theorem partsKept_commitAll (h : ∀ p, part p.commit = part p) {parameterList : List (Text × Option Text)}
    (hNone : ∀ entry ∈ parameterList, ControlsNone dmPrefix store entry.1)
    (hCommit : commitAll dmPrefix statistics store parameterList = some store') : PartsKept part store store' := by
  induction parameterList generalizing store with
  | nil =>
    obtain rfl := Option.some.inj hCommit
    exact fun _ => rfl
  | cons entry parameterList ih =>
    obtain ⟨store₁, hFirst, hCommit⟩ := Option.bind_eq_some_iff.mp hCommit
    obtain ⟨hHere, hLater⟩ := List.forall_mem_cons.mp hNone
    have hStatics := statics_commitParameter dmPrefix statistics hFirst
    exact (partsKept_commitParameter h hHere hFirst).trans
      (ih (fun other hOther => (hLater other hOther).congr hStatics) hCommit)

end Quiet

/-- What a change is requested of is not set again. -/
theorem Pending.tracks {set fill : List Text} (h : Pending store x value) (hTracks : Tracks set fill store store') :
    Pending store' x value := by
  obtain ⟨hLeaf, prm, hFound, hValue, hRequested, hUnset⟩ := h
  obtain ⟨prm', hFound', -⟩ := ParameterStore.exists_of_statics hTracks.statics hFound
  have hLived := hTracks.lived x prm prm' hFound hLeaf hFound'
  have hNotSet : decide (x ∈ set) = false := by
    refine Bool.eq_false_iff.mpr fun hSet => ?_
    have hNot := (hLived.ofSet hSet).1
    rw [hRequested] at hNot
    cases hNot
  have hNotFilled : decide (x ∈ fill) = false := by
    refine Bool.eq_false_iff.mpr fun hFill => ?_
    have hDefault := hLived.unset hFill
    rw [hUnset] at hDefault
    cases hDefault
  obtain ⟨hRequested', -, -, hValue'⟩ := hLived.ofKept hNotSet
  rw [hNotFilled] at hValue'
  have hValue' : prm'.value = prm.value := hValue'
  refine ⟨hLeaf, prm', hFound', hValue'.trans hValue, hRequested'.trans hRequested, ?_⟩
  rw [Parameter.isUnset_congr hLived.static hValue', hUnset]

theorem pending_setParameterValue {fuel : Nat} {status status' : ParameterStatus}
    (h : setParameterValue dmPrefix dateOk entity fuel status name value store = some (0, status', store'))
    (hReached : x ∈ redirected dmPrefix store name) : Pending store' x value := by
  induction fuel generalizing status name store status' store' with
  | zero => cases h
  | succ fuel ih =>
    unfold setParameterValue at h
    cases hFound : store.getParameter name with
    | none =>
      rw [hFound] at h
      cases h
    | some param =>
      rw [hFound] at h
      dsimp only at h
      split at h
      · cases h
      rename_i hAccess
      split at h
      · cases h
      split at h
      · cases h
      obtain ⟨⟨res, param'⟩, hSet, h⟩ := Option.bind_eq_some_iff.mp h
      have hLeaf : isNodeName name = false := Bool.eq_false_iff.mpr fun hNode => hAccess (.inl hNode)
      have hStatic : param'.static = param.static := (static_of_setChecked dateOk hSet).trans (lived_mark param).static
      have hName' : param'.name = name := by
        rw [(Parameter.static_eq_iff.mp hStatic).1, ParameterStore.name_of_getParameter hFound]
      have hPut := ParameterStore.getParameter_put_self hFound hName'
      have hHere (hRes : res = 0) : Pending (store.put param') name value := by
        obtain ⟨hNot, -⟩ | ⟨-, -, hType, rfl⟩ := setChecked_cases dateOk hSet
        · exact absurd hRes hNot
        · exact ⟨hLeaf, _, hPut, rfl, rfl, not_isUnset_of_typeOk dateOk hType⟩
      have hNext : nextName dmPrefix store name = param'.redirection dmPrefix := by
        rw [nextName, hFound, Option.bind_some, Parameter.redirection_congr dmPrefix hStatic]
      obtain rfl | ⟨y, hLink, hRest⟩ := hReached.cases_head
      · dsimp only at h
        split at h
        · obtain ⟨⟨res₂, status₂, store₂⟩, hLater, h⟩ := Option.bind_eq_some_iff.mp h
          obtain ⟨param₂, hFound₂, h⟩ := Option.bind_eq_some_iff.mp h
          obtain ⟨-, -, rfl⟩ := by simpa using h
          have hTracks := tracks_setParameterValue dmPrefix dateOk hLater
          exact ((hHere rfl).tracks hTracks).tracks (tracks_put_state hFound₂ (lived_unmark param₂))
        · obtain ⟨hRes, -, rfl⟩ := by simpa using h
          exact (hHere hRes).tracks (tracks_put_state hPut (lived_unmark param'))
      · rw [hNext] at hLink
        dsimp only at h
        rw [hLink] at h
        split at h
        · rename_i next hSame
          obtain rfl : y = next := Option.some.inj hSame
          obtain ⟨⟨res₂, status₂, store₂⟩, hLater, h⟩ := Option.bind_eq_some_iff.mp h
          obtain ⟨param₂, hFound₂, h⟩ := Option.bind_eq_some_iff.mp h
          obtain ⟨rfl, -, rfl⟩ := by simpa using h
          have hStatics := ParameterStore.statics_put hFound hStatic
          have hReached' : x ∈ redirected dmPrefix (store.put param') y := by
            rw [redirected_congr hStatics]
            exact hRest
          exact (ih hLater hReached').tracks (tracks_put_state hFound₂ (lived_unmark param₂))
        · rename_i hNot
          obtain ⟨rfl, -, -⟩ := by simpa using h
          exact absurd rfl (hNot y rfl)

/-- After entries without faults, the change of every one is requested, and so all along its redirections. -/
theorem pending_setEntries {status status' : ParameterStatus}
    (h : setEntries dmPrefix dateOk entity status store parameterList = some (status', [], store'))
    {entry : Text × Option Text} (hEntry : entry ∈ parameterList) (hReached : x ∈ redirected dmPrefix store entry.1) :
    Pending store' x entry.2 := by
  induction parameterList generalizing store status status' with
  | nil => cases hEntry
  | cons first parameterList ih =>
    obtain ⟨⟨res, stat, store₁⟩, hFirst, h⟩ := Option.bind_eq_some_iff.mp h
    obtain ⟨⟨status₂, faults, store₂⟩, hRest, h⟩ := Option.bind_eq_some_iff.mp h
    obtain ⟨-, hFaults, rfl⟩ := by simpa using h
    obtain ⟨rfl, rfl⟩ : res = 0 ∧ faults = [] := by
      split at hFaults
      · exact ⟨‹_›, hFaults⟩
      · cases hFaults
    obtain rfl | hLater := List.mem_cons.mp hEntry
    · refine Pending.tracks ?_ (tracks_setEntries dmPrefix dateOk hRest)
      obtain ⟨⟨res₃, store₃⟩, hLoad, hSet⟩ := Option.bind_eq_some_iff.mp hFirst
      dsimp only at hSet
      split at hSet
      · rename_i hNot
        obtain ⟨rfl, -, -⟩ := by simpa using hSet
        exact absurd rfl hNot
      · rw [← redirected_congr (tracks_loadSystemParameters hLoad).statics] at hReached
        exact pending_setParameterValue hSet hReached
    · rw [← redirected_congr (tracks_setEntry dmPrefix dateOk hFirst).statics] at hReached
      exact ih hRest hLater hReached

/-- The parameter key is not set where a change of it is requested already. -/
theorem value_setParameterKey {parameterKey : Option Text} (h : Pending store x value)
    (hSet : setParameterKey dmPrefix dateOk parameterKey store = some store') :
    ∃ prm, store'.getParameter x = some prm ∧ prm.value = value := by
  obtain ⟨-, prm, hFound, hValue, hRequested, -⟩ := h
  cases parameterKey with
  | none =>
    obtain rfl := Option.some.inj hSet
    exact ⟨prm, hFound, hValue⟩
  | some key =>
    obtain ⟨param, hParam, hSet⟩ := Option.bind_eq_some_iff.mp hSet
    obtain ⟨⟨res, param'⟩, hHere, hSet⟩ := Option.bind_eq_some_iff.mp hSet
    obtain rfl := Option.some.inj hSet
    have hName := ParameterStore.name_of_getParameter hParam
    have hName' : param'.commit.name = parameterKeyName dmPrefix :=
      (Parameter.static_eq_iff.mp (static_of_setChecked dateOk hHere)).1.trans hName
    obtain rfl | hOther := eq_or_ne x (parameterKeyName dmPrefix)
    · obtain rfl : prm = param := Option.some.inj (hFound.symm.trans hParam)
      refine ⟨param'.commit, ParameterStore.getParameter_put_self hFound hName', ?_⟩
      obtain ⟨-, rfl⟩ | ⟨-, hNot, -, -⟩ := setChecked_cases dateOk hHere
      · exact hValue
      · rw [hRequested] at hNot
        cases hNot
    · exact ⟨prm, by rw [ParameterStore.getParameter_put_of_ne (hName' ▸ hOther), hFound], hValue⟩

theorem getParameter_setParameterKey {parameterKey : Option Text} (hOther : x ≠ parameterKeyName dmPrefix)
    (hSet : setParameterKey dmPrefix dateOk parameterKey store = some store') :
    store'.getParameter x = store.getParameter x := by
  cases parameterKey with
  | none =>
    obtain rfl := Option.some.inj hSet
    rfl
  | some key =>
    obtain ⟨param, hParam, hSet⟩ := Option.bind_eq_some_iff.mp hSet
    obtain ⟨⟨res, param'⟩, hHere, hSet⟩ := Option.bind_eq_some_iff.mp hSet
    obtain rfl := Option.some.inj hSet
    have hName' : param'.commit.name = parameterKeyName dmPrefix :=
      (Parameter.static_eq_iff.mp (static_of_setChecked dateOk hHere)).1.trans
        (ParameterStore.name_of_getParameter hParam)
    exact ParameterStore.getParameter_put_of_ne (hName' ▸ hOther)

/-- No change of the parameter is left to be committed. -/
def Committed (store : ParameterStore) (x : Text) : Prop :=
  ∀ prm, store.getParameter x = some prm → prm.state.changeRequested = false

theorem Committed.put {prm : Parameter} (h : Committed store x) : Committed (store.put prm.commit) x := by
  intro prm' hFound
  rw [ParameterStore.getParameter_put] at hFound
  split at hFound
  · obtain ⟨-, -, rfl⟩ := Option.map_eq_some_iff.mp hFound
    rfl
  · exact h prm' hFound

theorem Committed.commitParameter {fuel : Nat} (h : Committed store x) (hNone : ControlsNone dmPrefix store name)
    (hCommit : commitParameter dmPrefix statistics fuel name store = some store') : Committed store' x := by
  induction fuel generalizing name store with
  | zero => cases hCommit
  | succ fuel ih =>
    cases hFound : store.getParameter name with
    | none =>
      rw [SetParameterValues.commitParameter, hFound] at hCommit
      obtain rfl := Option.some.inj hCommit
      exact h
    | some param =>
      cases hLeaf : isNodeName name with
      | true =>
        rw [SetParameterValues.commitParameter, hFound] at hCommit
        dsimp only at hCommit
        rw [if_pos hLeaf] at hCommit
        obtain rfl := Option.some.inj hCommit
        exact h
      | false =>
        rw [commitParameter_quiet hNone hFound hLeaf] at hCommit
        split at hCommit
        · obtain rfl := Option.some.inj hCommit
          exact h.put
        · rename_i other hLink
          exact ih h.put ((hNone.next hLink).congr (ParameterStore.statics_put hFound rfl)) hCommit

/-- The commit goes along redirections that lead through leaves. -/
theorem committed_commitParameter {fuel : Nat}
    (hCommit : commitParameter dmPrefix statistics fuel name store = some store')
    (hLeaves : ∀ y ∈ redirected dmPrefix store name, isNodeName y = false) (hNone : ControlsNone dmPrefix store name)
    (hReached : x ∈ redirected dmPrefix store name) : Committed store' x := by
  induction fuel generalizing name store with
  | zero => cases hCommit
  | succ fuel ih =>
    cases hFound : store.getParameter name with
    | none =>
      have hEnd : nextName dmPrefix store name = none := by rw [nextName, hFound, Option.bind_none]
      rw [SetParameterValues.commitParameter, hFound] at hCommit
      obtain rfl := Option.some.inj hCommit
      obtain rfl | ⟨y, hLink, -⟩ := hReached.cases_head
      · intro prm hPrm
        rw [hFound] at hPrm
        cases hPrm
      · rw [hEnd] at hLink
        cases hLink
    | some param =>
      have hStatics : (store.put param.commit).statics = store.statics := ParameterStore.statics_put hFound rfl
      have hPut : Committed (store.put param.commit) name := by
        intro prm hPrm
        have hName := ParameterStore.name_of_getParameter hFound
        have hSelf := ParameterStore.getParameter_put_self hFound (show param.commit.name = name from hName)
        obtain rfl := Option.some.inj (hSelf.symm.trans hPrm)
        rfl
      rw [commitParameter_quiet hNone hFound (hLeaves name .refl)] at hCommit
      split at hCommit
      · rename_i hEnd
        obtain rfl := Option.some.inj hCommit
        obtain rfl | ⟨y, hStep, -⟩ := hReached.cases_head
        · exact hPut
        · rw [hEnd] at hStep
          cases hStep
      · rename_i next hLink
        have hNext := (hNone.next hLink).congr hStatics
        obtain rfl | ⟨y, hStep, hRest⟩ := hReached.cases_head
        · exact hPut.commitParameter hNext hCommit
        · rw [hLink] at hStep
          obtain rfl := Option.some.inj hStep
          refine ih hCommit (fun z hz => ?_) hNext ?_
          · rw [redirected_congr hStatics] at hz
            exact hLeaves z (.head hLink hz)
          · rw [redirected_congr hStatics]
            exact hRest

theorem Committed.commitAll (h : Committed store x)
    (hNone : ∀ entry ∈ parameterList, ControlsNone dmPrefix store entry.1)
    (hCommit : commitAll dmPrefix statistics store parameterList = some store') : Committed store' x := by
  induction parameterList generalizing store with
  | nil =>
    obtain rfl := Option.some.inj hCommit
    exact h
  | cons entry parameterList ih =>
    obtain ⟨store₁, hFirst, hCommit⟩ := Option.bind_eq_some_iff.mp hCommit
    obtain ⟨hHere, hLater⟩ := List.forall_mem_cons.mp hNone
    have hStatics := statics_commitParameter dmPrefix statistics hFirst
    exact ih (h.commitParameter hHere hFirst) (fun other hOther => (hLater other hOther).congr hStatics) hCommit

theorem committed_commitAll (hCommit : commitAll dmPrefix statistics store parameterList = some store')
    (hNone : ∀ entry ∈ parameterList, ControlsNone dmPrefix store entry.1) {entry : Text × Option Text}
    (hEntry : entry ∈ parameterList) (hLeaves : ∀ y ∈ redirected dmPrefix store entry.1, isNodeName y = false)
    (hReached : x ∈ redirected dmPrefix store entry.1) : Committed store' x := by
  induction parameterList generalizing store with
  | nil => cases hEntry
  | cons first parameterList ih =>
    obtain ⟨store₁, hFirst, hRest⟩ := Option.bind_eq_some_iff.mp hCommit
    obtain ⟨hHere, hLater⟩ := List.forall_mem_cons.mp hNone
    have hStatics := statics_commitParameter dmPrefix statistics hFirst
    have hQuiet : ∀ entry ∈ parameterList, ControlsNone dmPrefix store₁ entry.1 :=
      fun other hOther => (hLater other hOther).congr hStatics
    obtain rfl | hIn := List.mem_cons.mp hEntry
    · exact (committed_commitParameter hFirst hLeaves hHere hReached).commitAll hQuiet hRest
    · rw [← redirected_congr hStatics] at hLeaves hReached
      exact ih hRest hQuiet hIn hLeaves hReached

theorem setParameterValues_done {inSession : Bool} {parameterKey : Option Text} {result : SetParameterValuesResult}
    (h : setParameterValues dmPrefix dateOk statistics entity inSession parameterKey store parameterList = some result)
    (hDone : result.codeRetour = 0) :
    ∃ status store₁ store₂ store₃, setEntries dmPrefix dateOk entity .undefined store parameterList =
      some (status, [], store₁) ∧
      (store₂ = store₁ ∨ setParameterKey dmPrefix dateOk parameterKey store₁ = some store₂) ∧
      commitAll dmPrefix statistics store₂ parameterList = some store₃ ∧ result.store = release inSession store₃ := by
  unfold setParameterValues at h
  split at h
  · cases h
  obtain ⟨⟨status, faults, store₁⟩, hSet, h⟩ := Option.bind_eq_some_iff.mp h
  dsimp only at h
  split at h
  · rename_i hFaults
    subst hFaults
    split at h
    · obtain ⟨store₂, hKey, hRest⟩ := Option.bind_eq_some_iff.mp h
      obtain ⟨store₃, hCommit, hEnd⟩ := Option.bind_eq_some_iff.mp hRest
      obtain rfl := Option.some.inj hEnd
      exact ⟨status, store₁, store₂, store₃, hSet, .inr hKey, hCommit, rfl⟩
    · obtain ⟨store₂, hSame, hRest⟩ := Option.bind_eq_some_iff.mp h
      obtain ⟨store₃, hCommit, hEnd⟩ := Option.bind_eq_some_iff.mp hRest
      obtain rfl := Option.some.inj hEnd
      exact ⟨status, store₁, store₂, store₃, hSet, .inl (Option.some.inj hSame).symm, hCommit, rfl⟩
  · obtain ⟨store₂, -, hEnd⟩ := Option.bind_eq_some_iff.mp h
    obtain rfl := Option.some.inj hEnd
    have hFault : Fault.invalidArguments = 0 := hDone
    exact absurd hFault (by decide)

/-- The end of a request takes away only the values of redirections that are computed anew. -/
theorem getParameter_release (inSession : Bool) {prm : Parameter} (hLocal : store.Local)
    (hFound : store.getParameter x = some prm) (hLeaf : isNodeName x = false) :
    ∃ prm', (release inSession store).getParameter x = some prm' ∧ prm'.static = prm.static ∧
      prm'.state.changeRequested = prm.state.changeRequested ∧
      prm'.value = if prm.clearsValue then none else prm.value := by
  have hName := ParameterStore.name_of_getParameter hFound
  have hMode := storageMode_of_local hLocal hFound hLeaf
  refine ⟨prm.clearTemporaryValue (if inSession then 0 else 1), ?_, ?_, ?_, ?_⟩
  · rw [release, ParameterStore.getParameter_map, hFound, Option.map_some]
  · unfold Parameter.clearTemporaryValue
    grind [Parameter.static]
  · have hStays : ¬ (prm.storageMode = .systemOnly) := by
      rcases hMode with hMode | hMode <;> rw [hMode] <;> decide
    unfold Parameter.clearTemporaryValue
    rw [hName, hLeaf]
    grind
  · refine (value_clearTemporaryValue _ ?_ (hName ▸ hLeaf) hMode).1
    split <;> decide

theorem statics_setParameterKey {parameterKey : Option Text}
    (h : setParameterKey dmPrefix dateOk parameterKey store = some store') : store'.statics = store.statics := by
  cases parameterKey with
  | none =>
    obtain rfl := Option.some.inj h
    rfl
  | some key =>
    obtain ⟨param, hParam, h⟩ := Option.bind_eq_some_iff.mp h
    obtain ⟨⟨res, param'⟩, hHere, h⟩ := Option.bind_eq_some_iff.mp h
    obtain rfl := Option.some.inj h
    have hStatic := static_of_setChecked dateOk hHere
    exact ParameterStore.statics_put hParam (show param'.commit.static = param.static from hStatic)

theorem statics_commitAll (h : commitAll dmPrefix statistics store parameterList = some store') :
    store'.statics = store.statics := by
  induction parameterList generalizing store with
  | nil =>
    obtain rfl := Option.some.inj h
    rfl
  | cons entry parameterList ih =>
    obtain ⟨store₁, hFirst, hRest⟩ := Option.bind_eq_some_iff.mp h
    exact (ih hRest).trans (statics_commitParameter dmPrefix statistics hFirst)

/-- What the key, the commits and the end of the request leave of a value. -/
theorem value_after_success {store₂ store₃ : ParameterStore} (inSession : Bool) {prm : Parameter}
    (hLocal : store₂.Local) (hFound : store₂.getParameter x = some prm) (hLeaf : isNodeName x = false)
    (hNone : ∀ entry ∈ parameterList, ControlsNone dmPrefix store₂ entry.1)
    (hCommit : commitAll dmPrefix statistics store₂ parameterList = some store₃) : ∃ prm' prm₃,
      store₃.getParameter x = some prm₃ ∧ (release inSession store₃).getParameter x = some prm' ∧
      prm'.static = prm.static ∧ prm'.state.changeRequested = prm₃.state.changeRequested ∧
      prm'.value = if prm.clearsValue then none else prm.value := by
  have hKept : PartsKept (fun p => (p.static, p.value)) store₂ store₃ := 
    partsKept_commitAll (fun _ => rfl) hNone hCommit
  have hSame := hKept x
  rw [hFound, Option.map_some] at hSame
  obtain ⟨prm₃, hFound₃, hParts⟩ := Option.map_eq_some_iff.mp hSame
  obtain ⟨hStatic, hValue⟩ := Prod.mk.inj hParts
  have hLocal₃ := hLocal.congr (statics_commitAll hCommit)
  obtain ⟨prm', hFound', hStatic', hRequested, hValue'⟩ :=
    getParameter_release inSession hLocal₃ hFound₃ hLeaf
  refine ⟨prm', prm₃, hFound₃, hFound', hStatic'.trans hStatic, hRequested, ?_⟩
  rw [hValue', Parameter.clearsValue_congr hStatic, hValue]

/-- A parameter that a request without faults was to set, when the request ends. -/
structure Given (store : ParameterStore) (x : Text) (value : Option Text) (prm : Parameter) : Prop where
  found : store.getParameter x = some prm
  leaf : isNodeName x = false
  committed : prm.state.changeRequested = false
  value : prm.value = if prm.clearsValue then none else value
  default : prm.clearsValue = false → prm.isUnset = false

section Success

variable (hLocal : store.Local) {inSession : Bool} {parameterKey : Option Text} {result : SetParameterValuesResult}
  (h : setParameterValues dmPrefix dateOk statistics entity inSession parameterKey store parameterList = some result)
  (hDone : result.codeRetour = 0) (hNone : ∀ entry ∈ parameterList, ControlsNone dmPrefix store entry.1)
include hLocal h hDone hNone

theorem given_of_success {entry : Text × Option Text} (hEntry : entry ∈ parameterList)
    (hReached : x ∈ redirected dmPrefix store entry.1) : ∃ prm, Given result.store x entry.2 prm := by
  obtain ⟨status, store₁, store₂, store₃, hSet, hKey, hCommit, hResult⟩ := setParameterValues_done h hDone
  have hTracks := tracks_setEntries dmPrefix dateOk hSet
  have hPending := pending_setEntries hSet hEntry hReached
  have ⟨hLeaf, prm₁, hFound₁, hValue₁, _, hUnset⟩ := hPending
  have hStatics₂ : store₂.statics = store₁.statics := by
    obtain rfl | hKey := hKey
    · rfl
    · exact statics_setParameterKey hKey
  have hValue₂ : ∃ prm, store₂.getParameter x = some prm ∧ prm.value = entry.2 := by
    obtain rfl | hKey := hKey
    · exact ⟨prm₁, hFound₁, hValue₁⟩
    · exact value_setParameterKey hPending hKey
  obtain ⟨prm₂, hFound₂, hValue₂⟩ := hValue₂
  have hStatic₂ : prm₂.static = prm₁.static := by
    obtain ⟨prm, hFound, hStatic⟩ := ParameterStore.exists_of_statics hStatics₂ hFound₁
    obtain rfl : prm = prm₂ := Option.some.inj (hFound.symm.trans hFound₂)
    exact hStatic
  have hAll := hStatics₂.trans hTracks.statics
  have hQuiet : ∀ entry ∈ parameterList, ControlsNone dmPrefix store₂ entry.1 :=
    fun other hOther => (hNone other hOther).congr hAll
  obtain ⟨prm', prm₃, hFound₃, hFound', hStatic, hRequested, hValue⟩ :=
    value_after_success inSession (hLocal.congr hAll) hFound₂ hLeaf hQuiet hCommit
  have hCommitted : Committed store₃ x := by
    refine committed_commitAll hCommit hQuiet hEntry (fun y hy => ?_) ?_
    · rw [redirected_congr hAll] at hy
      exact (pending_setEntries hSet hEntry hy).leaf
    · rwa [redirected_congr hAll]
  have hClears := Parameter.clearsValue_congr hStatic
  refine ⟨prm', ⟨hResult ▸ hFound', hLeaf, hRequested.trans (hCommitted prm₃ hFound₃), ?_, fun hStays => ?_⟩⟩
  · rw [hValue, hClears, hValue₂]
  · rw [← hClears, hStays, if_neg Bool.false_ne_true, hValue₂, ← hValue₁] at hValue
    rw [Parameter.isUnset_congr (hStatic.trans hStatic₂) hValue, hUnset]

end Success

end Done

section Samples

def renamed : List (Text × Option Text) := [(hostAlias.name, some "gateway".toList)]

end Samples

end Tr069Agent.Engine.SetParameterValues
