import Tr069Agent.Engine.SetParameterAttributes
import Tr069Agent.Library.Transition

/-! # Reading attributes

`DM_ENG_GetParameterAttributes` answers for the same parameters that `DM_ENG_SetParameterAttributes`
changes. What is read after a request that went through is what was asked last. A parameter that is hidden
is neither read nor changed, so no request shows it again.
-/

namespace Tr069Agent.Engine.SetParameterAttributes

open Library Library.UndoLog Library.Transition

set_option autoImplicit false

/-- Attributes with the names of their parameters. -/
abbrev PasList := List (Text × Attributes)

section Code

variable (load : Text → ParameterStore → Int × ParameterStore)

/-- The attributes of the parameters of these names that are not hidden. -/
def shownAttributes (store : ParameterStore) (names : List Text) : PasList :=
  names.filterMap fun name =>
    (store.getParameter name).bind fun prm => if prm.isHidden then none else some (name, prm.attributes)

/-- The system is answered without a load. -/
def loadFor (entity : EntityType) (name : Text) (store : ParameterStore) : Int × ParameterStore :=
  if entity = .system then (0, store) else load name store

def getEntry (entity : EntityType) (store : ParameterStore) (name : Text) : Int × ParameterStore × PasList :=
  let (codeRetour, store) := loadFor load entity name store
  if codeRetour ≠ 0 then (codeRetour, store, [])
  else if name ≠ [] ∧ isInvalidName store name then (Fault.invalidParameterName, store, [])
  else (0, store, shownAttributes store (targets store name))

/-- `DM_ENG_GetParameterAttributes`; a fault for one of the names is the answer to all. -/
def getParameterAttributes (entity : EntityType) (store : ParameterStore) :
    List Text → Int × ParameterStore × PasList
  | [] => (0, store, [])
  | name :: names =>
    let (codeRetour, store, pasList) := getEntry load entity store name
    if codeRetour ≠ 0 then (codeRetour, store, [])
    else
      let (codeRetour, store, more) := getParameterAttributes entity store names
      (codeRetour, store, if codeRetour ≠ 0 then [] else pasList ++ more)

end Code

section Read

variable {load : Text → ParameterStore → Int × ParameterStore} {store store' : ParameterStore} {entity : EntityType}
  {name : Text} {names : List Text} {item : Text × Attributes} {prm prm' : Parameter}

/-- Whether a parameter with these attributes is hidden. -/
def isHiddenBy (attributes : Attributes) : Bool :=
  (attributes.accessList.getD []).head? = some Parameter.hiddenName

theorem isHidden_eq_isHiddenBy (prm : Parameter) : prm.isHidden = isHiddenBy prm.attributes := rfl

theorem isHidden_congr (hSame : prm'.attributes = prm.attributes) : prm'.isHidden = prm.isHidden := by
  rw [isHidden_eq_isHiddenBy, hSame, isHidden_eq_isHiddenBy]

/-- The parameters that there are keep their attributes. -/
def Stay (store store' : ParameterStore) : Prop :=
  ∀ name prm, store.getParameter name = some prm → ∃ prm', store'.getParameter name = some prm' ∧
    prm'.activeNotificationDenied = prm.activeNotificationDenied ∧ prm'.attributes = prm.attributes

theorem Stay.refl (store : ParameterStore) : Stay store store := fun _ prm hFound => ⟨prm, hFound, rfl, rfl⟩

theorem Stay.trans {store'' : ParameterStore} (h : Stay store store') (h' : Stay store' store'') :
    Stay store store'' := by
  intro name prm hFound
  obtain ⟨prm', hFound', hDenied, hSame⟩ := h name prm hFound
  obtain ⟨prm'', hFound'', hDenied', hSame'⟩ := h' name prm' hFound'
  exact ⟨prm'', hFound'', hDenied'.trans hDenied, hSame'.trans hSame⟩

theorem stay_loadFor (hLoad : Keeps load) : Stay store (loadFor load entity name store).2 := by
  unfold loadFor
  split
  · exact .refl store
  · exact hLoad.kept name store

theorem stay_getEntry (hLoad : Keeps load) : Stay store (getEntry load entity store name).2.1 := by
  have hHere : Stay store (loadFor load entity name store).2 := stay_loadFor hLoad
  unfold getEntry
  dsimp only
  split
  · exact hHere
  · split <;> exact hHere

theorem stay_getParameterAttributes (hLoad : Keeps load) :
    Stay store (getParameterAttributes load entity store names).2.1 := by
  induction names generalizing store with
  | nil => exact .refl store
  | cons name names ih =>
    have hHere : Stay store (getEntry load entity store name).2.1 := stay_getEntry hLoad
    unfold getParameterAttributes
    dsimp only
    split
    · exact hHere
    · exact hHere.trans ih

/-- Other parameters that are there do not matter to whether a name stands for this one. -/
theorem mem_targets_congr {name' : Text} (hFound : store.getParameter name' = some prm)
    (hFound' : store'.getParameter name' = some prm') : name' ∈ targets store' name ↔ name' ∈ targets store name := by
  have hMem : name' ∈ store.names := ParameterStore.mem_names_of_getParameter hFound
  have hMem' : name' ∈ store'.names := ParameterStore.mem_names_of_getParameter hFound'
  unfold targets
  split
  · simp [List.mem_filter, hMem, hMem']
  · exact Iff.rfl

theorem isInvalidName_stay (hStay : Stay store store') (h : isInvalidName store name = false) :
    isInvalidName store' name = false := by
  unfold isInvalidName at h ⊢
  cases hFound : store.getParameter name with
  | none => simp [hFound] at h
  | some prm =>
    obtain ⟨prm', hFound', -, hSame⟩ := hStay name prm hFound
    simpa [hFound, hFound', isHidden_congr hSame] using h

theorem mem_shownAttributes : item ∈ shownAttributes store names ↔
    item.1 ∈ names ∧ ∃ prm, store.getParameter item.1 = some prm ∧ prm.isHidden = false ∧ item.2 = prm.attributes := by
  simp only [shownAttributes, List.mem_filterMap, Option.bind_eq_some_iff]
  constructor
  · rintro ⟨name, hName, prm, hFound, hItem⟩
    split at hItem
    · cases hItem
    · rename_i hShown
      obtain rfl := Option.some.inj hItem
      exact ⟨hName, prm, hFound, Bool.eq_false_iff.mpr hShown, rfl⟩
  · rintro ⟨hName, prm, hFound, hShown, hAttributes⟩
    refine ⟨item.1, hName, prm, hFound, ?_⟩
    rw [if_neg (by rw [hShown]; exact Bool.false_ne_true), ← hAttributes]

/-- Of the parameters that were there, one of the names is answered with those it stands for. -/
theorem mem_getEntry_iff (hLoad : Keeps load) (hCode : (getEntry load entity store name).1 = 0)
    (hFound : store.getParameter item.1 = some prm) :
    item ∈ (getEntry load entity store name).2.2 ↔
      item.1 ∈ targets store name ∧ prm.isHidden = false ∧ item.2 = prm.attributes := by
  have hStay : Stay store (loadFor load entity name store).2 := stay_loadFor hLoad
  obtain ⟨prm', hFound', -, hSame⟩ := hStay item.1 prm hFound
  have hAnswer : (getEntry load entity store name).2.2 =
      shownAttributes (loadFor load entity name store).2 (targets (loadFor load entity name store).2 name) := by
    unfold getEntry at hCode ⊢
    dsimp only at hCode ⊢
    split at hCode
    · rename_i hFault
      exact absurd hCode hFault
    rename_i hLoaded
    rw [if_neg hLoaded]
    split at hCode
    · exact absurd hCode (by simp [Fault.invalidParameterName])
    · rename_i hValid
      rw [if_neg hValid]
  rw [hAnswer, mem_shownAttributes, mem_targets_congr hFound hFound']
  simp [hFound', isHidden_congr hSame, hSame]

/-- Where no fault is the answer, it lists each shown parameter that one of the names stands for, with the
attributes that it had. -/
theorem mem_answer_iff (hLoad : Keeps load) (hCode : (getParameterAttributes load entity store names).1 = 0)
    (hFound : store.getParameter item.1 = some prm) :
    item ∈ (getParameterAttributes load entity store names).2.2 ↔
      (∃ name ∈ names, item.1 ∈ targets store name) ∧ prm.isHidden = false ∧ item.2 = prm.attributes := by
  induction names generalizing store prm with
  | nil => simp [getParameterAttributes]
  | cons name names ih =>
    unfold getParameterAttributes at hCode ⊢
    dsimp only at hCode ⊢
    split at hCode
    · rename_i hFault
      exact absurd hCode hFault
    rename_i hEntry
    dsimp only at hCode
    have hStay : Stay store (getEntry load entity store name).2.1 := stay_getEntry hLoad
    obtain ⟨prm', hFound', -, hSame⟩ := hStay item.1 prm hFound
    have hLater := ih hCode hFound'
    simp only [mem_targets_congr hFound hFound', isHidden_congr hSame, hSame] at hLater
    rw [if_neg hEntry, if_neg (not_not.mpr hCode), List.mem_append,
      mem_getEntry_iff hLoad (not_not.mp hEntry) hFound, hLater, List.exists_mem_cons_iff, or_and_right]

/-- What is answered for a parameter that was there are the attributes that it had, and it was not hidden. -/
theorem attributes_of_mem_answer (hLoad : Keeps load)
    (hItem : item ∈ (getParameterAttributes load entity store names).2.2)
    (hFound : store.getParameter item.1 = some prm) : item.2 = prm.attributes ∧ prm.isHidden = false := by
  have hCode : (getParameterAttributes load entity store names).1 = 0 := by
    cases names with
    | nil => rfl
    | cons name names =>
      unfold getParameterAttributes at hItem ⊢
      dsimp only at hItem ⊢
      split at hItem
      · cases hItem
      rename_i hEntry
      rw [if_neg hEntry]
      dsimp only at hItem ⊢
      split at hItem
      · cases hItem
      · rename_i hLater
        exact not_not.mp hLater
  obtain ⟨-, hShown, hSame⟩ := (mem_answer_iff hLoad hCode hFound).mp hItem
  exact ⟨hSame, hShown⟩

/-- No fault is answered where the device answers and all names are those of shown parameters. -/
theorem getParameterAttributes_fst_eq_zero (hLoad : Keeps load)
    (hLoaded : ∀ name ∈ names, ∀ store, (loadFor load entity name store).1 = 0)
    (hValid : ∀ name ∈ names, name = [] ∨ isInvalidName store name = false) :
    (getParameterAttributes load entity store names).1 = 0 := by
  induction names generalizing store with
  | nil => rfl
  | cons name names ih =>
    have hStay : Stay store (loadFor load entity name store).2 := stay_loadFor hLoad
    have hEntry : (getEntry load entity store name).1 = 0 := by
      unfold getEntry
      dsimp only
      rw [if_neg (not_not.mpr (hLoaded name List.mem_cons_self store)), if_neg]
      rintro ⟨hName, hInvalid⟩
      have hFine := isInvalidName_stay hStay ((hValid name List.mem_cons_self).resolve_left hName)
      exact absurd (hFine.symm.trans hInvalid) (by decide)
    have hStayed : Stay store (getEntry load entity store name).2.1 := stay_getEntry hLoad
    unfold getParameterAttributes
    dsimp only
    rw [if_neg (not_not.mpr hEntry)]
    refine ih (fun name h => hLoaded name (List.mem_cons_of_mem _ h)) fun name h => ?_
    exact (hValid name (List.mem_cons_of_mem _ h)).imp_right (isInvalidName_stay hStayed)

end Read

section Asked

variable {load : Text → ParameterStore → Int × ParameterStore} {store : ParameterStore} {change : Attributes}
  {names : List Text} {item : Text × Attributes} {pasList : List ParameterAttributesStruct}

theorem mem_askedOfAll (h : item ∈ askedOfAll change store names) : item.1 ∈ names ∧ item.2 = change ∧
    ∃ prm, store.getParameter item.1 = some prm ∧ prm.isHidden = false := by
  induction names with
  | nil => cases h
  | cons name names ih =>
    have hLater (h : item ∈ askedOfAll change store names) := (ih h).imp_left (List.mem_cons_of_mem name)
    unfold askedOfAll at h
    cases hFound : store.getParameter name with
    | none =>
      rw [hFound] at h
      exact hLater h
    | some prm =>
      rw [hFound] at h
      dsimp only at h
      split at h
      · exact hLater h
      rename_i hShown
      have hHere : item = (name, change) → item.1 ∈ name :: names ∧ item.2 = change ∧
          ∃ prm, store.getParameter item.1 = some prm ∧ prm.isHidden = false := by
        rintro rfl
        exact ⟨List.mem_cons_self, rfl, prm, hFound, Bool.eq_false_iff.mpr hShown⟩
      split at h
      · exact hHere (List.mem_singleton.mp h)
      · obtain hFirst | hRest := List.mem_cons.mp h
        · exact hHere hFirst
        · exact hLater hRest

/-- Where no fault ends the changes of the names, none of them was refused. -/
theorem not_refused_setAll (hNames : names.Nodup) (hCode : (setAll change store names).1 = 0)
    (hItem : item ∈ askedOfAll change store names) {prm : Parameter} (hFound : store.getParameter item.1 = some prm) :
    ¬ prm.refuses item.2 := by
  induction names generalizing store with
  | nil => cases hItem
  | cons name names ih =>
    obtain ⟨hHead, hTail⟩ := List.nodup_cons.mp hNames
    unfold setAll at hCode
    unfold askedOfAll at hItem
    cases hHere : store.getParameter name with
    | none =>
      rw [hHere] at hCode hItem
      exact ih hTail hCode hItem hFound
    | some q =>
      rw [hHere] at hCode hItem
      dsimp only at hCode hItem
      split at hItem
      · rename_i hHidden
        rw [if_pos hHidden] at hCode
        exact ih hTail hCode hItem hFound
      rename_i hShown
      rw [if_neg hShown] at hCode
      by_cases hRefused : q.refuses change
      · have hFault : (q.setAttributes change).1 ≠ 0 := by
          simp [Parameter.setAttributes, hRefused, Fault.notificationRequestRejected]
        rw [if_pos hFault] at hCode
        exact absurd hCode hFault
      · have hFine : ¬ (q.setAttributes change).1 ≠ 0 := by simp [Parameter.setAttributes, hRefused]
        rw [if_neg hFine] at hCode
        rw [if_neg hRefused] at hItem
        obtain rfl | hRest := List.mem_cons.mp hItem
        · obtain rfl : q = prm := Option.some.inj (hHere.symm.trans hFound)
          exact hRefused
        · have hName : (q.setAttributes change).2.name = name := by
            rw [name_setAttributes, ParameterStore.name_of_getParameter hHere]
          have hOther : item.1 ≠ name := fun hSame => hHead (hSame ▸ (mem_askedOfAll hRest).1)
          rw [← askedOfAll_put change (hName ▸ hHead)] at hRest
          refine ih hTail hCode hRest ?_
          rw [ParameterStore.getParameter_put_of_ne (hName ▸ hOther), hFound]

theorem not_refused_setEntries (hLoad : Keeps load) (hCode : (setEntries load store pasList).1 = 0)
    (hItem : item ∈ asked load store pasList) {prm : Parameter} (hFound : store.getParameter item.1 = some prm) :
    ¬ prm.refuses item.2 := by
  induction pasList generalizing store prm with
  | nil => cases hItem
  | cons pas pasList ih =>
    unfold setEntries at hCode
    unfold asked at hItem
    dsimp only at hCode hItem
    have hEntry : ¬ (setEntry load store pas).1 ≠ 0 := by
      intro hFault
      rw [if_pos hFault] at hCode
      exact hFault hCode
    rw [if_neg hEntry] at hCode hItem
    obtain hHere | hLater := List.mem_append.mp hItem
    · unfold askedByEntry at hHere
      unfold setEntry at hEntry
      cases hChange : pas.change with
      | none =>
        rw [hChange] at hHere
        cases hHere
      | some change =>
        rw [hChange] at hHere hEntry
        dsimp only at hHere hEntry
        split at hHere
        · cases hHere
        rename_i hAccepted
        obtain ⟨hLoaded, hName⟩ := not_or.mp hAccepted
        rw [if_neg hLoaded, if_neg hName] at hEntry
        obtain ⟨prm', hFound', hDenied, -⟩ := hLoad.kept pas.parameterName store item.1 prm hFound
        have hRefused := not_refused_setAll (nodup_targets _ _) (not_not.mp hEntry) hHere hFound'
        rwa [Parameter.refuses, hDenied, ← Parameter.refuses] at hRefused
    · obtain ⟨prm', hFound', hDenied, -⟩ := (effect_setEntry hLoad store pas).tracks item.1 prm hFound
      have hRefused := ih hCode hLater hFound'
      rwa [Parameter.refuses, hDenied, ← Parameter.refuses] at hRefused

end Asked

section ReadBack

/-- The last of the values that is not null, or what there was before. -/
def lastGiven {V : Type} [DecidableEq V] (null v : V) (values : List V) : V :=
  ((values.filter (· ≠ null)).getLast?).getD v

theorem foldl_override {V : Type} [DecidableEq V] {null v : V} (values : List V) :
    values.foldl (override null) v = lastGiven null v values := by
  have hSkip (w : V) : values.foldl (override null) w = (values.filter (· ≠ null)).foldl (override null) w := by
    induction values generalizing w with
    | nil => rfl
    | cons c values ih =>
      rw [List.foldl_cons, List.filter_cons, ih]
      by_cases hNull : c = null
      · simp [hNull, override]
      · simp [hNull]
  rw [hSkip, foldl_override_eq_getLast, lastGiven]
  intro c hc
  simpa using (List.mem_filter.mp hc).2

variable {load : Text → ParameterStore → Int × ParameterStore} {store store₁ : ParameterStore}
  {pasList : List ParameterAttributesStruct} {name : Text} {prm : Parameter}

/-- What was asked last of a parameter, and where nothing was asked, what it had before. -/
def lastAsked (prm : Parameter) (changes : List Attributes) : Attributes :=
  ⟨lastGiven .undefined prm.notification (changes.map (·.notification)),
    lastGiven none prm.accessList (changes.map (·.accessList))⟩

/-- A request that went through leaves each parameter with what was asked last of it. -/
theorem attributes_set_of_success (hLoad : Keeps load)
    (h : setParameterAttributes load .acs store pasList = some (0, store₁))
    (hFound : store.getParameter name = some prm) : ∃ prm₁, store₁.getParameter name = some prm₁ ∧
      prm₁.attributes = lastAsked prm (of name (asked load store pasList)) := by
  have hDone : (setEntries load store pasList).1 = 0 ∧ (setEntries load store pasList).2.1 = store₁ := by
    unfold setParameterAttributes at h
    simp only [ne_eq, not_true, if_false] at h
    split at h
    · rename_i hFault
      obtain ⟨final, -, hResult⟩ := Option.map_eq_some_iff.mp h
      exact absurd (congrArg Prod.fst hResult) hFault
    · obtain ⟨hCode, hStore⟩ := Prod.mk.inj (Option.some.inj h)
      exact ⟨hCode, hStore⟩
  obtain ⟨hCode, rfl⟩ := hDone
  obtain ⟨prm₁, hFound₁, hDenied, hAttributes, -⟩ := (effect_setEntries hLoad store pasList).tracks name prm hFound
  refine ⟨prm₁, hFound₁, ?_⟩
  rw [hAttributes, settle, foldl_set_of_not_refused, foldl_override, foldl_override]
  · rfl
  · intro change hChange
    obtain ⟨asking, hAsking, rfl⟩ := List.mem_map.mp hChange
    obtain ⟨hMem, hName⟩ := List.mem_filter.mp hAsking
    have hName : asking.1 = name := of_decide_eq_true hName
    exact not_refused_setEntries hLoad hCode hMem (hName ▸ hFound)

/-- After a request that went through, any reader is told what was asked last of each parameter that its
names stand for and that is not hidden by it. -/
theorem attributes_read_back (hLoad : Keeps load)
    (h : setParameterAttributes load .acs store pasList = some (0, store₁)) (reader : EntityType) (names : List Text)
    (hLoaded : ∀ name ∈ names, ∀ store, (loadFor load reader name store).1 = 0)
    (hValid : ∀ name ∈ names, name = [] ∨ isInvalidName store₁ name = false) :
    ∃ store₂ answer, getParameterAttributes load reader store₁ names = (0, store₂, answer) ∧
      ∀ name prm, store.getParameter name = some prm → ∀ attributes, (name, attributes) ∈ answer ↔
        (∃ path ∈ names, name ∈ targets store path) ∧
          isHiddenBy (lastAsked prm (of name (asked load store pasList))) = false ∧
          attributes = lastAsked prm (of name (asked load store pasList)) := by
  have hCode : (getParameterAttributes load reader store₁ names).1 = 0 :=
    getParameterAttributes_fst_eq_zero hLoad hLoaded hValid
  refine ⟨_, _, Prod.ext hCode rfl, fun name prm hFound attributes => ?_⟩
  obtain ⟨prm₁, hFound₁, hAttributes⟩ := attributes_set_of_success hLoad h hFound
  have hAnswer : (name, attributes) ∈ (getParameterAttributes load reader store₁ names).2.2 ↔ _ :=
    mem_answer_iff hLoad hCode hFound₁
  simp only [mem_targets_congr hFound hFound₁, isHidden_eq_isHiddenBy, hAttributes] at hAnswer
  exact hAnswer

end ReadBack

section Hidden

variable {load : Text → ParameterStore → Int × ParameterStore} {store store' : ParameterStore} {name : Text}
  {prm : Parameter} {pasList : List ParameterAttributesStruct}

/-- Nothing is asked of a hidden parameter. -/
theorem of_asked_hidden (hLoad : Keeps load) (hFound : store.getParameter name = some prm)
    (hHidden : prm.isHidden = true) :
    of name (asked load store pasList) = [] := by
  induction pasList generalizing store prm with
  | nil => rfl
  | cons pas pasList ih =>
    have hHere : of name (askedByEntry load store pas) = [] := by
      refine List.map_eq_nil_iff.mpr (List.filter_eq_nil_iff.mpr fun item hItem hName => ?_)
      have hName : item.1 = name := of_decide_eq_true hName
      unfold askedByEntry at hItem
      cases hChange : pas.change with
      | none =>
        rw [hChange] at hItem
        cases hItem
      | some change =>
        rw [hChange] at hItem
        dsimp only at hItem
        split at hItem
        · cases hItem
        obtain ⟨-, -, q, hq, hShown⟩ := mem_askedOfAll hItem
        obtain ⟨prm', hFound', -, hSame⟩ := hLoad.kept pas.parameterName store name prm hFound
        rw [hName] at hq
        obtain rfl : q = prm' := Option.some.inj (hq.symm.trans hFound')
        rw [isHidden_congr hSame, hHidden] at hShown
        cases hShown
    have hAfter := (effect_setEntry hLoad store pas).tracks name prm hFound
    obtain ⟨prm', hFound', -, hSame, -⟩ := hAfter
    rw [hHere] at hSame
    have hSame : prm'.attributes = prm.attributes := hSame
    have hHidden' : prm'.isHidden = true := (isHidden_congr hSame).trans hHidden
    unfold asked
    dsimp only
    split
    · rw [List.append_nil, hHere]
    · rw [of_append, hHere, ih hFound' hHidden', List.append_nil]

/-- A request, whether it fails or not, leaves the attributes of a hidden parameter as they are. -/
theorem hidden_setParameterAttributes (hLoad : Keeps load) {entity : EntityType} {codeRetour : Int}
    (h : setParameterAttributes load entity store pasList = some (codeRetour, store'))
    (hFound : store.getParameter name = some prm) (hHidden : prm.isHidden = true) :
    ∃ prm', store'.getParameter name = some prm' ∧ prm'.attributes = prm.attributes := by
  unfold setParameterAttributes at h
  split at h
  · obtain ⟨-, rfl⟩ := Prod.mk.inj (Option.some.inj h)
    exact ⟨prm, hFound, rfl⟩
  have hEffect := effect_setEntries hLoad store pasList
  obtain ⟨prm₁, hFound₁, hDenied, hAttributes, hSaved⟩ := hEffect.tracks name prm hFound
  rw [of_asked_hidden hLoad hFound hHidden] at hAttributes hSaved
  dsimp only at h
  split at h
  · obtain ⟨final, hFinal, hResult⟩ := Option.map_eq_some_iff.mp h
    obtain ⟨-, rfl⟩ := Prod.mk.inj hResult
    obtain ⟨final', hFinal', hGiven⟩ := giveBack_eq_some hEffect.found
    obtain rfl : final = final' := Option.some.inj (hFinal.symm.trans hFinal')
    obtain ⟨prm', hFound', hSame⟩ := hGiven name prm₁ hFound₁
    rw [hSaved] at hSame
    exact ⟨prm', hFound', hSame.trans hAttributes⟩
  · obtain ⟨-, rfl⟩ := Prod.mk.inj (Option.some.inj h)
    exact ⟨prm₁, hFound₁, hAttributes⟩

inductive AttributesCall where
  | set (entity : EntityType) (pasList : List ParameterAttributesStruct)
  | get (entity : EntityType) (names : List Text)

def attributesStep (load : Text → ParameterStore → Int × ParameterStore) (store : ParameterStore) :
    AttributesCall → Option ParameterStore
  | .set entity pasList => (setParameterAttributes load entity store pasList).map Prod.snd
  | .get entity names => some (getParameterAttributes load entity store names).2.1

/-- The parameter has these attributes, and no reader is told of it. -/
def KeptHidden (load : Text → ParameterStore → Int × ParameterStore) (name : Text) (attributes : Attributes)
    (store : ParameterStore) : Prop :=
  (∃ prm, store.getParameter name = some prm ∧ prm.attributes = attributes) ∧
    ∀ reader names, ∀ item ∈ (getParameterAttributes load reader store names).2.2, item.1 ≠ name

/-- What is hidden stays so with the attributes it has, whatever is requested. -/
theorem hidden_throughout (hLoad : Keeps load) (hFound : store.getParameter name = some prm)
    (hHidden : prm.isHidden = true)
    (calls : List AttributesCall) :
    Throughout (attributesStep load) (KeptHidden load name prm.attributes) store calls := by
  have hKept {s : ParameterStore} (h : ∃ p, s.getParameter name = some p ∧ p.attributes = prm.attributes) :
      KeptHidden load name prm.attributes s := by
    refine ⟨h, fun reader names item hItem hName => ?_⟩
    obtain ⟨p, hp, hSame⟩ := h
    have hShown := (attributes_of_mem_answer hLoad hItem (hName ▸ hp)).2
    rw [isHidden_congr hSame, hHidden] at hShown
    cases hShown
  suffices hAll : ∀ s, (∃ p, s.getParameter name = some p ∧ p.attributes = prm.attributes) →
      Throughout (attributesStep load) (KeptHidden load name prm.attributes) s calls from
    hAll store ⟨prm, hFound, rfl⟩
  induction calls with
  | nil => exact fun s h => hKept h
  | cons call calls ih =>
    intro s h
    refine ⟨hKept h, fun s' hStep => ih s' ?_⟩
    obtain ⟨p, hp, hSame⟩ := h
    have hHidden' : p.isHidden = true := (isHidden_congr hSame).trans hHidden
    cases call with
    | set entity pasList =>
      obtain ⟨⟨codeRetour, final⟩, hSet, rfl⟩ := Option.map_eq_some_iff.mp hStep
      obtain ⟨p', hp', hAgain⟩ := hidden_setParameterAttributes hLoad hSet hp hHidden'
      exact ⟨p', hp', hAgain.trans hSame⟩
    | get entity names =>
      obtain rfl := Option.some.inj hStep
      obtain ⟨p', hp', -, hAgain⟩ := stay_getParameterAttributes hLoad name p hp
      exact ⟨p', hp', hAgain.trans hSame⟩

end Hidden

section Samples

def setInTurn : List ParameterAttributesStruct :=
  [⟨ntpServer.name, 1, some ["Admin".toList]⟩, ⟨ntpServer.name, 2, none⟩]

theorem attributes_read_back_sample : ∃ store₁ store₂ answer,
    setParameterAttributes namesLoaded .acs timeStore setInTurn = some (0, store₁) ∧
      getParameterAttributes namesLoaded .system store₁ [ntpServer.name] = (0, store₂, answer) ∧
      (ntpServer.name, ⟨.active, some ["Admin".toList]⟩) ∈ answer := by
  have hMap : (setParameterAttributes namesLoaded .acs timeStore setInTurn).map (fun r =>
      (r.1, isInvalidName r.2 ntpServer.name)) = some (0, false) := by decide +kernel
  obtain ⟨⟨codeRetour, store₁⟩, hSet, hParts⟩ := Option.map_eq_some_iff.mp hMap
  obtain ⟨rfl, hShown⟩ := Prod.mk.inj hParts
  have hValid : ∀ name ∈ [ntpServer.name], name = [] ∨ isInvalidName store₁ name = false := by
    intro name hName
    rw [List.mem_singleton.mp hName]
    exact .inr hShown
  obtain ⟨store₂, answer, hAnswer, hIff⟩ := attributes_read_back keeps_namesLoaded hSet .system [ntpServer.name]
    (fun _ _ _ => rfl) hValid
  refine ⟨store₁, store₂, answer, hSet, hAnswer, ?_⟩
  have hFound : timeStore.getParameter ntpServer.name = some ntpServer := by decide
  exact (hIff ntpServer.name ntpServer hFound _).mpr (by decide +kernel)

def hiddenServer : Parameter := { ntpServer with accessList := some [Parameter.hiddenName] }

def hiddenStore : ParameterStore := ⟨[hiddenServer], by decide⟩

theorem hidden_throughout_sample : Throughout (attributesStep namesLoaded)
    (KeptHidden namesLoaded hiddenServer.name hiddenServer.attributes) hiddenStore
    [.set .acs [⟨hiddenServer.name, 1, some ["Subscriber".toList]⟩], .get .acs [[]]] := by
  have hFound : hiddenStore.getParameter hiddenServer.name = some hiddenServer := by decide
  exact hidden_throughout keeps_namesLoaded hFound (by decide) _

end Samples

end Tr069Agent.Engine.SetParameterAttributes
