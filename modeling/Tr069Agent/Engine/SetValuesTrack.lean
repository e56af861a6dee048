import Mathlib.Data.List.Nodup
import Tr069Agent.Engine.SetParameterValues

/-! # What a request does to a parameter

While the entries are handled a parameter may be given its default value and, after that, be set
once. What was there before it was set is kept beside the new value.
-/

namespace Tr069Agent.Engine

open Library

set_option autoImplicit false

namespace Parameter

theorem static_eq_iff {p q : Parameter} : p.static = q.static ↔ p.name = q.name ∧ p.type = q.type ∧
    p.storageMode = q.storageMode ∧ p.definition = q.definition ∧ p.loadingMode = q.loadingMode := by
  simp [static]

@[simp]
theorem static_withDefault (param : Parameter) : param.withDefault.static = param.static := by
  unfold withDefault
  split <;> rfl

@[simp]
theorem static_markLoaded (param : Parameter) : param.markLoaded.static = param.static := by
  unfold markLoaded
  split <;> rfl

theorem redirection_congr (dmPrefix : Text) {p q : Parameter} (h : p.static = q.static) :
    p.redirection dmPrefix = q.redirection dmPrefix := by
  obtain ⟨hName, -, hMode, hDefinition, -⟩ := static_eq_iff.mp h
  simp only [redirection, hName, hMode, hDefinition]

theorem clearsValue_congr {p q : Parameter} (h : p.static = q.static) :
    p.clearsValue = q.clearsValue := by
  obtain ⟨-, -, hMode, hDefinition, -⟩ := static_eq_iff.mp h
  simp only [clearsValue, hMode, hDefinition]

theorem isUnset_congr {p q : Parameter} (h : p.static = q.static) (hValue : p.value = q.value) :
    p.isUnset = q.isUnset := by
  obtain ⟨hName, hType, hMode, -, -⟩ := static_eq_iff.mp h
  simp only [isUnset, hName, hType, hMode, hValue]

theorem defaultValue_ne_nil (param : Parameter) : param.defaultValue ≠ [] := by
  unfold defaultValue
  split <;> decide

theorem value_of_isUnset {param : Parameter} (h : param.isUnset = true) :
    param.value ≠ some param.defaultValue := by
  intro hValue
  simp [isUnset, hValue, defaultValue_ne_nil] at h

end Parameter

namespace ParameterStore

theorem eq_of_getParameter {store : ParameterStore} {name : Text} {prm p : Parameter}
    (h : store.getParameter name = some prm) (hMem : p ∈ store.parameters) (hName : p.name = name) :
    p = prm := by
  refine List.inj_on_of_nodup_map store.nodup hMem (List.mem_of_find?_eq_some h) ?_
  rw [hName, name_of_getParameter h]

theorem getParameter_static (store : ParameterStore) (name : Text) :
    (store.getParameter name).map Parameter.static = store.statics.find? (·.1 = name) := by
  simp only [getParameter, statics, List.find?_map, Function.comp_def]
  rfl

theorem exists_of_statics {store store' : ParameterStore} (h : store'.statics = store.statics)
    {name : Text} {prm : Parameter} (hFound : store.getParameter name = some prm) :
    ∃ prm', store'.getParameter name = some prm' ∧ prm'.static = prm.static := by
  have hMap : (store'.getParameter name).map Parameter.static = some prm.static := by
    rw [getParameter_static, h, ← getParameter_static, hFound]
    rfl
  exact Option.map_eq_some_iff.mp hMap

theorem statics_put {store : ParameterStore} {name : Text} {prm prm' : Parameter}
    (h : store.getParameter name = some prm) (hStatic : prm'.static = prm.static) :
    (store.put prm').statics = store.statics := by
  simp only [statics, put, List.map_map]
  refine List.map_congr_left fun p hp => ?_
  simp only [Function.comp_apply]
  split
  next hName =>
    have hPrm : prm'.name = prm.name := (Parameter.static_eq_iff.mp hStatic).1
    rw [eq_of_getParameter h hp (by rw [hName, hPrm, name_of_getParameter h]), hStatic]
  next => rfl

theorem statics_map (store : ParameterStore) {f : Parameter → Parameter}
    (hf : ∀ p, (f p).name = p.name) (hStatic : ∀ p, (f p).static = p.static) :
    (store.map f hf).statics = store.statics := by
  simp [statics, map, Function.comp_def, hStatic]

theorem names_of_statics {store store' : ParameterStore} (h : store'.statics = store.statics) :
    store'.names = store.names := by
  simpa [statics, names, Parameter.static, Function.comp_def] using congrArg (List.map (·.1)) h

theorem length_of_statics {store store' : ParameterStore} (h : store'.statics = store.statics) :
    store'.parameters.length = store.parameters.length := by
  simpa [statics] using congrArg List.length h

/-- Where a parameter without a property takes the place of one that has it, fewer have it. -/
theorem countP_put_lt {store : ParameterStore} {name : Text} {prm prm' : Parameter}
    {P : Parameter → Bool} (h : store.getParameter name = some prm) (hName : prm'.name = name)
    (hOld : P prm = true) (hNew : P prm' = false) :
    (store.put prm').parameters.countP P < store.parameters.countP P := by
  have hMem : prm ∈ store.parameters := List.mem_of_find?_eq_some h
  have hSame : prm.name = prm'.name := by rw [hName, name_of_getParameter h]
  simp only [put]
  generalize store.parameters = params at hMem
  induction params with
  | nil => cases hMem
  | cons p params ih =>
    have hLe : (params.map fun p => if p.name = prm'.name then prm' else p).countP P ≤
        params.countP P := by
      rw [List.countP_map]
      refine List.countP_mono_left fun q _ hq => ?_
      by_cases hCase : q.name = prm'.name
      · simp [hCase, hNew] at hq
      · simpa [hCase] using hq
    simp only [List.map_cons, List.countP_cons]
    rcases List.mem_cons.mp hMem with rfl | hMem
    · simp only [hSame, if_true, hNew, hOld, Bool.false_eq_true, if_false]
      omega
    · have hRest := ih hMem
      by_cases hCase : p.name = prm'.name
      · simp only [hCase, if_true, hNew, Bool.false_eq_true, if_false]
        omega
      · simp only [hCase, if_false]
        omega

end ParameterStore

namespace SetParameterValues

variable (dmPrefix : Text) (dateOk : Text → Bool)

/-! ## The parameters that are set -/

/-- The parameters that `setParameterValue` sets, along the redirections. -/
def namesSet (entity : EntityType) :
    Nat → ParameterStatus → Text → Option Text → ParameterStore → List Text
  | 0, _, _, _, _ => []
  | fuel + 1, status, name, value, store =>
    match store.getParameter name with
    | none => []
    | some param =>
      if isNodeName name ∨ status = .undefined ∧ param.isHidden ∨
          ¬ (param.writable ∧ entity.belongsTo param.accessList) ∨ param.state.beingEvaluated then []
      else
        match setChecked dateOk param.markBeingEvaluated value with
        | none => []
        | some (res, param) =>
          let status : ParameterStatus := if param.immediateChanges ≠ 0 then .applied else .readyToApply
          if res ≠ 0 then []
          else name :: match param.redirection dmPrefix with
            | none => []
            | some nextName => namesSet entity fuel status nextName value (store.put param)

def setByEntry (entity : EntityType) (store : ParameterStore) (entry : Text × Option Text) :
    List Text :=
  match loadSystemParameters store entry.1 with
  | none => []
  | some (res, store) =>
    if res ≠ 0 then []
    else namesSet dmPrefix dateOk entity (bound store) .undefined entry.1 entry.2 store

/-- The parameters that the request sets, in this order. -/
def changed (entity : EntityType) (store : ParameterStore) : List (Text × Option Text) → List Text
  | [] => []
  | entry :: parameterList =>
    setByEntry dmPrefix dateOk entity store entry ++
      match setEntry dmPrefix dateOk entity store entry with
      | some (_, _, store) => changed entity store parameterList
      | none => []

/-- The parameters without a value that the look-up of a name gives their default. -/
def filledBy (store : ParameterStore) (path : Text) : List Text :=
  (store.parameters.filter fun p => isChecked store path p.name && p.isUnset).map (·.name)

/-- The parameters that are given their default, each by the entry that finds it without a value. -/
def filled (entity : EntityType) (store : ParameterStore) : List (Text × Option Text) → List Text
  | [] => []
  | entry :: parameterList =>
    filledBy store entry.1 ++
      match setEntry dmPrefix dateOk entity store entry with
      | some (_, _, store) => filled entity store parameterList
      | none => []

/-! ## The life of a parameter during the request -/

def startValue (fill : Bool) (prm : Parameter) : Option Text :=
  if fill then some prm.defaultValue else prm.value

/-- From `prm` to `prm'` the parameter may have been given its default, and then have been set. -/
structure Lived (set fill : Bool) (prm prm' : Parameter) : Prop where
  static : prm'.static = prm.static
  unset : fill = true → prm.isUnset = true
  ofSet : set = true → prm.state.changeRequested = false ∧ prm'.state.changeRequested = true ∧
    prm'.backValue = startValue fill prm ∧ prm'.isUnset = false
  ofKept : set = false → prm'.state.changeRequested = prm.state.changeRequested ∧
    prm'.state.valueChanged = prm.state.valueChanged ∧ prm'.backValue = prm.backValue ∧
    prm'.value = startValue fill prm

theorem Lived.refl (prm : Parameter) : Lived false false prm prm :=
  ⟨rfl, by simp, by simp, fun _ => ⟨rfl, rfl, rfl, rfl⟩⟩

theorem startValue_trans {prm prm' : Parameter} {fill fill' : Bool} (hStatic : prm'.static = prm.static)
    (hValue : prm'.value = startValue fill prm) :
    startValue fill' prm' = startValue (fill || fill') prm := by
  have hType : prm'.type = prm.type := (Parameter.static_eq_iff.mp hStatic).2.1
  have hDefault : prm'.defaultValue = prm.defaultValue := by
    rw [Parameter.defaultValue, Parameter.defaultValue, hType]
  cases fill <;> cases fill' <;> simp_all [startValue]

theorem Lived.trans {set set' fill fill' : Bool} {p p' p'' : Parameter} (h : Lived set fill p p')
    (h' : Lived set' fill' p' p'') : Lived (set || set') (fill || fill') p p'' := by
  have hStatic : p''.static = p.static := h'.static.trans h.static
  cases set with
  | true =>
    obtain ⟨hOld, hCR, hBack, hUnset⟩ := h.ofSet rfl
    have hSet' : set' = false := by
      refine Bool.eq_false_iff.mpr fun hSet' => ?_
      have hNot := (h'.ofSet hSet').1
      rw [hCR] at hNot
      cases hNot
    have hFill' : fill' = false := by
      refine Bool.eq_false_iff.mpr fun hFill' => ?_
      have hUnset' := h'.unset hFill'
      rw [hUnset] at hUnset'
      cases hUnset'
    subst hSet' hFill'
    obtain ⟨hCR', hVC', hBack', hValue'⟩ := h'.ofKept rfl
    refine ⟨hStatic, by simpa using h.unset, fun _ => ⟨hOld, hCR'.trans hCR, ?_, ?_⟩, by simp⟩
    · rw [hBack', hBack, Bool.or_false]
    · rw [Parameter.isUnset_congr h'.static hValue', hUnset]
  | false =>
    obtain ⟨hCR, hVC, hBack, hValue⟩ := h.ofKept rfl
    have hUnset : (fill || fill') = true → p.isUnset = true := by
      intro hAny
      cases fill with
      | true => exact h.unset rfl
      | false =>
        have hSame : p'.isUnset = p.isUnset := Parameter.isUnset_congr h.static hValue
        exact hSame ▸ h'.unset (by simpa using hAny)
    refine ⟨hStatic, hUnset, ?_, ?_⟩
    · intro hSet
      obtain ⟨hOld, hCR', hBack', hUnset'⟩ := h'.ofSet (by simpa using hSet)
      exact ⟨hCR ▸ hOld, hCR', by rw [hBack', startValue_trans h.static hValue], hUnset'⟩
    · intro hSet
      obtain ⟨hCR', hVC', hBack', hValue'⟩ := h'.ofKept (by simpa using hSet)
      exact ⟨hCR'.trans hCR, hVC'.trans hVC, hBack'.trans hBack,
        by rw [hValue', startValue_trans h.static hValue]⟩

theorem lived_of_state {prm prm' : Parameter} (hStatic : prm'.static = prm.static)
    (hCR : prm'.state.changeRequested = prm.state.changeRequested)
    (hVC : prm'.state.valueChanged = prm.state.valueChanged) (hBack : prm'.backValue = prm.backValue)
    (hValue : prm'.value = prm.value) : Lived false false prm prm' :=
  ⟨hStatic, by simp, by simp, fun _ => ⟨hCR, hVC, hBack, hValue⟩⟩

theorem lived_mark (prm : Parameter) : Lived false false prm prm.markBeingEvaluated :=
  lived_of_state rfl rfl rfl rfl rfl

theorem lived_unmark (prm : Parameter) : Lived false false prm prm.unmarkBeingEvaluated :=
  lived_of_state rfl rfl rfl rfl rfl

theorem lived_withDefault (prm : Parameter) : Lived false prm.isUnset prm prm.withDefault := by
  refine ⟨prm.static_withDefault, id, by simp, fun _ => ?_⟩
  unfold Parameter.withDefault startValue
  split <;> exact ⟨rfl, rfl, rfl, rfl⟩

theorem not_isUnset_of_typeOk {prm : Parameter} {value : Option Text}
    (h : prm.typeOk dateOk value = true) : (prm.setValue value).isUnset = false := by
  refine Bool.eq_false_iff.mpr fun hUnset => ?_
  simp only [Parameter.isUnset, Bool.and_eq_true, Bool.or_eq_true, decide_eq_true_eq] at hUnset
  obtain ⟨⟨-, hType⟩, hEmpty⟩ := hUnset
  replace hType : prm.type = .date ∨ prm.type = .boolean := hType
  replace hEmpty : value = some [] ∨ value = none := hEmpty.imp id And.right
  rcases hType with hType | hType <;> rcases hEmpty with rfl | rfl <;>
    simp [Parameter.typeOk, hType] at h
  exact absurd h (by decide)

theorem setChecked_cases {prm prm' : Parameter} {value : Option Text} {res : Int}
    (h : setChecked dateOk prm value = some (res, prm')) :
    (res ≠ 0 ∧ prm' = prm) ∨
      (res = 0 ∧ prm.state.changeRequested = false ∧ prm.typeOk dateOk value = true ∧
        prm' = prm.setValue value) := by
  dsimp only [setChecked] at h
  split at h
  · obtain ⟨rfl, rfl⟩ := Prod.mk.inj (Option.some.inj h)
    exact .inl ⟨‹_›, rfl⟩
  next hRes =>
    split at h
    · cases h
    obtain ⟨rfl, rfl⟩ := Prod.mk.inj (Option.some.inj h)
    have hCheck : prm.checkBeforeSetValue dateOk value = 0 := not_not.mp hRes
    unfold Parameter.checkBeforeSetValue at hCheck
    split at hCheck
    · exact absurd hCheck (by decide)
    next hCR =>
      split at hCheck
      next hType => exact .inr ⟨rfl, Bool.eq_false_iff.mpr hCR, hType, rfl⟩
      next => exact absurd hCheck (by decide)

/-- From `store` to `store'` the parameters in `set` are set, and before that those in `fill` are
given their default. -/
structure Tracks (set fill : List Text) (store store' : ParameterStore) : Prop where
  statics : store'.statics = store.statics
  lived : ∀ name prm prm', store.getParameter name = some prm → isNodeName name = false →
    store'.getParameter name = some prm' → Lived (decide (name ∈ set)) (decide (name ∈ fill)) prm prm'

theorem Tracks.refl (store : ParameterStore) : Tracks [] [] store store := by
  refine ⟨rfl, fun name prm prm' h _ h' => ?_⟩
  obtain rfl : prm = prm' := Option.some.inj (h.symm.trans h')
  exact Lived.refl prm

theorem Tracks.trans {set set' fill fill' : List Text} {s s' s'' : ParameterStore}
    (h : Tracks set fill s s') (h' : Tracks set' fill' s' s'') :
    Tracks (set ++ set') (fill ++ fill') s s'' := by
  refine ⟨h'.statics.trans h.statics, fun name prm prm'' hFound hLeaf hFound'' => ?_⟩
  obtain ⟨prm', hFound', -⟩ := ParameterStore.exists_of_statics h.statics hFound
  have hLived := (h.lived name prm prm' hFound hLeaf hFound').trans
    (h'.lived name prm' prm'' hFound' hLeaf hFound'')
  simpa only [List.mem_append, Bool.decide_or] using hLived

theorem tracks_put {store : ParameterStore} {name : Text} {prm prm' : Parameter} {b : Bool}
    (hFound : store.getParameter name = some prm) (hStatic : prm'.static = prm.static)
    (h : isNodeName name = false → Lived b false prm prm') :
    Tracks (if b then [name] else []) [] store (store.put prm') := by
  have hName : prm'.name = name := by
    rw [(Parameter.static_eq_iff.mp hStatic).1, ParameterStore.name_of_getParameter hFound]
  refine ⟨ParameterStore.statics_put hFound hStatic, fun other p p' hp hLeaf hp' => ?_⟩
  by_cases hSame : other = name
  · subst hSame
    obtain rfl : prm = p := Option.some.inj (hFound.symm.trans hp)
    obtain rfl : prm' = p' :=
      Option.some.inj ((ParameterStore.getParameter_put_self hFound hName).symm.trans hp')
    cases b <;> simpa using h hLeaf
  · rw [ParameterStore.getParameter_put_of_ne (hName ▸ hSame), hp] at hp'
    obtain rfl : p = p' := Option.some.inj hp'
    cases b <;> simpa [hSame] using Lived.refl p

theorem tracks_put_state {store : ParameterStore} {name : Text} {prm prm' : Parameter}
    (hFound : store.getParameter name = some prm) (h : Lived false false prm prm') :
    Tracks [] [] store (store.put prm') := tracks_put hFound h.static fun _ => h

/-! ## The steps of the request -/

theorem statics_checkLoaded (select : Text → Bool) (store : ParameterStore) :
    (checkLoaded select store).statics = store.statics := by
  refine ParameterStore.statics_map store _ fun p => ?_
  split
  · exact p.static_withDefault
  · rfl

theorem mem_filledBy_iff {store : ParameterStore} {name path : Text} {prm : Parameter}
    (h : store.getParameter name = some prm) :
    name ∈ filledBy store path ↔ isChecked store path name = true ∧ prm.isUnset = true := by
  have hName := ParameterStore.name_of_getParameter h
  simp only [filledBy, List.mem_map, List.mem_filter, Bool.and_eq_true]
  constructor
  · rintro ⟨p, ⟨hMem, hChecked, hUnset⟩, hp⟩
    obtain rfl := ParameterStore.eq_of_getParameter h hMem hp
    exact ⟨hp ▸ hChecked, hUnset⟩
  · rintro ⟨hChecked, hUnset⟩
    exact ⟨prm, ⟨List.mem_of_find?_eq_some h, hName.symm ▸ hChecked, hUnset⟩, hName⟩

theorem tracks_checkLoaded (store : ParameterStore) (path : Text) :
    Tracks [] (filledBy store path) store (checkLoaded (isChecked store path) store) := by
  refine ⟨statics_checkLoaded _ store, fun name prm prm' hFound _ hFound' => ?_⟩
  rw [checkLoaded, ParameterStore.getParameter_map, hFound] at hFound'
  obtain rfl := Option.some.inj hFound'
  dsimp only
  have hFill : decide (name ∈ filledBy store path) = (isChecked store path name && prm.isUnset) := by
    rw [Bool.eq_iff_iff]
    simpa using mem_filledBy_iff hFound
  rw [ParameterStore.name_of_getParameter hFound, hFill]
  cases hChecked : isChecked store path name with
  | false => simpa [hChecked] using Lived.refl prm
  | true => simpa [hChecked] using lived_withDefault prm

theorem getParameter_of_findProto {store : ParameterStore} {fuel : Nat} {path : Text}
    {param : Parameter} (h : findProto store fuel path = some param) :
    store.getParameter param.name = some param := by
  induction fuel generalizing path with
  | zero => cases h
  | succ fuel ih =>
    obtain ⟨proto, -, hProto⟩ := Option.bind_eq_some_iff.mp h
    rcases Option.or_eq_some_iff.mp hProto with hHere | ⟨-, hLater⟩
    · exact (ParameterStore.name_of_getParameter hHere).symm ▸ hHere
    · exact ih hLater

theorem isNodeName_of_not_isLoaded {param : Parameter} (h : ¬ param.isLoaded false = true) :
    isNodeName param.name = true := by
  refine Bool.not_eq_false _ ▸ fun hLeaf => h ?_
  simp [Parameter.isLoaded, hLeaf]

theorem tracks_loadSystemParameters {store store' : ParameterStore} {path : Text} {res : Int}
    (h : loadSystemParameters store path = some (res, store')) :
    Tracks [] (filledBy store path) store store' := by
  have hChecked := tracks_checkLoaded store path
  unfold loadSystemParameters at h
  split at h
  · cases h
  split at h
  · obtain ⟨-, rfl⟩ := Prod.mk.inj (Option.some.inj h)
    exact hChecked
  next hPath =>
    cases hParam : (store.getParameter path).or (findProto store path.length path) with
    | none =>
      rw [hParam] at h
      obtain ⟨-, rfl⟩ := Prod.mk.inj (Option.some.inj h)
      have hNone : filledBy store path = [] := by simp [filledBy, isChecked, hPath, hParam]
      rw [hNone]
      exact Tracks.refl store
    | some param =>
      rw [hParam] at h
      dsimp only at h
      split at h
      · obtain ⟨-, rfl⟩ := Prod.mk.inj (Option.some.inj h)
        exact hChecked
      next hLoaded =>
        obtain ⟨-, rfl⟩ := Prod.mk.inj (Option.some.inj h)
        have hFound : store.getParameter param.name = some param := by
          rcases Option.or_eq_some_iff.mp hParam with hHere | ⟨-, hProto⟩
          · exact (ParameterStore.name_of_getParameter hHere).symm ▸ hHere
          · exact getParameter_of_findProto hProto
        have hSelf : isChecked store path param.name = true := by
          simp [isChecked, hPath, hParam]
        have hMid : (checkLoaded (isChecked store path) store).getParameter param.name =
            some param.withDefault := by
          rw [checkLoaded, ParameterStore.getParameter_map, hFound]
          simp [hSelf]
        have hNode : isNodeName param.name = true := by
          simpa using isNodeName_of_not_isLoaded hLoaded
        have hPut := tracks_put (b := false) hMid param.withDefault.static_markLoaded fun hLeaf =>
          absurd (hNode.symm.trans hLeaf) (by decide)
        simpa using hChecked.trans hPut

theorem static_of_setChecked {prm prm' : Parameter} {value : Option Text} {res : Int}
    (h : setChecked dateOk prm value = some (res, prm')) : prm'.static = prm.static := by
  rcases setChecked_cases dateOk h with ⟨-, rfl⟩ | ⟨-, -, -, rfl⟩ <;> rfl

theorem lived_setValue {prm : Parameter} {value : Option Text}
    (hCR : prm.state.changeRequested = false) (hType : prm.typeOk dateOk value = true) :
    Lived true false prm (prm.markBeingEvaluated.setValue value) := by
  have hMarked : prm.markBeingEvaluated.typeOk dateOk value = true := hType
  exact ⟨rfl, by simp, fun _ => ⟨hCR, rfl, rfl, not_isUnset_of_typeOk dateOk hMarked⟩, by simp⟩

theorem tracks_setParameterValue {entity : EntityType} {fuel : Nat} {status status' : ParameterStatus}
    {name : Text} {value : Option Text} {store store' : ParameterStore} {res : Int}
    (h : setParameterValue dmPrefix dateOk entity fuel status name value store =
      some (res, status', store')) :
    Tracks (namesSet dmPrefix dateOk entity fuel status name value store) [] store store' := by
  induction fuel generalizing status name store res status' store' with
  | zero => cases h
  | succ fuel ih =>
    unfold setParameterValue at h
    unfold namesSet
    cases hFound : store.getParameter name with
    | none =>
      rw [hFound] at h
      obtain ⟨-, -, rfl⟩ := by simpa using h
      exact Tracks.refl store
    | some param =>
      rw [hFound] at h
      dsimp only at h ⊢
      split at h
      next hName =>
        obtain ⟨-, -, rfl⟩ := by simpa using h
        rw [if_pos (by tauto)]
        exact Tracks.refl store
      next hName =>
      split at h
      next hAccess =>
        obtain ⟨-, -, rfl⟩ := by simpa using h
        rw [if_pos (by tauto)]
        exact Tracks.refl store
      next hAccess =>
      split at h
      next hLoop =>
        obtain ⟨-, -, rfl⟩ := by simpa using h
        rw [if_pos (by tauto)]
        exact tracks_put_state hFound (lived_unmark param)
      next hLoop =>
        rw [if_neg (by tauto)]
        obtain ⟨⟨res₁, param'⟩, hSet, h⟩ := Option.bind_eq_some_iff.mp h
        rw [hSet]
        dsimp only
        have hStatic : param'.static = param.static :=
          (static_of_setChecked dateOk hSet).trans (lived_mark param).static
        have hName' : param'.name = name := by
          rw [(Parameter.static_eq_iff.mp hStatic).1, ParameterStore.name_of_getParameter hFound]
        have hPut := ParameterStore.getParameter_put_self hFound hName'
        have hUnmark := tracks_put_state hPut (lived_unmark param')
        rcases setChecked_cases dateOk hSet with ⟨hRes, rfl⟩ | ⟨rfl, hCR, hType, hValue⟩
        · have hKept := tracks_put_state hFound (lived_mark param)
          split at h
          next hZero _ => exact absurd hZero hRes
          obtain ⟨-, -, rfl⟩ := by simpa using h
          rw [if_pos hRes]
          exact hKept.trans hUnmark
        · have hLived : Lived true false param param' := hValue ▸ lived_setValue dateOk hCR hType
          have hNew := tracks_put hFound hStatic fun _ => hLived
          cases hNext : param'.redirection dmPrefix with
          | none =>
            rw [hNext] at h
            obtain ⟨-, -, rfl⟩ := by simpa using h
            simpa [hNext] using hNew.trans hUnmark
          | some nextName =>
            rw [hNext] at h
            obtain ⟨⟨res₂, status₂, store₂⟩, hRest, h⟩ := Option.bind_eq_some_iff.mp h
            obtain ⟨param₂, hFound₂, h⟩ := Option.bind_eq_some_iff.mp h
            obtain ⟨-, -, rfl⟩ := by simpa using h
            have hUnmark₂ := tracks_put_state hFound₂ (lived_unmark param₂)
            simpa [hNext] using (hNew.trans (ih hRest)).trans hUnmark₂

theorem tracks_setEntry {entity : EntityType} {store store' : ParameterStore}
    {entry : Text × Option Text} {res : Int} {status : ParameterStatus}
    (h : setEntry dmPrefix dateOk entity store entry = some (res, status, store')) :
    Tracks (setByEntry dmPrefix dateOk entity store entry) (filledBy store entry.1) store store' := by
  unfold setByEntry
  obtain ⟨⟨res₁, store₁⟩, hLoad, h⟩ := Option.bind_eq_some_iff.mp h
  have hLoaded := tracks_loadSystemParameters hLoad
  rw [hLoad]
  dsimp only at h ⊢
  split at h
  next hRes =>
    obtain ⟨rfl, -, rfl⟩ := by simpa using h
    rw [if_pos hRes]
    exact hLoaded
  next hRes =>
    obtain rfl : res₁ = 0 := not_not.mp hRes
    simpa using hLoaded.trans (tracks_setParameterValue dmPrefix dateOk h)

theorem tracks_setEntries {entity : EntityType} {store store' : ParameterStore}
    {parameterList : List (Text × Option Text)} {status status' : ParameterStatus}
    {faults : List (Text × Int)}
    (h : setEntries dmPrefix dateOk entity status store parameterList = some (status', faults, store')) :
    Tracks (changed dmPrefix dateOk entity store parameterList)
      (filled dmPrefix dateOk entity store parameterList) store store' := by
  induction parameterList generalizing store status status' faults with
  | nil =>
    obtain ⟨-, -, rfl⟩ := by simpa [setEntries] using h
    exact Tracks.refl store
  | cons entry parameterList ih =>
    obtain ⟨⟨res₁, stat₁, store₁⟩, hEntry, h⟩ := Option.bind_eq_some_iff.mp h
    obtain ⟨⟨status₂, faults₂, store₂⟩, hRest, h⟩ := Option.bind_eq_some_iff.mp h
    obtain ⟨-, -, rfl⟩ := by simpa using h
    unfold changed filled
    rw [hEntry]
    exact (tracks_setEntry dmPrefix dateOk hEntry).trans (ih hRest)

end SetParameterValues

end Tr069Agent.Engine
