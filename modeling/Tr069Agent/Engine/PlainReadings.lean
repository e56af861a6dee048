import Tr069Agent.Engine.LoadingSafety
import Tr069Agent.Engine.Objects

/-! # Readings that ask for no other parameter

What holds of each parameter, and of each that is made from one, holds of each after a load. A leaf that
is read alone, with data that name nothing, is read without a loop over the parameters.
-/

namespace Tr069Agent.Engine.Loading

open Library Library.Action Library.NumberedNames

set_option autoImplicit false

/-- The part of a name behind its last dot, reversed. -/
def lastPart (name : Text) : Text := name.reverse.takeWhile (· ≠ '.')

section PassedOn

/-- A property of parameters that goes on to what loading makes of them. -/
structure PassedOn (dmPrefix : Text) (P : Parameter → Prop) : Prop where
  grows : ∀ {p p' : Parameter}, p.Grows p' → P p → P p'
  copy : ∀ {p : Parameter} {name : Text}, isNodeName name = isNodeName p.name → lastPart name = lastPart p.name →
    P p → P (newInstanceParameter name p)
  relocate : ∀ {p : Parameter} (objName : Text) (instanceNb : Nat), P p →
    P (relocateParameter dmPrefix objName instanceNb p)

variable {dmPrefix : Text} {P : Parameter → Prop} {dm : DataModel} {name : Text}

theorem forall_mem_modify {f : Parameter → Parameter} (hNew : ∀ p ∈ dm, P (f p)) (h : ∀ p ∈ dm, P p) :
    ∀ p ∈ dm.modify name f, P p := by
  induction dm with
  | nil => exact h
  | cons q rest ih =>
    obtain ⟨hHere, hRest⟩ := List.forall_mem_cons.mp h
    rw [DataModel.modify]
    split
    · exact List.forall_mem_cons.mpr ⟨hNew q List.mem_cons_self, hRest⟩
    · exact List.forall_mem_cons.mpr ⟨hHere, ih (fun p hp => hNew p (List.mem_cons_of_mem _ hp)) hRest⟩

theorem forall_mem_putAll {ps : List Parameter} (hNew : ∀ p ∈ ps, P p) (h : ∀ p ∈ dm, P p) :
    ∀ p ∈ ps.foldl DataModel.putParameter dm, P p := by
  induction ps generalizing dm with
  | nil => exact h
  | cons q ps ih =>
    obtain ⟨hHere, hRest⟩ := List.forall_mem_cons.mp hNew
    refine ih hRest ?_
    rw [DataModel.putParameter]
    split
    · exact forall_mem_modify (fun _ _ => hHere) h
    · exact List.forall_mem_append.mpr ⟨h, by simpa using hHere⟩

theorem isNodeName_append {before rest : Text} (hNe : rest ≠ []) : isNodeName (before ++ rest) = isNodeName rest := by
  rw [isNodeName, isNodeName, List.getLast?_append_of_ne_nil _ hNe]

theorem lastPart_append {before rest : Text} (hDot : '.' ∈ rest) : lastPart (before ++ rest) = lastPart rest := by
  rw [lastPart, lastPart, List.reverse_append, List.takeWhile_append, if_neg]
  intro hLength
  have hAll := List.takeWhile_eq_self_iff.mp ((List.takeWhile_prefix _).eq_of_length hLength)
  simpa using hAll '.' (List.mem_reverse.mpr hDot)

theorem PassedOn.instanceParameters (hP : PassedOn dmPrefix P) (h : ∀ p ∈ dm, P p) {param : Parameter}
    (hParam : param ∈ dm) (hInner : IsInner '.' param.name) (instanceNb : Nat) :
    ∀ p ∈ instanceParameters dm param instanceNb, P p := by
  rw [Engine.instanceParameters]
  refine List.forall_mem_cons.mpr ⟨?_, ?_⟩
  · obtain ⟨before, hName⟩ : ∃ before, param.name = before ++ ['.'] :=
      ⟨param.name.dropLast, (List.dropLast_append_getLast? '.' hInner).symm⟩
    refine hP.copy ?_ ?_ (h param hParam)
    · rw [isNodeName_of_isInner isInner_child, isNodeName_of_isInner hInner]
    · rw [child, hName, ← List.append_assoc, lastPart_append (List.mem_singleton.mpr rfl),
        lastPart_append (List.mem_singleton.mpr rfl)]
  · intro copy hCopy
    obtain ⟨prm, hPrm, rfl⟩ := List.mem_map.mp hCopy
    obtain ⟨hMem, hIn⟩ := List.mem_filter.mp hPrm
    obtain ⟨rest, hRest⟩ : param.name ++ ['.'] <+: prm.name := by simpa [inPrototype] using hIn
    have hName : prm.name = param.name ++ '.' :: rest := by rw [← hRest, List.append_assoc, List.singleton_append]
    have hDrop : prm.name.drop param.name.length = '.' :: rest := by rw [hName, List.drop_left]
    refine hP.copy ?_ ?_ (h prm hMem)
    · rw [hDrop, hName, ← List.append_assoc, isNodeName_append (List.cons_ne_nil _ _),
        isNodeName_append (List.cons_ne_nil _ _)]
    · rw [hDrop, hName, ← List.append_assoc, lastPart_append List.mem_cons_self, lastPart_append List.mem_cons_self]

theorem PassedOn.getParameterFrom (hP : PassedOn dmPrefix P) (iterations : Nat) (name : Text) (h : ∀ p ∈ dm, P p) :
    ∀ p ∈ (getParameterFrom dmPrefix iterations dm name).1, P p := by
  induction iterations generalizing dm with
  | zero => exact h
  | succ iterations ih =>
    rw [Engine.getParameterFrom]
    split
    · exact h
    split
    · exact h
    rename_i proto instanceNb hFound
    split
    · exact h
    rename_i param hParam
    refine ih fun p hp => ?_
    obtain ⟨q, hq, rfl⟩ := List.mem_map.mp hp
    have hInner : IsInner '.' param.name := DataModel.name_of_getParameter hParam ▸ isInner_of_findInstance hFound
    exact hP.relocate _ _
      (forall_mem_putAll (hP.instanceParameters h (List.mem_of_find?_eq_some hParam) hInner _) h q hq)

theorem grows_markUntilObsolete (name : Text) (names : List Text) (withValues : Bool) (dm : DataModel) :
    List.Forall₂ Parameter.Grows dm (markUntilObsolete name names withValues dm).1 := by
  induction dm with
  | nil => exact .nil
  | cons param rest ih =>
    rw [markUntilObsolete]
    split
    · exact .cons (Parameter.grows_markLoadedWith withValues param) ih
    split
    · exact List.forall₂_same.mpr fun p _ => .refl p
    · exact .cons (.refl param) ih

theorem forall_of_forall₂ (hGrows : ∀ {p p' : Parameter}, p.Grows p' → P p → P p') {dm' : DataModel}
    (hMarked : List.Forall₂ Parameter.Grows dm dm') (h : ∀ p ∈ dm, P p) : ∀ p ∈ dm', P p := by
  induction hMarked with
  | nil => exact h
  | cons hHere _ ih =>
    obtain ⟨hFirst, hRest⟩ := List.forall_mem_cons.mp h
    exact List.forall_mem_cons.mpr ⟨hGrows hHere hFirst, ih hRest⟩

theorem PassedOn.markInstancesLoaded (hP : PassedOn dmPrefix P) (names : List Text) (withValues : Bool)
    (h : ∀ p ∈ dm, P p) :
    ∀ p ∈ markInstancesLoaded name names withValues dm, P p := by
  rw [Engine.markInstancesLoaded]
  generalize dm.length + 1 = scans
  induction scans generalizing dm with
  | zero => exact h
  | succ scans ih =>
    have hMarked := forall_of_forall₂ hP.grows (grows_markUntilObsolete name names withValues dm) h
    rw [markInstancesLoadedFrom]
    split
    · rename_i hScan
      rwa [hScan] at hMarked
    · rename_i hScan
      rw [hScan] at hMarked
      exact ih fun p hp => hMarked p (List.mem_filter.mp hp).1

theorem PassedOn.loopChange {ctx : LoadContext} (hP : PassedOn ctx.dmPrefix P) {change : DataModel → DataModel}
    (hChange : LoopChange ctx change) (h : ∀ p ∈ dm, P p) : ∀ p ∈ change dm, P p := by
  have hModify {dm : DataModel} {x : Text} {g : Parameter → Parameter} (hGrows : ∀ p : Parameter, p.Grows (g p))
      (h : ∀ p ∈ dm, P p) : ∀ p ∈ dm.modify x g, P p :=
    forall_mem_modify (fun p hp => hP.grows (hGrows p) (h p hp)) h
  cases hChange with
  | none => exact h
  | object objName values =>
    refine hP.markInstancesLoaded _ _ ?_
    induction values generalizing dm with
    | nil => exact h
    | cons entry values ih =>
      refine ih ?_
      have hMade := hP.getParameterFrom 5 entry.1 h
      rw [updateEntry, getParameterOrCreate]
      split
      · rename_i hFound
        rw [hFound] at hMade
        exact hModify (Parameter.grows_updateSystemValue _) hMade
      · rename_i hFound
        rwa [hFound] at hMade
  | names name paramNames =>
    refine hP.markInstancesLoaded _ _ ?_
    induction paramNames generalizing dm with
    | nil => exact h
    | cons paramName paramNames ih =>
      refine ih ?_
      have hMade := hP.getParameterFrom 5 paramName h
      rw [markName, getParameterOrCreate]
      split
      · rename_i hFound
        rw [hFound] at hMade
        exact hModify (Parameter.grows_markLoadedWith false) hMade
      · rename_i hFound
        rwa [hFound] at hMade

/-- Where each parameter has the property, each has it afterwards. -/
def Passes (P : Parameter → Prop) (s s' : LoadState) : Prop := (∀ p ∈ s.dm, P p) → ∀ p ∈ s'.dm, P p

theorem PassedOn.loads {ctx : LoadContext} (hP : PassedOn ctx.dmPrefix P) : LoadRelation ctx (Passes P) where
  refl _ := id
  trans hFirst hNext := hNext ∘ hFirst
  ofUpdate _ _ _ hGrows h := forall_mem_modify (fun p hp => hP.grows (hGrows p) (h p hp)) h
  ofReading _ := id
  ofLoop _ _ hChange := hP.loopChange hChange
  ofScans calls hCurrent fuel node withValues := by
    rintro s ⟨found, res⟩ s' h
    obtain ⟨r, hScan, -, -⟩ := scanAll_cases h
    exact keeps_scan (R := Passes P) (fun _ => id) (fun hFirst hNext => hNext ∘ hFirst) hCurrent (fun _ _ => id)
      node withValues fuel {} { s with current := s.dm.names.head?, loops := s.loops + 1 } r s' hScan

end PassedOn

section Plain

/-- The definition is evaluated without a look at a parameter. -/
def NamesNothing (ctx : LoadContext) (definition : Text) : Prop :=
  ∀ exp, ComputedExp.parse definition = .ok exp → ∀ now, ∃ res,
    (ComputedExp.evaluators ctx.dateStringToTime now exp).eval = .done res

/-- A leaf that is read alone has a mode, and its data name nothing. -/
structure Plain (ctx : LoadContext) (p : Parameter) : Prop where
  mode : isNodeName p.name = false → isGrouped p = false → ∀ n, p.storageMode ≠ .other n
  data : isNodeName p.name = false → isGrouped p = false → p.storageMode = .systemOnly ∨ p.storageMode = .mixed →
    ∀ definition ∈ p.definition, NamesNothing ctx definition

theorem passedOn_plain (ctx : LoadContext) : PassedOn ctx.dmPrefix (Plain ctx) where
  grows hGrows h := by
    have hMode : isGrouped _ = isGrouped _ := congrArg (fun mode => decide (mode % 2 ≠ 0)) hGrows.loadingMode
    refine ⟨?_, ?_⟩
    · rw [hGrows.name, hMode, hGrows.storageMode]
      exact h.mode
    · rw [hGrows.name, hMode, hGrows.storageMode, hGrows.definition]
      exact h.data
  copy {p name} hNode _ h := by
    have hMode : isGrouped (newInstanceParameter name p) = isGrouped p := by
      simp [isGrouped, newInstanceParameter]
    refine ⟨?_, ?_⟩
    · rw [name_newInstanceParameter, hNode, hMode]
      exact h.mode
    · rw [name_newInstanceParameter, hNode, hMode]
      exact h.data
  relocate {p} objName instanceNb h := by
    rw [relocateParameter]
    split
    · rename_i hComputed
      refine ⟨fun _ _ n hOther => ?_, fun _ _ hMode => ?_⟩
      · cases hComputed.2.symm.trans hOther
      obtain hMode | hMode := hMode
      · cases hComputed.2.symm.trans hMode
      · cases hComputed.2.symm.trans hMode
    · exact h

variable {ctx : LoadContext} {calls : Callbacks} {s s' : LoadState}

theorem evaluate_namesNothing {definition destName : Text} (hNothing : NamesNothing ctx definition)
    {r : Bool × Option Text} (h : (evaluate ctx calls definition destName).run s = some (r, s')) :
    ∃ readings, s' = { s with readings } := by
  rw [evaluate] at h
  split at h
  · rename_i exp hParse
    obtain ⟨now, s₁, hNow, h⟩ := bind_eq_some_iff.mp h
    obtain ⟨rfl, rfl⟩ := reading_eq_some_iff.mp hNow
    obtain ⟨res, hDone⟩ := hNothing exp hParse (ctx.device.time s.readings)
    rw [hDone] at h
    obtain ⟨-, rfl⟩ := pure_eq_some_iff.mp h
    exact ⟨_, rfl⟩
  · obtain ⟨-, rfl⟩ := pure_eq_some_iff.mp h
    exact ⟨_, rfl⟩
  · exact absurd h not_failure
  · exact absurd h not_failure

/-- Nothing is called back. -/
theorem evaluate_eq {definition destName : Text} (hNothing : NamesNothing ctx definition) (calls' : Callbacks) :
    evaluate ctx calls definition destName = evaluate ctx calls' definition destName := by
  rw [evaluate, evaluate]
  split
  · rename_i exp hParse
    congr 1
    funext now
    obtain ⟨res, hDone⟩ := hNothing exp hParse now
    rw [hDone]
    rfl
  · rfl
  · rfl
  · rfl

theorem evaluateData_eq {param : Parameter} (hNothing : ∀ definition ∈ param.definition, NamesNothing ctx definition)
    (calls' : Callbacks) : evaluateData ctx calls param = evaluateData ctx calls' param := by
  rw [evaluateData, evaluateData]
  split
  · rfl
  · rfl
  · rename_i definition _ hDefinition
    rw [evaluate_eq (hNothing definition hDefinition) calls']

theorem evaluateData_namesNothing {param : Parameter} {data : Option Text}
    (hNothing : ∀ definition ∈ param.definition, NamesNothing ctx definition)
    (h : (evaluateData ctx calls param).run s = some (data, s')) : ∃ readings, s' = { s with readings } := by
  rw [evaluateData] at h
  split at h
  · obtain ⟨-, rfl⟩ := pure_eq_some_iff.mp h
    exact ⟨_, rfl⟩
  · obtain ⟨-, rfl⟩ := pure_eq_some_iff.mp h
    exact ⟨_, rfl⟩
  · rename_i definition _ hDefinition
    obtain ⟨r, s₁, hEvaluate, h⟩ := bind_eq_some_iff.mp h
    obtain ⟨-, rfl⟩ := pure_eq_some_iff.mp h
    exact evaluate_namesNothing (hNothing definition hDefinition) hEvaluate

/-- No loop over the parameters was begun. -/
def NoLoop (s s' : LoadState) : Prop := s'.loops = s.loops

theorem NoLoop.refl (s : LoadState) : NoLoop s s := rfl

theorem NoLoop.trans {s s' s'' : LoadState} (h : NoLoop s s') (h' : NoLoop s' s'') : NoLoop s s'' :=
  Eq.trans h' h

section NoLoop

variable {param : Parameter}

theorem noLoop_find (name : Text) : Keeps NoLoop (find name) :=
  (keeps_get NoLoop.refl).bind NoLoop.trans fun _ => keeps_pure NoLoop.refl _

theorem noLoop_update (name : Text) (g : Parameter → Parameter) : Keeps NoLoop (update name g) :=
  keeps_modify fun s => NoLoop.refl s

theorem noLoop_reading {α : Type} (answer : Nat → α) : Keeps NoLoop (reading answer) := by
  intro s a s' h
  obtain ⟨-, rfl⟩ := reading_eq_some_iff.mp h
  exact NoLoop.refl s

theorem noLoop_evaluate {definition : Text} (hNothing : NamesNothing ctx definition) (destName : Text) :
    Keeps NoLoop (evaluate ctx calls definition destName) := by
  intro s r s' h
  obtain ⟨readings, rfl⟩ := evaluate_namesNothing hNothing h
  rfl

theorem noLoop_loadSystemValue (hData : param.storageMode = .systemOnly ∨ param.storageMode = .mixed →
      ∀ definition ∈ param.definition, NamesNothing ctx definition) :
    Keeps NoLoop (loadSystemValue ctx calls param) := by
  rw [loadSystemValue]
  split
  · rename_i hRead
    have hMode : param.storageMode = .systemOnly ∨ param.storageMode = .mixed := by
      simp only [Bool.and_eq_true, Bool.or_eq_true, decide_eq_true_eq] at hRead
      exact hRead.1
    have hEvaluate : Keeps NoLoop (evaluateData ctx calls param) := by
      intro s data s' h
      obtain ⟨readings, rfl⟩ := evaluateData_namesNothing (hData hMode) h
      rfl
    refine hEvaluate.bind NoLoop.trans fun data => (noLoop_reading _).bind NoLoop.trans fun answer => ?_
    dsimp only
    split
    · exact keeps_pure NoLoop.refl _
    refine (noLoop_find _).bind NoLoop.trans fun found => ?_
    split
    · exact keeps_failure
    · exact (noLoop_update _ _).bind NoLoop.trans fun _ => keeps_pure NoLoop.refl _
  · exact keeps_pure NoLoop.refl _

/-- The definition is evaluated without a loop over the parameters. -/
def LoopFree (ctx : LoadContext) (p : Parameter) : Prop :=
  ∀ definition ∈ p.definition, NamesNothing ctx definition ∧ (p.storageMode = .computed → definition.head? ≠ some '#')

theorem noLoop_loadComputedParameter (hFree : LoopFree ctx param) (hMode : param.storageMode = .computed) :
    Keeps NoLoop (loadComputedParameter ctx calls param false) := by
  rw [loadComputedParameter]
  split
  · exact keeps_pure NoLoop.refl _
  have hEvaluate : Keeps NoLoop (evaluateDefinition ctx calls param) := by
    rw [evaluateDefinition]
    split
    · exact keeps_pure NoLoop.refl _
    rename_i definition hDefinition
    obtain ⟨hNothing, hCount⟩ := hFree definition hDefinition
    refine (noLoop_update _ _).bind NoLoop.trans fun _ => Keeps.bind NoLoop.trans ?_ fun res => ?_
    · rw [evaluateComputed.eq_def]
      split
      · exact absurd rfl (hCount hMode)
      · exact noLoop_evaluate hNothing _
    refine (noLoop_find _).bind NoLoop.trans fun found => ?_
    split
    · exact keeps_failure
    · exact (noLoop_update _ _).bind NoLoop.trans fun _ => keeps_pure NoLoop.refl _
  refine hEvaluate.bind NoLoop.trans fun res => ?_
  have hMark : Keeps NoLoop (do
      update param.name (.markLoadedWith true)
      return if res.1 then 0 else 1 : Load Nat) :=
    (noLoop_update _ _).bind NoLoop.trans fun _ => keeps_pure NoLoop.refl _
  dsimp only
  split
  · exact (noLoop_update _ _).bind NoLoop.trans fun _ => hMark
  · exact hMark

theorem noLoop_loadLeafParameterValue {name : Text} {s s' : LoadState} {p : Parameter} {res : Nat}
    (hp : s.dm.getParameter name = some p) (hFree : LoopFree ctx p)
    (h : (loadLeafParameterValue ctx calls name).run s = some (res, s')) : NoLoop s s' := by
  obtain ⟨found, s₁, hFind, h⟩ := bind_eq_some_iff.mp h
  obtain ⟨rfl, rfl⟩ := find_eq_some_iff.mp hFind
  rw [hp] at h
  dsimp only at h
  split at h
  · rename_i hMode
    obtain ⟨loaded, s₂, hTest, h⟩ := bind_eq_some_iff.mp h
    obtain ⟨q, hq, rfl, rfl⟩ := testLoaded_cases hTest
    obtain rfl := Option.some.inj (hp.symm.trans hq)
    split at h
    · rw [(pure_eq_some_iff.mp h).2]
      exact NoLoop.refl s₁
    obtain ⟨found, s₃, hFind, h⟩ := bind_eq_some_iff.mp h
    obtain ⟨rfl, rfl⟩ := find_eq_some_iff.mp hFind
    dsimp only at h
    rw [getParameter_touched, hp] at h
    have hGrows := p.grows_withDefault
    have hFree' : LoopFree ctx p.withDefault := by
      intro definition hDefinition
      rw [hGrows.definition] at hDefinition
      rw [hGrows.storageMode]
      exact hFree definition hDefinition
    have hLoad := noLoop_loadComputedParameter hFree' (hGrows.storageMode.trans hMode) _ _ _ h
    exact hLoad
  · exact noLoop_loadSystemValue (fun _ definition hDefinition => (hFree definition hDefinition).1) _ _ _ h

end NoLoop

/-- No loop over the parameters is begun for a parameter that a scan comes to. -/
theorem loops_scanCurrent (hPlain : ∀ p ∈ s.dm, Plain ctx p) {node : Option Text} {withValues : Bool} {prmName : Text}
    {r r' : ScanResult} (h : (scanCurrent ctx calls node withValues prmName r).run s = some (r', s')) :
    s'.loops = s.loops := by
  rw [scanCurrent] at h
  split at h
  · obtain ⟨found, s₁, hFind, h⟩ := bind_eq_some_iff.mp h
    obtain ⟨rfl, rfl⟩ := find_eq_some_iff.mp hFind
    split at h
    · exact absurd h not_failure
    rename_i p hp
    split at h
    · rename_i hKind
      obtain ⟨loaded, s₂, hTest, h⟩ := bind_eq_some_iff.mp h
      obtain ⟨q, hq, rfl, -⟩ := testLoaded_cases hTest
      obtain rfl := Option.some.inj (hp.symm.trans hq)
      split at h
      · rw [(pure_eq_some_iff.mp h).2]
      obtain ⟨found, s₃, hFind, h⟩ := bind_eq_some_iff.mp h
      obtain ⟨rfl, rfl⟩ := find_eq_some_iff.mp hFind
      split at h
      · exact absurd h not_failure
      rename_i current hCurrent
      split at h
      · rename_i hAlone
        obtain ⟨res, s₄, hLoad, h⟩ := bind_eq_some_iff.mp h
        rw [(pure_eq_some_iff.mp h).2]
        rw [getParameter_touched, hp, Option.map_some] at hCurrent
        obtain rfl := Option.some.inj hCurrent
        have hOwn := (passedOn_plain ctx).grows p.grows_withDefault (hPlain p (List.mem_of_find?_eq_some hp))
        have hGrouped : isGrouped p = false := by
          rw [isGrouped, ← p.grows_withDefault.loadingMode, ← isGrouped]
          simpa using (Bool.and_eq_true_iff.mp hAlone).1
        have hLeaf : isNodeName p.withDefault.name = false := by
          rw [p.grows_withDefault.name, DataModel.name_of_getParameter hp]
          simpa [hGrouped] using hKind
        have hSame := noLoop_loadSystemValue
          (hOwn.data hLeaf (by simpa using (Bool.and_eq_true_iff.mp hAlone).1)) _ _ _ hLoad
        exact hSame
      split at h
      · rw [(pure_eq_some_iff.mp h).2]
      · rw [(pure_eq_some_iff.mp h).2]
    · rw [(pure_eq_some_iff.mp h).2]
  · rw [(pure_eq_some_iff.mp h).2]

end Plain

end Tr069Agent.Engine.Loading
