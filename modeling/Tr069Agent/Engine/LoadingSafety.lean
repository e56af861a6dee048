import Tr069Agent.Engine.ParameterLoading

/-! # What loading keeps

A relation between states that the single changes keep is kept by every load. As long as no loop over the
parameters is begun, loading gives values and marks and takes none away.
-/

namespace Tr069Agent.Engine

open Library Library.Action

set_option autoImplicit false

/-- What loading does to a parameter: it gives values and marks. -/
structure Parameter.Grows (p p' : Parameter) : Prop where
  name : p'.name = p.name
  storageMode : p'.storageMode = p.storageMode
  loadingMode : p'.loadingMode = p.loadingMode
  definition : p'.definition = p.definition
  value : p.value.isSome → p'.value.isSome
  loaded : p.state.loaded = true → p'.state.loaded = true

namespace Parameter

variable {p p' p'' : Parameter}

theorem Grows.refl (p : Parameter) : p.Grows p := ⟨rfl, rfl, rfl, rfl, id, id⟩

theorem Grows.trans (h : p.Grows p') (h' : p'.Grows p'') : p.Grows p'' where
  name := h'.name.trans h.name
  storageMode := h'.storageMode.trans h.storageMode
  loadingMode := h'.loadingMode.trans h.loadingMode
  definition := h'.definition.trans h.definition
  value hSome := h'.value (h.value hSome)
  loaded hLoaded := h'.loaded (h.loaded hLoaded)

theorem grows_withDefault (p : Parameter) : p.Grows p.withDefault := by
  rw [withDefault]
  split
  · exact ⟨rfl, rfl, rfl, rfl, fun _ => rfl, id⟩
  · exact .refl p

theorem grows_updateSystemValue (value : Option Text) (p : Parameter) :
    p.Grows (p.updateSystemValue value false) := ⟨rfl, rfl, rfl, rfl, fun _ => rfl, id⟩

theorem grows_markLoadedWith (withValues : Bool) (p : Parameter) : p.Grows (p.markLoadedWith withValues) := by
  cases withValues with
  | true =>
    refine ⟨rfl, rfl, rfl, rfl, fun _ => rfl, fun hLoaded => ?_⟩
    simp only [markLoadedWith, if_true]
    split
    · rfl
    · exact hLoaded
  | false =>
    simp only [markLoadedWith, Bool.false_eq_true, if_false, markLoaded]
    split
    · exact ⟨rfl, rfl, rfl, rfl, id, id⟩
    · exact .refl p

theorem isLoaded_true (p : Parameter) :
    p.isLoaded true = true ↔
      p.value.isSome = true ∧ (p.storageMode = .computed → p.state.loaded = true) ∨
        isNodeName p.name = false ∧ p.storageMode = .dmOnly := by
  simp only [isLoaded, Bool.not_true, Bool.false_and, Bool.or_false, Bool.or_eq_true, Bool.and_eq_true,
    decide_eq_true_eq, Bool.not_eq_true', ne_eq, imp_iff_not_or]

theorem Grows.isLoaded (h : p.Grows p') (hLoaded : p.isLoaded true = true) : p'.isLoaded true = true := by
  rw [isLoaded_true] at hLoaded ⊢
  rw [h.name, h.storageMode]
  obtain ⟨hValue, hMark⟩ | hStored := hLoaded
  · exact .inl ⟨h.value hValue, fun hMode => h.loaded (hMark hMode)⟩
  · exact .inr hStored

theorem isLoaded_withDefault (p : Parameter) : p.withDefault.isLoaded true = p.isLoaded true := by
  rw [Bool.eq_iff_iff]
  refine ⟨fun h => ?_, p.grows_withDefault.isLoaded⟩
  rw [withDefault] at h
  split at h
  · rename_i hUnset
    rw [isLoaded_true] at h ⊢
    simp only [isUnset, Bool.and_eq_true, Bool.or_eq_true, decide_eq_true_eq, Bool.not_eq_true'] at hUnset
    obtain ⟨⟨hLeaf, -⟩, hEmpty | ⟨hMode, -⟩⟩ := hUnset
    · obtain ⟨-, hMark⟩ | hStored := h
      · exact .inl ⟨by rw [hEmpty]; rfl, hMark⟩
      · exact .inr hStored
    · exact .inr ⟨hLeaf, hMode⟩
  · exact h

theorem isLoaded_markLoadedWith (p : Parameter) : (p.markLoadedWith true).isLoaded true = true := by
  rw [isLoaded_true]
  refine .inl ⟨rfl, fun hMode => ?_⟩
  have hMode : p.storageMode = .computed := hMode
  simp [markLoadedWith, hMode]

end Parameter

namespace Loading

section Relations

variable {ctx : LoadContext} {calls : Callbacks} {R : LoadState → LoadState → Prop}

/-- The changes by loops over the parameters. -/
inductive LoopChange (ctx : LoadContext) : (DataModel → DataModel) → Prop
  | none : LoopChange ctx id
  | object (objName : Text) (values : List (Text × Option Text)) :
    LoopChange ctx (updateObject ctx.dmPrefix objName values false)
  | names (name : Text) (paramNames : List Text) : LoopChange ctx fun dm =>
    markInstancesLoaded name paramNames false (paramNames.foldl (markName ctx) dm)

/-- A relation between states in which all that loading consists of keeps them. -/
structure LoadRelation (ctx : LoadContext) (R : LoadState → LoadState → Prop) : Prop where
  refl : ∀ s, R s s
  trans : ∀ {s s' s''}, R s s' → R s' s'' → R s s''
  ofUpdate : ∀ s name g, (∀ p : Parameter, p.Grows (g p)) → R s { s with dm := s.dm.modify name g }
  ofReading : ∀ s : LoadState, R s { s with readings := s.readings + 1 }
  ofLoop : ∀ s f, LoopChange ctx f → R s { s with dm := f s.dm, current := none, loops := s.loops + 1 }
  ofScans : ∀ calls, (∀ node withValues prmName r, Keeps R (scanCurrent ctx calls node withValues prmName r)) →
    ∀ fuel node withValues, Keeps R (scanAll ctx calls fuel node withValues)

/-- What is called back keeps the states in the relation. -/
structure KeepsCalls (R : LoadState → LoadState → Prop) (calls : Callbacks) : Prop where
  getValue : ∀ prmName destName, Keeps R (calls.getValue prmName destName)
  loadNames : ∀ objName, Keeps R (calls.loadNames objName)

namespace LoadRelation

variable {α β : Type} {m : Load α} {f : α → Load β} (hR : LoadRelation ctx R)
include hR

theorem bind (hFirst : Keeps R m) (hNext : ∀ a, Keeps R (f a)) : Keeps R (m >>= f) := hFirst.bind hR.trans hNext

theorem done (a : α) : Keeps R (pure a : Load α) := keeps_pure hR.refl a

theorem keeps_find (name : Text) : Keeps R (find name) := hR.bind (keeps_get hR.refl) fun _ => hR.done _

theorem keeps_update (name : Text) {g : Parameter → Parameter} (hGrows : ∀ p : Parameter, p.Grows (g p)) :
    Keeps R (update name g) := keeps_modify fun s => hR.ofUpdate s name g hGrows

theorem keeps_loopToEnd {change : DataModel → DataModel} (h : LoopChange ctx change) : Keeps R (loopToEnd change) :=
  keeps_modify fun s => hR.ofLoop s change h

theorem keeps_reading (answer : Nat → α) : Keeps R (reading answer) :=
  hR.bind (keeps_get hR.refl) fun _ => hR.bind (keeps_modify hR.ofReading) fun _ => hR.done _

theorem keeps_testLoaded (name : Text) (withValues : Bool) : Keeps R (testLoaded name withValues) := by
  refine hR.bind (hR.keeps_update name Parameter.grows_withDefault) fun _ => ?_
  refine hR.bind (hR.keeps_find name) fun param => ?_
  cases param with
  | none => exact keeps_failure
  | some param => exact hR.done _

variable (hCalls : KeepsCalls R calls)
include hCalls

theorem keeps_evaluate (definition destName : Text) : Keeps R (evaluate ctx calls definition destName) := by
  rw [evaluate]
  split
  · exact hR.bind (hR.keeps_reading _) fun _ =>
      keeps_runM hR.refl hR.trans (fun prmName => hCalls.getValue prmName destName) _
  · exact hR.done _
  · exact keeps_failure
  · exact keeps_failure

theorem keeps_evaluateData (param : Parameter) : Keeps R (evaluateData ctx calls param) := by
  rw [evaluateData]
  split
  · exact hR.done _
  · exact hR.done _
  · exact hR.bind (hR.keeps_evaluate hCalls _ _) fun _ => hR.done _

theorem keeps_loadSystemValue (param : Parameter) : Keeps R (loadSystemValue ctx calls param) := by
  rw [loadSystemValue]
  split
  · refine hR.bind (hR.keeps_evaluateData hCalls param) fun data =>
      hR.bind (hR.keeps_reading _) fun answer => ?_
    dsimp only
    split
    · exact hR.done _
    · refine hR.bind (hR.keeps_find _) fun found => ?_
      split
      · exact keeps_failure
      · exact hR.bind (hR.keeps_update _ (Parameter.grows_updateSystemValue _)) fun _ => hR.done _
  · exact hR.done _

theorem keeps_computeNumberOfInstances (objName : Text) :
    Keeps R (computeNumberOfInstances calls objName) :=
  hR.bind (hCalls.loadNames objName) fun _ => hR.bind (hR.keeps_loopToEnd .none) fun _ =>
    hR.bind (keeps_get hR.refl) fun _ => hR.done _

theorem keeps_evaluateComputed (name definition : Text) :
    Keeps R (evaluateComputed ctx calls name definition) := by
  rw [evaluateComputed.eq_def]
  split
  · exact hR.bind (hR.keeps_computeNumberOfInstances hCalls _) fun _ => hR.done _
  · exact hR.keeps_evaluate hCalls _ _

theorem keeps_evaluateDefinition (param : Parameter) : Keeps R (evaluateDefinition ctx calls param) := by
  rw [evaluateDefinition]
  split
  · exact hR.done _
  · refine hR.bind (hR.keeps_update _ fun p => ⟨rfl, rfl, rfl, rfl, id, id⟩) fun _ =>
      hR.bind (hR.keeps_evaluateComputed hCalls _ _) fun res => hR.bind (hR.keeps_find _) fun found => ?_
    split
    · exact keeps_failure
    · exact hR.bind (hR.keeps_update _ fun p => ⟨rfl, rfl, rfl, rfl, id, id⟩) fun _ => hR.done _

theorem keeps_loadComputedParameter (param : Parameter) :
    Keeps R (loadComputedParameter ctx calls param false) := by
  rw [loadComputedParameter]
  split
  · exact hR.done _
  · refine hR.bind (hR.keeps_evaluateDefinition hCalls param) fun res => ?_
    have hMark : Keeps R (do
        update param.name (.markLoadedWith true)
        return if res.1 then 0 else 1 : Load Nat) :=
      hR.bind (hR.keeps_update _ (Parameter.grows_markLoadedWith true)) fun _ => hR.done _
    dsimp only
    split
    · exact hR.bind (hR.keeps_update _ (Parameter.grows_updateSystemValue _)) fun _ => hMark
    · exact hMark

theorem keeps_loadLeafParameterValue (name : Text) : Keeps R (loadLeafParameterValue ctx calls name) := by
  refine hR.bind (hR.keeps_find name) fun found => ?_
  cases found with
  | none => exact keeps_failure
  | some param =>
    dsimp only
    split
    · refine hR.bind (hR.keeps_testLoaded name true) fun loaded => ?_
      split
      · exact hR.done _
      · refine hR.bind (hR.keeps_find name) fun found => ?_
        split
        · exact keeps_failure
        · exact hR.keeps_loadComputedParameter hCalls _
    · exact hR.keeps_loadSystemValue hCalls param

theorem keeps_loadObject (param : Parameter) : Keeps R (loadObject ctx calls param) := by
  refine hR.bind (hR.keeps_evaluateData hCalls param) fun data => hR.bind (hR.keeps_reading _) fun answer => ?_
  dsimp only
  split
  · exact hR.done _
  · exact hR.bind (hR.keeps_loopToEnd (.object _ _)) fun _ => hR.done _

theorem keeps_loadNames (param : Parameter) : Keeps R (loadNames ctx calls param) := by
  refine hR.bind (hR.keeps_evaluateData hCalls param) fun data => hR.bind (hR.keeps_reading _) fun answer => ?_
  dsimp only
  split
  · exact hR.done _
  · split
    · exact hR.done _
    · exact hR.bind (hR.keeps_loopToEnd (.names _ _)) fun _ => hR.done _

theorem keeps_loadFinal (name : Text) (withValues : Bool) : Keeps R (loadFinal ctx calls name withValues) := by
  refine hR.bind (hR.keeps_testLoaded name withValues) fun loaded => ?_
  split
  · exact hR.done _
  split
  · exact hR.done _
  refine hR.bind (hR.keeps_find name) fun found => ?_
  split
  · exact keeps_failure
  rename_i param
  refine hR.bind ?_ fun res => ?_
  · rw [loadParameter]
    split
    · split
      · exact hR.keeps_loadObject hCalls param
      · exact hR.keeps_loadLeafParameterValue hCalls param.name
    · split
      · exact hR.keeps_loadNames hCalls param
      · exact hR.done _
  · split
    · refine hR.bind (hR.keeps_find name) fun found => ?_
      split
      · exact hR.done _
      · exact hR.bind (hR.keeps_update _ (Parameter.grows_markLoadedWith withValues)) fun _ => hR.done _
    · exact hR.done _

theorem keeps_scanParameter (withValues : Bool) (prmName : Text) (r : ScanResult) :
    Keeps R (scanParameter ctx calls withValues prmName r) := by
  refine hR.bind (hR.keeps_find prmName) fun found => ?_
  split
  · exact keeps_failure
  split
  · refine hR.bind (hR.keeps_testLoaded prmName withValues) fun loaded => ?_
    split
    · exact hR.done _
    refine hR.bind (hR.keeps_find prmName) fun found => ?_
    split
    · exact keeps_failure
    split
    · exact hR.bind (hR.keeps_loadSystemValue hCalls _) fun res => hR.done _
    split
    · exact hR.done _
    · exact hR.done _
  · exact hR.done _

theorem keeps_scanCurrent (node : Option Text) (withValues : Bool) (prmName : Text) (r : ScanResult) :
    Keeps R (scanCurrent ctx calls node withValues prmName r) := by
  rw [scanCurrent]
  split
  · exact hR.keeps_scanParameter hCalls withValues prmName r
  · exact hR.done _

theorem keeps_scanAgain (fuel : Nat) (node : Option Text) (withValues : Bool) (rounds : Nat) :
    Keeps R (scanAgain ctx calls fuel node withValues rounds) := by
  induction rounds with
  | zero => exact hR.done _
  | succ rounds ih =>
    refine hR.bind (hR.ofScans calls (hR.keeps_scanCurrent hCalls) fuel node withValues) fun result => ?_
    dsimp only
    split
    · exact hR.done _
    refine hR.bind (hR.keeps_loadFinal hCalls _ withValues) fun res => ?_
    split
    · exact hR.done _
    split
    · exact hR.done _
    · exact ih

theorem keeps_loadSubParameters (fuel : Nat) (node : Option Text) (withValues : Bool) :
    Keeps R (loadSubParameters ctx calls fuel node withValues) := by
  cases node with
  | none => exact hR.keeps_scanAgain hCalls _ _ _ _
  | some name =>
    exact hR.bind (hR.keeps_update _ (Parameter.grows_markLoadedWith withValues)) fun _ =>
      hR.keeps_scanAgain hCalls _ _ _ _

theorem keeps_loadSystemParameter (fuel : Nat) (name : Text) (withValues : Bool) :
    Keeps R (loadSystemParameter ctx calls fuel name withValues) := by
  refine hR.bind (hR.keeps_testLoaded name withValues) fun loaded => ?_
  split
  · exact hR.done _
  refine hR.bind (hR.keeps_find name) fun found => ?_
  split
  · exact keeps_failure
  split
  · exact hR.bind (keeps_get hR.refl) fun s => hR.keeps_loadFinal hCalls _ withValues
  split
  · exact hR.keeps_loadSubParameters hCalls fuel _ withValues
  split
  · exact hR.keeps_loadLeafParameterValue hCalls name
  · exact hR.done _

theorem keeps_loadSystemParameters (fuel : Nat) (name : Text) (withValues : Bool) :
    Keeps R (loadSystemParameters ctx calls fuel name withValues) := by
  rw [loadSystemParameters]
  split
  · exact hR.keeps_loadSubParameters hCalls fuel none withValues
  · refine hR.bind (keeps_get hR.refl) fun s => ?_
    split
    · exact hR.done _
    · exact hR.keeps_loadSystemParameter hCalls fuel _ withValues

theorem keeps_getValue (fuel : Nat) (prmName destName : Text) :
    Keeps R (getValue ctx calls fuel prmName destName) := by
  refine hR.bind (hR.keeps_find _) fun found => ?_
  have hEnd : Keeps R (do
      return (← find (getLongName ctx.dmPrefix prmName destName)).bind (·.value) : Load (Option Text)) :=
    hR.bind (hR.keeps_find _) fun _ => hR.done _
  split
  · exact hR.done _
  split
  · split
    · refine hR.bind (hR.keeps_update _ fun p => ⟨rfl, rfl, rfl, rfl, fun _ => rfl, id⟩) fun _ => hEnd
    · exact hEnd
  split
  · split
    · exact hR.bind (hR.bind (hR.keeps_loadComputedParameter hCalls _) fun _ => hR.done _) fun _ => hEnd
    · exact hR.bind (hR.bind (hR.keeps_loadSystemParameter hCalls _ _ _) fun _ => hR.done _) fun _ => hEnd
  · exact hEnd

end LoadRelation

theorem keeps_callbacks (hR : LoadRelation ctx R) (depth : Nat) : KeepsCalls R (callbacks ctx depth) := by
  induction depth with
  | zero => exact ⟨fun _ _ => keeps_failure, fun _ => keeps_failure⟩
  | succ depth ih =>
    exact ⟨fun _ _ => hR.keeps_getValue ih depth _ _, fun _ =>
      hR.bind (hR.keeps_loadSystemParameters ih depth _ false) fun _ => hR.done _⟩

end Relations

/-- As long as no loop is begun, the place in the list and the list stay, and the parameters grow. -/
structure Steady (s s' : LoadState) : Prop where
  loops : s.loops ≤ s'.loops
  current : s'.loops = s.loops → s'.current = s.current
  names : s'.loops = s.loops → s'.dm.names = s.dm.names
  grows : s'.loops = s.loops → ∀ x, ∀ p ∈ s.dm.getParameter x, ∃ p' ∈ s'.dm.getParameter x, p.Grows p'

section Steady

variable {ctx : LoadContext} {calls : Callbacks}

theorem Steady.refl (s : LoadState) : Steady s s where
  loops := Nat.le_refl _
  current _ := rfl
  names _ := rfl
  grows _ _ p hp := ⟨p, hp, .refl p⟩

theorem Steady.trans {s s' s'' : LoadState} (h : Steady s s') (h' : Steady s' s'') : Steady s s'' := by
  have hParts (hSame : s''.loops = s.loops) : s'.loops = s.loops ∧ s''.loops = s'.loops := by
    have := h.loops
    have := h'.loops
    omega
  refine ⟨h.loops.trans h'.loops, fun hSame => ?_, fun hSame => ?_, fun hSame x p hp => ?_⟩
  · exact (h'.current (hParts hSame).2).trans (h.current (hParts hSame).1)
  · exact (h'.names (hParts hSame).2).trans (h.names (hParts hSame).1)
  · obtain ⟨p', hp', hGrows⟩ := h.grows (hParts hSame).1 x p hp
    obtain ⟨p'', hp'', hGrows'⟩ := h'.grows (hParts hSame).2 x p' hp'
    exact ⟨p'', hp'', hGrows.trans hGrows'⟩

theorem Steady.of_lt {s s' : LoadState} (h : s.loops < s'.loops) : Steady s s' where
  loops := h.le
  current hSame := absurd hSame h.ne'
  names hSame := absurd hSame h.ne'
  grows hSame := absurd hSame h.ne'

theorem grows_modify {dm : DataModel} {name : Text} {g : Parameter → Parameter}
    (hGrows : ∀ p : Parameter, p.Grows (g p)) :
    ∀ x, ∀ p ∈ dm.getParameter x, ∃ p' ∈ (dm.modify name g).getParameter x, p.Grows p' := by
  intro x p hp
  rw [DataModel.getParameter_modify fun p hName => (hGrows p).name.trans hName]
  split
  · rename_i hName
    exact ⟨g p, by rw [← hName, hp]; rfl, hGrows p⟩
  · exact ⟨p, hp, .refl p⟩

theorem scanAll_cases {node : Option Text} {withValues : Bool} {fuel : Nat} {s s' : LoadState}
    {found : Option Text} {res : Nat}
    (h : (scanAll ctx calls fuel node withValues).run s = some ((found, res), s')) :
    ∃ r, (scan ctx calls node withValues fuel {}).run
          { s with current := s.dm.names.head?, loops := s.loops + 1 } = some (r, s') ∧
        found = r.found.or r.foundComputed ∧ res = r.res := by
  obtain ⟨u, s₀, hFirst, h⟩ := bind_eq_some_iff.mp h
  obtain rfl := modify_eq_some_iff.mp hFirst
  obtain ⟨r, s₁, hScan, h⟩ := bind_eq_some_iff.mp h
  obtain ⟨hResult, rfl⟩ := pure_eq_some_iff.mp h
  obtain ⟨rfl, rfl⟩ := Prod.mk.inj hResult
  exact ⟨r, hScan, rfl, rfl⟩

theorem keeps_scan {R : LoadState → LoadState → Prop} (hRefl : ∀ s, R s s)
    (hTrans : ∀ {s s' s''}, R s s' → R s' s'' → R s s'')
    (hCurrent : ∀ node withValues prmName r, Keeps R (scanCurrent ctx calls node withValues prmName r))
    (hNext : ∀ (s : LoadState) (current : Option Text), R s { s with current })
    (node : Option Text) (withValues : Bool) (fuel : Nat) (r : ScanResult) :
    Keeps R (scan ctx calls node withValues fuel r) := by
  induction fuel generalizing r with
  | zero => exact keeps_failure
  | succ fuel ih =>
    refine (keeps_get hRefl).bind hTrans fun s => ?_
    split
    · exact keeps_pure hRefl _
    refine (hCurrent node withValues _ r).bind hTrans fun r' => ?_
    split
    · exact keeps_pure hRefl _
    · exact (keeps_modify fun s => hNext s _).bind hTrans fun _ => ih r'

theorem forward_scan (hCurrent : ∀ node withValues prmName r,
    Keeps Steady (scanCurrent ctx calls node withValues prmName r))
    (node : Option Text) (withValues : Bool) (fuel : Nat) (r : ScanResult) :
    Keeps (fun s s' => s.loops ≤ s'.loops) (scan ctx calls node withValues fuel r) :=
  keeps_scan (R := fun s s' => s.loops ≤ s'.loops) (fun s => Nat.le_refl s.loops) Nat.le_trans
    (fun node withValues prmName r => (hCurrent node withValues prmName r).mono fun _ _ h => h.loops)
    (fun s _ => Nat.le_refl s.loops) node withValues fuel r

theorem steady_loads (ctx : LoadContext) : LoadRelation ctx Steady where
  refl := Steady.refl
  trans := Steady.trans
  ofUpdate s name g hGrows := ⟨Nat.le_refl _, fun _ => rfl,
    fun _ => DataModel.names_modify fun p hName => (hGrows p).name.trans hName, fun _ => grows_modify hGrows⟩
  ofReading s := ⟨Nat.le_refl _, fun _ => rfl, fun _ => rfl, fun _ _ p hp => ⟨p, hp, .refl p⟩⟩
  ofLoop s f _ := .of_lt (Nat.lt_succ_self _)
  ofScans calls hCurrent fuel node withValues := by
    rintro s ⟨found, res⟩ s' h
    obtain ⟨r, hScan, -, -⟩ := scanAll_cases h
    exact .of_lt (forward_scan hCurrent node withValues fuel {} _ r s' hScan)

end Steady

section Results

variable {ctx : LoadContext} {calls : Callbacks} {s s' : LoadState} {name : Text}

theorem find_eq_some_iff {found : Option Parameter} :
    (find name).run s = some (found, s') ↔ found = s.dm.getParameter name ∧ s' = s := by
  constructor
  · intro h
    obtain ⟨t, s₁, hGet, h⟩ := bind_eq_some_iff.mp h
    obtain ⟨rfl, rfl⟩ := get_eq_some_iff.mp hGet
    exact pure_eq_some_iff.mp h
  · rintro ⟨rfl, rfl⟩
    rfl

theorem reading_eq_some_iff {α : Type} {answer : Nat → α} {a : α} : (reading answer).run s = some (a, s') ↔
    a = answer s.readings ∧ s' = { s with readings := s.readings + 1 } := by
  have hRun : (reading answer).run s = some (answer s.readings, { s with readings := s.readings + 1 }) := rfl
  rw [hRun, Option.some.injEq, Prod.mk.injEq]
  exact and_congr eq_comm eq_comm

theorem testLoaded_cases {withValues loaded : Bool} (h : (testLoaded name withValues).run s = some (loaded, s')) :
    ∃ p, s.dm.getParameter name = some p ∧ s' = { s with dm := s.dm.modify name (·.withDefault) } ∧
      loaded = p.withDefault.isLoaded withValues := by
  obtain ⟨u, s₁, hUpdate, h⟩ := bind_eq_some_iff.mp h
  obtain rfl := modify_eq_some_iff.mp hUpdate
  obtain ⟨found, s₂, hFind, h⟩ := bind_eq_some_iff.mp h
  obtain ⟨rfl, rfl⟩ := find_eq_some_iff.mp hFind
  dsimp only at h
  rw [DataModel.getParameter_modify fun p hName => (p.name_withDefault).trans hName, if_pos rfl] at h
  cases hFound : s.dm.getParameter name with
  | none =>
    rw [hFound] at h
    exact absurd h not_failure
  | some p =>
    rw [hFound] at h
    obtain ⟨rfl, rfl⟩ := pure_eq_some_iff.mp h
    exact ⟨p, rfl, rfl, rfl⟩

theorem getParameter_touched : (s.dm.modify name (·.withDefault)).getParameter name =
    (s.dm.getParameter name).map (·.withDefault) := by
  rw [DataModel.getParameter_modify fun p hName => (p.name_withDefault).trans hName, if_pos rfl]

theorem loadSystemValue_cases {param : Parameter} (h : (loadSystemValue ctx calls param).run s = some (0, s')) :
    s' = s ∧ (param.storageMode = .dmOnly ∨ param.storageMode = .computed ∨ (∃ n, param.storageMode = .other n) ∨
        param.value.isSome = true) ∨
      ∃ p ∈ s'.dm.getParameter param.name, p.value.isSome = true := by
  rw [loadSystemValue] at h
  split at h
  · right
    obtain ⟨data, s₁, -, h⟩ := bind_eq_some_iff.mp h
    obtain ⟨⟨res, val⟩, s₂, -, h⟩ := bind_eq_some_iff.mp h
    dsimp only at h
    split at h
    · rename_i hRes
      exact absurd (pure_eq_some_iff.mp h).1.symm hRes
    · obtain ⟨found, s₃, hFind, h⟩ := bind_eq_some_iff.mp h
      obtain ⟨rfl, rfl⟩ := find_eq_some_iff.mp hFind
      split at h
      · exact absurd h not_failure
      · rename_i p hFound
        obtain ⟨u, s₄, hUpdate, h⟩ := bind_eq_some_iff.mp h
        obtain rfl := modify_eq_some_iff.mp hUpdate
        obtain ⟨-, rfl⟩ := pure_eq_some_iff.mp h
        refine ⟨p.updateSystemValue val false, ?_, rfl⟩
        dsimp only
        rw [DataModel.getParameter_modify fun q hName =>
          (Parameter.grows_updateSystemValue val q).name.trans hName, if_pos rfl, hFound]
        rfl
  · rename_i hStored
    obtain ⟨-, rfl⟩ := pure_eq_some_iff.mp h
    refine .inl ⟨rfl, ?_⟩
    cases hMode : param.storageMode with
    | dmOnly => exact .inl rfl
    | computed => exact .inr (.inl rfl)
    | other n => exact .inr (.inr (.inl ⟨n, rfl⟩))
    | systemOnly | mixed =>
      rw [hMode] at hStored
      cases hValue : param.value with
      | none => simp [hValue] at hStored
      | some value => exact .inr (.inr (.inr rfl))

end Results

end Loading

end Tr069Agent.Engine
