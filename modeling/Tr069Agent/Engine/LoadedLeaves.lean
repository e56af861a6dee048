import Tr069Agent.Engine.GroupAnswers
import Tr069Agent.Engine.ScannedLeaves
import Tr069Agent.Library.Transition

/-! # What a successful load has loaded

A load that trusts a mark does not look at what lies below, and one that reads an object as a group takes
the values that the device gives. Nodes are marked before what lies below them is read, so a mark can be
left behind by a load that failed.
-/

namespace Tr069Agent.Engine.Loading

open Library Library.Transition Library.Action

set_option autoImplicit false

/-- The parameters after `DM_ENG_Parameter_isLoaded` was asked. -/
def touched (s : LoadState) (name : Text) : LoadState := { s with dm := s.dm.modify name (·.withDefault) }

section Conditions

variable (ctx : LoadContext)

/-- The parameter that a load is for. -/
def targetOf (s : LoadState) (name : Text) : Option Parameter :=
  if name = [] then none else findTarget s.dm name.length name

/-- What the device answers for the object of a group leaves nothing out; the data that go with the
reading name nothing. -/
def DeviceSupplies (s : LoadState) (root : Parameter) (name : Text) : Prop :=
  (∀ definition ∈ root.definition, NamesNothing ctx definition) ∧
    ∀ data ∈ (evaluateData ctx (callbacks ctx 0) root).run s,
      match ctx.device.getObject data.2.readings root.name data.1 with
      | (0, values) =>
        Answered ctx.dmPrefix root.name name s.dm
          (values.map fun entry => (getLongName ctx.dmPrefix entry.1 root.name, entry.2))
      | (1, _) => LeavesLoaded s.dm name
      | _ => True

/-- A group is marked only when the leaves below the name are loaded, and what the device answers for it
leaves none of them out. -/
def GroupComplete (s : LoadState) (root name : Text) : Prop :=
  ∀ p ∈ s.dm.getParameter root,
    if p.isLoaded true = true ∨ isProto root = true then LeavesLoaded s.dm name
    else isNodeName root = true → DeviceSupplies ctx (touched s root) p.withDefault name

/-- The leaf has a mode, and it does not become a computed one while its data are evaluated: they name
nothing, or no parameter whose name has the same last part is computed. -/
structure KeepsMode (s : LoadState) (p : Parameter) : Prop where
  mode : ∀ n, p.storageMode ≠ .other n
  data : (∀ definition ∈ p.definition, NamesNothing ctx definition) ∨
    ∀ q ∈ s.dm, lastPart q.name = lastPart p.name → q.storageMode ≠ .computed

/-- The conditions under which a load that ends well has loaded the leaves. -/
structure Sound (s : LoadState) (name : Text) : Prop where
  whole : name = [] → ∀ p ∈ s.dm, Plain ctx p
  /-- A mark is trusted. -/
  marked : ∀ target ∈ targetOf s name, target.isLoaded true = true → LeavesLoaded s.dm name
  group : ∀ target ∈ targetOf s name, target.isLoaded true = false → isGrouped target = true →
    GroupComplete ctx (touched s target.name)
      (groupRoot (touched s target.name).dm target.name.length target.name) name
  node : ∀ target ∈ targetOf s name, target.isLoaded true = false → isGrouped target = false →
    isNodeName target.name = true →
      if target.name = name then ∀ p ∈ s.dm, Plain ctx p else LeavesLoaded s.dm name
  leaf : ∀ target ∈ targetOf s name, target.isLoaded true = false → isGrouped target = false →
    isNodeName target.name = false →
      if target.name = name then target.storageMode ≠ .computed → KeepsMode ctx s target
      else LeavesLoaded s.dm name ∧ LoopFree ctx target

end Conditions

section Leaves

variable {ctx : LoadContext} {calls : Callbacks} {fuel : Nat} {s s' : LoadState} {name : Text}

theorem LeavesLoaded.of_grows {dm dm' : DataModel} (h : LeavesLoaded dm name) (hNames : dm'.names = dm.names)
    (hGrows : ∀ x, ∀ p ∈ dm.getParameter x, ∃ p' ∈ dm'.getParameter x, p.Grows p') : LeavesLoaded dm' name := by
  intro x hx hLeaf p' hp'
  rw [hNames] at hx
  obtain ⟨q, hq, hName⟩ := List.mem_map.mp hx
  have hSome : (dm.getParameter x).isSome = true := List.find?_isSome.mpr ⟨q, hq, by simpa using hName⟩
  obtain ⟨p, hp⟩ := Option.isSome_iff_exists.mp hSome
  obtain ⟨p'', hp'', hGrow⟩ := hGrows x p hp
  obtain rfl : p'' = p' := Option.some.inj (hp''.symm.trans hp')
  exact hGrow.isLoaded (h x hx hLeaf p hp)

theorem LeavesLoaded.modify {dm : DataModel} {x : Text} {g : Parameter → Parameter} (h : LeavesLoaded dm name)
    (hGrows : ∀ p : Parameter, p.Grows (g p)) : LeavesLoaded (dm.modify x g) name :=
  h.of_grows (DataModel.names_modify fun p hName => (hGrows p).name.trans hName) (grows_modify hGrows)

theorem leavesLoaded_of_done {node : Option Text} {dm : DataModel} (hNode : node.getD [] = name)
    (hKind : isNodeName name = true ∨ node = none) (h : ∀ x ∈ dm.names, Done node dm x) : LeavesLoaded dm name := by
  rintro x hx ⟨hBelow, hLeaf, hProto⟩
  refine h x hx ?_ hLeaf
  rw [isSubParameter, hProto, Bool.not_false, Bool.and_true]
  cases node with
  | none => rfl
  | some node =>
    obtain rfl : node = name := hNode
    have hNode : isNodeName node = true := hKind.resolve_right (by simp)
    rw [AtOrBelow, if_pos (.inr hNode)] at hBelow
    have hLess : node.length < x.length := by
      refine lt_of_le_of_ne hBelow.length_le fun hLength => ?_
      rw [hBelow.eq_of_length hLength, hLeaf] at hNode
      cases hNode
    simp [hLess, hBelow]

theorem leavesLoaded_of_leaf {dm : DataModel} (hName : name ≠ []) (hLeaf : isNodeName name = false)
    (h : ∀ p ∈ dm.getParameter name, p.isLoaded true = true) : LeavesLoaded dm name := by
  rintro x - ⟨hBelow, -, -⟩
  rw [AtOrBelow, if_neg (by simp [hName, hLeaf])] at hBelow
  rw [hBelow]
  exact h

theorem isLoaded_of_marked {dm : DataModel} :
    ∀ p' ∈ (dm.modify name (·.markLoadedWith true)).getParameter name, p'.isLoaded true = true := by
  intro p' hp'
  rw [DataModel.getParameter_modify fun p hName => (p.grows_markLoadedWith true).name.trans hName,
    if_pos rfl] at hp'
  obtain ⟨p, -, rfl⟩ := Option.map_eq_some_iff.mp hp'
  exact p.isLoaded_markLoadedWith

theorem loadComputedParameter_loaded {param : Parameter}
    (h : (loadComputedParameter ctx calls param false).run s = some (0, s')) :
    ∀ p' ∈ s'.dm.getParameter param.name, p'.isLoaded true = true := by
  rw [loadComputedParameter] at h
  split at h
  · exact absurd (pure_eq_some_iff.mp h).1.symm (by decide)
  obtain ⟨⟨bRes, prmVal⟩, s₁, -, h⟩ := bind_eq_some_iff.mp h
  have hMark {s₁ : LoadState} (h : (do
      update param.name (.markLoadedWith true)
      return if bRes then 0 else 1 : Load Nat).run s₁ = some (0, s')) :
      ∀ p' ∈ s'.dm.getParameter param.name, p'.isLoaded true = true := by
    obtain ⟨u, s₂, hUpdate, hEnd⟩ := bind_eq_some_iff.mp h
    obtain rfl := modify_eq_some_iff.mp hUpdate
    obtain ⟨-, rfl⟩ := pure_eq_some_iff.mp hEnd
    exact isLoaded_of_marked
  dsimp only at h
  split at h
  · obtain ⟨u, s₂, -, h⟩ := bind_eq_some_iff.mp h
    exact hMark h
  · exact hMark h

theorem loadLeafParameterValue_cases (h : (loadLeafParameterValue ctx calls name).run s = some (0, s')) :
    ∃ p, s.dm.getParameter name = some p ∧
      if p.storageMode = .computed then ∀ p' ∈ s'.dm.getParameter name, p'.isLoaded true = true
      else s' = s ∧ (p.storageMode = .dmOnly ∨ (∃ n, p.storageMode = .other n) ∨ p.value.isSome = true) ∨
        ∃ p' ∈ s'.dm.getParameter name, p'.value.isSome = true := by
  obtain ⟨found, s₁, hFind, h⟩ := bind_eq_some_iff.mp h
  obtain ⟨rfl, rfl⟩ := find_eq_some_iff.mp hFind
  cases hFound : s₁.dm.getParameter name with
  | none =>
    rw [hFound] at h
    exact absurd h not_failure
  | some p =>
    rw [hFound] at h
    dsimp only at h
    refine ⟨p, rfl, ?_⟩
    have hName := DataModel.name_of_getParameter hFound
    split
    · rename_i hMode
      rw [if_pos hMode] at h
      obtain ⟨loaded, s₂, hTest, h⟩ := bind_eq_some_iff.mp h
      obtain ⟨q, hq, rfl, rfl⟩ := testLoaded_cases hTest
      have hDefault : (s₁.dm.modify name (·.withDefault)).getParameter name = some q.withDefault := by
        rw [getParameter_touched, hq, Option.map_some]
      split at h
      · rename_i hLoaded
        obtain ⟨-, rfl⟩ := pure_eq_some_iff.mp h
        intro p' hp'
        obtain rfl := Option.some.inj (hDefault.symm.trans hp')
        exact hLoaded
      · obtain ⟨found, s₃, hFind, h⟩ := bind_eq_some_iff.mp h
        obtain ⟨rfl, rfl⟩ := find_eq_some_iff.mp hFind
        dsimp only at h
        rw [hDefault] at h
        have hOwn := loadComputedParameter_loaded h
        rw [DataModel.name_of_getParameter hDefault] at hOwn
        exact hOwn
    · rename_i hMode
      rw [if_neg hMode] at h
      obtain ⟨hSame, hStored | hStored | hValue⟩ | hValue := loadSystemValue_cases h
      · exact .inl ⟨hSame, .inl hStored⟩
      · exact absurd hStored hMode
      · exact .inl ⟨hSame, .inr hValue⟩
      · rw [hName] at hValue
        exact .inr hValue

theorem leavesLoaded_of_loadObject {root : Parameter} (hSupplies : DeviceSupplies ctx s root name) {res : Nat}
    (h : (loadObject ctx calls root).run s = some (res, s')) (hRes : res = 0 ∨ res = 1) : LeavesLoaded s'.dm name := by
  obtain ⟨hNothing, hAnswer⟩ := hSupplies
  obtain ⟨data, s₁, hData, h⟩ := bind_eq_some_iff.mp h
  obtain ⟨readings, rfl⟩ := evaluateData_namesNothing hNothing hData
  rw [evaluateData_eq hNothing (callbacks ctx 0)] at hData
  have hAnswer := hAnswer _ hData
  obtain ⟨⟨code, values⟩, s₂, hRead, h⟩ := bind_eq_some_iff.mp h
  obtain ⟨hGiven, rfl⟩ := reading_eq_some_iff.mp hRead
  dsimp only at hAnswer h
  rw [← hGiven] at hAnswer
  split at h
  · rename_i hFault
    obtain ⟨rfl, rfl⟩ := pure_eq_some_iff.mp h
    obtain rfl := hRes.resolve_left hFault
    exact hAnswer
  · rename_i hDone
    obtain rfl := not_not.mp hDone
    obtain ⟨u, s₃, hUpdate, h⟩ := bind_eq_some_iff.mp h
    obtain rfl := modify_eq_some_iff.mp hUpdate
    obtain ⟨-, rfl⟩ := pure_eq_some_iff.mp h
    exact leavesLoaded_updateObject hAnswer

/-- What a group leaves when its root is loaded without a fault. -/
theorem leavesLoaded_of_loadFinal {root : Text} (hEmpty : name ≠ [])
    (h : (loadFinal ctx calls root true).run s = some (0, s'))
    (hComplete : GroupComplete ctx s root name)
    (hRoot : isNodeName root = true ∨ isProto root = true ∨ name = root) : LeavesLoaded s'.dm name := by
  obtain ⟨loaded, s₁, hTest, h⟩ := bind_eq_some_iff.mp h
  obtain ⟨p, hp, rfl, rfl⟩ := testLoaded_cases hTest
  have hDefault : (s.dm.modify root (·.withDefault)).getParameter root = some p.withDefault := by
    rw [getParameter_touched, hp, Option.map_some]
  have hCase := hComplete p hp
  have hTouch (hLeaves : LeavesLoaded s.dm name) : LeavesLoaded (s.dm.modify root (·.withDefault)) name :=
    hLeaves.modify Parameter.grows_withDefault
  split at h
  · rename_i hLoaded
    obtain ⟨-, rfl⟩ := pure_eq_some_iff.mp h
    rw [Parameter.isLoaded_withDefault] at hLoaded
    rw [if_pos (.inl hLoaded)] at hCase
    exact hTouch hCase
  rename_i hLoaded
  rw [Parameter.isLoaded_withDefault] at hLoaded
  split at h
  · rename_i hProto
    obtain ⟨-, rfl⟩ := pure_eq_some_iff.mp h
    rw [if_pos (.inr hProto)] at hCase
    exact hTouch hCase
  rename_i hProto
  rw [if_neg (not_or.mpr ⟨hLoaded, hProto⟩)] at hCase
  obtain ⟨found, s₂, hFind, h⟩ := bind_eq_some_iff.mp h
  obtain ⟨rfl, rfl⟩ := find_eq_some_iff.mp hFind
  dsimp only at h
  rw [hDefault] at h
  dsimp only at h
  obtain ⟨res, s₃, hLoad, h⟩ := bind_eq_some_iff.mp h
  split at h
  · rename_i hRes
    obtain ⟨found, s₄, hFind, h⟩ := bind_eq_some_iff.mp h
    obtain ⟨rfl, rfl⟩ := find_eq_some_iff.mp hFind
    split at h
    · exact absurd (pure_eq_some_iff.mp h).1.symm (by decide)
    obtain ⟨u, s₅, hUpdate, h⟩ := bind_eq_some_iff.mp h
    obtain rfl := modify_eq_some_iff.mp hUpdate
    obtain ⟨-, rfl⟩ := pure_eq_some_iff.mp h
    have hName : p.withDefault.name = root := DataModel.name_of_getParameter hDefault
    rw [loadParameter, if_pos rfl, hName] at hLoad
    split at hLoad
    · rename_i hNode
      exact (leavesLoaded_of_loadObject (hCase hNode) hLoad hRes).modify (Parameter.grows_markLoadedWith true)
    · rename_i hLeaf
      obtain rfl : name = root := (hRoot.resolve_left hLeaf).resolve_left hProto
      exact leavesLoaded_of_leaf hEmpty (Bool.eq_false_iff.mpr hLeaf) isLoaded_of_marked
  · rename_i hRes
    obtain ⟨rfl, -⟩ := pure_eq_some_iff.mp h
    exact absurd (.inl rfl) hRes

theorem isSubParameter_of_isProto (hProto : isProto name = true) (x : Text) : isSubParameter (some name) x = false := by
  obtain ⟨before, after, hSplit⟩ := (Text.strstr_eq_true_iff ..).mp hProto
  rw [isSubParameter, Bool.and_eq_false_iff]
  by_cases hBelow : name <+: x
  · right
    obtain ⟨rest, rfl⟩ := hBelow
    rw [Bool.not_eq_false', isProto, Text.strstr_eq_true_iff]
    exact ⟨before, after ++ rest, by rw [← hSplit]; simp⟩
  · left
    rw [Option.all_some, Bool.and_eq_false_iff]
    exact .inr (Bool.eq_false_iff.mpr fun hSame => hBelow (List.isPrefixOf_iff_prefix.mp hSame))

theorem leavesLoaded_of_loadSubParameters (hCalls : KeepsCalls Steady calls)
    (hPass : KeepsCalls (Passes (Plain ctx)) calls) {node : Text}
    (h : (loadSubParameters ctx calls fuel (some node) true).run s = some (0, s')) (hNode : isNodeName node = true)
    (hOwn : node = name → ∀ p ∈ s.dm, Plain ctx p)
    (hOther : node ≠ name → isProto node = true ∧ LeavesLoaded s.dm name) : LeavesLoaded s'.dm name := by
  obtain ⟨u, s₁, hUpdate, hScan⟩ := bind_eq_some_iff.mp h
  obtain rfl := modify_eq_some_iff.mp hUpdate
  by_cases hName : node = name
  · have hMarked := (passedOn_plain ctx).loads.ofUpdate s node _ (Parameter.grows_markLoadedWith true) (hOwn hName)
    have hDone := scanAgain_done hCalls hPass hMarked hScan
    subst hName
    exact leavesLoaded_of_done rfl (.inl hNode) hDone
  · obtain ⟨hProto, hLeaves⟩ := hOther hName
    rw [dm_of_scanAgain_idle (isSubParameter_of_isProto hProto) hScan]
    exact hLeaves.modify (Parameter.grows_markLoadedWith true)

/-- A single leaf that is loaded well has its value, or none is asked of it. -/
theorem leavesLoaded_of_loadLeaf {p : Parameter} (hEmpty : name ≠ []) (hLeaf : isNodeName name = false)
    (hp : s.dm.getParameter name = some p) (h : (loadLeafParameterValue ctx calls name).run s = some (0, s'))
    (hMode : p.storageMode ≠ .computed → ∀ n, p.storageMode ≠ .other n)
    (hKeeps : p.storageMode ≠ .computed → ∀ p' ∈ s'.dm.getParameter name, p'.storageMode ≠ .computed) :
    LeavesLoaded s'.dm name := by
  refine leavesLoaded_of_leaf hEmpty hLeaf fun p' hp' => ?_
  obtain ⟨q, hq, hResult⟩ := loadLeafParameterValue_cases h
  obtain rfl : p = q := Option.some.inj (hp.symm.trans hq)
  split at hResult
  · exact hResult p' hp'
  rename_i hStored
  have hStays := hKeeps hStored p' hp'
  rw [Parameter.isLoaded_true]
  obtain ⟨rfl, hOnly | ⟨n, hOther⟩ | hValue⟩ | ⟨q, hq, hValue⟩ := hResult
  · obtain rfl := Option.some.inj (hp.symm.trans hp')
    exact .inr ⟨(DataModel.name_of_getParameter hp').symm ▸ hLeaf, hOnly⟩
  · exact absurd hOther (hMode hStored n)
  · obtain rfl := Option.some.inj (hp.symm.trans hp')
    exact .inl ⟨hValue, fun hComputed => absurd hComputed hStays⟩
  · obtain rfl := Option.some.inj (hq.symm.trans hp')
    exact .inl ⟨hValue, fun hComputed => absurd hComputed hStays⟩

theorem passedOn_notComputed (dmPrefix part : Text) :
    PassedOn dmPrefix fun p => lastPart p.name = part → p.storageMode ≠ .computed where
  grows hGrows h := by
    rw [hGrows.name, hGrows.storageMode]
    exact h
  copy _ hPart h := by
    rw [name_newInstanceParameter, hPart]
    exact h
  relocate {p} objName instanceNb h := by
    obtain ⟨definition, hSame⟩ := exists_relocateParameter_eq dmPrefix objName instanceNb p
    rw [hSame]
    exact h

/-- What is called back keeps the relations that the proofs need. -/
structure Dependable (ctx : LoadContext) (calls : Callbacks) : Prop where
  steady : KeepsCalls Steady calls
  passes : ∀ P : Parameter → Prop, PassedOn ctx.dmPrefix P → KeepsCalls (Passes P) calls

theorem dependable_callbacks (ctx : LoadContext) (depth : Nat) : Dependable ctx (callbacks ctx depth) where
  steady := keeps_callbacks (steady_loads ctx) depth
  passes _ hP := keeps_callbacks hP.loads depth

/-- A leaf that keeps its mode in the conditions does so in the call. -/
theorem KeepsMode.notComputed {p : Parameter} (hCalls : Dependable ctx calls) (hKeeps : KeepsMode ctx s p)
    (hp : s.dm.getParameter name = some p) (hStored : p.storageMode ≠ .computed)
    (h : (loadLeafParameterValue ctx calls name).run s = some (0, s')) :
    ∀ p' ∈ s'.dm.getParameter name, p'.storageMode ≠ .computed := by
  obtain rfl := DataModel.name_of_getParameter hp
  intro p' hp'
  obtain hNothing | hOthers := hKeeps.data
  · have hFree : LoopFree ctx p := fun definition hDefinition =>
      ⟨hNothing definition hDefinition, fun hComputed => absurd hComputed hStored⟩
    have hLoops := noLoop_loadLeafParameterValue hp hFree h
    obtain ⟨q, hq, hGrows⟩ :=
      ((steady_loads ctx).keeps_loadLeafParameterValue hCalls.steady p.name _ _ _ h).grows hLoops p.name p hp
    obtain rfl := Option.some.inj (hq.symm.trans hp')
    rwa [hGrows.storageMode]
  · have hP := passedOn_notComputed ctx.dmPrefix (lastPart p.name)
    have hAfter := hP.loads.keeps_loadLeafParameterValue (hCalls.passes _ hP) p.name _ _ _ h hOthers
    exact hAfter p' (List.mem_of_find?_eq_some hp') (congrArg lastPart (DataModel.name_of_getParameter hp'))

/-- A load that ends well has loaded the leaves at and below its name. -/
theorem leavesLoaded_of_call (hCalls : Dependable ctx calls)
    (h : (loadSystemParameters ctx calls fuel name true).run s = some (0, s')) (hSound : Sound ctx s name) :
    LeavesLoaded s'.dm name := by
  have hPass := hCalls.passes _ (passedOn_plain ctx)
  rw [loadSystemParameters] at h
  split at h
  · rename_i hEmpty
    have hPlain := hSound.whole hEmpty
    rw [hEmpty]
    exact leavesLoaded_of_done rfl (.inr rfl) (scanAgain_done hCalls.steady hPass hPlain h)
  rename_i hEmpty
  obtain ⟨t, s₁, hGet, hCall⟩ := bind_eq_some_iff.mp h
  obtain ⟨rfl, rfl⟩ := get_eq_some_iff.mp hGet
  clear h hGet
  split at hCall
  · exact absurd (pure_eq_some_iff.mp hCall).1.symm (by decide)
  rename_i target hFind
  obtain ⟨hTarget, hName⟩ := findTarget_spec hFind
  have hMem : target ∈ targetOf s₁ name := by rwa [targetOf, if_neg hEmpty]
  obtain ⟨loaded, s₂, hTest, hLoad⟩ := bind_eq_some_iff.mp hCall
  obtain ⟨p, hp, rfl, rfl⟩ := testLoaded_cases hTest
  obtain rfl := Option.some.inj (hTarget.symm.trans hp)
  have hGrows := target.grows_withDefault
  rw [Parameter.isLoaded_withDefault] at hLoad
  split at hLoad
  · rename_i hLoaded
    obtain ⟨-, rfl⟩ := pure_eq_some_iff.mp hLoad
    exact (hSound.marked target hMem hLoaded).modify Parameter.grows_withDefault
  rename_i hLoaded
  have hLoaded : target.isLoaded true = false := Bool.eq_false_iff.mpr hLoaded
  have hDefault : (s₁.dm.modify target.name (·.withDefault)).getParameter target.name = some target.withDefault := by
    rw [getParameter_touched, hp, Option.map_some]
  obtain ⟨found, s₃, hFound, hKind⟩ := bind_eq_some_iff.mp hLoad
  obtain ⟨rfl, rfl⟩ := find_eq_some_iff.mp hFound
  dsimp only at hKind
  rw [hDefault] at hKind
  have hGroup : isGrouped target.withDefault = isGrouped target := by
    rw [isGrouped, isGrouped, hGrows.loadingMode]
  dsimp only at hKind
  rw [hGroup] at hKind
  split at hKind
  · rename_i hGrouped
    obtain ⟨t, s₄, hGet, hFinal⟩ := bind_eq_some_iff.mp hKind
    obtain ⟨rfl, rfl⟩ := get_eq_some_iff.mp hGet
    refine leavesLoaded_of_loadFinal hEmpty hFinal (hSound.group target hMem hLoaded hGrouped) ?_
    obtain hSame | hNode := @groupRoot_eq_or (s₁.dm.modify target.name (·.withDefault)) target.name.length target.name
    · right
      obtain hOwn | hProto := hName
      · exact .inr (hOwn.symm.trans hSame.symm)
      · exact .inl (hSame.symm ▸ hProto)
    · exact .inl hNode
  rename_i hAlone
  have hAlone : isGrouped target = false := Bool.eq_false_iff.mpr hAlone
  split at hKind
  · rename_i hNode
    have hCase := hSound.node target hMem hLoaded hAlone hNode
    refine leavesLoaded_of_loadSubParameters hCalls.steady hPass hKind hNode (fun hOwn => ?_) fun hOther => ?_
    · rw [if_pos hOwn] at hCase
      exact (passedOn_plain ctx).loads.ofUpdate s₁ target.name _ Parameter.grows_withDefault hCase
    · rw [if_neg hOther] at hCase
      exact ⟨hName.resolve_left hOther, hCase.modify Parameter.grows_withDefault⟩
  rename_i hLeaf
  have hLeaf : isNodeName target.name = false := Bool.eq_false_iff.mpr hLeaf
  have hCase := hSound.leaf target hMem hLoaded hAlone hLeaf
  split at hKind
  · by_cases hOwn : target.name = name
    · rw [if_pos hOwn] at hCase
      have hStored (hMode : target.withDefault.storageMode ≠ .computed) : KeepsMode ctx s₁ target :=
        hCase (hGrows.storageMode ▸ hMode)
      rw [hOwn] at hKind hLeaf hDefault
      refine leavesLoaded_of_loadLeaf hEmpty hLeaf hDefault hKind (fun hMode => ?_) fun hMode => ?_
      · rw [hGrows.storageMode]
        exact (hStored hMode).mode
      · have hKeeps : KeepsMode ctx (touched s₁ name) target.withDefault := by
          refine ⟨hGrows.storageMode ▸ (hStored hMode).mode, ?_⟩
          rw [hGrows.definition, hGrows.name]
          refine (hStored hMode).data.imp id fun hOthers => ?_
          exact (passedOn_notComputed ctx.dmPrefix (lastPart target.name)).loads.ofUpdate s₁ name _
            Parameter.grows_withDefault hOthers
        exact hKeeps.notComputed hCalls hDefault hMode hKind
    · rw [if_neg hOwn] at hCase
      obtain ⟨hLeaves, hFree⟩ := hCase
      have hFree' : LoopFree ctx target.withDefault := by
        intro definition hDefinition
        rw [hGrows.definition] at hDefinition
        rw [hGrows.storageMode]
        exact hFree definition hDefinition
      have hLoops := noLoop_loadLeafParameterValue hDefault hFree' hKind
      have hSteady := (steady_loads ctx).keeps_loadLeafParameterValue hCalls.steady target.name _ _ _ hKind
      exact (hLeaves.modify Parameter.grows_withDefault).of_grows (hSteady.names hLoops) (hSteady.grows hLoops)
  · rename_i hNot
    exact absurd rfl hNot

end Leaves

section Calls

variable (ctx : LoadContext) (calls : Callbacks) (fuel : Nat)

/-- A call of `DM_ENG_ParameterManager_loadSystemParameters` with a name, and with values or not. -/
def loadStep (s : LoadState) (call : Text × Bool) : Option LoadState :=
  ((loadSystemParameters ctx calls fuel call.1 call.2).run s).map Prod.snd

def SoundCall (s : LoadState) (call : Text × Bool) : Prop := call.2 = true → Sound ctx s call.1

/-- A call with values that returns zero has loaded the leaves. -/
def TruthfulCall (s : LoadState) (call : Text × Bool) : Prop :=
  call.2 = true → ∀ r ∈ (loadSystemParameters ctx calls fuel call.1 true).run s, r.1 = 0 → LeavesLoaded r.2.dm call.1

instance (s : LoadState) (call : Text × Bool) : Decidable (TruthfulCall ctx calls fuel s call) :=
  inferInstanceAs (Decidable (_ → ∀ r ∈ (loadSystemParameters ctx calls fuel call.1 true).run s, _ → _))

variable {ctx calls fuel}

theorem truthfulCall_of_sound (hCalls : Dependable ctx calls) {s : LoadState} {call : Text × Bool}
    (h : SoundCall ctx s call) : TruthfulCall ctx calls fuel s call := by
  rintro hValues ⟨res, s'⟩ hRun rfl
  exact leavesLoaded_of_call hCalls hRun (h hValues)

end Calls

section Samples

def sampleLeaf (name : Text) : Parameter :=
  { ObjectCall.sampleNode name false with type := .string, storageMode := .systemOnly }

/-- An object with a leaf that the device gives. -/
def sampleState : LoadState where
  dm := [ObjectCall.sampleNode "Device.".toList false, ObjectCall.sampleNode "Device.A.".toList false,
    sampleLeaf "Device.A.X".toList]
  readings := 0
  current := none
  loops := 0

/-- A device that gives the number of the reading, and faults at the first ones. -/
def sampleContext (faults : Nat) : LoadContext where
  dmPrefix := "Device.".toList
  dateStringToTime _ := none
  device :=
    { time _ := 0
      getValue n _ _ := if n < faults then (9002, none) else (0, some (Decimal.showInt n))
      getObject _ _ _ := (9002, [])
      getNames _ _ _ := (9002, none) }

end Samples

end Tr069Agent.Engine.Loading
