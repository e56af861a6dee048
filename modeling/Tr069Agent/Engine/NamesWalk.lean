import Mathlib.Data.List.Perm.Basic
import Tr069Agent.Engine.ParentNodes
import Tr069Agent.Engine.SettledReads
import Tr069Agent.Library.LevelWalk

/-! # Exploring the data model level by level

Within a session a server learns the data model by asking for the names of the next level, and then for
those below each object that it was told. This finds what one request for all names finds, except for what
lies below a node that is hidden or missing.
-/

namespace Tr069Agent.Engine.ReadRequests

open Library Library.Action Library.LevelWalk Loading

set_option autoImplicit false

def isShown (param : Parameter) : Bool := !isProto param.name && !param.isHidden

def shownNames (dm : DataModel) : List Text := DataModel.names (dm.filter isShown)

/-- What is told about a name. -/
def infoIn (dm : DataModel) (name : Text) : ParameterInfoStruct := ⟨name, (dm.getParameter name).any (·.writable)⟩

section Explore

variable (ctx : LoadContext) (calls : Callbacks) (fuel : Nat) (entity : EntityType)

/-- Only an object is asked for. -/
def exploreBelow (next : Text → Load (Except Int (List ParameterInfoStruct))) (name : Text) :
    Load (Except Int (List ParameterInfoStruct)) :=
  if isNodeName name then next name else return .ok []

/-- Each of the objects told is asked for in turn. -/
def exploreAll (next : Text → Load (Except Int (List ParameterInfoStruct))) :
    List ParameterInfoStruct → Load (Except Int (List ParameterInfoStruct))
  | [] => return .ok []
  | info :: infos => do
    match ← exploreBelow next info.parameterName with
    | .error codeRetour => return .error codeRetour
    | .ok below => return (← exploreAll next infos).map fun more => info :: (below ++ more)

def explore : Nat → Text → Load (Except Int (List ParameterInfoStruct))
  | 0, _ => return .ok []
  | levels + 1, path => do
    match ← getParameterNames ctx calls fuel entity (some path) true with
    | .error codeRetour => return .error codeRetour
    | .ok infos => exploreAll (explore levels) infos

end Explore

section Answers

variable {dm dm' : DataModel} {path name : Text} {p p' : Parameter} {nextLevel : Bool}

theorem isNextLevel_eq : (path.isPrefixOf name && isNextLevel path name) = LevelWalk.isNextLevel '.' path name := by
  have hRest (rest : Text) : (rest.dropWhile (· ≠ '.')).tail = [] ↔ '.' ∉ rest.dropLast := by
    induction rest with
    | nil => simp
    | cons c rest ih =>
      by_cases hDot : c = '.'
      · subst hDot
        cases rest <;> simp
      · rw [List.dropWhile_cons_of_pos (by simpa using hDot), ih]
        cases rest with
        | nil => simp
        | cons d rest => simp [Ne.symm hDot]
  rw [Bool.eq_iff_iff, isNextLevel, LevelWalk.isNextLevel]
  simp only [Bool.and_eq_true, decide_eq_true_eq, ← hRest]
  cases ((name.drop path.length).dropWhile (· ≠ '.')) with
  | nil => simp [and_comm]
  | cons c dotAfter =>
    rw [List.isEmpty_iff, List.tail_cons]
    tauto

theorem isHidden_of_face (h : p'.face = p.face) : p'.isHidden = p.isHidden := by
  have hList : p'.accessList = p.accessList := congrArg (·.2.2.1) h
  rw [Parameter.isHidden, Parameter.isHidden, hList]

theorem infoOf_of_face (h : p'.face = p.face) : infoOf p' = infoOf p := by
  have hName : p'.name = p.name := congrArg (·.1) h
  have hWritable : p'.writable = p.writable := congrArg (·.2.1) h
  rw [infoOf, infoOf, hName, hWritable]

/-- The parameters with changes that no request of names shows. -/
def SameFaces (dm dm' : DataModel) : Prop := List.Forall₂ (fun p p' : Parameter => p'.face = p.face) dm dm'

theorem infosBelow_of_faces (h : SameFaces dm dm') : infosBelow dm' path nextLevel = infosBelow dm path nextLevel := by
  induction h with
  | nil => rfl
  | @cons p p' _ _ hHere _ ih =>
    have hName : p'.name = p.name := congrArg (·.1) hHere
    simp only [infosBelow, shownBelow, List.filter_filter] at ih ⊢
    simp only [List.filter_cons, hName, isHidden_of_face hHere]
    split
    · rw [List.map_cons, List.map_cons, ih, infoOf_of_face hHere]
    · exact ih

theorem face_getParameter (h : SameFaces dm dm') :
    (dm'.getParameter name).map Parameter.face = (dm.getParameter name).map Parameter.face := by
  induction h with
  | nil => rfl
  | @cons p p' _ _ hHere _ ih =>
    have hName : p'.name = p.name := congrArg (·.1) hHere
    simp only [DataModel.getParameter, List.find?_cons, hName] at ih ⊢
    split
    · rw [Option.map_some, Option.map_some, hHere]
    · exact ih

theorem namesOf_of_faces (h : SameFaces dm dm') : namesOf dm' path nextLevel = namesOf dm path nextLevel := by
  have hFace : (dm'.getParameter path).map Parameter.face = _ := face_getParameter h
  simp only [namesOf, infosBelow_of_faces h]
  cases hFound : dm.getParameter path with
  | none =>
    rw [hFound, Option.map_none, Option.map_eq_none_iff] at hFace
    rw [hFace]
  | some p =>
    rw [hFound, Option.map_some, Option.map_eq_some_iff] at hFace
    obtain ⟨p', hFound', hSame⟩ := hFace
    rw [hFound']
    simp only [Option.isNone_some, isHidden_of_face hSame, infoOf_of_face hSame]

theorem shownNames_of_faces (h : SameFaces dm dm') : shownNames dm' = shownNames dm := by
  induction h with
  | nil => rfl
  | @cons p p' _ _ hHere _ ih =>
    have hName : p'.name = p.name := congrArg (·.1) hHere
    have hShown : isShown p' = isShown p := by rw [isShown, isShown, hName, isHidden_of_face hHere]
    simp only [shownNames, DataModel.names] at ih ⊢
    rw [List.filter_cons, List.filter_cons, hShown]
    split
    · rw [List.map_cons, List.map_cons, ih, hName]
    · exact ih

end Answers

section Runs

variable {dm : DataModel} {path name : Text} {p : Parameter} {s : LoadState} {infos : List ParameterInfoStruct}
  {fuel levels : Nat}

theorem mem_shownNames : name ∈ shownNames dm ↔ ∃ p ∈ dm, p.name = name ∧ isShown p = true := by
  simp only [shownNames, DataModel.names, List.mem_map, List.mem_filter]
  constructor
  · rintro ⟨p, ⟨hp, hShown⟩, hName⟩
    exact ⟨p, hp, hName, hShown⟩
  · rintro ⟨p, hp, hName, hShown⟩
    exact ⟨p, ⟨hp, hShown⟩, hName⟩

theorem getParameter_of_mem (hNodup : dm.names.Nodup) (hp : p ∈ dm) : dm.getParameter p.name = some p := by
  induction dm with
  | nil => cases hp
  | cons q rest ih =>
    obtain ⟨hFirst, hRest⟩ := List.nodup_cons.mp hNodup
    rw [DataModel.getParameter, List.find?_cons]
    obtain rfl | hp := List.mem_cons.mp hp
    · simp
    · have hNe : q.name ≠ p.name := fun hEq => hFirst (List.mem_map.mpr ⟨p, hp, hEq.symm⟩)
      rw [decide_eq_false hNe]
      exact ih hRest hp

theorem infoIn_of_mem (hNodup : dm.names.Nodup) (hp : p ∈ dm) : infoIn dm p.name = infoOf p := by
  rw [infoIn, getParameter_of_mem hNodup hp]
  rfl

theorem infos_of_shown (hNodup : dm.names.Nodup) (keep : Text → Bool) :
    (dm.filter fun p => keep p.name && isShown p).map infoOf = ((shownNames dm).filter keep).map (infoIn dm) := by
  rw [shownNames, DataModel.names, List.filter_map, List.map_map, List.filter_filter]
  refine List.map_congr_left fun p hp => ?_
  exact (infoIn_of_mem hNodup (List.mem_filter.mp hp).1).symm

theorem infosBelow_true (hNodup : dm.names.Nodup) :
    infosBelow dm path true = (children '.' (shownNames dm) path).map (infoIn dm) := by
  rw [children, ← infos_of_shown hNodup, infosBelow, shownBelow, List.filter_filter]
  congr 2
  funext p
  rw [← isNextLevel_eq, isShown]
  cases path.isPrefixOf p.name <;> simp

theorem infosBelow_false (hNodup : dm.names.Nodup) : infosBelow dm [] false = (shownNames dm).map (infoIn dm) := by
  have hAll := infos_of_shown hNodup fun _ => true
  rw [List.filter_true] at hAll
  rw [← hAll, infosBelow, shownBelow, List.filter_filter]
  congr 2

/-- A path that requests of names accept: the top, or a node that is shown. -/
def Accepted (dm : DataModel) (path : Text) : Prop := path = [] ∨ path ∈ shownNames dm ∧ isNodeName path = true

theorem namesOf_of_accepted (hNodup : dm.names.Nodup) (hNamed : [] ∉ dm.names) (h : Accepted dm path)
    (nextLevel : Bool) :
    namesOf dm path nextLevel = .ok (infosBelow dm path nextLevel) := by
  obtain rfl | ⟨hShown, hNode⟩ := h
  · have hNone : dm.getParameter [] = none := by
      rw [← Option.not_isSome_iff_eq_none]
      intro hSome
      obtain ⟨p, hp⟩ := Option.isSome_iff_exists.mp hSome
      exact hNamed (DataModel.mem_names_of_getParameter hp)
    rw [namesOf, hNone]
    cases nextLevel <;> rfl
  · obtain ⟨p, hp, rfl, hKind⟩ := mem_shownNames.mp hShown
    have hFound := getParameter_of_mem hNodup hp
    simp only [isShown, Bool.and_eq_true, Bool.not_eq_true'] at hKind
    simp [namesOf, hFound, hNode, hKind.1, hKind.2]

variable (ctx : LoadContext) (calls : Callbacks) (entity : EntityType)

theorem run_loadFor {withValues : Bool} (hNodup : s.dm.names.Nodup) (hSettled : Settled withValues s.dm)
    (hFuel : s.dm.length < fuel) (hName : name = [] ∨ name ∈ s.dm.names ∧ isProto name = false) :
    ∃ s', (loadFor ctx calls fuel entity name withValues).run s = some (0, s') ∧ Quiet withValues s.dm s'.dm := by
  rw [loadFor]
  split
  · exact ⟨s, rfl, .refl _⟩
  · exact run_loadSystemParameters ctx calls hNodup hSettled hFuel hName

theorem sameFaces_of_quiet {dm' : DataModel} {withValues : Bool} (h : Quiet withValues dm dm') : SameFaces dm dm' :=
  List.Forall₂.imp (fun _ _ hStays => hStays.face) h

/-- What the lemmas about a settled state need, and what a request leaves. -/
structure Ready (fuel : Nat) (dm : DataModel) : Prop where
  nodup : dm.names.Nodup
  named : [] ∉ dm.names
  settled : Settled false dm
  fuel : dm.length < fuel

theorem Ready.of_quiet {dm' : DataModel} (h : Ready fuel dm) (hQuiet : Quiet false dm dm') : Ready fuel dm' where
  nodup := by
    rw [names_of_faces hQuiet.faces]
    exact h.nodup
  named := by
    rw [names_of_faces hQuiet.faces]
    exact h.named
  settled := hQuiet.settled h.settled
  fuel := by
    rw [← hQuiet.length_eq]
    exact h.fuel

theorem Accepted.of_quiet {dm' : DataModel} (h : Accepted dm path) (hQuiet : Quiet false dm dm') :
    Accepted dm' path := by
  refine h.imp_right fun ⟨hShown, hNode⟩ => ⟨?_, hNode⟩
  rwa [shownNames_of_faces (sameFaces_of_quiet hQuiet)]

/-- A request of names from a state that quiet changes have led to. -/
theorem run_getParameterNames (h : Ready fuel dm) (hQuiet : Quiet false dm s.dm) (hPath : Accepted dm path)
    (nextLevel : Bool) : ∃ s', (getParameterNames ctx calls fuel entity (some path) nextLevel).run s =
      some (.ok (infosBelow dm path nextLevel), s') ∧ Quiet false dm s'.dm := by
  have hName : path = [] ∨ path ∈ s.dm.names ∧ isProto path = false := by
    refine hPath.imp_right fun ⟨hShown, _⟩ => ?_
    obtain ⟨p, hp, rfl, hKind⟩ := mem_shownNames.mp hShown
    simp only [isShown, Bool.and_eq_true, Bool.not_eq_true'] at hKind
    rw [names_of_faces hQuiet.faces]
    exact ⟨List.mem_map_of_mem hp, hKind.1⟩
  have hNode : (path.isEmpty || isNodeName path) = true := by
    obtain rfl | ⟨-, hNode⟩ := hPath
    · rfl
    · rw [hNode, Bool.or_true]
  have hReady := h.of_quiet hQuiet
  obtain ⟨s₁, hLoad, hQuiet₁⟩ := run_loadFor ctx calls entity hReady.nodup hReady.settled hReady.fuel hName
  have hAll := hQuiet.trans hQuiet₁
  refine ⟨{ s₁ with current := none, loops := s₁.loops + 1 }, ?_, hAll⟩
  refine bind_eq_some_iff.mpr ⟨0, s₁, hLoad, ?_⟩
  refine bind_eq_some_iff.mpr ⟨s₁, s₁, get_eq_some_iff.mpr ⟨rfl, rfl⟩, ?_⟩
  rw [namesOf_of_faces (sameFaces_of_quiet hAll), namesOf_of_accepted h.nodup h.named hPath]
  dsimp only
  rw [if_pos hNode]
  exact bind_eq_some_iff.mpr ⟨(), _, modify_eq_some_iff.mpr rfl, rfl⟩

theorem run_exploreAll {next : Text → Load (Except Int (List ParameterInfoStruct))} {below : Text → List Text}
    (hNext : ∀ path s, Accepted dm path → Quiet false dm s.dm → ∃ s', (next path).run s =
      some (.ok ((below path).map (infoIn dm)), s') ∧ Quiet false dm s'.dm)
    {names : List Text} (hNames : names ⊆ shownNames dm) (hQuiet : Quiet false dm s.dm) :
    ∃ s', (exploreAll next (names.map (infoIn dm))).run s = some (.ok ((names.flatMap fun name =>
      name :: if LevelWalk.IsNode '.' name then below name else []).map (infoIn dm)), s') ∧ Quiet false dm s'.dm := by
  induction names generalizing s with
  | nil => exact ⟨s, rfl, hQuiet⟩
  | cons name names ih =>
    obtain ⟨hName, hRest⟩ := List.cons_subset.mp hNames
    have hHere : ∃ s₁, (exploreBelow next name).run s =
        some (.ok ((if LevelWalk.IsNode '.' name then below name else []).map (infoIn dm)), s₁) ∧
          Quiet false dm s₁.dm := by
      by_cases hNode : isNodeName name = true
      · have hInner : LevelWalk.IsNode '.' name := of_decide_eq_true hNode
        rw [exploreBelow, if_pos hNode, if_pos hInner]
        exact hNext name s (.inr ⟨hName, hNode⟩) hQuiet
      · have hInner : ¬ LevelWalk.IsNode '.' name := fun h => hNode (decide_eq_true h)
        rw [exploreBelow, if_neg hNode, if_neg hInner]
        exact ⟨s, rfl, hQuiet⟩
    obtain ⟨s₁, hRun, hQuiet₁⟩ := hHere
    obtain ⟨s', hMore, hQuiet'⟩ := ih hRest hQuiet₁
    refine ⟨s', ?_, hQuiet'⟩
    refine bind_eq_some_iff.mpr ⟨_, s₁, hRun, ?_⟩
    refine bind_eq_some_iff.mpr ⟨_, s', hMore, ?_⟩
    rw [List.flatMap_cons, List.map_append, List.map_cons]
    rfl

theorem run_explore (h : Ready fuel dm) (hQuiet : Quiet false dm s.dm) (hPath : Accepted dm path) :
    ∃ s', (explore ctx calls fuel entity levels path).run s =
      some (.ok ((walk '.' (shownNames dm) levels path).map (infoIn dm)), s') ∧ Quiet false dm s'.dm := by
  induction levels generalizing s path with
  | zero => exact ⟨s, rfl, hQuiet⟩
  | succ levels ih =>
    obtain ⟨s₁, hRun, hQuiet₁⟩ := run_getParameterNames ctx calls entity h hQuiet hPath true
    rw [infosBelow_true h.nodup] at hRun
    have hSub : children '.' (shownNames dm) path ⊆ shownNames dm := List.filter_sublist.subset
    obtain ⟨s', hAll, hQuiet'⟩ := run_exploreAll (fun path s hPath hQuiet => ih hQuiet hPath) hSub hQuiet₁
    exact ⟨s', bind_eq_some_iff.mpr ⟨_, s₁, hRun, hAll⟩, hQuiet'⟩

/-- Going down from level to level tells all that one request tells exactly where each node above a name
that is shown is itself shown. -/
theorem explore_perm_iff (h : Ready fuel s.dm) (hLevels : ∀ x ∈ s.dm.names, x.length ≤ levels) :
    ∃ found s₁ told s₂, (explore ctx calls fuel entity levels []).run s = some (.ok found, s₁) ∧
      (getParameterNames ctx calls fuel entity (some []) false).run s = some (.ok told, s₂) ∧
      (found.Perm told ↔ ∀ x ∈ shownNames s.dm, ∀ node, Above [] node x → node ∈ shownNames s.dm) := by
  obtain ⟨s₁, hExplore, -⟩ := run_explore ctx calls entity h (.refl s.dm) (.inl rfl)
  obtain ⟨s₂, hRequest, -⟩ := run_getParameterNames ctx calls entity h (.refl s.dm) (.inl rfl) false
  rw [infosBelow_false h.nodup] at hRequest
  refine ⟨_, s₁, _, s₂, hExplore, hRequest, ?_⟩
  have hSub : ∀ x ∈ shownNames s.dm, x ∈ s.dm.names := by
    intro x hx
    obtain ⟨p, hp, rfl, -⟩ := mem_shownNames.mp hx
    exact List.mem_map_of_mem hp
  have hInjective : Function.Injective (infoIn s.dm) := fun _ _ hEq => congrArg ParameterInfoStruct.parameterName hEq
  have hNodup : (shownNames s.dm).Nodup := h.nodup.sublist (List.filter_sublist.map _)
  rw [List.map_perm_map_iff hInjective,
    walk_perm_iff hNodup (fun hEmpty => h.named (hSub [] hEmpty)) fun x hx => hLevels x (hSub x hx)]
  refine forall₂_congr fun x _ => forall_congr' fun node => ?_
  rw [above_iff]
  constructor
  · rintro hNodes ⟨hUp, hShort, -, hInner⟩
    exact hNodes hUp hShort hInner
  · intro hNodes hUp hShort hInner
    have hPos : 0 < node.length := List.length_pos_iff.mpr fun hNil => by
      rw [hNil] at hInner
      cases hInner
    exact hNodes ⟨hUp, hShort, hPos, hInner⟩

end Runs

section Samples

theorem ready_sampleState : Ready 9 sampleState.dm where
  nodup := by decide
  named := by decide
  settled := by decide
  fuel := by decide

/-- Three levels are told one after the other. -/
theorem explore_perm_sample :
    let ctx := sampleContext 0
    ∃ found s₁ told s₂, (explore ctx (callbacks ctx 2) 9 .acs 20 []).run sampleState = some (.ok found, s₁) ∧
      (getParameterNames ctx (callbacks ctx 2) 9 .acs (some []) false).run sampleState = some (.ok told, s₂) ∧
      found.Perm told := by
  have hLevels : ∀ x ∈ sampleState.dm.names, x.length ≤ 20 := by decide
  obtain ⟨found, s₁, told, s₂, hExplore, hRequest, hIff⟩ :=
    explore_perm_iff (sampleContext 0) (callbacks (sampleContext 0) 2) .acs ready_sampleState hLevels
  refine ⟨found, s₁, told, s₂, hExplore, hRequest, hIff.mpr ?_⟩
  have hNodes : ∀ x ∈ shownNames sampleState.dm, ∀ node ∈ DataModelConfiguration.parentNames [] x,
      node ∈ shownNames sampleState.dm := by
    decide
  exact hNodes

end Samples

end Tr069Agent.Engine.ReadRequests
