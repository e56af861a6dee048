import Tr069Agent.Engine.ReadRequests
import Tr069Agent.Engine.LoadedLeaves

/-! # Reading what is loaded

Where everything is loaded that a load looks at, a load asks the device for nothing. It ends well, gives
defaults to values and marks to nodes, and leaves the names as they are.
-/

namespace Tr069Agent.Engine

open Library Library.Action

set_option autoImplicit false

namespace Parameter

/-- What the answers to requests are made of, the values apart. -/
def face (p : Parameter) : Text × Bool × Option (List Text) × ParameterType × Int :=
  (p.name, p.writable, p.accessList, p.type, p.loadingMode)

structure Stays (withValues : Bool) (p p' : Parameter) : Prop where
  face : p'.face = p.face
  loaded : p.isLoaded withValues = true → p'.isLoaded withValues = true

variable {withValues : Bool} {p p' p'' : Parameter}

theorem Stays.refl (p : Parameter) : p.Stays withValues p := ⟨rfl, id⟩

theorem Stays.trans (h : p.Stays withValues p') (h' : p'.Stays withValues p'') : p.Stays withValues p'' :=
  ⟨h'.face.trans h.face, h'.loaded ∘ h.loaded⟩

theorem Stays.name (h : p.Stays withValues p') : p'.name = p.name := congrArg Prod.fst h.face

theorem isLoaded_false (p : Parameter) :
    p.isLoaded false = true ↔ p.isLoaded true = true ∨ isNodeName p.name = false ∨ p.backValue.isSome = true := by
  simp only [isLoaded, Bool.not_false, Bool.true_and, Bool.not_true, Bool.false_and, Bool.or_false, Bool.or_eq_true,
    Bool.not_eq_true']

theorem stays_withDefault (p : Parameter) : p.Stays withValues p.withDefault where
  face := by
    unfold withDefault
    split <;> rfl
  loaded h := by
    cases withValues with
    | true => rwa [p.isLoaded_withDefault]
    | false =>
      have hBack : p.withDefault.backValue = p.backValue := by
        unfold withDefault
        split <;> rfl
      rw [isLoaded_false] at h ⊢
      rwa [p.isLoaded_withDefault, p.name_withDefault, hBack]

theorem stays_markLoadedWith (p : Parameter) : p.Stays withValues (p.markLoadedWith withValues) where
  face := by
    cases withValues with
    | true => rfl
    | false =>
      simp only [markLoadedWith, markLoaded, Bool.false_eq_true, if_false]
      split <;> rfl
  loaded h := by
    cases withValues with
    | true => exact p.isLoaded_markLoadedWith
    | false =>
      simp only [markLoadedWith, markLoaded, Bool.false_eq_true, if_false]
      split
      · exact (isLoaded_false _).mpr (.inr (.inr rfl))
      · exact h

end Parameter

namespace Loading

/-- Everything that a load looks at is loaded. -/
def Settled (withValues : Bool) (dm : DataModel) : Prop :=
  ∀ p ∈ dm, isProto p.name = false → isGrouped p = true ∨ isNodeName p.name = false → p.isLoaded withValues = true

instance (withValues : Bool) (dm : DataModel) : Decidable (Settled withValues dm) :=
  inferInstanceAs (Decidable (∀ p ∈ dm, _ → _ → _))

/-- The parameters in their order, with changes that no request shows. -/
def Quiet (withValues : Bool) (dm dm' : DataModel) : Prop := List.Forall₂ (Parameter.Stays withValues) dm dm'

section Quiet

variable {withValues : Bool} {dm dm' dm'' : DataModel} {name : Text} {p : Parameter}

theorem Quiet.refl (dm : DataModel) : Quiet withValues dm dm := List.forall₂_same.mpr fun p _ => .refl p

theorem Quiet.trans (h : Quiet withValues dm dm') (h' : Quiet withValues dm' dm'') : Quiet withValues dm dm'' := by
  induction h generalizing dm'' with
  | nil => exact h'
  | cons hHere _ ih =>
    cases h' with
    | cons hHere' hRest' => exact .cons (hHere.trans hHere') (ih hRest')

theorem quiet_modify {f : Parameter → Parameter} (h : ∀ p : Parameter, p.Stays withValues (f p)) :
    Quiet withValues dm (dm.modify name f) := by
  induction dm with
  | nil => exact .nil
  | cons p rest ih =>
    rw [DataModel.modify]
    split
    · exact .cons (h p) (Quiet.refl rest)
    · exact .cons (.refl p) ih

theorem Quiet.faces (h : Quiet withValues dm dm') : dm'.map Parameter.face = dm.map Parameter.face := by
  induction h with
  | nil => rfl
  | cons hHere _ ih => rw [List.map_cons, List.map_cons, hHere.face, ih]

theorem names_of_faces (h : dm'.map Parameter.face = dm.map Parameter.face) : dm'.names = dm.names := by
  have hNames := congrArg (List.map Prod.fst) h
  rwa [List.map_map, List.map_map] at hNames

theorem Quiet.settled (h : Quiet withValues dm dm') (hSettled : Settled withValues dm) : Settled withValues dm' := by
  induction h with
  | nil => exact hSettled
  | @cons p p' rest rest' hHere _ ih =>
    intro q hq hProto hKind
    obtain rfl | hRest := List.mem_cons.mp hq
    · have hLoading : isGrouped q = isGrouped p := by
        have hMode : q.loadingMode = p.loadingMode := congrArg (·.2.2.2.2) hHere.face
        rw [isGrouped, isGrouped, hMode]
      rw [hHere.name] at hProto hKind
      rw [hLoading] at hKind
      exact hHere.loaded (hSettled p List.mem_cons_self hProto hKind)
    · exact ih (fun p hp => hSettled p (List.mem_cons_of_mem _ hp)) q hRest hProto hKind

theorem exists_of_mem_names (h : name ∈ dm.names) : ∃ p, dm.getParameter name = some p ∧ p ∈ dm ∧ p.name = name := by
  obtain ⟨q, hq, hName⟩ := List.mem_map.mp h
  have hSome : (dm.getParameter name).isSome = true := List.find?_isSome.mpr ⟨q, hq, by simpa using hName⟩
  obtain ⟨p, hp⟩ := Option.isSome_iff_exists.mp hSome
  exact ⟨p, hp, List.mem_of_find?_eq_some hp, DataModel.name_of_getParameter hp⟩

end Quiet

section Scan

variable (ctx : LoadContext) (calls : Callbacks) {withValues : Bool} {s : LoadState} {name : Text} {p : Parameter}

theorem run_testLoaded (h : s.dm.getParameter name = some p) : (testLoaded name withValues).run s =
    some (p.withDefault.isLoaded withValues, { s with dm := s.dm.modify name (·.withDefault) }) := by
  have hTouched : (s.dm.modify name (·.withDefault)).getParameter name = some p.withDefault := by
    rw [DataModel.getParameter_modify fun q hName => q.name_withDefault.trans hName, if_pos rfl, h, Option.map_some]
  refine bind_eq_some_iff.mpr ⟨(), _, modify_eq_some_iff.mpr rfl, ?_⟩
  refine bind_eq_some_iff.mpr ⟨some p.withDefault, _, find_eq_some_iff.mpr ⟨hTouched.symm, rfl⟩, ?_⟩
  rfl

/-- One turn of the scan finds nothing to load. -/
theorem run_scanCurrent (hSettled : Settled withValues s.dm) (hName : name ∈ s.dm.names) (node : Option Text)
    (r : ScanResult) : ∃ dm', (scanCurrent ctx calls node withValues name r).run s = some (r, { s with dm := dm' }) ∧
      Quiet withValues s.dm dm' := by
  rw [scanCurrent]
  split
  · rename_i hLooked
    have hProto : isProto name = false := by
      simp only [isSubParameter, Bool.and_eq_true, Bool.not_eq_true'] at hLooked
      exact hLooked.1.2
    obtain ⟨p, hp, hMem, rfl⟩ := exists_of_mem_names hName
    by_cases hKind : (isGrouped p || !isNodeName p.name) = true
    · have hLoaded : p.withDefault.isLoaded withValues = true := by
        apply p.stays_withDefault.loaded
        exact hSettled p hMem hProto (by simpa using hKind)
      refine ⟨s.dm.modify p.name (·.withDefault), bind_eq_some_iff.mpr ⟨some p, s,
        find_eq_some_iff.mpr ⟨hp.symm, rfl⟩, ?_⟩, quiet_modify Parameter.stays_withDefault⟩
      dsimp only
      rw [if_pos hKind]
      refine bind_eq_some_iff.mpr ⟨true, _, by rw [run_testLoaded hp, hLoaded], ?_⟩
      rfl
    · refine ⟨s.dm, bind_eq_some_iff.mpr ⟨some p, s, find_eq_some_iff.mpr ⟨hp.symm, rfl⟩, ?_⟩, .refl _⟩
      dsimp only
      rw [if_neg hKind]
      rfl
  · exact ⟨s.dm, rfl, .refl _⟩

theorem dropWhile_of_nodup {front back : List Text} (h : (front ++ name :: back).Nodup) :
    ((front ++ name :: back).dropWhile (· ≠ name)) = name :: back := by
  have hFront : name ∉ front := fun hMem => (List.nodup_append.mp h).2.2 name hMem name List.mem_cons_self rfl
  rw [List.dropWhile_append_of_pos]
  · simp
  · intro x hx
    simp only [ne_eq, decide_eq_true_eq]
    rintro rfl
    exact hFront hx

/-- The scan goes through the rest of the list, one name at a turn. -/
theorem run_scan (node : Option Text) {fuel : Nat} {front back : List Text} (hNames : s.dm.names = front ++ back)
    (hCurrent : s.current = back.head?) (hNodup : s.dm.names.Nodup) (hSettled : Settled withValues s.dm)
    (hFuel : back.length < fuel) (r : ScanResult) (hRes : r.res = 0) :
    ∃ s', (scan ctx calls node withValues fuel r).run s = some (r, s') ∧ Quiet withValues s.dm s'.dm := by
  induction back generalizing s front fuel with
  | nil =>
    obtain ⟨fuel, rfl⟩ := Nat.exists_eq_succ_of_ne_zero (Nat.ne_of_gt hFuel)
    refine ⟨s, bind_eq_some_iff.mpr ⟨s, s, get_eq_some_iff.mpr ⟨rfl, rfl⟩, ?_⟩, .refl _⟩
    rw [hCurrent]
    rfl
  | cons name back ih =>
    obtain ⟨fuel, rfl⟩ := Nat.exists_eq_succ_of_ne_zero (Nat.ne_of_gt (Nat.zero_lt_of_lt hFuel))
    have hName : name ∈ s.dm.names := by
      rw [hNames]
      exact List.mem_append_right _ List.mem_cons_self
    obtain ⟨dm', hHere, hQuiet⟩ := run_scanCurrent ctx calls hSettled hName node r
    have hSame : dm'.names = s.dm.names := names_of_faces hQuiet.faces
    have hNext : (some name).bind (fun name => (dm'.names.dropWhile (· ≠ name)).tail.head?) = back.head? := by
      rw [hNames] at hNodup
      rw [Option.bind_some, hSame, hNames, dropWhile_of_nodup hNodup, List.tail_cons]
    have hSplit : dm'.names = (front ++ [name]) ++ back := by
      rw [hSame, hNames, List.append_assoc, List.singleton_append]
    have hLess : back.length < fuel := by simpa using hFuel
    obtain ⟨s', hRest, hQuiet'⟩ := ih (s := { s with dm := dm', current := back.head? }) hSplit rfl
      (by rwa [hSame]) (hQuiet.settled hSettled) hLess
    refine ⟨s', ?_, hQuiet.trans hQuiet'⟩
    refine bind_eq_some_iff.mpr ⟨s, s, get_eq_some_iff.mpr ⟨rfl, rfl⟩, ?_⟩
    rw [hCurrent]
    refine bind_eq_some_iff.mpr ⟨r, _, hHere, ?_⟩
    rw [if_neg (by simp [hRes])]
    refine bind_eq_some_iff.mpr ⟨(), _, modify_eq_some_iff.mpr rfl, ?_⟩
    dsimp only
    rw [hCurrent, List.head?_cons, hNext]
    exact hRest

variable {fuel : Nat}

theorem run_scanAgain (node : Option Text) (hNodup : s.dm.names.Nodup) (hSettled : Settled withValues s.dm)
    (hFuel : s.dm.length < fuel) (rounds : Nat) :
    ∃ s', (scanAgain ctx calls fuel node withValues (rounds + 2)).run s = some (0, s') ∧
      Quiet withValues s.dm s'.dm := by
  have hLess : s.dm.names.length < fuel := by simpa [DataModel.names] using hFuel
  obtain ⟨s', hScan, hQuiet⟩ := run_scan ctx calls node
    (s := { s with current := s.dm.names.head?, loops := s.loops + 1 })
    (List.nil_append s.dm.names).symm rfl hNodup hSettled hLess {} rfl
  refine ⟨s', bind_eq_some_iff.mpr ⟨(none, 0), _, ?_, rfl⟩, hQuiet⟩
  refine bind_eq_some_iff.mpr ⟨(), _, modify_eq_some_iff.mpr rfl, ?_⟩
  exact bind_eq_some_iff.mpr ⟨{}, s', hScan, rfl⟩

theorem run_loadSystemParameter (hNodup : s.dm.names.Nodup) (hSettled : Settled withValues s.dm)
    (hFuel : s.dm.length < fuel) (hp : s.dm.getParameter p.name = some p) (hProto : isProto p.name = false) :
    ∃ s', (loadSystemParameter ctx calls fuel p.name withValues).run s = some (0, s') ∧
      Quiet withValues s.dm s'.dm := by
  have hTouch : Quiet withValues s.dm (s.dm.modify p.name (·.withDefault)) := quiet_modify Parameter.stays_withDefault
  have hTouched : (s.dm.modify p.name (·.withDefault)).getParameter p.name = some p.withDefault := by
    rw [getParameter_touched, hp, Option.map_some]
  by_cases hLoaded : p.withDefault.isLoaded withValues = true
  · refine ⟨{ s with dm := s.dm.modify p.name (·.withDefault) },
      bind_eq_some_iff.mpr ⟨true, _, by rw [run_testLoaded hp, hLoaded], rfl⟩, hTouch⟩
  -- only a node that is loaded on its own is left: it is marked, and nothing is found below it
  have hKind : ¬ (isGrouped p = true ∨ isNodeName p.name = false) := fun hKind =>
    hLoaded (p.stays_withDefault.loaded (hSettled p (List.mem_of_find?_eq_some hp) hProto hKind))
  obtain ⟨hAlone, hNode⟩ := not_or.mp hKind
  have hAlone : ¬ isGrouped p.withDefault = true := by
    have hStays : p.Stays withValues p.withDefault := p.stays_withDefault
    have hMode : p.withDefault.loadingMode = p.loadingMode := congrArg (·.2.2.2.2) hStays.face
    rwa [isGrouped, hMode, ← isGrouped]
  have hMark : Quiet withValues s.dm ((s.dm.modify p.name (·.withDefault)).modify p.name
      (·.markLoadedWith withValues)) :=
    hTouch.trans (quiet_modify Parameter.stays_markLoadedWith)
  have hNames := names_of_faces hMark.faces
  have hLess := hFuel
  rw [hMark.length_eq] at hLess
  obtain ⟨s', hScan, hQuiet⟩ := run_scanAgain ctx calls (some p.name)
    (s := { s with dm := (s.dm.modify p.name (·.withDefault)).modify p.name (·.markLoadedWith withValues) })
    (by rwa [hNames]) (hMark.settled hSettled) hLess maxSystemEntry
  refine ⟨s', ?_, hMark.trans hQuiet⟩
  refine bind_eq_some_iff.mpr ⟨false, _, by rw [run_testLoaded hp, Bool.eq_false_iff.mpr hLoaded], ?_⟩
  rw [if_neg Bool.false_ne_true]
  refine bind_eq_some_iff.mpr ⟨some p.withDefault, _, find_eq_some_iff.mpr ⟨hTouched.symm, rfl⟩, ?_⟩
  dsimp only
  rw [if_neg hAlone, if_pos (Bool.of_not_eq_false hNode)]
  exact bind_eq_some_iff.mpr ⟨(), _, modify_eq_some_iff.mpr rfl, hScan⟩

/-- A load for the whole data model, or for a name that is no prototype, ends well. -/
theorem run_loadSystemParameters (hNodup : s.dm.names.Nodup) (hSettled : Settled withValues s.dm)
    (hFuel : s.dm.length < fuel) (hName : name = [] ∨ name ∈ s.dm.names ∧ isProto name = false) :
    ∃ s', (loadSystemParameters ctx calls fuel name withValues).run s = some (0, s') ∧
      Quiet withValues s.dm s'.dm := by
  rw [loadSystemParameters]
  split
  · exact run_scanAgain ctx calls none hNodup hSettled hFuel maxSystemEntry
  · rename_i hSome
    obtain ⟨hMem, hProto⟩ := hName.resolve_left hSome
    obtain ⟨p, hp, -, rfl⟩ := exists_of_mem_names hMem
    obtain ⟨s', hRun, hQuiet⟩ := run_loadSystemParameter ctx calls hNodup hSettled hFuel hp hProto
    refine ⟨s', bind_eq_some_iff.mpr ⟨s, s, get_eq_some_iff.mpr ⟨rfl, rfl⟩, ?_⟩, hQuiet⟩
    have hTarget : findTarget s.dm p.name.length p.name = some p := by
      cases p.name.length with
      | zero => exact hp
      | succ rounds => rw [findTarget, hp, Option.some_or]
    rw [hTarget]
    exact hRun

end Scan

end Loading

end Tr069Agent.Engine
