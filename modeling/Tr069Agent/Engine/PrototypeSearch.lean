import Tr069Agent.Engine.SystemUpdates
import Tr069Agent.Library.BackwardPath

/-! # The search for a prototype

`_getParameter` takes the numbers out of a name from the right to the left. What it tries is settled by the
components of the name alone; the data model tells where it stops.
-/

namespace Tr069Agent.Engine

open Library Library.BackwardPath Library.Decimal Library.NumberedNames

set_option autoImplicit false

section Steps

/-- A prototype which a name can be made from: the object, the number of its instance as the name has it,
and what the prototype has behind the object. -/
structure PrototypeStep where
  object : Text
  digits : Text
  instanceNb : Nat
  behind : Text
  deriving DecidableEq

def PrototypeStep.proto (step : PrototypeStep) : Text := step.object ++ step.behind

def hasPrototype (dm : DataModel) (step : PrototypeStep) : Bool := (dm.getParameter step.proto).isSome

/-- What is tried from the components of a name that are left, from the last to the first, where `tail` is
what comes behind their last dot. The component on the left of a number is passed over. -/
def searchSteps : Text → List Text → List PrototypeStep
  | tail, c :: d :: rest =>
    if d :: rest = [[]] then []
    else if c.all Char.isDigit then
      match stringToUint c with
      | none => []
      | some instanceNb =>
        let behind := if tail = [] then [] else '.' :: tail
        { object := joinBack '.' (d :: rest) ++ ['.'], digits := c, instanceNb, behind } ::
          searchSteps (d ++ '.' :: behind) rest
    else searchSteps (c ++ '.' :: tail) (d :: rest)
  | _, _ => []

/-- The prototypes that a name can be made from, in the order of the search. -/
def prototypeSteps (name : Text) : List PrototypeStep :=
  match componentsBack '.' name with
  | [] => []
  | c :: rest => searchSteps c rest

theorem isSome_getParameter_iff {dm : DataModel} {name : Text} :
    (dm.getParameter name).isSome = true ↔ name ∈ dm.names := by
  constructor
  · intro h
    obtain ⟨param, hParam⟩ := Option.isSome_iff_exists.mp h
    exact DataModel.mem_names_of_getParameter hParam
  · intro h
    obtain ⟨param, hMem, hName⟩ := List.mem_map.mp h
    exact List.find?_isSome.mpr ⟨param, hMem, by simpa using hName⟩

theorem hasPrototype_iff {dm : DataModel} {step : PrototypeStep} :
    hasPrototype dm step = true ↔ step.proto ∈ dm.names :=
  isSome_getParameter_iff

end Steps

section Search

variable {dm : DataModel} {rounds : Nat} {front tail left c d : Text} {comps rest : List Text}

theorem searchSteps_number {instanceNb : Nat} (hLeft : d :: rest ≠ [[]]) (hDigits : c.all Char.isDigit = true)
    (hNumber : stringToUint c = some instanceNb) :
    searchSteps tail (c :: d :: rest) =
      { object := joinBack '.' (d :: rest) ++ ['.'], digits := c, instanceNb,
        behind := if tail = [] then [] else '.' :: tail } ::
        searchSteps (d ++ '.' :: if tail = [] then [] else '.' :: tail) rest := by
  rw [searchSteps, if_neg hLeft, if_pos hDigits, hNumber]

theorem searchSteps_noNumber (hLeft : d :: rest ≠ [[]]) (hDigits : c.all Char.isDigit = true)
    (hNumber : stringToUint c = none) : searchSteps tail (c :: d :: rest) = [] := by
  rw [searchSteps, if_neg hLeft, if_pos hDigits, hNumber]

theorem searchSteps_end (hLeft : d :: rest = [[]]) : searchSteps tail (c :: d :: rest) = [] := by
  rw [searchSteps, if_pos hLeft]

theorem searchSteps_word (hWord : c.all Char.isDigit = false) :
    searchSteps tail (c :: d :: rest) = searchSteps (c ++ '.' :: tail) (d :: rest) := by
  by_cases hLeft : d :: rest = [[]]
  · rw [searchSteps_end hLeft, hLeft]
    rfl
  · rw [searchSteps, if_neg hLeft, if_neg (by simp [hWord])]

theorem searchSteps_induction {motive : Text → List Text → List PrototypeStep → Prop}
    (stop : ∀ tail comps, motive tail comps [])
    (number : ∀ tail c d rest instanceNb behind, d :: rest ≠ [[]] → c.all Char.isDigit = true →
      stringToUint c = some instanceNb → behind = (if tail = [] then [] else '.' :: tail) →
      motive (d ++ '.' :: behind) rest (searchSteps (d ++ '.' :: behind) rest) →
      motive tail (c :: d :: rest)
        ({ object := joinBack '.' (d :: rest) ++ ['.'], digits := c, instanceNb, behind } ::
          searchSteps (d ++ '.' :: behind) rest))
    (word : ∀ tail c d rest steps, motive (c ++ '.' :: tail) (d :: rest) steps → motive tail (c :: d :: rest) steps)
    (tail : Text) (comps : List Text) : motive tail comps (searchSteps tail comps) := by
  induction tail, comps using searchSteps.induct with
  | case1 tail c d rest hLeft =>
    rw [searchSteps_end hLeft]
    exact stop tail _
  | case2 tail c d rest hLeft hDigits hNumber =>
    rw [searchSteps_noNumber hLeft hDigits hNumber]
    exact stop tail _
  | case3 tail c d rest hLeft hDigits n hNumber behind ih =>
    rw [searchSteps_number hLeft hDigits hNumber]
    exact number tail c d rest n behind hLeft hDigits hNumber rfl ih
  | case4 tail c d rest hLeft hWord ih =>
    rw [searchSteps_word (Bool.eq_false_iff.mpr hWord)]
    exact word tail c d rest _ ih
  | case5 comps tail hShort =>
    match comps, hShort with
    | [], _ => exact stop tail []
    | [c], _ => exact stop tail [c]
    | c :: d :: rest, hShort => exact absurd rfl (hShort c d rest)

theorem findInstance_noDot (h : '.' ∉ front) : findInstance dm rounds front tail = none := by
  cases rounds with
  | zero => rfl
  | succ rounds =>
    have hDrop : front.dropWhile (· ≠ '.') = [] := by
      rw [List.dropWhile_eq_nil_iff]
      intro x hx
      simpa using fun hSame : x = '.' => h (hSame ▸ hx)
    rw [findInstance, hDrop]
    rfl

theorem findInstance_short (hDot : front.dropWhile (· ≠ '.') = '.' :: left)
    (hShort : (left.dropWhile Char.isDigit).length ≤ 1) : findInstance dm (rounds + 1) front tail = none := by
  rw [findInstance, hDot, List.tail_cons]
  match hRest : left.dropWhile Char.isDigit, hShort with
  | [], _ => rfl
  | [_], _ => rfl

theorem findInstance_word {digits : Text} {x : Char}
    (hDot : front.dropWhile (· ≠ '.') = '.' :: (digits.reverse ++ x :: left))
    (hPass : ∀ y ∈ digits, y.isDigit = true) (hStop : x.isDigit = false) (hx : x ≠ '.') :
    findInstance dm (rounds + 1) front tail =
      if left = [] then none
      else findInstance dm rounds left (x :: (digits ++ '.' :: ((front.takeWhile (· ≠ '.')).reverse ++ tail))) := by
  have hBack : ∀ y ∈ digits.reverse, y.isDigit = true := fun y hy => hPass y (List.mem_reverse.mp hy)
  rw [findInstance, hDot, List.tail_cons, takeWhile_append_cons hBack hStop, dropWhile_append_cons hBack hStop,
    List.reverse_reverse]
  cases left with
  | nil => rfl
  | cons y left => exact if_pos hx

/-- A number is taken out of the name, and the component on its left is passed over. -/
theorem findInstance_number {instanceNb : Nat}
    (hDot : front.dropWhile (· ≠ '.') = '.' :: (c.reverse ++ '.' :: left)) (hLeft : left ≠ [])
    (hDigits : c.all Char.isDigit = true) (hNumber : stringToUint c = some instanceNb) :
    findInstance dm (rounds + 1) front tail =
      let tail := (front.takeWhile (· ≠ '.')).reverse ++ tail
      let behind := if tail = [] then [] else '.' :: tail
      if (dm.getParameter ((left.reverse ++ ['.']) ++ behind)).isSome then some (left.reverse ++ ['.'], instanceNb)
      else findInstance dm rounds left ('.' :: behind) := by
  have hPass : ∀ y ∈ c.reverse, y.isDigit = true :=
    fun y hy => List.all_eq_true.mp hDigits y (List.mem_reverse.mp hy)
  rw [findInstance, hDot, List.tail_cons, takeWhile_append_cons hPass (by decide),
    dropWhile_append_cons hPass (by decide), List.reverse_reverse]
  cases left with
  | nil => exact absurd rfl hLeft
  | cons x left =>
    dsimp only
    rw [if_neg (by decide), hNumber, @List.reverse_cons _ '.']

theorem findInstance_noNumber (hDot : front.dropWhile (· ≠ '.') = '.' :: (c.reverse ++ '.' :: left))
    (hDigits : c.all Char.isDigit = true) (hNumber : stringToUint c = none) :
    findInstance dm (rounds + 1) front tail = none := by
  have hPass : ∀ y ∈ c.reverse, y.isDigit = true :=
    fun y hy => List.all_eq_true.mp hDigits y (List.mem_reverse.mp hy)
  rw [findInstance, hDot, List.tail_cons, takeWhile_append_cons hPass (by decide),
    dropWhile_append_cons hPass (by decide), List.reverse_reverse]
  cases left with
  | nil => rfl
  | cons x left =>
    dsimp only
    rw [if_neg (by decide), hNumber]

/-- The search from a dot on tries the steps of the components on its left. -/
theorem findInstance_eq_find (hFree : ∀ c ∈ comps, '.' ∉ c) (hNe : comps ≠ []) (hRounds : comps.length ≤ rounds)
    (hDot : front.dropWhile (· ≠ '.') = '.' :: (joinBack '.' comps).reverse) :
    findInstance dm rounds front tail =
      ((searchSteps ((front.takeWhile (· ≠ '.')).reverse ++ tail) comps).find? (hasPrototype dm)).map
        fun step => (step.object, step.instanceNb) := by
  induction rounds generalizing comps front tail with
  | zero => exact absurd (List.length_eq_zero_iff.mp (Nat.le_zero.mp hRounds)) hNe
  | succ rounds ih =>
    match comps, hNe with
    | [c], _ =>
      rw [joinBack] at hDot
      obtain hDigits | hWord := Bool.eq_false_or_eq_true (c.all Char.isDigit)
      · refine findInstance_short hDot ?_
        have hNil : c.reverse.dropWhile Char.isDigit = [] := by
          rw [List.dropWhile_eq_nil_iff]
          exact fun y hy => List.all_eq_true.mp hDigits y (List.mem_reverse.mp hy)
        rw [hNil]
        exact Nat.zero_le 1
      · obtain ⟨before, x, digits, rfl, hStop, hPass⟩ := exists_stop hWord
        have hC := hFree _ List.mem_cons_self
        have hBefore : '.' ∉ before.reverse := by
          rw [List.mem_reverse]
          exact fun hMem => hC (List.mem_append_left _ hMem)
        have hx : x ≠ '.' := by
          rintro rfl
          simp at hC
        rw [List.reverse_append, List.reverse_cons, List.append_assoc, List.singleton_append] at hDot
        rw [findInstance_word hDot hPass hStop hx, findInstance_noDot hBefore, ite_self]
        rfl
    | c :: d :: rest, _ =>
      obtain ⟨hC, hRest⟩ := List.forall_mem_cons.mp hFree
      rw [reverse_joinBack_cons (List.cons_ne_nil d rest)] at hDot
      obtain hDigits | hWord := Bool.eq_false_or_eq_true (c.all Char.isDigit)
      · have hPass : ∀ y ∈ c.reverse, y.isDigit = true :=
          fun y hy => List.all_eq_true.mp hDigits y (List.mem_reverse.mp hy)
        by_cases hLeft : d :: rest = [[]]
        · rw [searchSteps_end hLeft]
          refine findInstance_short hDot ?_
          rw [hLeft, joinBack, List.reverse_nil, dropWhile_append_cons hPass (by decide)]
          exact Nat.le_refl 1
        · have hJoin : (joinBack '.' (d :: rest)).reverse ≠ [] := by
            simpa only [ne_eq, List.reverse_eq_nil_iff, joinBack_eq_nil_iff] using hLeft
          cases hNumber : stringToUint c with
          | none => rw [findInstance_noNumber hDot hDigits hNumber, searchSteps_noNumber hLeft hDigits hNumber]; rfl
          | some instanceNb =>
            rw [findInstance_number hDot hJoin hDigits hNumber, searchSteps_number hLeft hDigits hNumber,
              List.find?_cons, List.reverse_reverse]
            cases hFound : hasPrototype dm
                { object := joinBack '.' (d :: rest) ++ ['.'], digits := c, instanceNb,
                  behind := if (front.takeWhile (· ≠ '.')).reverse ++ tail = [] then [] else
                    '.' :: ((front.takeWhile (· ≠ '.')).reverse ++ tail) } with
            | true => exact if_pos hFound
            | false =>
              refine (if_neg (Bool.eq_false_iff.mp hFound)).trans ?_
              obtain ⟨hD, hFree'⟩ := List.forall_mem_cons.mp hRest
              cases rest with
              | nil =>
                have hD' : '.' ∉ d.reverse := by rwa [List.mem_reverse]
                rw [joinBack, findInstance_noDot hD']
                rfl
              | cons e rest =>
                rw [reverse_joinBack_cons (List.cons_ne_nil e rest), ih hFree' (List.cons_ne_nil e rest) (by
                  simp only [List.length_cons] at hRounds ⊢
                  omega) (dropWhile_component hD _), takeWhile_component hD, List.reverse_reverse]
      · obtain ⟨before, x, digits, rfl, hStop, hPass⟩ := exists_stop hWord
        have hBefore : '.' ∉ before := fun hMem => hC (List.mem_append_left _ hMem)
        have hx : x ≠ '.' := by
          rintro rfl
          simp at hC
        rw [List.reverse_append, List.reverse_cons, List.append_assoc, List.append_assoc, List.singleton_append] at hDot
        have hLeft : before.reverse ++ '.' :: (joinBack '.' (d :: rest)).reverse ≠ [] := by simp
        rw [findInstance_word hDot hPass hStop hx, if_neg hLeft,
          ih hRest (List.cons_ne_nil d rest) (Nat.le_of_succ_le_succ hRounds) (dropWhile_component hBefore _),
          takeWhile_component hBefore, List.reverse_reverse, searchSteps_word hWord]
        simp

/-- `_getParameter` tries the prototypes of a name in their order. -/
theorem findInstance_name (dm : DataModel) (name : Text) :
    findInstance dm name.length name.reverse [] =
      ((prototypeSteps name).find? (hasPrototype dm)).map fun step => (step.object, step.instanceNb) := by
  have hJoin : joinBack '.' (componentsBack '.' name) = name := joinBack_componentsBack name
  have hFree : ∀ c ∈ componentsBack '.' name, '.' ∉ c := fun c => sep_notMem_of_mem_componentsBack
  unfold prototypeSteps
  match hComps : componentsBack '.' name with
  | [] => exact absurd hComps (componentsBack_ne_nil name)
  | [c] =>
    rw [hComps] at hJoin hFree
    have hDot : '.' ∉ name.reverse := by
      rw [List.mem_reverse, ← hJoin]
      exact hFree c List.mem_cons_self
    rw [findInstance_noDot hDot]
    rfl
  | c :: d :: rest =>
    rw [hComps] at hJoin hFree
    obtain ⟨hC, hRest⟩ := List.forall_mem_cons.mp hFree
    have hReverse : name.reverse = c.reverse ++ '.' :: (joinBack '.' (d :: rest)).reverse := by
      rw [← hJoin, reverse_joinBack_cons (List.cons_ne_nil d rest)]
    have hRounds : (d :: rest).length ≤ name.length := by
      rw [← hJoin]
      exact length_le_joinBack c (d :: rest)
    have hDot : name.reverse.dropWhile (· ≠ '.') = '.' :: (joinBack '.' (d :: rest)).reverse := by
      rw [hReverse]
      exact dropWhile_component hC _
    have hTail : (name.reverse.takeWhile (· ≠ '.')).reverse ++ [] = c := by
      rw [hReverse, takeWhile_component hC, List.reverse_reverse, List.append_nil]
    rw [findInstance_eq_find hRest (List.cons_ne_nil d rest) hRounds hDot, hTail]

end Search

section Order

variable {name tail : Text} {comps : List Text} {step : PrototypeStep}

/-- The instance that a name with these digits is of. -/
def PrototypeStep.instanceName (step : PrototypeStep) : Text := step.object ++ (step.digits ++ ['.'])

theorem searchSteps_ne_nil (h : step ∈ searchSteps tail comps) : comps ≠ [] := by
  rintro rfl
  cases h

theorem exists_component (tail : Text) (comps : List Text) :
    ∀ step ∈ searchSteps tail comps, ∃ left, left ≠ [] ∧ step.digits :: left <:+ comps ∧
      step.object = joinBack '.' left ++ ['.'] ∧ step.digits.all Char.isDigit = true := by
  refine searchSteps_induction (motive := fun _ comps steps => ∀ step ∈ steps, ∃ left, left ≠ [] ∧
    step.digits :: left <:+ comps ∧ step.object = joinBack '.' left ++ ['.'] ∧ step.digits.all Char.isDigit = true)
    ?_ ?_ ?_ tail comps
  · intro _ _ step hStep
    cases hStep
  · intro _ c d rest _ _ _ hDigits _ _ ih
    refine List.forall_mem_cons.mpr ⟨⟨d :: rest, List.cons_ne_nil d rest, List.suffix_refl _, rfl, hDigits⟩, ?_⟩
    intro step hStep
    obtain ⟨left, hNe, hSuffix, hObject⟩ := ih step hStep
    exact ⟨left, hNe, hSuffix.trans (List.suffix_append [c, d] rest), hObject⟩
  · intro _ c d rest _ ih step hStep
    obtain ⟨left, hNe, hSuffix, hObject⟩ := ih step hStep
    exact ⟨left, hNe, hSuffix.trans (List.suffix_cons c (d :: rest)), hObject⟩

theorem instanceName_prefix_of_mem_searchSteps (h : step ∈ searchSteps tail comps) :
    step.instanceName <+: joinBack '.' comps ++ ['.'] := by
  obtain ⟨left, hNe, hSuffix, hObject, -⟩ := exists_component tail comps step h
  have hPrefix := @joinBack_prefix_of_suffix _ '.' _ comps (List.cons_ne_nil step.digits left) hSuffix
  rw [joinBack_cons hNe] at hPrefix
  rw [PrototypeStep.instanceName, hObject]
  simpa using hPrefix

/-- What is tried later belongs to an object further on the left. -/
theorem pairwise_searchSteps (tail : Text) (comps : List Text) :
    (searchSteps tail comps).Pairwise fun first later => later.instanceName <+: first.object := by
  refine searchSteps_induction (motive := fun _ _ steps => steps.Pairwise fun first later =>
    later.instanceName <+: first.object) ?_ ?_ ?_ tail comps
  · exact fun _ _ => List.Pairwise.nil
  · intro _ _ d rest _ _ _ _ _ _ ih
    refine List.Pairwise.cons ?_ ih
    intro later hLater
    exact (instanceName_prefix_of_mem_searchSteps hLater).trans
      ((joinBack_prefix_joinBack (searchSteps_ne_nil hLater) d).trans (List.prefix_append _ _))
  · exact fun _ _ _ _ _ ih => ih

theorem instanceName_prefix_of_mem (h : step ∈ prototypeSteps name) : step.instanceName <+: name := by
  have hJoin : joinBack '.' (componentsBack '.' name) = name := joinBack_componentsBack name
  unfold prototypeSteps at h
  cases hComps : componentsBack '.' name with
  | nil =>
    rw [hComps] at h
    cases h
  | cons c rest =>
    rw [hComps] at h hJoin
    rw [← hJoin]
    exact (instanceName_prefix_of_mem_searchSteps h).trans (joinBack_prefix_joinBack (searchSteps_ne_nil h) c)

theorem pairwise_prototypeSteps (name : Text) :
    (prototypeSteps name).Pairwise fun first later => later.instanceName <+: first.object := by
  unfold prototypeSteps
  cases componentsBack '.' name with
  | nil => exact List.Pairwise.nil
  | cons c rest => exact pairwise_searchSteps c rest

theorem spelling_of_mem (h : step ∈ prototypeSteps name) :
    IsInner '.' step.object ∧ step.digits.all Char.isDigit = true := by
  unfold prototypeSteps at h
  cases hComps : componentsBack '.' name with
  | nil =>
    rw [hComps] at h
    cases h
  | cons c rest =>
    rw [hComps] at h
    obtain ⟨left, -, -, hObject, hDigits⟩ := exists_component c rest step h
    rw [hObject]
    exact ⟨by simp [IsInner], hDigits⟩

/-- The number in a name under the instance is the one in the name. -/
theorem digits_unique {x : Text} {n : Nat} (hDigits : step.digits.all Char.isDigit = true)
    (hName : step.instanceName <+: x) (hChild : child '.' step.object n <+: x) : step.digits = showInt n := by
  obtain ⟨below, rfl⟩ := hName
  have hNumber : ∃ rest, step.digits ++ '.' :: below = showInt n ++ '.' :: rest := by
    obtain ⟨rest, hRest⟩ := hChild
    refine ⟨rest, (List.append_right_inj step.object).mp ?_⟩
    simpa [child, PrototypeStep.instanceName] using hRest.symm
  obtain ⟨rest, hRest⟩ := hNumber
  have hLeft := @takeWhile_append_cons _ Char.isDigit step.digits '.' (List.all_eq_true.mp hDigits) (by decide) below
  have hRight := @takeWhile_append_cons _ Char.isDigit (showInt n) '.' (fun y =>
    isDigit_of_mem_toDigits) (by decide) rest
  rw [← hLeft, hRest, hRight]

end Order

section Chain

variable {name before tail : Text} {comps : List Text} {step : PrototypeStep} {first later : List PrototypeStep}

/-- The prototype has the name with the number taken out. -/
def Leads (before : Text) (step : PrototypeStep) : Prop :=
  ∃ rest, before = step.instanceName ++ rest ∧ step.behind = if rest = [] then [] else '.' :: rest

/-- Each number is taken out of what the one before has left. -/
def LeadsAll : Text → List PrototypeStep → Prop
  | _, [] => True
  | before, step :: later => Leads before step ∧ LeadsAll step.proto later

theorem leadsAll_searchSteps (tail : Text) (comps : List Text) :
    comps ≠ [] → LeadsAll (joinBack '.' comps ++ '.' :: tail) (searchSteps tail comps) := by
  refine searchSteps_induction (motive := fun tail comps steps => comps ≠ [] →
    LeadsAll (joinBack '.' comps ++ '.' :: tail) steps) ?_ ?_ ?_ tail comps
  · exact fun _ _ _ => trivial
  · intro tail c d rest _ behind _ _ _ hBehind ih _
    constructor
    · refine ⟨tail, ?_, hBehind⟩
      rw [joinBack_cons (List.cons_ne_nil d rest), PrototypeStep.instanceName]
      simp
    · cases rest with
      | nil => trivial
      | cons e rest =>
        have hNext := ih (List.cons_ne_nil e rest)
        rw [PrototypeStep.proto, joinBack_cons (List.cons_ne_nil e rest)]
        simpa using hNext
  · intro _ c d rest _ ih _
    rw [joinBack_cons (List.cons_ne_nil d rest)]
    simpa using ih (List.cons_ne_nil d rest)

theorem leadsAll_prototypeSteps (name : Text) : LeadsAll name (prototypeSteps name) := by
  have hJoin : joinBack '.' (componentsBack '.' name) = name := joinBack_componentsBack name
  unfold prototypeSteps
  match hComps : componentsBack '.' name with
  | [] => trivial
  | [c] => trivial
  | c :: d :: rest =>
    rw [hComps, joinBack_cons (List.cons_ne_nil d rest)] at hJoin
    have hAll := leadsAll_searchSteps c (d :: rest) (List.cons_ne_nil d rest)
    rwa [hJoin] at hAll

/-- What the numbers on the right of a step have left of the name. -/
def leftBefore (name : Text) (first : List PrototypeStep) : Text := (first.map PrototypeStep.proto).getLastD name

theorem leads_of_leadsAll (h : LeadsAll name (first ++ step :: later)) : Leads (leftBefore name first) step := by
  induction first generalizing name with
  | nil => exact h.1
  | cons other first ih =>
    rw [leftBefore, List.map_cons, List.getLastD_cons]
    exact ih h.2

end Chain

end Tr069Agent.Engine
