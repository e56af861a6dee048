import Tr069Agent.Engine.DataModelConfiguration
import Tr069Agent.Engine.ParameterLoading
import Tr069Agent.Engine.PrototypeSearch

/-! # The two searches for a prototype

The loop over `_computeProto` tells whether a name can be that of an instance, and `_getParameter` looks for
the prototype to make the instance from. They go through the components of a name in the same order, but they
do not take out the same numbers.
-/

namespace Tr069Agent.Engine

open Library Library.BackwardPath Loading
open SetParameterValues (computeProto)

set_option autoImplicit false

section Scan

variable {name left tail word number before : Text} {k : Nat} {x : Char}

theorem getD_append_cons (left : Text) (x : Char) (tail : Text) : (left ++ x :: tail).getD left.length ' ' = x := by
  simp

/-- A part is passed whose characters leave the scan as it is. -/
theorem computeProto_pass (hName : name = left ++ (word ++ tail))
    (hPass : ∀ x ∈ word, ∀ i, name.getD i ' ' = x → computeProto name k (i + 1) = computeProto name k i) :
    computeProto name k (left.length + word.length) = computeProto name k left.length := by
  induction word using List.reverseRecOn generalizing tail with
  | nil => rfl
  | append_singleton word x ih =>
    have hAt : name.getD (left.length + word.length) ' ' = x := by
      rw [hName, List.append_assoc, ← List.append_assoc, ← List.length_append]
      exact getD_append_cons _ x tail
    have hRest : name = left ++ (word ++ x :: tail) := by rw [hName, List.append_assoc, List.singleton_append]
    rw [List.length_append, List.length_singleton, ← Nat.add_assoc,
      hPass x (List.mem_append_right _ List.mem_cons_self) _ hAt]
    exact ih hRest fun y hy => hPass y (List.mem_append_left _ hy)

theorem computeProto_word (hName : name = left ++ (word ++ tail)) (hFree : '.' ∉ word) :
    computeProto name 0 (left.length + word.length) = computeProto name 0 left.length := by
  apply computeProto_pass hName
  intro x hx i hAt
  have hDot : x ≠ '.' := by
    rintro rfl
    exact hFree hx
  rw [computeProto, if_pos rfl, hAt, if_neg hDot]

theorem computeProto_digits (hName : name = left ++ (number ++ tail)) (hDigits : ∀ y ∈ number, y.isDigit = true)
    (hk : k ≠ 0) : computeProto name k (left.length + number.length) = computeProto name k left.length := by
  apply computeProto_pass hName
  intro x hx i hAt
  have hDigit := hDigits x hx
  have hDot : x ≠ '.' := by
    rintro rfl
    cases hDigit
  rw [computeProto, if_neg hk, hAt, if_neg hDot, if_pos hDigit]

theorem computeProto_dot (hName : name = left ++ '.' :: tail) :
    computeProto name 0 (left.length + 1) = computeProto name left.length left.length := by
  rw [computeProto]
  rw [if_pos rfl, hName, getD_append_cons, if_pos rfl]

theorem computeProto_stop (hName : name = left ++ x :: tail) (hStop : x.isDigit = false) (hx : x ≠ '.')
    (hk : k ≠ 0) : computeProto name k (left.length + 1) = computeProto name 0 left.length := by
  rw [computeProto]
  rw [if_neg hk, hName, getD_append_cons, if_neg hx, hStop]
  rfl

/-- A component between two dots that has digits only. -/
def isNumber (component : Text) : Bool := component ≠ [] && component.all Char.isDigit

theorem isNumber_iff : isNumber word = true ↔ word ≠ [] ∧ word.all Char.isDigit = true := by
  simp [isNumber]

theorem computeProto_component (hName : name = left ++ (word ++ '.' :: tail)) (hFree : '.' ∉ word)
    (hWord : word.all Char.isDigit = false) :
    computeProto name (left.length + word.length) (left.length + word.length) = computeProto name 0 left.length := by
  obtain ⟨before, x, digits, rfl, hStop, hPass⟩ := exists_stop hWord
  have hBefore : '.' ∉ before := fun hMem => hFree (List.mem_append_left _ hMem)
  have hx : x ≠ '.' := by
    rintro rfl
    simp at hFree
  have hDigits : name = (left ++ (before ++ [x])) ++ (digits ++ '.' :: tail) := by
    rw [hName]
    simp
  have hAt : name = (left ++ before) ++ x :: (digits ++ '.' :: tail) := by
    rw [hName]
    simp
  have hFront : name = left ++ (before ++ x :: (digits ++ '.' :: tail)) := by
    rw [hAt, List.append_assoc]
  have hk : left.length + (before ++ x :: digits).length ≠ 0 := by
    rw [List.length_append, List.length_cons]
    omega
  have hLength : left.length + (before ++ x :: digits).length = (left ++ (before ++ [x])).length + digits.length := by
    simp only [List.length_append, List.length_cons, List.length_nil]
    omega
  have hBack : (left ++ (before ++ [x])).length = (left ++ before).length + 1 := by
    simp only [List.length_append, List.length_cons, List.length_nil]
    omega
  calc
    computeProto name (left.length + (before ++ x :: digits).length) (left.length + (before ++ x :: digits).length)
      = computeProto name (left.length + (before ++ x :: digits).length) (left ++ (before ++ [x])).length := by
        conv_lhs => rw [hLength]
        rw [computeProto_digits hDigits hPass (hLength ▸ hk), ← hLength]
    _ = computeProto name 0 (left ++ before).length := by rw [hBack, computeProto_stop hAt hStop hx hk]
    _ = computeProto name 0 left.length := by
      rw [List.length_append]
      exact computeProto_word hFront hBefore

/-- Two dots in a row count as the one on the left. -/
theorem computeProto_empty (hName : name = left ++ '.' :: '.' :: tail) :
    computeProto name (left.length + 1) (left.length + 1) = computeProto name left.length left.length := by
  rw [computeProto, if_neg (Nat.succ_ne_zero _), hName, getD_append_cons, if_pos rfl, if_pos (by omega)]

/-- A number between two dots is taken out, unless the name begins with the first of them. -/
theorem computeProto_number (hName : name = left ++ '.' :: (number ++ '.' :: tail)) (hNumber : isNumber number = true) :
    computeProto name (left.length + 1 + number.length) (left.length + 1 + number.length) =
      if left = [] then none else some (left ++ '.' :: '.' :: tail) := by
  obtain ⟨hNe, hDigits⟩ := isNumber_iff.mp hNumber
  have hPass : ∀ y ∈ number, y.isDigit = true := List.all_eq_true.mp hDigits
  have hLong : 0 < number.length := List.length_pos_iff.mpr hNe
  have hRest : name = (left ++ ['.']) ++ (number ++ '.' :: tail) := by
    rw [hName]
    simp
  have hBack : (left ++ ['.']).length = left.length + 1 := by
    rw [List.length_append, List.length_singleton]
  have hTake : name.take (left.length + 1) = left ++ ['.'] := by
    rw [hRest, ← hBack, List.take_left]
  have hDrop : name.drop (left.length + 1 + number.length) = '.' :: tail := by
    rw [hRest, ← hBack, ← List.length_append, ← List.append_assoc, List.drop_left]
  have hScan := @computeProto_digits name (left ++ ['.']) ('.' :: tail) number (left.length + 1 + number.length) hRest
    hPass (by omega)
  rw [hBack] at hScan
  rw [hScan, computeProto, if_neg (by omega), hDrop, hTake]
  conv_lhs => rw [hName, getD_append_cons]
  rw [if_pos rfl, if_neg (by omega), List.append_assoc, List.singleton_append]
  simp only [List.length_eq_zero_iff]

theorem computeProto_first (hName : name = word ++ '.' :: tail) (hFree : '.' ∉ word) :
    computeProto name word.length word.length = none := by
  obtain hDigits | hWord := Bool.eq_false_or_eq_true (word.all Char.isDigit)
  · obtain rfl | hNe := eq_or_ne word []
    · rfl
    · have hPass : ∀ y ∈ word, y.isDigit = true := List.all_eq_true.mp hDigits
      have hScan := @computeProto_digits name [] ('.' :: tail) word word.length hName hPass
        (List.length_pos_iff.mpr hNe).ne'
      rw [List.length_nil, Nat.zero_add] at hScan
      rw [hScan]
      rfl
  · have hScan := @computeProto_component name [] tail word hName hFree hWord
    rw [List.length_nil, Nat.zero_add] at hScan
    rw [hScan]
    rfl

end Scan

section Loop

variable {dm : DataModel} {rounds : Nat} {name left tail c d : Text} {comps rest : List Text}

/-- What the loop over `_computeProto` tries from the components of a name that are left, from the last to the
first, where `tail` is what comes behind their last dot. -/
def protoNames : Text → List Text → List Text
  | tail, c :: d :: rest =>
    if d :: rest = [[]] then []
    else if isNumber c then (joinBack '.' (d :: rest) ++ '.' :: '.' :: tail) :: protoNames ('.' :: tail) (d :: rest)
    else protoNames (c ++ '.' :: tail) (d :: rest)
  | _, _ => []

theorem protoNames_end (hLeft : d :: rest = [[]]) : protoNames tail (c :: d :: rest) = [] := by
  rw [protoNames, if_pos hLeft]

theorem protoNames_number (hLeft : d :: rest ≠ [[]]) (hNumber : isNumber c = true) :
    protoNames tail (c :: d :: rest) =
      (joinBack '.' (d :: rest) ++ '.' :: '.' :: tail) :: protoNames ('.' :: tail) (d :: rest) := by
  rw [protoNames, if_neg hLeft, if_pos hNumber]

theorem protoNames_word (hWord : isNumber c = false) :
    protoNames tail (c :: d :: rest) = protoNames (c ++ '.' :: tail) (d :: rest) := by
  by_cases hLeft : d :: rest = [[]]
  · rw [protoNames_end hLeft, hLeft]
    rfl
  · rw [protoNames, if_neg hLeft, if_neg (by simp [hWord])]

theorem computeProto_passed (hName : name = left ++ '.' :: (c ++ '.' :: tail)) (hFree : '.' ∉ c)
    (hWord : isNumber c = false) :
    computeProto name (left ++ '.' :: c).length (left ++ '.' :: c).length =
      computeProto name left.length left.length := by
  obtain rfl | hNe := eq_or_ne c []
  · rw [List.length_append, List.length_singleton]
    exact computeProto_empty hName
  · have hDigits : c.all Char.isDigit = false := by simpa [isNumber, hNe] using hWord
    have hRest : name = (left ++ ['.']) ++ (c ++ '.' :: tail) := by
      rw [hName]
      simp
    have hLength : (left ++ '.' :: c).length = (left ++ ['.']).length + c.length := by simp; omega
    have hBack : (left ++ ['.']).length = left.length + 1 := by rw [List.length_append, List.length_singleton]
    rw [hLength, computeProto_component hRest hFree hDigits, hBack, computeProto_dot hName]

/-- Nothing is taken out of what is behind the dot. -/
def Clean (tail : Text) : Prop :=
  ∀ left, computeProto (left ++ '.' :: tail) 0 (left ++ '.' :: tail).length =
    computeProto (left ++ '.' :: tail) left.length left.length

theorem clean_component (h : '.' ∉ c) : Clean c := by
  intro left
  have hRest : left ++ '.' :: c = (left ++ ['.']) ++ (c ++ []) := by simp
  have hLength : (left ++ '.' :: c).length = (left ++ ['.']).length + c.length := by simp; omega
  have hBack : (left ++ ['.']).length = left.length + 1 := by rw [List.length_append, List.length_singleton]
  rw [hLength, computeProto_word hRest h, hBack, computeProto_dot rfl]

theorem Clean.passed (h : Clean tail) (hFree : '.' ∉ c) (hWord : isNumber c = false) : Clean (c ++ '.' :: tail) := by
  intro left
  have hAll := h (left ++ '.' :: c)
  rw [List.append_assoc, List.cons_append] at hAll
  rw [hAll, computeProto_passed rfl hFree hWord]

theorem Clean.taken (h : Clean tail) : Clean ('.' :: tail) := by
  have hEmpty : isNumber [] = false := by decide
  exact h.passed List.not_mem_nil hEmpty

/-- One call of `_computeProto` from a dot on gives the first name that is tried. -/
theorem computeProto_eq_head (hFree : ∀ c ∈ comps, '.' ∉ c) (hName : name = joinBack '.' comps ++ '.' :: tail)
    (hNe : comps ≠ []) :
    computeProto name (joinBack '.' comps).length (joinBack '.' comps).length = (protoNames tail comps).head? := by
  induction comps generalizing tail with
  | nil => exact absurd rfl hNe
  | cons c rest ih =>
    obtain ⟨hC, hRest⟩ := List.forall_mem_cons.mp hFree
    cases rest with
    | nil => exact computeProto_first hName hC
    | cons d rest =>
      rw [joinBack_cons (List.cons_ne_nil d rest)] at hName ⊢
      rw [List.append_assoc, List.cons_append] at hName
      have hStep := ih hRest hName (List.cons_ne_nil d rest)
      obtain hNumber | hWord := Bool.eq_false_or_eq_true (isNumber c)
      · have hLength : (joinBack '.' (d :: rest) ++ '.' :: c).length =
            (joinBack '.' (d :: rest)).length + 1 + c.length := by
          rw [List.length_append, List.length_cons]
          omega
        rw [hLength, computeProto_number hName hNumber]
        by_cases hLeft : d :: rest = [[]]
        · rw [protoNames_end hLeft, if_pos (joinBack_eq_nil_iff.mpr hLeft)]
          rfl
        · rw [protoNames_number hLeft hNumber, if_neg fun hJoin => hLeft (joinBack_eq_nil_iff.mp hJoin)]
          rfl
      · rw [computeProto_passed hName hC hWord, hStep, protoNames_word hWord]

/-- From a dot on, the loop tries these names, after the name itself. -/
theorem findTarget_eq_findSome (hFree : ∀ c ∈ comps, '.' ∉ c) (hClean : Clean tail) (hNe : comps ≠ [])
    (hRounds : comps.length ≤ rounds + 1) :
    findTarget dm rounds (joinBack '.' comps ++ '.' :: tail) =
      (dm.getParameter (joinBack '.' comps ++ '.' :: tail)).or ((protoNames tail comps).findSome? dm.getParameter) := by
  induction comps generalizing tail rounds with
  | nil => exact absurd rfl hNe
  | cons c rest ih =>
    obtain ⟨hC, hRest⟩ := List.forall_mem_cons.mp hFree
    cases rest with
    | nil =>
      cases rounds with
      | zero => simp [findTarget, protoNames]
      | succ rounds =>
        rw [findTarget, hClean, computeProto_eq_head hFree rfl hNe]
        rfl
    | cons d rest =>
      obtain ⟨rounds, rfl⟩ : ∃ more, rounds = more + 1 := ⟨rounds - 1, by
        simp only [List.length_cons] at hRounds
        omega⟩
      have hShort : (d :: rest).length ≤ rounds + 1 := Nat.le_of_succ_le_succ hRounds
      obtain hNumber | hWord := Bool.eq_false_or_eq_true (isNumber c)
      · rw [findTarget, hClean, computeProto_eq_head hFree rfl hNe]
        by_cases hLeft : d :: rest = [[]]
        · rw [protoNames_end hLeft]
          rfl
        · have hNext := ih hRest hClean.taken (List.cons_ne_nil d rest) hShort
          rw [protoNames_number hLeft hNumber, List.head?_cons, Option.bind_some, hNext, List.findSome?_cons]
          cases dm.getParameter (joinBack '.' (d :: rest) ++ '.' :: '.' :: tail) <;> rfl
      · rw [protoNames_word hWord, joinBack_cons (List.cons_ne_nil d rest), List.append_assoc, List.cons_append]
        exact ih hRest (hClean.passed hC hWord) (List.cons_ne_nil d rest) (Nat.le_succ_of_le hShort)

end Loop

section Names

variable {dm : DataModel} {name tail c d : Text} {comps rest : List Text}

def prototypeNames (name : Text) : List Text :=
  match componentsBack '.' name with
  | [] => []
  | c :: rest => protoNames c rest

theorem isSome_findTarget_iff :
    (findTarget dm name.length name).isSome = true ↔ name ∈ dm.names ∨ ∃ x ∈ prototypeNames name, x ∈ dm.names := by
  have hJoin : joinBack '.' (componentsBack '.' name) = name := joinBack_componentsBack name
  have hFree : ∀ c ∈ componentsBack '.' name, '.' ∉ c := fun c => sep_notMem_of_mem_componentsBack
  unfold prototypeNames
  match hComps : componentsBack '.' name with
  | [] => exact absurd hComps (componentsBack_ne_nil name)
  | [c] =>
    rw [hComps] at hJoin hFree
    have hScan : computeProto name 0 name.length = none := by
      have hWord := @computeProto_word name [] [] name (by simp) (hJoin ▸ hFree c List.mem_cons_self)
      rw [List.length_nil, Nat.zero_add] at hWord
      rw [hWord]
      rfl
    have hFound : findTarget dm name.length name = dm.getParameter name := by
      cases name.length <;> simp [findTarget, hScan]
    rw [hFound, isSome_getParameter_iff]
    simp [protoNames]
  | c :: d :: rest =>
    rw [hComps] at hJoin hFree
    obtain ⟨hC, hRest⟩ := List.forall_mem_cons.mp hFree
    rw [joinBack_cons (List.cons_ne_nil d rest)] at hJoin
    have hRounds : (d :: rest).length ≤ name.length + 1 := by
      have hLength := @length_le_joinBack _ '.' d rest
      rw [← hJoin, List.length_append, List.length_cons, List.length_cons]
      omega
    have hFound := @findTarget_eq_findSome dm name.length c (d :: rest) hRest (clean_component hC)
      (List.cons_ne_nil d rest) hRounds
    rw [hJoin] at hFound
    rw [hFound, Option.isSome_or, Bool.or_eq_true, isSome_getParameter_iff, List.findSome?_isSome_iff]
    simp only [isSome_getParameter_iff]

theorem isSome_findInstance_iff :
    (findInstance dm name.length name.reverse []).isSome = true ↔
      ∃ x ∈ (prototypeSteps name).map PrototypeStep.proto, x ∈ dm.names := by
  rw [findInstance_name, Option.isSome_map, List.find?_isSome]
  simp only [List.mem_map, exists_exists_and_eq_and, hasPrototype, isSome_getParameter_iff]

end Names

section Agreement

variable {dm : DataModel} {name tail c d : Text} {comps rest : List Text}

/-- The names that both searches try, and behind the place where they part those of each alone. -/
structure TriedNames where
  both : List Text
  protoOnly : List Text
  searchOnly : List Text
  deriving DecidableEq

/-- The searches part at an empty component or a number of more than 32 bits, where `_getParameter` ends, at a
number that ends the name, which it takes out with its dot, and at a number with another one on its left, which it
passes over. -/
def triedNamesFrom : Text → List Text → TriedNames
  | tail, c :: d :: rest =>
    if d :: rest = [[]] then ⟨[], [], []⟩
    else if c.all Char.isDigit then
      if stringToUint c = none ∨ tail = [] then
        ⟨[], protoNames tail (c :: d :: rest), (searchSteps tail (c :: d :: rest)).map PrototypeStep.proto⟩
      else
        let proto := joinBack '.' (d :: rest) ++ '.' :: '.' :: tail
        if isNumber d then
          ⟨[proto], protoNames ('.' :: tail) (d :: rest),
            (searchSteps (d ++ '.' :: '.' :: tail) rest).map PrototypeStep.proto⟩
        else
          let more := triedNamesFrom (d ++ '.' :: '.' :: tail) rest
          { more with both := proto :: more.both }
    else triedNamesFrom (c ++ '.' :: tail) (d :: rest)
  | _, _ => ⟨[], [], []⟩

def triedNames (name : Text) : TriedNames :=
  match componentsBack '.' name with
  | [] => ⟨[], [], []⟩
  | c :: rest => triedNamesFrom c rest

theorem stringToUint_nil : stringToUint [] = none := by decide

theorem isNumber_of_stringToUint {instanceNb : Nat} (hDigits : c.all Char.isDigit = true)
    (h : stringToUint c = some instanceNb) : isNumber c = true := by
  refine isNumber_iff.mpr ⟨?_, hDigits⟩
  rintro rfl
  rw [stringToUint_nil] at h
  cases h

theorem isNumber_of_not_all (h : ¬ c.all Char.isDigit = true) : isNumber c = false := by
  rw [isNumber, Bool.eq_false_iff.mpr h, Bool.and_false]

theorem protoNames_passed (h : isNumber d = false) :
    protoNames tail (d :: rest) = protoNames (d ++ '.' :: tail) rest := by
  cases rest with
  | nil => rfl
  | cons e rest => exact protoNames_word h

theorem numbers_taken (hLeft : d :: rest ≠ [[]]) (hDigits : c.all Char.isDigit = true)
    (hGoes : ¬ (stringToUint c = none ∨ tail = [])) :
    protoNames tail (c :: d :: rest) =
        (joinBack '.' (d :: rest) ++ '.' :: '.' :: tail) :: protoNames ('.' :: tail) (d :: rest) ∧
      (searchSteps tail (c :: d :: rest)).map PrototypeStep.proto =
        (joinBack '.' (d :: rest) ++ '.' :: '.' :: tail) ::
          (searchSteps (d ++ '.' :: '.' :: tail) rest).map PrototypeStep.proto := by
  obtain ⟨hSome, hTail⟩ := not_or.mp hGoes
  obtain ⟨instanceNb, hNumber⟩ := Option.ne_none_iff_exists'.mp hSome
  refine ⟨protoNames_number hLeft (isNumber_of_stringToUint hDigits hNumber), ?_⟩
  rw [searchSteps_number hLeft hDigits hNumber, if_neg hTail, List.map_cons, PrototypeStep.proto, List.append_assoc,
    List.singleton_append]

theorem triedNames_split (tail : Text) (comps : List Text) :
    protoNames tail comps = (triedNamesFrom tail comps).both ++ (triedNamesFrom tail comps).protoOnly ∧
      (searchSteps tail comps).map PrototypeStep.proto =
        (triedNamesFrom tail comps).both ++ (triedNamesFrom tail comps).searchOnly := by
  induction tail, comps using triedNamesFrom.induct with
  | case1 tail c d rest hLeft =>
    rw [triedNamesFrom, if_pos hLeft, protoNames_end hLeft, searchSteps_end hLeft]
    exact ⟨rfl, rfl⟩
  | case2 tail c d rest hLeft hDigits hParts =>
    rw [triedNamesFrom, if_neg hLeft, if_pos hDigits, if_pos hParts]
    exact ⟨rfl, rfl⟩
  | case3 tail c d rest hLeft hDigits hGoes hNumber =>
    obtain ⟨hProto, hSearch⟩ := numbers_taken hLeft hDigits hGoes
    rw [triedNamesFrom, if_neg hLeft, if_pos hDigits, if_neg hGoes, if_pos hNumber, hProto, hSearch]
    exact ⟨rfl, rfl⟩
  | case4 tail c d rest hLeft hDigits hGoes hWord ih =>
    obtain ⟨hProto, hSearch⟩ := numbers_taken hLeft hDigits hGoes
    rw [triedNamesFrom, if_neg hLeft, if_pos hDigits, if_neg hGoes, if_neg hWord, hProto, hSearch,
      protoNames_passed (Bool.eq_false_iff.mpr hWord)]
    exact ⟨congrArg (_ :: ·) ih.1, congrArg (_ :: ·) ih.2⟩
  | case5 tail c d rest hLeft hWord ih =>
    rw [triedNamesFrom, if_neg hLeft, if_neg hWord, protoNames_word (isNumber_of_not_all hWord),
      searchSteps_word (Bool.eq_false_iff.mpr hWord)]
    exact ih
  | case6 comps tail hShort =>
    match comps, hShort with
    | [], _ => exact ⟨rfl, rfl⟩
    | [c], _ => exact ⟨rfl, rfl⟩
    | c :: d :: rest, hShort => exact absurd rfl (hShort c d rest)

/-- The searches agree on a name that is not in the data model. -/
def SearchesAgree (dm : DataModel) (name : Text) : Prop :=
  dm.getParameter name = none →
    ((findTarget dm name.length name).isSome = true ↔ (findInstance dm name.length name.reverse []).isSome = true)

/-- A name that both searches try is in the data model, or the names that only one of them tries lead both to
something or none. -/
def TriedNames.Agree (dm : DataModel) (tried : TriedNames) : Prop :=
  (∃ x ∈ tried.both, x ∈ dm.names) ∨ ((∃ x ∈ tried.protoOnly, x ∈ dm.names) ↔ ∃ x ∈ tried.searchOnly, x ∈ dm.names)

theorem exists_mem_append_iff {names left right : List Text} :
    (∃ x ∈ left ++ right, x ∈ names) ↔ (∃ x ∈ left, x ∈ names) ∨ ∃ x ∈ right, x ∈ names := by
  simp only [List.mem_append, or_and_right, exists_or]

theorem found_iff_tried (dm : DataModel) (name : Text) :
    ((findTarget dm name.length name).isSome = true ↔ name ∈ dm.names ∨
        (∃ x ∈ (triedNames name).both, x ∈ dm.names) ∨ ∃ x ∈ (triedNames name).protoOnly, x ∈ dm.names) ∧
      ((findInstance dm name.length name.reverse []).isSome = true ↔
        (∃ x ∈ (triedNames name).both, x ∈ dm.names) ∨ ∃ x ∈ (triedNames name).searchOnly, x ∈ dm.names) := by
  have hSplit : prototypeNames name = (triedNames name).both ++ (triedNames name).protoOnly ∧
      (prototypeSteps name).map PrototypeStep.proto = (triedNames name).both ++ (triedNames name).searchOnly := by
    unfold prototypeNames prototypeSteps triedNames
    cases componentsBack '.' name with
    | nil => exact ⟨rfl, rfl⟩
    | cons c rest => exact triedNames_split c rest
  constructor
  · rw [isSome_findTarget_iff, hSplit.1, exists_mem_append_iff]
  · rw [isSome_findInstance_iff, hSplit.2, exists_mem_append_iff]

/-- The two searches for a prototype agree exactly on these names. -/
theorem searchesAgree_iff (dm : DataModel) (name : Text) :
    SearchesAgree dm name ↔ name ∈ dm.names ∨ (triedNames name).Agree dm := by
  have hAbsent : dm.getParameter name = none ↔ name ∉ dm.names := by
    rw [← isSome_getParameter_iff, Bool.not_eq_true, Option.isSome_eq_false_iff, Option.isNone_iff_eq_none]
  obtain ⟨hTarget, hInstance⟩ := found_iff_tried dm name
  rw [SearchesAgree, hAbsent, hTarget, hInstance, TriedNames.Agree]
  obtain hHere | hNone := Classical.em (name ∈ dm.names)
  · exact iff_of_true (fun hNot => absurd hHere hNot) (.inl hHere)
  · obtain hBoth | hApart := Classical.em (∃ x ∈ (triedNames name).both, x ∈ dm.names)
    · exact iff_of_true (fun _ => iff_of_true (.inr (.inl hBoth)) (.inl hBoth)) (.inr (.inl hBoth))
    · simp only [hNone, hApart, not_false_eq_true, true_imp_iff, false_or]

def unnumberedStore : DataModel :=
  ["Device.".toList, "Device.A.".toList, "Device.A..X".toList].map fun name => newDefinedParameter name .any none false

/-- The instance could be made, but the node `Device.A..` is not there. -/
theorem instanceNode_disagrees : ¬ SearchesAgree unnumberedStore "Device.A.3.".toList := by
  have hAbsent : unnumberedStore.getParameter "Device.A.3.".toList = none := by decide +kernel
  have hProto : (findTarget unnumberedStore 11 "Device.A.3.".toList).isSome = false := by decide +kernel
  have hSearch : (findInstance unnumberedStore 11 "Device.A.3.".toList.reverse []).isSome = true := by decide +kernel
  intro hAgree
  have hBack := (hAgree hAbsent).mpr hSearch
  exact Bool.false_ne_true (hProto.symm.trans hBack)

end Agreement

section Regularity

variable {dm : DataModel} {name tail c d : Text} {comps rest : List Text}

/-- No component is empty, and each number fits 32 bits and has no other one on its left. -/
def RegularParts : List Text → Prop
  | c :: d :: rest =>
    c ≠ [] ∧ (c.all Char.isDigit = true → (stringToUint c).isSome = true ∧ isNumber d = false) ∧
      RegularParts (d :: rest)
  | _ => True

/-- A name whose numbers are those of instances, and that does not end with one. -/
def RegularName (name : Text) : Prop :=
  match componentsBack '.' name with
  | [] => True
  | c :: rest => (c = [] → ∀ d ∈ rest.head?, isNumber d = false) ∧ RegularParts rest

theorem triedNames_regular (hParts : RegularParts comps) (hTail : tail = [] → ∀ c ∈ comps.head?, isNumber c = false) :
    (triedNamesFrom tail comps).protoOnly = [] ∧ (triedNamesFrom tail comps).searchOnly = [] := by
  induction tail, comps using triedNamesFrom.induct with
  | case1 tail c d rest hLeft =>
    rw [triedNamesFrom, if_pos hLeft]
    exact ⟨rfl, rfl⟩
  | case2 tail c d rest hLeft hDigits hParted =>
    obtain ⟨hNe, hNumber, -⟩ := hParts
    obtain hNone | hNil := hParted
    · exact absurd (hNumber hDigits).1 (by simp [hNone])
    · have hWord := hTail hNil c rfl
      rw [isNumber_iff.mpr ⟨hNe, hDigits⟩] at hWord
      cases hWord
  | case3 tail c d rest hLeft hDigits hGoes hNumber =>
    obtain ⟨-, hParted, -⟩ := hParts
    rw [(hParted hDigits).2] at hNumber
    cases hNumber
  | case4 tail c d rest hLeft hDigits hGoes hWord ih =>
    rw [triedNamesFrom, if_neg hLeft, if_pos hDigits, if_neg hGoes, if_neg hWord]
    refine ih ?_ fun hNil => absurd hNil (by simp)
    cases rest with
    | nil => trivial
    | cons e rest => exact hParts.2.2.2.2
  | case5 tail c d rest hLeft hWord ih =>
    rw [triedNamesFrom, if_neg hLeft, if_neg hWord]
    exact ih hParts.2.2 fun hNil => absurd hNil (by simp)
  | case6 comps tail hShort =>
    match comps, hShort with
    | [], _ => exact ⟨rfl, rfl⟩
    | [c], _ => exact ⟨rfl, rfl⟩
    | c :: d :: rest, hShort => exact absurd rfl (hShort c d rest)

/-- On a regular name the searches agree whatever the data model is. -/
theorem searchesAgree_of_regular (dm : DataModel) (h : RegularName name) : SearchesAgree dm name := by
  have hAlike : (triedNames name).protoOnly = [] ∧ (triedNames name).searchOnly = [] := by
    unfold RegularName at h
    unfold triedNames
    cases hComps : componentsBack '.' name with
    | nil => exact ⟨rfl, rfl⟩
    | cons c rest =>
      rw [hComps] at h
      exact triedNames_regular h.2 h.1
  obtain ⟨hTarget, hInstance⟩ := found_iff_tried dm name
  intro hAbsent
  have hNone : name ∉ dm.names := by
    rw [← isSome_getParameter_iff, hAbsent]
    exact Bool.false_ne_true
  rw [hTarget, hInstance, hAlike.1, hAlike.2]
  simp only [hNone, List.not_mem_nil, false_and, exists_false, or_false, false_or]

end Regularity

end Tr069Agent.Engine
