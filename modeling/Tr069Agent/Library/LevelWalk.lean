import Mathlib.Data.List.Flatten
import Mathlib.Data.List.Nodup
import Mathlib.Data.List.TakeWhile

/-! # Walking down hierarchical names

Names are lists in which a separator ends each level. From a node, whose name ends with the separator,
the next level holds the names below it that have no separator before their last place. A walk goes from
level to level. It meets each name exactly once whose nodes above it are listed.
-/

namespace Tr069Agent.Library.LevelWalk

set_option autoImplicit false

variable {α : Type*} [DecidableEq α] (sep : α)

def isNextLevel (path name : List α) : Bool :=
  path.length < name.length && path.isPrefixOf name && sep ∉ (name.drop path.length).dropLast

def children (names : List (List α)) (path : List α) : List (List α) :=
  names.filter (isNextLevel sep path)

def IsNode (name : List α) : Prop := name.getLast? = some sep

instance (name : List α) : Decidable (IsNode sep name) := inferInstanceAs (Decidable (_ = _))

/-- The names below the path, as far down as there are levels to go. -/
def walk (names : List (List α)) : Nat → List α → List (List α)
  | 0, _ => []
  | levels + 1, path =>
    (children sep names path).flatMap fun name =>
      name :: if IsNode sep name then walk names levels name else []

/-- A node of the list lies on the way from the path down to the name. -/
def OnTheWay (path name node : List α) : Prop :=
  path <+: node ∧ path.length < node.length ∧ node <+: name ∧ node.length < name.length ∧ IsNode sep node

variable {sep} {path name node other : List α} {names : List (List α)} {levels : Nat}

theorem isNextLevel_iff :
    isNextLevel sep path name = true ↔ ∃ rest, name = path ++ rest ∧ rest ≠ [] ∧ sep ∉ rest.dropLast := by
  simp only [isNextLevel, Bool.and_eq_true, decide_eq_true_eq, List.isPrefixOf_iff_prefix]
  constructor
  · rintro ⟨⟨hLess, rest, rfl⟩, hLevel⟩
    rw [List.drop_left] at hLevel
    refine ⟨rest, rfl, ?_, hLevel⟩
    rintro rfl
    simp at hLess
  · rintro ⟨rest, rfl, hRest, hLevel⟩
    have hPos : 0 < rest.length := List.length_pos_iff.mpr hRest
    rw [List.length_append, List.drop_left]
    exact ⟨⟨by omega, List.prefix_append path rest⟩, hLevel⟩

theorem length_of_isNextLevel (h : isNextLevel sep path name = true) : path.length < name.length := by
  obtain ⟨rest, rfl, hRest, -⟩ := isNextLevel_iff.mp h
  have hPos : 0 < rest.length := List.length_pos_iff.mpr hRest
  rw [List.length_append]
  omega

theorem prefix_of_isNextLevel (h : isNextLevel sep path name = true) : path <+: name := by
  obtain ⟨rest, rfl, -, -⟩ := isNextLevel_iff.mp h
  exact List.prefix_append path rest

/-- No node lies between two levels that follow each other. -/
theorem not_onTheWay_of_isNextLevel (h : isNextLevel sep path name = true) : ¬ OnTheWay sep path name node := by
  rintro ⟨⟨front, rfl⟩, hLong, hBelow, hShort, hInner⟩
  obtain ⟨rest, rfl, -, hLevel⟩ := isNextLevel_iff.mp h
  rw [List.length_append] at hLong
  have hFront : front ≠ [] := by
    rintro rfl
    simp at hLong
  obtain ⟨back, rfl⟩ : front <+: rest := (List.prefix_append_right_inj path).mp hBelow
  have hBack : back ≠ [] := by
    rintro rfl
    simp at hShort
  apply hLevel
  rw [List.dropLast_append_of_ne_nil hBack]
  apply List.mem_append_left
  rw [IsNode, List.getLast?_append_of_ne_nil _ hFront] at hInner
  exact List.mem_of_getLast? hInner

/-- The first level on the way down is the name itself or a node. -/
theorem exists_nextLevel (hBelow : path <+: name) (hLess : path.length < name.length) :
    ∃ first, isNextLevel sep path first = true ∧ (first = name ∨ OnTheWay sep path name first) := by
  obtain ⟨rest, rfl⟩ := hBelow
  rw [List.length_append] at hLess
  have hSplit := List.takeWhile_append_dropWhile (p := fun c => decide (c ≠ sep)) (l := rest)
  generalize hFront : rest.takeWhile (fun c => decide (c ≠ sep)) = front at hSplit
  have hClear : sep ∉ front := by
    rw [← hFront]
    intro hMem
    simpa using List.mem_takeWhile_imp hMem
  cases hBack : rest.dropWhile (fun c => decide (c ≠ sep)) with
  | nil =>
    rw [hBack, List.append_nil] at hSplit
    subst hSplit
    have hRest : front ≠ [] := by
      rintro rfl
      simp at hLess
    exact ⟨path ++ front, isNextLevel_iff.mpr ⟨front, rfl, hRest, fun h => hClear (List.dropLast_subset _ h)⟩,
      .inl rfl⟩
  | cons c back =>
    obtain rfl : c = sep := by
      have hHead := List.head?_dropWhile_not (fun c => decide (c ≠ sep)) rest
      rw [hBack] at hHead
      simpa using hHead
    rw [hBack] at hSplit
    have hNext : isNextLevel c path (path ++ (front ++ [c])) = true := by
      refine isNextLevel_iff.mpr ⟨front ++ [c], rfl, by simp, ?_⟩
      rwa [List.dropLast_concat]
    refine ⟨path ++ (front ++ [c]), hNext, ?_⟩
    cases back with
    | nil =>
      left
      rw [hSplit]
    | cons d back =>
      right
      refine ⟨List.prefix_append _ _, length_of_isNextLevel hNext, ?_, ?_, ?_⟩
      · rw [← hSplit, List.prefix_append_right_inj]
        exact ⟨d :: back, by simp⟩
      · rw [← hSplit]
        simp only [List.length_append, List.length_cons, List.length_nil]
        omega
      · simp [IsNode]

theorem mem_walk_succ : other ∈ walk sep names (levels + 1) path ↔
    ∃ first ∈ names, isNextLevel sep path first = true ∧
      (other = first ∨ IsNode sep first ∧ other ∈ walk sep names levels first) := by
  simp only [walk, children, List.mem_flatMap, List.mem_filter, List.mem_cons, and_assoc]
  refine exists_congr fun first => and_congr_right fun _ => and_congr_right fun _ => or_congr_right ?_
  split <;> simp [*]

theorem below_of_mem_walk (h : name ∈ walk sep names levels path) :
    path <+: name ∧ path.length < name.length ∧ name ∈ names ∧ ∀ node, OnTheWay sep path name node → node ∈ names := by
  induction levels generalizing path with
  | zero => cases h
  | succ levels ih =>
    obtain ⟨first, hFirst, hNext, rfl | ⟨hInner, hRest⟩⟩ := mem_walk_succ.mp h
    · exact ⟨prefix_of_isNextLevel hNext, length_of_isNextLevel hNext, hFirst,
        fun node hWay => absurd hWay (not_onTheWay_of_isNextLevel hNext)⟩
    · obtain ⟨hBelow, hLess, hName, hNodes⟩ := ih hRest
      have hLonger := length_of_isNextLevel hNext
      refine ⟨(prefix_of_isNextLevel hNext).trans hBelow, by omega, hName, fun node hWay => ?_⟩
      obtain ⟨hPath, hLong, hNode, hShort, hNodeInner⟩ := hWay
      obtain hLt | hEq | hGt := lt_trichotomy node.length first.length
      · have hUp : node <+: first := List.prefix_of_prefix_length_le hNode hBelow hLt.le
        exact absurd ⟨hPath, hLong, hUp, hLt, hNodeInner⟩ (not_onTheWay_of_isNextLevel hNext)
      · have hUp : node <+: first := List.prefix_of_prefix_length_le hNode hBelow hEq.le
        rwa [hUp.eq_of_length hEq]
      · exact hNodes node ⟨List.prefix_of_prefix_length_le hBelow hNode hGt.le, hGt, hNode, hShort, hNodeInner⟩

theorem mem_walk_of_onTheWay (hName : name ∈ names) (hBelow : path <+: name) (hLess : path.length < name.length)
    (hNodes : ∀ node, OnTheWay sep path name node → node ∈ names) (hLevels : name.length ≤ path.length + levels) :
    name ∈ walk sep names levels path := by
  induction levels generalizing path with
  | zero => omega
  | succ levels ih =>
    obtain ⟨first, hNext, rfl | hWay⟩ : ∃ first, isNextLevel sep path first = true ∧
        (first = name ∨ OnTheWay sep path name first) := exists_nextLevel hBelow hLess
    · exact mem_walk_succ.mpr ⟨first, hName, hNext, .inl rfl⟩
    · have hFirst := hNodes first hWay
      obtain ⟨hPath, hLong, hUp, hShort, hInner⟩ := hWay
      refine mem_walk_succ.mpr ⟨first, hFirst, hNext, .inr ⟨hInner, ih hUp hShort (fun node hNode => ?_) (by omega)⟩⟩
      obtain ⟨hFirstNode, hLonger, hRest⟩ := hNode
      exact hNodes node ⟨hPath.trans hFirstNode, by omega, hRest⟩

/-- With levels enough for the names, the walk meets those whose nodes on the way are listed. -/
theorem mem_walk_iff (hLevels : ∀ x ∈ names, x.length ≤ path.length + levels) :
    name ∈ walk sep names levels path ↔ name ∈ names ∧ path <+: name ∧ path.length < name.length ∧
      ∀ node, OnTheWay sep path name node → node ∈ names := by
  constructor
  · intro h
    obtain ⟨hBelow, hLess, hName, hNodes⟩ := below_of_mem_walk h
    exact ⟨hName, hBelow, hLess, hNodes⟩
  · rintro ⟨hName, hBelow, hLess, hNodes⟩
    exact mem_walk_of_onTheWay hName hBelow hLess hNodes (hLevels name hName)

/-- What lies at or below two names of a level lies in one of them only. -/
theorem eq_of_isNextLevel {first second : List α} (h : isNextLevel sep path first = true)
    (h' : isNextLevel sep path second = true) (hFirst : first <+: name) (hSecond : second <+: name)
    (hInner : first = name ∨ IsNode sep first) (hInner' : second = name ∨ IsNode sep second) : first = second := by
  have hNot {a b : List α} (hA : isNextLevel sep path a = true) (hB : isNextLevel sep path b = true)
      (hAName : a <+: name) (hBName : b <+: name) (hKind : a = name ∨ IsNode sep a) : ¬ a.length < b.length := by
    intro hLess
    have hUp : a <+: b := List.prefix_of_prefix_length_le hAName hBName hLess.le
    have hANode : IsNode sep a := by
      refine hKind.resolve_left ?_
      rintro rfl
      have := hBName.length_le
      omega
    exact not_onTheWay_of_isNextLevel hB ⟨prefix_of_isNextLevel hA, length_of_isNextLevel hA, hUp, hLess, hANode⟩
  have hLe : first.length ≤ second.length := not_lt.mp (hNot h' h hSecond hFirst hInner')
  have hGe : second.length ≤ first.length := not_lt.mp (hNot h h' hFirst hSecond hInner)
  exact (List.prefix_of_prefix_length_le hFirst hSecond hLe).eq_of_length (le_antisymm hLe hGe)

theorem nodup_walk (hNames : names.Nodup) : (walk sep names levels path).Nodup := by
  induction levels generalizing path with
  | zero => exact List.nodup_nil
  | succ levels ih =>
    rw [walk, List.nodup_flatMap]
    constructor
    · intro first _
      refine List.nodup_cons.mpr ⟨fun hMem => ?_, ?_⟩
      · split at hMem
        · exact absurd (below_of_mem_walk hMem).2.1 (lt_irrefl _)
        · cases hMem
      · split
        · exact ih
        · exact List.nodup_nil
    · refine (hNames.filter _).pairwise_of_forall_ne fun first hFirst second hSecond hNe => ?_
      have hUp {first z : List α} (h : z ∈ first :: if IsNode sep first then walk sep names levels first else []) :
          first <+: z ∧ (first = z ∨ IsNode sep first) := by
        obtain rfl | hRest := List.mem_cons.mp h
        · exact ⟨List.prefix_refl z, .inl rfl⟩
        · split at hRest
          · rename_i hInner
            exact ⟨(below_of_mem_walk hRest).1, .inr hInner⟩
          · cases hRest
      intro z hz hz'
      obtain ⟨hBelow, hKind⟩ := hUp hz
      obtain ⟨hBelow', hKind'⟩ := hUp hz'
      obtain ⟨hNext, hNext'⟩ := And.intro (List.mem_filter.mp hFirst).2 (List.mem_filter.mp hSecond).2
      exact hNe (eq_of_isNextLevel hNext hNext' hBelow hBelow' hKind hKind')

/-- From the top the walk meets every name once exactly where all nodes above the names are listed. -/
theorem walk_perm_iff (hNames : names.Nodup) (hEmpty : [] ∉ names) (hLevels : ∀ x ∈ names, x.length ≤ levels) :
    (walk sep names levels []).Perm names ↔
      ∀ x ∈ names, ∀ node, node <+: x → node.length < x.length → IsNode sep node → node ∈ names := by
  have hLong : ∀ x ∈ names, x.length ≤ ([] : List α).length + levels := by simpa using hLevels
  rw [List.perm_ext_iff_of_nodup (nodup_walk hNames) hNames]
  constructor
  · intro h x hx node hUp hShort hInner
    have hNodes := ((mem_walk_iff hLong).mp ((h x).mpr hx)).2.2.2
    have hPos : 0 < node.length := List.length_pos_iff.mpr fun hNil => by
      rw [hNil] at hInner
      cases hInner
    exact hNodes node ⟨List.nil_prefix, hPos, hUp, hShort, hInner⟩
  · intro h x
    rw [mem_walk_iff hLong]
    refine ⟨And.left, fun hx => ⟨hx, List.nil_prefix, ?_, fun node hWay => ?_⟩⟩
    · refine List.length_pos_iff.mpr ?_
      rintro rfl
      exact hEmpty hx
    · obtain ⟨-, -, hUp, hShort, hInner⟩ := hWay
      exact h x hx node hUp hShort hInner

end Tr069Agent.Library.LevelWalk
