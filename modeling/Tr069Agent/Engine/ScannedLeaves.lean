import Tr069Agent.Engine.PlainReadings

/-! # What a scan of the parameters has loaded

A scan of plain parameters has loaded every value that it has passed, when it finds nothing more.
-/

namespace Tr069Agent.Engine.Loading

open Library Library.Action

set_option autoImplicit false

section Results

variable {ctx : LoadContext} {calls : Callbacks} {s s' : LoadState} {name : Text}

/-- A value that a scan comes to is loaded. -/
def Done (node : Option Text) (dm : DataModel) (x : Text) : Prop :=
  isSubParameter node x = true → isNodeName x = false → ∀ p ∈ dm.getParameter x, p.isLoaded true = true

theorem Done.steady {node : Option Text} {x : Text} (h : Done node s.dm x) (hSteady : Steady s s')
    (hLoops : s'.loops = s.loops) (hMem : x ∈ s.dm.names) : Done node s'.dm x := by
  intro hSub hLeaf p' hp'
  obtain ⟨q, hq, hName⟩ := List.mem_map.mp hMem
  have hSome : (s.dm.getParameter x).isSome = true := List.find?_isSome.mpr ⟨q, hq, by simpa using hName⟩
  obtain ⟨p, hp⟩ := Option.isSome_iff_exists.mp hSome
  obtain ⟨p'', hp'', hGrows⟩ := hSteady.grows hLoops x p hp
  obtain rfl : p'' = p' := Option.some.inj (hp''.symm.trans hp')
  exact hGrows.isLoaded (h hSub hLeaf p hp)

theorem scanParameter_found {withValues : Bool} {r r' : ScanResult}
    (h : (scanParameter ctx calls withValues name r).run s = some (r', s')) (hRes : r'.res = 0)
    (hFound : r'.found = none) (hComputed : r'.foundComputed = none) : r = r' := by
  obtain ⟨found, s₁, -, h⟩ := bind_eq_some_iff.mp h
  split at h
  · exact absurd h not_failure
  split at h
  · obtain ⟨loaded, s₂, -, h⟩ := bind_eq_some_iff.mp h
    split at h
    · exact (pure_eq_some_iff.mp h).1.symm
    obtain ⟨found, s₃, -, h⟩ := bind_eq_some_iff.mp h
    split at h
    · exact absurd h not_failure
    split at h
    · obtain ⟨res, s₄, -, h⟩ := bind_eq_some_iff.mp h
      obtain ⟨rfl, -⟩ := pure_eq_some_iff.mp h
      split at hRes
      · rename_i hZero
        rw [if_pos hZero]
      · rename_i hNot
        exact absurd hRes hNot
    split at h
    · obtain ⟨rfl, -⟩ := pure_eq_some_iff.mp h
      cases hComputed
    · obtain ⟨rfl, -⟩ := pure_eq_some_iff.mp h
      cases hFound
  · exact (pure_eq_some_iff.mp h).1.symm

theorem scanCurrent_found {node : Option Text} {withValues : Bool} {r r' : ScanResult}
    (h : (scanCurrent ctx calls node withValues name r).run s = some (r', s')) (hRes : r'.res = 0)
    (hFound : r'.found = none) (hComputed : r'.foundComputed = none) : r = r' := by
  rw [scanCurrent] at h
  split at h
  · exact scanParameter_found h hRes hFound hComputed
  · exact (pure_eq_some_iff.mp h).1.symm

theorem scan_found {node : Option Text} {withValues : Bool} {fuel : Nat} {r r' : ScanResult}
    (h : (scan ctx calls node withValues fuel r).run s = some (r', s')) (hRes : r'.res = 0)
    (hFound : r'.found = none) (hComputed : r'.foundComputed = none) : r = r' := by
  induction fuel generalizing s r with
  | zero => exact absurd h not_failure
  | succ fuel ih =>
    obtain ⟨t, s₁, -, h⟩ := bind_eq_some_iff.mp h
    split at h
    · exact (pure_eq_some_iff.mp h).1.symm
    obtain ⟨r₁, s₂, hHere, h⟩ := bind_eq_some_iff.mp h
    split at h
    · rename_i hStop
      obtain ⟨rfl, -⟩ := pure_eq_some_iff.mp h
      exact absurd hRes hStop
    obtain ⟨u, s₃, -, h⟩ := bind_eq_some_iff.mp h
    obtain rfl := ih h
    exact scanCurrent_found hHere hRes hFound hComputed

theorem scanParameter_done (hCalls : KeepsCalls Steady calls) (hPlain : ∀ p ∈ s.dm, Plain ctx p) {r r' : ScanResult}
    (h : (scanParameter ctx calls true name r).run s = some (r', s')) (hLoops : s'.loops = s.loops)
    (hRes : r'.res = 0) (hFound : r'.found = none) (hComputed : r'.foundComputed = none)
    (hLeaf : isNodeName name = false) : ∀ p ∈ s'.dm.getParameter name, p.isLoaded true = true := by
  obtain ⟨found, s₁, hFind, h⟩ := bind_eq_some_iff.mp h
  obtain ⟨rfl, rfl⟩ := find_eq_some_iff.mp hFind
  split at h
  · exact absurd h not_failure
  rename_i current hCurrent
  split at h
  · obtain ⟨loaded, s₁, hTest, h⟩ := bind_eq_some_iff.mp h
    obtain ⟨p, hp, rfl, rfl⟩ := testLoaded_cases hTest
    have hDefault : DataModel.getParameter (s₁.dm.modify name (·.withDefault)) name = some p.withDefault := by
      rw [DataModel.getParameter_modify fun p hName => (p.name_withDefault).trans hName, if_pos rfl, hp]
      rfl
    split at h
    · rename_i hLoaded
      obtain ⟨rfl, rfl⟩ := pure_eq_some_iff.mp h
      intro q hq
      obtain rfl := Option.some.inj (hDefault.symm.trans hq)
      exact hLoaded
    · obtain ⟨found, s₂, hFind, h⟩ := bind_eq_some_iff.mp h
      obtain ⟨rfl, rfl⟩ := find_eq_some_iff.mp hFind
      dsimp only at h
      rw [hDefault] at h
      dsimp only at h
      split at h
      · rename_i hAlone
        obtain ⟨res, s₃, hLoad, h⟩ := bind_eq_some_iff.mp h
        obtain ⟨rfl, rfl⟩ := pure_eq_some_iff.mp h
        split at hRes
        · rename_i hZero
          obtain rfl := hZero
          intro q hq
          have hName : p.withDefault.name = name := DataModel.name_of_getParameter hDefault
          have hMode : p.withDefault.storageMode ≠ .computed := by
            simp only [Bool.and_eq_true, decide_eq_true_eq] at hAlone
            exact hAlone.2
          have hGrow := (steady_loads ctx).keeps_loadSystemValue hCalls p.withDefault _ _ _ hLoad
          obtain ⟨q', hq', hGrows⟩ := hGrow.grows hLoops name p.withDefault hDefault
          obtain rfl := Option.some.inj (hq'.symm.trans hq)
          rw [Parameter.isLoaded_true]
          obtain ⟨-, hStored | hStored | ⟨n, hStored⟩ | hValue⟩ | ⟨q', hq', hValue⟩ := loadSystemValue_cases hLoad
          · exact .inr ⟨by rw [hGrows.name, hName, hLeaf], hGrows.storageMode.trans hStored⟩
          · exact absurd hStored hMode
          · have hPlain := (passedOn_plain ctx).grows p.grows_withDefault (hPlain p (List.mem_of_find?_eq_some hp))
            have hAlone : isGrouped p.withDefault = false := by simpa using (Bool.and_eq_true_iff.mp hAlone).1
            exact absurd hStored (hPlain.mode (hName.symm ▸ hLeaf) hAlone n)
          · exact .inl ⟨hGrows.value hValue, fun hOther => absurd (hGrows.storageMode.symm.trans hOther) hMode⟩
          · rw [hName] at hq'
            obtain rfl := Option.some.inj (hq'.symm.trans hq)
            exact .inl ⟨hValue, fun hOther => absurd (hGrows.storageMode.symm.trans hOther) hMode⟩
        · rename_i hNot
          exact absurd hRes hNot
      split at h
      · obtain ⟨rfl, -⟩ := pure_eq_some_iff.mp h
        cases hComputed
      · obtain ⟨rfl, -⟩ := pure_eq_some_iff.mp h
        cases hFound
  · rename_i hNode
    exact absurd (by simp [hLeaf]) hNode

/-- The names that a scan has passed when it comes to a place. -/
def passed (names : List Text) (current : Option Text) : List Text :=
  match current with
  | none => names
  | some name => names.takeWhile (· ≠ name)

theorem mem_passed_next {names : List Text} {x : Text}
    (h : x ∈ passed names (names.dropWhile (· ≠ name)).tail.head?) :
    x ∈ passed names (some name) ∨ x = name := by
  have hSplit : names.takeWhile (· ≠ name) ++ names.dropWhile (· ≠ name) = names :=
    List.takeWhile_append_dropWhile
  rw [← List.mem_singleton, ← List.mem_append, passed]
  cases hRest : names.dropWhile (· ≠ name) with
  | nil =>
    rw [hRest, List.append_nil] at hSplit
    rw [hRest] at h
    rw [hSplit]
    exact List.mem_append_left _ h
  | cons c rest =>
    have hHead : c = name := by
      have hNot := List.head?_dropWhile_not (fun other => decide (other ≠ name)) names
      rw [hRest] at hNot
      simpa using hNot
    subst hHead
    rw [hRest] at h hSplit
    cases rest with
    | nil =>
      rw [← hSplit] at h
      exact h
    | cons y more =>
      have hAll : names = (names.takeWhile (· ≠ c) ++ [c]) ++ y :: more := by
        rw [List.append_assoc, List.singleton_append, hSplit]
      have h : x ∈ names.takeWhile (· ≠ y) := h
      rw [hAll, List.takeWhile_append] at h
      split at h
      · rename_i hLength
        simp only [ne_eq, not_true_eq_false, decide_false, Bool.false_eq_true, not_false_eq_true,
          List.takeWhile_cons_of_neg, List.append_nil] at h
        exact h
      · exact (List.takeWhile_prefix _).subset h

theorem scan_done (hCalls : KeepsCalls Steady calls) (hPass : KeepsCalls (Passes (Plain ctx)) calls)
    (hPlain : ∀ p ∈ s.dm, Plain ctx p) {node : Option Text} {fuel : Nat} {r r' : ScanResult}
    (h : (scan ctx calls node true fuel r).run s = some (r', s')) (hRes : r'.res = 0) (hFound : r'.found = none)
    (hComputed : r'.foundComputed = none) (hBefore : ∀ x ∈ passed s.dm.names s.current, Done node s.dm x) :
    ∀ x ∈ s'.dm.names, Done node s'.dm x := by
  induction fuel generalizing s r with
  | zero => exact absurd h not_failure
  | succ fuel ih =>
    obtain ⟨t, s₁, hGet, hLoop⟩ := bind_eq_some_iff.mp h
    obtain ⟨rfl, rfl⟩ := get_eq_some_iff.mp hGet
    clear h hGet
    split at hLoop
    · rename_i hEnd
      obtain ⟨rfl, rfl⟩ := pure_eq_some_iff.mp hLoop
      rw [hEnd] at hBefore
      exact hBefore
    rename_i current hCurrent
    obtain ⟨r₁, s₂, hHere, hRest⟩ := bind_eq_some_iff.mp hLoop
    have hSteady := (steady_loads ctx).keeps_scanCurrent hCalls node true current r _ _ _ hHere
    have hFirst := loops_scanCurrent hPlain hHere
    have hAfter := (passedOn_plain ctx).loads.keeps_scanCurrent hPass _ _ _ _ _ _ _ hHere hPlain
    split at hRest
    · rename_i hStop
      obtain ⟨rfl, -⟩ := pure_eq_some_iff.mp hRest
      exact absurd hRes hStop
    obtain ⟨u, s₃, hNext, hAgain⟩ := bind_eq_some_iff.mp hRest
    obtain rfl := modify_eq_some_iff.mp hNext
    have hPlace : s₂.current = some current := (hSteady.current hFirst).trans hCurrent
    have hNames := hSteady.names hFirst
    obtain rfl := scan_found hAgain hRes hFound hComputed
    obtain rfl := scanCurrent_found hHere hRes hFound hComputed
    refine ih ?_ hAgain ?_
    · exact hAfter
    · dsimp only
      rw [hPlace, Option.bind_some]
      intro x hx
      obtain hPassed | rfl := mem_passed_next hx
      · rw [hNames] at hPassed
        rw [hCurrent] at hBefore
        exact (hBefore x hPassed).steady hSteady hFirst ((List.takeWhile_prefix _).subset hPassed)
      · intro hSub hLeaf
        rw [scanCurrent, hFound, hSub] at hHere
        exact scanParameter_done hCalls hPlain hHere hFirst hRes hFound hComputed hLeaf

theorem scanAll_done (hCalls : KeepsCalls Steady calls) (hPass : KeepsCalls (Passes (Plain ctx)) calls)
    (hPlain : ∀ p ∈ s.dm, Plain ctx p) {node : Option Text} {fuel : Nat}
    (h : (scanAll ctx calls fuel node true).run s = some ((none, 0), s')) : ∀ x ∈ s'.dm.names, Done node s'.dm x := by
  obtain ⟨r, hScan, hFound, hRes⟩ := scanAll_cases h
  obtain ⟨hFound, hComputed⟩ := Option.or_eq_none_iff.mp hFound.symm
  refine scan_done hCalls hPass ?_ hScan hRes.symm hFound hComputed ?_
  · exact hPlain
  intro x hx
  cases hNames : s.dm.names with
  | nil => simp [passed, hNames] at hx
  | cons first rest => simp [passed, hNames] at hx

/-- Each scan of plain parameters goes to the end of the list, and what is loaded between two of them is
plain again. -/
theorem scanAgain_done (hCalls : KeepsCalls Steady calls) (hPass : KeepsCalls (Passes (Plain ctx)) calls)
    (hPlain : ∀ p ∈ s.dm, Plain ctx p) {node : Option Text} {fuel rounds : Nat}
    (h : (scanAgain ctx calls fuel node true rounds).run s = some (0, s')) : ∀ x ∈ s'.dm.names, Done node s'.dm x := by
  have hError : Fault.internalError.toNat ≠ 0 := by decide
  have hLoads := (passedOn_plain ctx).loads
  induction rounds generalizing s with
  | zero => exact absurd (pure_eq_some_iff.mp h).1.symm hError
  | succ rounds ih =>
    obtain ⟨⟨found, res⟩, s₁, hScan, h⟩ := bind_eq_some_iff.mp h
    have hScanned := hLoads.ofScans calls (hLoads.keeps_scanCurrent hPass) fuel node true s _ s₁ hScan hPlain
    dsimp only at h
    split at h
    · obtain ⟨hRes, rfl⟩ := pure_eq_some_iff.mp h
      split at hRes
      · exact absurd hRes.symm hError
      · rw [← hRes] at hScan
        exact scanAll_done hCalls hPass hPlain hScan
    obtain ⟨res', s₂, hLoad, h⟩ := bind_eq_some_iff.mp h
    have hLoaded := hLoads.keeps_loadFinal hPass _ true s₁ _ s₂ hLoad hScanned
    split at h
    · exact absurd (pure_eq_some_iff.mp h).1.symm hError
    split at h
    · rename_i hNot
      exact absurd (pure_eq_some_iff.mp h).1.symm hNot
    · exact ih hLoaded h

theorem dm_of_scan_idle {node : Option Text} (hIdle : ∀ x, isSubParameter node x = false) {fuel : Nat}
    {r r' : ScanResult} (h : (scan ctx calls node true fuel r).run s = some (r', s')) : r' = r ∧ s'.dm = s.dm := by
  induction fuel generalizing s with
  | zero => exact absurd h not_failure
  | succ fuel ih =>
    obtain ⟨t, s₁, hGet, hLoop⟩ := bind_eq_some_iff.mp h
    obtain ⟨rfl, rfl⟩ := get_eq_some_iff.mp hGet
    clear h hGet
    split at hLoop
    · obtain ⟨rfl, rfl⟩ := pure_eq_some_iff.mp hLoop
      exact ⟨rfl, rfl⟩
    rename_i current _
    obtain ⟨r₁, s₂, hHere, hRest⟩ := bind_eq_some_iff.mp hLoop
    rw [scanCurrent, hIdle, Bool.false_and, if_neg Bool.false_ne_true] at hHere
    obtain ⟨rfl, rfl⟩ := pure_eq_some_iff.mp hHere
    split at hRest
    · obtain ⟨rfl, rfl⟩ := pure_eq_some_iff.mp hRest
      exact ⟨rfl, rfl⟩
    obtain ⟨u, s₃, hNext, hAgain⟩ := bind_eq_some_iff.mp hRest
    obtain rfl := modify_eq_some_iff.mp hNext
    have hSame := ih hAgain
    exact hSame

theorem dm_of_scanAgain_idle {node : Option Text} (hIdle : ∀ x, isSubParameter node x = false) {fuel rounds res : Nat}
    (h : (scanAgain ctx calls fuel node true rounds).run s = some (res, s')) : s'.dm = s.dm := by
  cases rounds with
  | zero => rw [(pure_eq_some_iff.mp h).2]
  | succ rounds =>
    obtain ⟨⟨found, res⟩, s₁, hFirst, hRest⟩ := bind_eq_some_iff.mp h
    obtain ⟨r, hScan, rfl, rfl⟩ := scanAll_cases hFirst
    obtain ⟨rfl, hSame⟩ := dm_of_scan_idle hIdle hScan
    obtain ⟨-, rfl⟩ := pure_eq_some_iff.mp hRest
    exact hSame

end Results

section Targets

theorem isProto_of_computeProto {name proto : Text} {k i : Nat}
    (h : SetParameterValues.computeProto name k i = some proto) (hDot : k ≠ 0 → name[k]? = some '.') :
    isProto proto = true := by
  induction i generalizing k with
  | zero => cases h
  | succ i ih =>
    have hHere (hChar : name.getD i ' ' = '.') : name[i]? = some '.' := by
      rw [List.getD_eq_getElem?_getD] at hChar
      cases hGet : name[i]? with
      | none =>
        rw [hGet] at hChar
        exact absurd hChar (by decide)
      | some c =>
        rw [hGet] at hChar
        exact congrArg some hChar
    rw [SetParameterValues.computeProto] at h
    split at h
    · apply ih h
      intro hNot
      split at hNot
      · rename_i hChar
        rw [if_pos hChar]
        exact hHere hChar
      · exact absurd rfl hNot
    rename_i hPlace
    split at h
    · rename_i hChar
      split at h
      · exact ih h fun _ => hHere hChar
      split at h
      · cases h
      obtain rfl := Option.some.inj h
      obtain ⟨hLess, hGet⟩ := List.getElem?_eq_some_iff.mp (hHere hChar)
      obtain ⟨hLess', hGet'⟩ := List.getElem?_eq_some_iff.mp (hDot hPlace)
      rw [isProto, Text.strstr_eq_true_iff]
      refine ⟨name.take i, name.drop (k + 1), ?_⟩
      rw [List.take_add_one, List.drop_eq_getElem_cons hLess', hHere hChar, hGet']
      simp
    · apply ih h
      intro hNot
      split at hNot
      · rename_i hDigit
        rw [if_pos hDigit]
        exact hDot hPlace
      · exact absurd rfl hNot

theorem findTarget_spec {dm : DataModel} {rounds : Nat} {name : Text} {target : Parameter}
    (h : findTarget dm rounds name = some target) :
    dm.getParameter target.name = some target ∧ (target.name = name ∨ isProto target.name = true) := by
  have hOwn {x : Text} (hFound : dm.getParameter x = some target) :
      dm.getParameter target.name = some target ∧ target.name = x := by
    have hName := DataModel.name_of_getParameter hFound
    rw [hName]
    exact ⟨hFound, rfl⟩
  induction rounds generalizing name with
  | zero => exact ⟨(hOwn h).1, .inl (hOwn h).2⟩
  | succ rounds ih =>
    rw [findTarget, Option.or_eq_some_iff] at h
    obtain hHere | ⟨-, hProto⟩ := h
    · exact ⟨(hOwn hHere).1, .inl (hOwn hHere).2⟩
    · obtain ⟨proto, hCompute, hProto⟩ := Option.bind_eq_some_iff.mp hProto
      obtain ⟨hFound, hName⟩ := ih hProto
      refine ⟨hFound, .inr ?_⟩
      obtain hName | hName := hName
      · rw [hName]
        exact isProto_of_computeProto hCompute fun hNot => absurd rfl hNot
      · exact hName

theorem isNodeName_of_objectBefore {before obj : Text} (h : objectBefore before = some obj) :
    isNodeName obj = true := by
  induction before with
  | nil => cases h
  | cons c before ih =>
    rw [objectBefore] at h
    split at h
    · rename_i hDot
      obtain rfl := Option.some.inj h
      simp [isNodeName, hDot.1]
    · exact ih h

theorem groupRoot_eq_or {dm : DataModel} {levels : Nat} {name : Text} :
    groupRoot dm levels name = name ∨ isNodeName (groupRoot dm levels name) = true := by
  induction levels generalizing name with
  | zero => exact .inl rfl
  | succ levels ih =>
    rw [groupRoot]
    split
    · exact .inl rfl
    · rename_i parent hParent
      split
      · obtain ⟨obj, hObj, hFound⟩ := Option.bind_eq_some_iff.mp hParent
        right
        obtain hSame | hNode := @ih parent.name
        · rw [hSame, DataModel.name_of_getParameter hFound]
          exact isNodeName_of_objectBefore hObj
        · exact hNode
      · exact .inl rfl

end Targets

end Tr069Agent.Engine.Loading
