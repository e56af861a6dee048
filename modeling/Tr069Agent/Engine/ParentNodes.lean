import Tr069Agent.Engine.UniqueNames
import Tr069Agent.Library.OwnedTree

/-! # The nodes above a parameter

A parameter that is no extension is permanent, and one that is belongs to the configurations whose keys it
has. Definitions give their key to the nodes above, so that the keys of a parameter are among those of each
node above it.
-/

namespace Tr069Agent.Engine

open Library Library.Decimal Library.Lines Library.NumberedNames Library.OwnedTree Library.Transition
  DataModelConfiguration

set_option autoImplicit false

section Owners

/-- The owners of a parameter with this list of keys. -/
def keyOwners : Option Text → List (Option Text)
  | none => [none]
  | some csl => (splitCommaSeparatedList csl).map some

/-- The names with the keys. -/
def DataModel.entries (dm : DataModel) : List (Text × Option Text) := dm.map fun prm => (prm.name, prm.configKey)

/-- Some parameter of this name has the owner. -/
def DataModel.owners (dm : DataModel) (name : Text) (owner : Option Text) : Prop :=
  ∃ configKey, (name, configKey) ∈ dm.entries ∧ owner ∈ keyOwners configKey

/-- The node ends at a dot behind the prefix and before the last character of the name. -/
def Above (dmPrefix node name : Text) : Prop := node ∈ parentNames dmPrefix name

def ParentsExist (dmPrefix : Text) (dm : DataModel) : Prop := Closed (Above dmPrefix) (· ∈ dm.names)

def OwnersCovered (dmPrefix : Text) (dm : DataModel) : Prop := Covered (Above dmPrefix) dm.owners

variable {dmPrefix node name x : Text} {dm dm' : DataModel} {param prm : Parameter} {t : Option Text}

theorem above_iff :
    Above dmPrefix node name ↔
      node <+: name ∧ node.length < name.length ∧ dmPrefix.length < node.length ∧ IsInner '.' node := by
  constructor
  · intro h
    obtain ⟨k, hK, rfl⟩ := List.mem_map.mp h
    obtain ⟨hRange, hDot⟩ := List.mem_filter.mp hK
    have hLt := List.mem_range.mp hRange
    simp only [Bool.and_eq_true, decide_eq_true_eq] at hDot
    have hLength : (name.take (k + 1)).length = k + 1 := by
      rw [List.length_take]
      omega
    refine ⟨List.take_prefix _ _, by omega, by omega, ?_⟩
    rw [IsInner, List.getLast?_take, if_neg (Nat.succ_ne_zero k), Nat.add_sub_cancel, hDot.2, Option.some_or]
  · rintro ⟨hPrefix, hShort, hLong, hInner⟩
    obtain ⟨rest, rfl⟩ := hPrefix
    obtain ⟨front, rfl⟩ : ∃ front, node = front ++ ['.'] := by
      obtain ⟨front, hFront⟩ := List.getLast?_eq_some_iff.mp hInner
      exact ⟨front, hFront⟩
    simp only [List.length_append, List.length_singleton] at hShort hLong
    refine List.mem_map.mpr ⟨front.length, List.mem_filter.mpr ⟨List.mem_range.mpr ?_, ?_⟩, ?_⟩
    · simp only [List.length_append, List.length_singleton]
      omega
    · simp only [Bool.and_eq_true, decide_eq_true_eq]
      exact ⟨by omega, by simp⟩
    · rw [← List.length_singleton (a := '.'), ← List.length_append, List.take_left]

theorem above_trans {top : Text} (h : Above dmPrefix top node) (h' : Above dmPrefix node name) :
    Above dmPrefix top name := by
  obtain ⟨hTop, hTopShort, hLong, hInner⟩ := above_iff.mp h
  obtain ⟨hNode, hNodeShort, -, -⟩ := above_iff.mp h'
  exact above_iff.mpr ⟨hTop.trans hNode, by omega, hLong, hInner⟩

theorem keyOwners_ne_nil (configKey : Option Text) : keyOwners configKey ≠ [] := by
  cases configKey with
  | none => exact List.cons_ne_nil _ _
  | some csl => simpa [keyOwners] using splitCommaSeparatedList_ne_nil csl

theorem mem_names_iff_entries : name ∈ dm.names ↔ ∃ configKey, (name, configKey) ∈ dm.entries := by
  simp [DataModel.names, DataModel.entries]

theorem exists_owner_iff : (∃ t, dm.owners name t) ↔ name ∈ dm.names := by
  rw [mem_names_iff_entries]
  constructor
  · rintro ⟨t, configKey, hMem, -⟩
    exact ⟨configKey, hMem⟩
  · rintro ⟨configKey, hMem⟩
    obtain ⟨t, ht⟩ := List.exists_mem_of_ne_nil _ (keyOwners_ne_nil configKey)
    exact ⟨t, configKey, hMem, ht⟩

theorem OwnersCovered.parentsExist (h : OwnersCovered dmPrefix dm) : ParentsExist dmPrefix dm := by
  rintro n m hAbove hMem
  exact exists_owner_iff.mp (h.closed hAbove (exists_owner_iff.mpr hMem))

theorem ownersCovered_of_permanent (h : ParentsExist dmPrefix dm) (hPermanent : ∀ prm ∈ dm, prm.configKey = none) :
    OwnersCovered dmPrefix dm := by
  rintro n m hAbove t ⟨configKey, hMem, -⟩
  obtain ⟨top, hTop, rfl⟩ := List.mem_map.mp (h hAbove (mem_names_iff_entries.mpr ⟨configKey, hMem⟩))
  refine .inl ⟨top.configKey, List.mem_map_of_mem hTop, ?_⟩
  rw [hPermanent top hTop]
  exact List.mem_singleton_self none

theorem owners_cons :
    DataModel.owners (prm :: dm) x t ↔ prm.name = x ∧ t ∈ keyOwners prm.configKey ∨ dm.owners x t := by
  constructor
  · rintro ⟨configKey, hMem, ht⟩
    obtain hHere | hRest := List.mem_cons.mp hMem
    · obtain ⟨rfl, rfl⟩ := Prod.mk.inj hHere
      exact .inl ⟨rfl, ht⟩
    · exact .inr ⟨configKey, hRest, ht⟩
  · rintro (⟨rfl, ht⟩ | ⟨configKey, hMem, ht⟩)
    · exact ⟨prm.configKey, List.mem_cons_self, ht⟩
    · exact ⟨configKey, List.mem_cons_of_mem _ hMem, ht⟩

theorem owners_append {left right : DataModel} :
    DataModel.owners (left ++ right) x t ↔ left.owners x t ∨ right.owners x t := by
  simp only [DataModel.owners, DataModel.entries, List.map_append, List.mem_append, or_and_right, exists_or]

theorem owners_singleton : DataModel.owners [prm] x t ↔ prm.name = x ∧ t ∈ keyOwners prm.configKey := by
  rw [owners_cons, or_iff_left]
  rintro ⟨configKey, hMem, -⟩
  cases hMem

theorem owners_congr (h : dm'.entries = dm.entries) : dm'.owners = dm.owners := by
  unfold DataModel.owners
  rw [h]

theorem modify_eq {f : Parameter → Parameter} (h : dm.getParameter name = some prm) :
    ∃ front back, dm = front ++ prm :: back ∧ dm.modify name f = front ++ f prm :: back := by
  induction dm with
  | nil => cases h
  | cons p rest ih =>
    rw [DataModel.getParameter, List.find?_cons] at h
    rw [DataModel.modify]
    by_cases hName : p.name = name
    · obtain rfl : p = prm := by simpa [hName] using h
      exact ⟨[], rest, rfl, if_pos hName⟩
    · rw [decide_eq_false hName] at h
      obtain ⟨front, back, rfl, hModify⟩ := ih h
      exact ⟨p :: front, back, rfl, by rw [if_neg hName, hModify]; rfl⟩

theorem entries_modify {f : Parameter → Parameter}
    (hf : ∀ p, p.name = name → (f p).name = p.name ∧ (f p).configKey = p.configKey) :
    (dm.modify name f).entries = dm.entries := by
  induction dm with
  | nil => rfl
  | cons p rest ih =>
    rw [DataModel.modify]
    split
    · rename_i hName
      obtain ⟨hSame, hKey⟩ := hf p hName
      simp only [DataModel.entries, List.map_cons, hSame, hKey]
    · simp only [DataModel.entries, List.map_cons] at ih ⊢
      rw [ih]

theorem entries_map {f : Parameter → Parameter} (hf : ∀ p, (f p).name = p.name ∧ (f p).configKey = p.configKey) :
    DataModel.entries (dm.map f) = dm.entries := by
  simp [DataModel.entries, Function.comp_def, hf]

end Owners

section Definitions

variable {dmPrefix x configKey : Text} {dm dm' : DataModel} {param prm : Parameter} {t : Option Text}

theorem splitCommaSeparatedList_of_item {csl item : Text} (h : item ∈ splitCommaSeparatedList csl) :
    splitCommaSeparatedList item = [item] := by
  have hItems : ∀ i ∈ [item], i ∈ splitCommaSeparatedList csl := by simpa using h
  have hJoin := splitCommaSeparatedList_join_items hItems (List.cons_ne_nil _ _)
  rwa [join_singleton] at hJoin

theorem mem_keyOwners_add {csl : Text} :
    t ∈ keyOwners (addToCommaSeparatedList (some csl) configKey) ↔
      t ∈ keyOwners (some csl) ∨ ∃ k ∈ splitCommaSeparatedList configKey, t = some k := by
  rw [addToCommaSeparatedList]
  split
  · rename_i hBelongs
    rw [or_iff_left_of_imp]
    rintro ⟨k, hK, rfl⟩
    have hItem : configKey ∈ splitCommaSeparatedList csl := by
      simpa [belongsToCommaSeparatedList] using hBelongs
    rw [splitCommaSeparatedList_of_item hItem, List.mem_singleton] at hK
    exact List.mem_map_of_mem (hK ▸ hItem)
  · simp only [keyOwners, Option.getD_some, splitCommaSeparatedList_append, List.map_append, List.mem_append,
      List.mem_map, eq_comm]

theorem grown_modify (hFound : dm.getParameter x = some prm) {f : Parameter → Parameter} (hName : (f prm).name = x)
    (hKey : (f prm).configKey = (prm.addConfigKey configKey).configKey) :
    Grown (· ∈ splitCommaSeparatedList configKey) (· = x) dm.owners (dm.modify x f).owners := by
  have hPrm := DataModel.name_of_getParameter hFound
  obtain ⟨front, back, rfl, hModify⟩ := modify_eq (f := f) hFound
  rw [hModify]
  rw [configKey_addConfigKey] at hKey
  have hSame : ∀ y u, DataModel.owners (front ++ f prm :: back) y u ↔
      (x = y ∧ u ∈ keyOwners (prm.configKey.bind fun csl => addToCommaSeparatedList (some csl) configKey)) ∨
        (front.owners y u ∨ DataModel.owners back y u) := by
    intro y u
    rw [owners_append, owners_cons, hName, hKey, or_left_comm]
  have hOld : ∀ y u, DataModel.owners (front ++ prm :: back) y u ↔
      (x = y ∧ u ∈ keyOwners prm.configKey) ∨ (front.owners y u ∨ DataModel.owners back y u) := by
    intro y u
    rw [owners_append, owners_cons, hPrm, or_left_comm]
  cases hCsl : prm.configKey with
  | none =>
    simp only [hCsl, Option.bind_none] at hSame hOld
    refine ⟨fun y u h => (hSame y u).mpr ((hOld y u).mp h), fun y u h => .inl ((hOld y u).mpr ((hSame y u).mp h)), ?_⟩
    rintro y rfl
    exact .inl ((hSame y none).mpr (.inl ⟨rfl, List.mem_singleton_self none⟩))
  | some csl =>
    simp only [hCsl, Option.bind_some, mem_keyOwners_add] at hSame hOld
    refine ⟨fun y u h => (hSame y u).mpr ?_, fun y u h => ?_, ?_⟩
    · exact ((hOld y u).mp h).imp (fun hHere => ⟨hHere.1, .inl hHere.2⟩) id
    · obtain ⟨rfl, hHere | hNew⟩ | hElse := (hSame y u).mp h
      · exact .inl ((hOld x u).mpr (.inl ⟨rfl, hHere⟩))
      · exact .inr ⟨rfl, hNew⟩
      · exact .inl ((hOld y u).mpr (.inr hElse))
    · rintro y rfl
      exact .inr fun k hK => (hSame y (some k)).mpr (.inl ⟨rfl, .inr ⟨k, hK, rfl⟩⟩)

theorem grown_append (hName : param.name = x) (hKey : param.configKey = some configKey) :
    Grown (· ∈ splitCommaSeparatedList configKey) (· = x) dm.owners (DataModel.owners (dm ++ [param])) := by
  have hSame : ∀ y u, DataModel.owners (dm ++ [param]) y u ↔
      dm.owners y u ∨ x = y ∧ ∃ k ∈ splitCommaSeparatedList configKey, u = some k := by
    intro y u
    rw [owners_append, owners_singleton, hName, hKey]
    simp only [keyOwners, List.mem_map, eq_comm]
  refine ⟨fun y u h => (hSame y u).mpr (.inl h), fun y u h => ?_, ?_⟩
  · exact ((hSame y u).mp h).imp id fun hNew => ⟨hNew.1.symm, hNew.2⟩
  · rintro y rfl
    exact .inr fun k hK => (hSame y (some k)).mpr (.inr ⟨rfl, k, hK, rfl⟩)

theorem grown_ensureNode (configKey name : Text) (dm : DataModel) :
    Grown (· ∈ splitCommaSeparatedList configKey) (· = name) dm.owners (ensureNode configKey dm name).owners := by
  unfold ensureNode
  split
  · rename_i hFound
    obtain ⟨prm, hPrm⟩ := Option.isSome_iff_exists.mp hFound
    refine grown_modify hPrm ?_ rfl
    rw [name_addConfigKey, DataModel.name_of_getParameter hPrm]
  · exact grown_append rfl rfl

theorem grown_ensureNodes (configKey : Text) (nodes : List Text) (dm : DataModel) :
    Grown (· ∈ splitCommaSeparatedList configKey) (· ∈ nodes) dm.owners
      (DataModel.owners (nodes.foldl (ensureNode configKey) dm)) := by
  induction nodes generalizing dm with
  | nil => exact (Grown.refl _ _).congr fun x => by simp
  | cons name nodes ih =>
    exact ((grown_ensureNode configKey name dm).trans (ih _)).congr fun x => List.mem_cons

theorem ownersCovered_define {d : Definition} {longName : Text} {definition pattern left : Option Text}
    (h : OwnersCovered dmPrefix dm)
    (hDefine : defineParameter dmPrefix d longName configKey definition pattern dm = some (dm', left)) :
    OwnersCovered dmPrefix dm' := by
  have hGrown : Grown (· ∈ splitCommaSeparatedList configKey)
      (fun x => x = longName ∨ x ∈ parentNames dmPrefix longName) dm.owners dm'.owners := by
    obtain ⟨param, hName, ⟨-, hKey, rfl⟩ | ⟨prm, hFound, hKey, rfl⟩⟩ := defineParameter_eq hDefine
    · exact ((grown_ensureNodes configKey _ dm).trans (grown_append hName hKey)).congr fun x => or_comm
    · exact (grown_modify hFound hName hKey).trans (grown_ensureNodes configKey _ _)
  refine h.grow hGrown ?_
  rintro n m hAbove (rfl | hParent)
  · exact .inr hAbove
  · exact .inr (above_trans hAbove hParent)

end Definitions

section Undefinitions

variable {dmPrefix name x : Text} {dm : DataModel} {prm : Parameter} {t configKey : Option Text}

/-- The owners that an undefinition leaves: those with another key, or the permanent one. -/
def Left (configKey owner : Option Text) : Prop :=
  match configKey with
  | none => owner = none
  | some configKey => owner ≠ some configKey

theorem left_none (configKey : Option Text) : Left configKey none := by
  cases configKey with
  | none => rfl
  | some key => exact (nomatch ·)

theorem left_of_withoutConfigKey_none {isNode : Bool} (h : prm.withoutConfigKey configKey isNode = none)
    (ht : t ∈ keyOwners prm.configKey) : Left configKey t := by
  unfold Parameter.withoutConfigKey at h
  split at h
  · rename_i hNone
    rw [hNone] at ht
    rw [List.mem_singleton.mp ht]
    exact left_none _
  · cases h
  · rename_i csl key hKey
    dsimp only at h
    split at h
    · split at h <;> cases h
    · rename_i hOther
      rw [hKey] at ht
      obtain ⟨item, hItem, rfl⟩ := List.mem_map.mp ht
      intro hSame
      exact hOther (Option.some.inj hSame ▸ hItem)

theorem owners_withoutConfigKey {isNode : Bool} {kept : Option Parameter}
    (h : prm.withoutConfigKey configKey isNode = some kept) :
    (DataModel.owners kept.toList x t → prm.name = x ∧ t ∈ keyOwners prm.configKey) ∧
      (isNode = true → (DataModel.owners kept.toList x t ↔
        prm.name = x ∧ t ∈ keyOwners prm.configKey ∧ Left configKey t)) := by
  have hNil : ¬ DataModel.owners [] x t := by
    rintro ⟨key, hMem, -⟩
    cases hMem
  unfold Parameter.withoutConfigKey at h
  split at h
  · cases h
  · rename_i csl hKey
    obtain rfl := Option.some.inj h
    refine ⟨fun hOwner => absurd hOwner hNil, fun _ => iff_of_false hNil ?_⟩
    rintro ⟨-, hOwner, rfl⟩
    rw [hKey] at hOwner
    simp [keyOwners] at hOwner
  · rename_i csl key hKey
    dsimp only at h
    split at h
    swap
    · cases h
    have hSub : ∀ item ∈ keysWithout key isNode (splitCommaSeparatedList csl), item ∈ splitCommaSeparatedList csl := by
      intro item hItem
      unfold keysWithout at hItem
      split at hItem
      · exact List.mem_of_mem_filter hItem
      · exact List.mem_of_mem_erase hItem
    have hKept : DataModel.owners kept.toList x t ↔
        prm.name = x ∧ ∃ item ∈ keysWithout key isNode (splitCommaSeparatedList csl), t = some item := by
      cases hItems : keysWithout key isNode (splitCommaSeparatedList csl) with
      | nil =>
        rw [hItems] at h
        obtain rfl := Option.some.inj h
        exact iff_of_false hNil (by simp)
      | cons first items =>
        rw [hItems] at h hSub
        obtain rfl := Option.some.inj h
        have hSplit := splitCommaSeparatedList_join_items hSub (List.cons_ne_nil _ _)
        rw [Option.toList_some, owners_singleton]
        simp only [keyOwners, hSplit, List.mem_map, eq_comm]
    rw [hKept, hKey]
    constructor
    · rintro ⟨hName, item, hItem, rfl⟩
      exact ⟨hName, List.mem_map_of_mem (hSub item hItem)⟩
    · rintro rfl
      simp only [keysWithout, if_true, List.mem_filter, decide_eq_true_eq, keyOwners, List.mem_map]
      constructor
      · rintro ⟨hName, item, ⟨hItem, hOther⟩, rfl⟩
        exact ⟨hName, ⟨item, hItem, rfl⟩, fun hSame => hOther (Option.some.inj hSame)⟩
      · rintro ⟨hName, ⟨item, hItem, rfl⟩, hLeft⟩
        exact ⟨hName, item, ⟨hItem, fun hSame => hLeft (congrArg some hSame)⟩, rfl⟩

/-- Below a node, the owners with the key are withdrawn. -/
theorem owners_deleteParameters (hNode : isNodeName name = true) :
    (dm.deleteParameters name configKey).1.owners x t ↔
      dm.owners x t ∧ (name <+: x → Left (configKey.map decoded) t) := by
  have hSelects : ∀ prmName, Selects name prmName ↔ name <+: prmName := by
    intro prmName
    rw [Selects, if_pos hNode, and_iff_right]
    rintro rfl
    exact absurd hNode (by decide)
  induction dm with
  | nil =>
    refine iff_of_false ?_ (fun h => ?_)
    · rintro ⟨key, hMem, -⟩
      cases hMem
    · obtain ⟨⟨key, hMem, -⟩, -⟩ := h
      cases hMem
  | cons prm rest ih =>
    obtain ⟨hOther, hSame⟩ | ⟨hSelected, kept, hWithout, hKept⟩ := deleteParameters_cases prm rest name configKey
    · rw [hSame, owners_cons, owners_cons, or_and_right]
      refine or_congr ?_ ih
      rw [iff_self_and]
      rintro ⟨rfl, ht⟩ hBelow
      exact left_of_withoutConfigKey_none (hOther ((hSelects _).mpr hBelow)) ht
    · rw [hKept, if_pos hNode, owners_append, owners_cons, or_and_right]
      refine or_congr (((owners_withoutConfigKey hWithout).2 hNode).trans ?_) ih
      rw [and_assoc]
      refine and_congr_right ?_
      rintro rfl
      exact and_congr_right fun _ => ⟨fun hLeft _ => hLeft, fun hLeft => hLeft ((hSelects _).mp hSelected)⟩

/-- The name of a leaf touches the owners of this leaf only. -/
theorem owners_deleteParameters_leaf (hLeaf : isNodeName name = false) :
    ((dm.deleteParameters name configKey).1.owners x t → dm.owners x t) ∧
      (x ≠ name → dm.owners x t → (dm.deleteParameters name configKey).1.owners x t) := by
  induction dm with
  | nil => exact ⟨id, fun _ => id⟩
  | cons prm rest ih =>
    obtain ⟨-, hSame⟩ | ⟨hSelected, kept, hWithout, hKept⟩ := deleteParameters_cases prm rest name configKey
    · rw [hSame, owners_cons, owners_cons]
      exact ⟨Or.imp id ih.1, fun hOther => Or.imp id (ih.2 hOther)⟩
    · rw [hKept, hLeaf, if_neg Bool.false_ne_true, owners_append, owners_cons]
      have hName : prm.name = name := by simpa [Selects, hLeaf] using hSelected.2
      refine ⟨Or.imp (owners_withoutConfigKey hWithout).1 id, ?_⟩
      rintro hOther (⟨rfl, -⟩ | hRest)
      · exact absurd hName hOther
      · exact .inr hRest

theorem ownersCovered_deleteParameters (h : OwnersCovered dmPrefix dm) (name : Text) (configKey : Option Text) :
    OwnersCovered dmPrefix (dm.deleteParameters name configKey).1 := by
  cases hNode : isNodeName name with
  | true =>
    refine h.withdraw (fun x t => owners_deleteParameters hNode) ?_ fun _ _ => left_none _
    exact fun n m hAbove hBelow => hBelow.trans (above_iff.mp hAbove).1
  | false =>
    refine h.shrink (fun x t => (owners_deleteParameters_leaf hNode).1) ?_
    intro n m hAbove t
    refine (owners_deleteParameters_leaf hNode).2 ?_
    rintro rfl
    rw [isNodeName_of_isInner (above_iff.mp hAbove).2.2.2] at hNode
    cases hNode

theorem ownersCovered_stable (dmPrefix : Text) : Stable dmPrefix (OwnersCovered dmPrefix) where
  define := fun h hDefine => ownersCovered_define h hDefine
  delete := fun name configKey h => ownersCovered_deleteParameters h name configKey

end Undefinitions

section Objects

variable {dmPrefix objectName x rest : Text} {dm : DataModel} {param : Parameter} {n : Nat} {t : Option Text}

theorem ownersCovered_deleteObject (h : OwnersCovered dmPrefix dm) (objectName : Text) :
    OwnersCovered dmPrefix (dm.deleteObject objectName) := by
  have hLeft : ∀ x t, (dm.deleteObject objectName).owners x t ↔ dm.owners x t ∧ (objectName <+: x → False) := by
    intro x t
    simp only [DataModel.owners, DataModel.entries, DataModel.deleteObject, List.mem_map, List.mem_filter,
      DataModel.not_isPrefixOf_iff]
    constructor
    · rintro ⟨configKey, ⟨prm, ⟨hMem, hKept⟩, hEntry⟩, ht⟩
      obtain ⟨rfl, rfl⟩ := Prod.mk.inj hEntry
      exact ⟨⟨_, ⟨prm, hMem, rfl⟩, ht⟩, hKept⟩
    · rintro ⟨⟨configKey, ⟨prm, hMem, hEntry⟩, ht⟩, hKept⟩
      obtain ⟨rfl, rfl⟩ := Prod.mk.inj hEntry
      exact ⟨_, ⟨prm, ⟨hMem, hKept⟩, rfl⟩, ht⟩
  refine h.withdraw hLeft ?_ fun _ => id
  exact fun n m hAbove hBelow => hBelow.trans (above_iff.mp hAbove).1

theorem owners_iff_getParameter (h : dm.Unique) :
    dm.owners x t ↔ ∃ q, dm.getParameter x = some q ∧ t ∈ keyOwners q.configKey := by
  constructor
  · rintro ⟨configKey, hMem, ht⟩
    obtain ⟨q, hQ, hEntry⟩ := List.mem_map.mp hMem
    obtain ⟨rfl, rfl⟩ := Prod.mk.inj hEntry
    refine ⟨q, ?_, ht⟩
    have hSome : (dm.getParameter q.name).isSome = true := List.find?_isSome.mpr ⟨q, hQ, by simp⟩
    obtain ⟨found, hFound⟩ := Option.isSome_iff_exists.mp hSome
    have hSame := List.inj_on_of_nodup_map h (List.mem_of_find?_eq_some hFound) hQ
      (DataModel.name_of_getParameter hFound)
    exact hFound.trans (congrArg some hSame)
  · rintro ⟨q, hFound, ht⟩
    obtain rfl := DataModel.name_of_getParameter hFound
    exact ⟨q.configKey, List.mem_map_of_mem (List.mem_of_find?_eq_some hFound), ht⟩

theorem getParameter_putAll {ps : List Parameter} (h : (ps.map Parameter.name).Nodup) :
    DataModel.getParameter (ps.foldl .putParameter dm) x = (DataModel.getParameter ps x).or (dm.getParameter x) := by
  induction ps generalizing dm with
  | nil => rfl
  | cons p ps ih =>
    obtain ⟨hNew, hRest⟩ := List.nodup_cons.mp h
    have hCons : DataModel.getParameter (p :: ps) x = if p.name = x then some p else DataModel.getParameter ps x := by
      rw [DataModel.getParameter, List.find?_cons]
      by_cases hName : p.name = x <;> simp [hName, DataModel.getParameter]
    rw [List.foldl_cons, ih hRest, DataModel.getParameter_putParameter, hCons]
    by_cases hName : p.name = x
    · have hNone : DataModel.getParameter ps x = none := by
        rw [DataModel.getParameter, List.find?_eq_none]
        rintro q hQ hSame
        exact hNew (List.mem_map.mpr ⟨q, hQ, (of_decide_eq_true hSame).trans hName.symm⟩)
      rw [hNone, if_pos hName.symm, if_pos hName, Option.none_or, Option.some_or]
    · rw [if_neg (Ne.symm hName), if_neg hName]

theorem getParameter_copies :
    DataModel.getParameter ((dm.filter (inPrototype param.name)).map fun prm =>
        newInstanceParameter (param.name ++ (showInt n ++ prm.name.drop param.name.length)) prm)
      (child '.' param.name n ++ rest) =
      (dm.getParameter (param.name ++ '.' :: rest)).map (newInstanceParameter (child '.' param.name n ++ rest)) := by
  have hNamed : ∀ prm : Parameter,
      (inPrototype param.name prm ∧
          param.name ++ (showInt n ++ prm.name.drop param.name.length) = child '.' param.name n ++ rest) ↔
        prm.name = param.name ++ '.' :: rest := by
    intro prm
    simp only [child, List.append_assoc, List.append_cancel_left_eq, List.singleton_append, inPrototype,
      List.isPrefixOf_iff_prefix]
    constructor
    · rintro ⟨⟨tail, hTail⟩, hDrop⟩
      rw [← hTail, List.append_assoc, List.drop_left] at hDrop
      rw [← hTail, List.append_assoc, hDrop]
    · intro hName
      rw [hName, List.drop_left]
      exact ⟨⟨rest, by simp⟩, rfl⟩
  rw [DataModel.getParameter, List.find?_map, List.find?_filter, DataModel.getParameter]
  have hFind : (dm.find? fun prm => decide (inPrototype param.name prm ∧
        ((fun prm => decide (prm.name = child '.' param.name n ++ rest)) ∘ fun prm =>
          newInstanceParameter (param.name ++ (showInt n ++ prm.name.drop param.name.length)) prm) prm)) =
      dm.find? fun prm => decide (prm.name = param.name ++ '.' :: rest) := by
    congr 1
    funext prm
    rw [decide_eq_decide, Function.comp_apply, name_newInstanceParameter, decide_eq_true_iff]
    exact hNamed prm
  rw [hFind]
  cases hFound : dm.find? fun prm => decide (prm.name = param.name ++ '.' :: rest) with
  | none => rfl
  | some prm =>
    have hName : prm.name = param.name ++ '.' :: rest := by simpa using List.find?_some hFound
    simp [hName, child]

theorem nodup_copies (h : dm.Unique) :
    (((dm.filter (inPrototype param.name)).map fun prm =>
      newInstanceParameter (param.name ++ (showInt n ++ prm.name.drop param.name.length)) prm).map
        Parameter.name).Nodup := by
  rw [List.map_map]
  refine List.Nodup.map_on ?_ ((List.Nodup.of_map _ h).filter _)
  intro p hP q hQ hSame
  obtain ⟨hMemP, hProtoP⟩ := List.mem_filter.mp hP
  obtain ⟨hMemQ, hProtoQ⟩ := List.mem_filter.mp hQ
  rw [inPrototype, List.isPrefixOf_iff_prefix] at hProtoP hProtoQ
  obtain ⟨restP, hRestP⟩ := hProtoP
  obtain ⟨restQ, hRestQ⟩ := hProtoQ
  refine List.inj_on_of_nodup_map h hMemP hMemQ ?_
  simp only [Function.comp_apply, name_newInstanceParameter, List.append_cancel_left_eq] at hSame
  rw [← hRestP, ← hRestQ, List.append_assoc, List.append_assoc, List.drop_left, List.drop_left] at hSame
  rw [← hRestP, ← hRestQ, List.append_assoc, List.append_assoc, hSame]

/-- At the instance and below it, the prototype comes before the object, and the object before what was
there. -/
theorem getParameter_createInstance_child (h : dm.Unique) :
    (createInstance dm param n).getParameter (child '.' param.name n ++ rest) =
      ((dm.getParameter (param.name ++ '.' :: rest)).map
          (newInstanceParameter (child '.' param.name n ++ rest))).or
        (if rest = [] then some (newInstanceParameter (child '.' param.name n) param)
          else dm.getParameter (child '.' param.name n ++ rest)) := by
  rw [createInstance, instanceParameters, List.foldl_cons, getParameter_putAll (nodup_copies h), getParameter_copies,
    DataModel.getParameter_putParameter, name_newInstanceParameter]
  simp only [List.append_right_eq_self]

theorem getParameter_createInstance_outside (hOutside : ¬ child '.' param.name n <+: x) :
    (createInstance dm param n).getParameter x = dm.getParameter x := by
  refine DataModel.getParameter_putAll_of_notMem ?_
  rintro p hMem rfl
  exact hOutside (child_prefix_of_mem_instanceParameters hMem)

theorem owners_addInstance :
    (addInstance dmPrefix dm param n).owners = (createInstance dm param n).owners := by
  refine owners_congr (entries_map fun p => ?_)
  obtain ⟨definition, hEq⟩ := exists_relocateParameter_eq dmPrefix param.name n p
  rw [hEq]
  exact ⟨rfl, rfl⟩

theorem owners_addInstance_outside (h : dm.Unique) (hOutside : ¬ child '.' param.name n <+: x) :
    (addInstance dmPrefix dm param n).owners x t ↔ dm.owners x t := by
  have hCreated : (createInstance dm param n).Unique := h.putAll _
  rw [owners_addInstance, owners_iff_getParameter hCreated, getParameter_createInstance_outside hOutside,
    owners_iff_getParameter h]

theorem owners_addInstance_child (h : dm.Unique) :
    (addInstance dmPrefix dm param n).owners (child '.' param.name n ++ rest) t ↔
      dm.owners (param.name ++ '.' :: rest) t ∨ param.name ++ '.' :: rest ∉ dm.names ∧
        if rest = [] then t ∈ keyOwners param.configKey else dm.owners (child '.' param.name n ++ rest) t := by
  have hCreated : (createInstance dm param n).Unique := h.putAll _
  rw [owners_addInstance, owners_iff_getParameter hCreated, getParameter_createInstance_child h,
    owners_iff_getParameter h, owners_iff_getParameter h]
  cases hProto : dm.getParameter (param.name ++ '.' :: rest) with
  | none =>
    have hNotMem := DataModel.Unique.not_mem_of_getParameter hProto
    obtain rfl | hRest := eq_or_ne rest []
    · simp [hNotMem, newInstanceParameter]
    · simp [hRest, hNotMem]
  | some proto =>
    have hMem := DataModel.mem_names_of_getParameter hProto
    simp [hMem, newInstanceParameter]

/-- The parameters of the new instance carry the keys of those that are below them already. -/
def CoversBelow (dmPrefix : Text) (dm : DataModel) (param : Parameter) (n : Nat) : Prop :=
  ∀ top ∈ DataModel.entries (instanceParameters dm param n), ∀ low ∈ dm.entries, Above dmPrefix top.1 low.1 →
    ∀ t ∈ keyOwners low.2, none ∈ keyOwners top.2 ∨ t ∈ keyOwners top.2

theorem node_above_child {node : Text}
    (hAbove : Above dmPrefix node (child '.' param.name n ++ rest))
    (hOutside : ¬ child '.' param.name n <+: node) : node = param.name ∨ Above dmPrefix node param.name := by
  obtain ⟨hPrefix, hShort, hLong, hNode⟩ := above_iff.mp hAbove
  have hObject : param.name <+: child '.' param.name n ++ rest := owner_prefix_child.trans (List.prefix_append _ _)
  obtain hBelow | hOver := List.prefix_or_prefix_of_prefix hObject hPrefix
  · exact ( eq_or_child_prefix (by decide) (by decide) hNode hBelow hPrefix).imp id fun hChild => absurd hChild hOutside
  · obtain hSame | hLess := eq_or_lt_of_le hOver.length_le
    · exact .inl (hOver.eq_of_length hSame)
    · exact .inr (above_iff.mpr ⟨hOver, hLess, hLong, hNode⟩)

theorem above_proto (hLong : dmPrefix.length ≤ param.name.length) {below : Text}
    (hAbove : Above dmPrefix (child '.' param.name n ++ rest) (child '.' param.name n ++ below)) :
    Above dmPrefix (param.name ++ '.' :: rest) (param.name ++ '.' :: below) := by
  obtain ⟨hPrefix, hShort, -, hNode⟩ := above_iff.mp hAbove
  rw [List.prefix_append_right_inj] at hPrefix
  simp only [List.length_append] at hShort
  refine above_iff.mpr ⟨?_, ?_, ?_, ?_⟩
  · exact (List.prefix_append_right_inj _).mpr (List.cons_prefix_cons.mpr ⟨rfl, hPrefix⟩)
  · simp only [List.length_append, List.length_cons]
    omega
  · simp only [List.length_append, List.length_cons]
    omega
  · obtain rfl | hRest := eq_or_ne rest []
    · simp [IsInner]
    · rw [IsInner, List.getLast?_append_of_ne_nil _ hRest] at hNode
      rw [IsInner, List.getLast?_append_of_ne_nil _ (List.cons_ne_nil _ _), List.getLast?_cons_of_ne_nil hRest, hNode]

/-- Where the prototype has a parameter, or the object itself is copied, the instance has the copy. -/
theorem mem_instanceParameters_of_proto (h : param.name ++ '.' :: rest ∈ dm.names) :
    ∃ configKey, (child '.' param.name n ++ rest, configKey) ∈ DataModel.entries (instanceParameters dm param n) ∧
      ∀ t ∈ keyOwners configKey, dm.owners (param.name ++ '.' :: rest) t := by
  obtain ⟨proto, hProto, hName⟩ := List.mem_map.mp h
  have hIn : inPrototype param.name proto = true := by
    rw [inPrototype, List.isPrefixOf_iff_prefix, hName]
    exact ⟨rest, by simp⟩
  refine ⟨proto.configKey, List.mem_cons_of_mem _ (List.mem_map.mpr ⟨_, List.mem_map_of_mem
    (List.mem_filter.mpr ⟨hProto, hIn⟩), ?_⟩), ?_⟩
  · simp [newInstanceParameter, hName, child]
  · exact fun t ht => ⟨proto.configKey, List.mem_map.mpr ⟨proto, hProto, by rw [hName]⟩, ht⟩

theorem ownersCovered_addInstance (h : OwnersCovered dmPrefix dm) (hUnique : dm.Unique)
    (hParam : dm.getParameter param.name = some param)
    (hLong : dmPrefix.length ≤ param.name.length) (hCovers : CoversBelow dmPrefix dm param n) :
    OwnersCovered dmPrefix (addInstance dmPrefix dm param n) := by
  have hObject : ∀ t, dm.owners param.name t ↔ t ∈ keyOwners param.configKey := by
    intro t
    rw [owners_iff_getParameter hUnique, hParam]
    simp
  intro node name hAbove t hOwner
  by_cases hNodeIn : child '.' param.name n <+: node
  · obtain ⟨rest, rfl⟩ := hNodeIn
    obtain ⟨below, rfl⟩ := (List.prefix_append _ rest).trans (above_iff.mp hAbove).1
    have hBelow : below ≠ [] := by
      rintro rfl
      have hShort := (above_iff.mp hAbove).2.1
      simp only [List.length_append, List.length_nil] at hShort
      omega
    rw [owners_addInstance_child hUnique, if_neg hBelow] at hOwner
    rw [owners_addInstance_child hUnique, owners_addInstance_child hUnique]
    obtain hCopied | ⟨-, hThere⟩ := hOwner
    · exact (h (above_proto hLong hAbove) t hCopied).imp .inl .inl
    · obtain ⟨lowKey, hLow, ht⟩ := hThere
      by_cases hProto : param.name ++ '.' :: rest ∈ dm.names
      · obtain ⟨topKey, hTop, hSame⟩ := mem_instanceParameters_of_proto (n := n) hProto
        exact (hCovers _ hTop _ hLow hAbove t ht).imp (fun hNone => .inl (hSame none hNone))
          fun hKey => .inl (hSame t hKey)
      · obtain rfl | hRest := eq_or_ne rest []
        · rw [if_pos rfl, if_pos rfl]
          rw [List.append_nil] at hAbove
          exact (hCovers (child '.' param.name n, param.configKey) List.mem_cons_self _ hLow hAbove t ht).imp
            (fun hNone => .inr ⟨hProto, hNone⟩) fun hKey => .inr ⟨hProto, hKey⟩
        · rw [if_neg hRest, if_neg hRest]
          exact (h hAbove t ⟨lowKey, hLow, ht⟩).imp (fun hNone => .inr ⟨hProto, hNone⟩) fun hKey => .inr ⟨hProto, hKey⟩
  · have hNodeOwners : ∀ u, (addInstance dmPrefix dm param n).owners node u ↔ dm.owners node u :=
      fun u => owners_addInstance_outside hUnique hNodeIn
    rw [hNodeOwners, hNodeOwners]
    by_cases hNameIn : child '.' param.name n <+: name
    · obtain ⟨rest, rfl⟩ := hNameIn
      have hOver := node_above_child hAbove hNodeIn
      rw [owners_addInstance_child hUnique] at hOwner
      obtain hCopied | ⟨-, hElse⟩ := hOwner
      · refine h (above_iff.mpr ?_) t hCopied
        obtain ⟨-, -, hNodeLong, hInner⟩ := above_iff.mp hAbove
        have hPrefix : node <+: param.name := by
          obtain rfl | hOver := hOver
          · exact List.prefix_refl _
          · exact (above_iff.mp hOver).1
        have hLength := hPrefix.length_le
        refine ⟨hPrefix.trans (List.prefix_append _ _), ?_, hNodeLong, hInner⟩
        simp only [List.length_append, List.length_cons]
        omega
      · split at hElse
        · rw [← hObject] at hElse
          obtain rfl | hOver := hOver
          · exact .inr hElse
          · exact h hOver t hElse
        · exact h hAbove t hElse
    · exact h hAbove t ((owners_addInstance_outside hUnique hNameIn).mp hOwner)

/-- The object may be changed before, as long as its name and its keys are left. -/
theorem ownersCovered_addInstance_modify {found : Parameter} (h : OwnersCovered dmPrefix dm) (hUnique : dm.Unique)
    (hFound : dm.getParameter param.name = some found) (hKey : param.configKey = found.configKey)
    (hLong : dmPrefix.length ≤ param.name.length) (hCovers : CoversBelow dmPrefix dm found n) :
    OwnersCovered dmPrefix (addInstance dmPrefix (dm.modify param.name fun _ => param) param n) := by
  have hName := DataModel.name_of_getParameter hFound
  have hEntries : (dm.modify param.name fun _ => param).entries = dm.entries := by
    obtain ⟨front, back, hDm, hModify⟩ := modify_eq (f := fun _ => param) hFound
    rw [hModify, hDm]
    simp only [DataModel.entries, List.map_append, List.map_cons, hName, hKey]
  have hFilter : (dm.modify param.name fun _ => param).filter (inPrototype param.name) =
      dm.filter (inPrototype param.name) :=
    DataModel.filter_modify (fun _ => inPrototype_of_name_eq) fun _ _ => inPrototype_of_name_eq rfl
  have hCopies : DataModel.entries (instanceParameters (dm.modify param.name fun _ => param) param n) =
      DataModel.entries (instanceParameters dm found n) := by
    simp only [instanceParameters, hFilter, hName]
    simp only [DataModel.entries, List.map_cons, newInstanceParameter, hKey]
  refine ownersCovered_addInstance ?_ (hUnique.of_names_eq (DataModel.names_modify fun _ _ => rfl)) ?_ hLong ?_
  · rw [OwnersCovered, owners_congr hEntries]
    exact h
  · rw [DataModel.getParameter_modify fun _ _ => rfl, if_pos rfl, hFound]
    rfl
  · rw [CoversBelow, hCopies, hEntries]
    exact hCovers

end Objects

section Calls

/-- The number of the instance that AddObject adds to an object, if it adds one. -/
def ParameterManager.addedNumber (entity : EntityType) (param : Parameter) (answer : Int × Nat) : Option Nat :=
  if !param.isNode || !param.writable then none
  else if param.storageMode = .dmOnly then
    if param.counter < Parameter.maxCounter then some (param.counter + 1) else none
  else if entity ≠ .system ∧ answer.1 = 0 then some answer.2
  else none

/-- A definition, an undefinition or a call on an object. -/
inductive ExtensionCall where
  | define (files : DataModelConfiguration.Files) (limit depth : Nat) (rootName : Option Text) (overwrite : Bool)
      (configKey : Text) (nodeDef : XmlNode)
  | undefine (name : Text) (configKey : Option Text)
  | object (entity : EntityType) (call : ObjectCall)

namespace ExtensionCall

def step (dmPrefix : Text) (dm : DataModel) : ExtensionCall → Option DataModel
  | define files limit depth rootName overwrite configKey nodeDef =>
    StoreOperation.step dmPrefix dm (.processDefinition files limit depth rootName overwrite configKey nodeDef)
  | undefine name configKey => some (dm.deleteParameters name configKey).1
  | object entity call => call.step dmPrefix entity dm

/-- An instance that is added carries the keys of what is below it already. -/
def KeysCovered (dmPrefix : Text) (dm : DataModel) : ExtensionCall → Prop
  | object entity (.addObject objectName answer) =>
    ∀ param ∈ dm.getParameter objectName, ∀ n ∈ ParameterManager.addedNumber entity param answer,
      dmPrefix.length ≤ objectName.length ∧ CoversBelow dmPrefix dm param n
  | _ => True

variable {dmPrefix : Text} {dm dm' : DataModel} {call : ExtensionCall}

/-- AddObject leaves the data model as it is, or it extends the object that it finds. -/
theorem addObject_extends (dmPrefix : Text) (entity : EntityType) (dm : DataModel) (objectName : Text)
    (answer : Int × Nat) :
    (ParameterManager.addObject dmPrefix entity dm objectName answer).1 = dm ∨
      ∃ found ∈ dm.getParameter objectName, ∃ n ∈ ParameterManager.addedNumber entity found answer,
        ∃ param : Parameter, param.name = objectName ∧ param.configKey = found.configKey ∧
          (ParameterManager.addObject dmPrefix entity dm objectName answer).1 =
            ParameterManager.extend dmPrefix dm param n := by
  obtain ⟨hSame, -⟩ | ⟨found, hFound, hNode, hWritable, hAdded⟩ :=
    ParameterManager.addObject_cases dmPrefix entity dm objectName answer
  · exact .inl hSame
  · have hName := DataModel.name_of_getParameter hFound
    obtain ⟨hMode, hRoom, hExtend, -⟩ | ⟨hMode, hEntity, hAnswer, hExtend, -⟩ := hAdded
    · refine .inr ⟨found, hFound, found.counter + 1, ?_, found.countInstance, hName, rfl, hExtend⟩
      simp [ParameterManager.addedNumber, hNode, hWritable, hMode, hRoom]
    · refine .inr ⟨found, hFound, answer.2, ?_, found, hName, rfl, hExtend⟩
      simp [ParameterManager.addedNumber, hNode, hWritable, hMode, hEntity, hAnswer]

theorem deleteObject_deletes (entity : EntityType) (dm : DataModel) (objectName : Text) (answer : Int) :
    (ParameterManager.deleteObject entity dm objectName answer).1 = dm ∨
      ∃ protoName, (ParameterManager.deleteObject entity dm objectName answer).1 =
        (dm.modify protoName (·.updateValue none true)).deleteObject objectName := by
  simp only [ParameterManager.deleteObject]
  grind

def Inv (dmPrefix : Text) (dm : DataModel) : Prop := dm.Unique ∧ OwnersCovered dmPrefix dm

theorem inv_step (hInv : Inv dmPrefix dm) (hCovered : call.KeysCovered dmPrefix dm)
    (hStep : call.step dmPrefix dm = some dm') : Inv dmPrefix dm' := by
  obtain ⟨hUnique, hOwners⟩ := hInv
  cases call with
  | define files limit depth rootName overwrite configKey nodeDef =>
    have hDefine : StoreOperation.step dmPrefix dm
        (.processDefinition files limit depth rootName overwrite configKey nodeDef) = some dm' := hStep
    refine ⟨hUnique.step hDefine, ?_⟩
    obtain ⟨⟨res, store⟩, hRun, rfl⟩ := Option.map_eq_some_iff.mp hDefine
    exact keep_of_run (ownersCovered_stable dmPrefix)
      (keeps_processDefinition (ownersCovered_stable dmPrefix) _ _ _ _ _ hOwners) hRun
  | undefine name configKey =>
    obtain rfl := Option.some.inj hStep
    exact ⟨hUnique.deleteParameters name configKey, ownersCovered_deleteParameters hOwners name configKey⟩
  | object entity call =>
    obtain rfl := Option.some.inj hStep
    cases call with
    | addObject objectName answer =>
      obtain hSame | ⟨found, hFound, n, hN, param, rfl, hKey, hExtend⟩ :=
        addObject_extends dmPrefix entity dm objectName answer
      · exact (congrArg (Inv dmPrefix) hSame).mpr ⟨hUnique, hOwners⟩
      · obtain ⟨hLong, hCovers⟩ := hCovered found hFound n hN
        refine (congrArg (Inv dmPrefix) hExtend).mpr ⟨?_, ?_⟩
        · exact (hUnique.of_names_eq (DataModel.names_modify fun _ _ => rfl)).addInstance dmPrefix _ n
        · have hUpdated : dm.getParameter (param.updateValue none true).name = some found := hFound
          exact ownersCovered_addInstance_modify hOwners hUnique hUpdated hKey hLong hCovers
    | deleteObject objectName answer =>
      obtain hSame | ⟨protoName, hDelete⟩ := deleteObject_deletes entity dm objectName answer
      · exact (congrArg (Inv dmPrefix) hSame).mpr ⟨hUnique, hOwners⟩
      · have hEntries : (dm.modify protoName (·.updateValue none true)).entries = dm.entries :=
          entries_modify fun _ _ => ⟨rfl, rfl⟩
        have hNames : (dm.modify protoName (·.updateValue none true)).names = dm.names :=
          DataModel.names_modify fun _ hName => hName
        refine (congrArg (Inv dmPrefix) hDelete).mpr ⟨?_, ownersCovered_deleteObject ?_ objectName⟩
        · exact (hUnique.of_names_eq hNames).sublist (List.filter_sublist.map _)
        · rw [OwnersCovered, owners_congr hEntries]
          exact hOwners

/-- From a store whose nodes carry the keys of what is below them, the nodes above each parameter stay there,
along all runs in which each instance that is added carries the keys of what is below it. -/
theorem parents_exist_along (dmPrefix : Text) {dm : DataModel} (hUnique : dm.Unique)
    (hOwners : OwnersCovered dmPrefix dm) {calls : List ExtensionCall}
    (hCovered : Along (step dmPrefix) (KeysCovered dmPrefix) dm calls) :
    Throughout (step dmPrefix) (ParentsExist dmPrefix) dm calls :=
  (throughout_of_along (fun _ _ _ hInv hKeys hStep => inv_step hInv hKeys hStep) ⟨hUnique, hOwners⟩ hCovered).mono
    fun _ hInv => hInv.2.parentsExist

section Samples

instance (dmPrefix node name : Text) : Decidable (Above dmPrefix node name) :=
  inferInstanceAs (Decidable (node ∈ DataModelConfiguration.parentNames dmPrefix name))

theorem parentsExist_iff :
    ParentsExist dmPrefix dm ↔ ∀ name ∈ dm.names, ∀ node ∈ parentNames dmPrefix name, node ∈ dm.names :=
  ⟨fun h _ hMem _ hAbove => h hAbove hMem, fun h _ _ hAbove hMem => h _ hMem _ hAbove⟩

instance (dmPrefix : Text) (dm : DataModel) : Decidable (ParentsExist dmPrefix dm) :=
  decidable_of_iff _ parentsExist_iff.symm

instance (dmPrefix : Text) (dm : DataModel) (param : Parameter) (n : Nat) :
    Decidable (CoversBelow dmPrefix dm param n) :=
  inferInstanceAs (Decidable (∀ top ∈ DataModel.entries _, ∀ low ∈ dm.entries, _ → ∀ t ∈ keyOwners low.2, _ ∨ _))

instance (dmPrefix : Text) (dm : DataModel) (call : ExtensionCall) : Decidable (call.KeysCovered dmPrefix dm) := by
  unfold KeysCovered
  split
  · exact inferInstance
  · exact instDecidableTrue

def sampleStore : DataModel := [ObjectCall.sampleNode "Device.".toList false]

/-- A definition with these attributes. -/
def sampleDefinition (configKey : String) (attributes : List (String × String)) : ExtensionCall :=
  define (fun _ => none) 0 0 none false configKey.toList
    (.node "ParameterDefinitionStruct".toList none
      (attributes.map fun (name, value) => XmlNode.node name.toList (some value.toList) none))

def portDefinitions : List ExtensionCall :=
  [sampleDefinition "port" [("Name", "Device.Port."), ("Writable", "true"), ("Persistence", "0")],
    sampleDefinition "port" [("Name", "Device.Port..Name")]]

def addPort : ExtensionCall := object .acs (.addObject "Device.Port.".toList (0, 0))

def undefinePorts : ExtensionCall := undefine "Device.Port.".toList (some "port".toList)

/-- An object with a prototype is defined, extended and undefined. -/
theorem parents_exist_ports :
    Throughout (step "Device.".toList) (ParentsExist "Device.".toList) sampleStore
      (portDefinitions ++ [addPort, undefinePorts]) :=
  parents_exist_along "Device.".toList (by decide +kernel)
    (ownersCovered_of_permanent (by decide +kernel) (by decide +kernel)) (by decide +kernel)

/-- A parameter of another extension is left alone when its node, which AddObject has put without the key of
this extension, is undefined. -/
theorem parent_undefined :
    ParentsExist "Device.".toList sampleStore ∧
      ¬ Throughout (step "Device.".toList) (ParentsExist "Device.".toList) sampleStore
        (portDefinitions ++ [sampleDefinition "speed" [("Name", "Device.Port.1.Speed")], addPort, undefinePorts]) := by
  decide +kernel

end Samples

end ExtensionCall

end Calls

end Tr069Agent.Engine
