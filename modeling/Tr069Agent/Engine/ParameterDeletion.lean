import Tr069Agent.Engine.StorePreservation

/-! # What a configuration key owns

Undefining goes once through the list of the parameters. Below a node, a parameter that keeps other keys is looked at
again, and for a single name the loop ends at the first parameter found.
-/

namespace Tr069Agent.Engine

open Library Library.Lines

set_option autoImplicit false

/-- The list of the parameters and the number that is kept of them. -/
structure ParameterData where
  parameters : DataModel
  nbParameters : Int
  deriving DecidableEq

def ParameterData.Counted (data : ParameterData) : Prop := data.nbParameters = data.parameters.length

instance ParameterData.decidableCounted (data : ParameterData) :
    Decidable data.Counted :=
  inferInstanceAs (Decidable (_ = _))

section Source

/-- `DM_ENG_deleteFromCommaSeparatedList`: none where the item is not found. -/
def deleteFromCommaSeparatedList (csl : Option Text) (ch : Text) : Option (Option Text) :=
  csl.bind fun csl =>
    if ch ∈ splitCommaSeparatedList csl then
      some (buildCommaSeparatedList (some ((splitCommaSeparatedList csl).erase ch)))
    else none

def Parameter.removeConfigKey (configKey : Text) (prm : Parameter) : Option Parameter :=
  (deleteFromCommaSeparatedList prm.configKey configKey).map fun csl => { prm with configKey := csl }

def matchesName (name prmName : Text) : Bool :=
  if isNodeName name then name.isPrefixOf prmName else prmName = name

/-- What becomes of a parameter that the loop looks at: none where it is passed over, and `some none` where it is
deleted. -/
def Parameter.lookedAt (name : Text) (configKey : Option Text) (prm : Parameter) : Option (Option Parameter) :=
  if prm.configKey.isSome && matchesName name prm.name then
    match configKey with
    | none => some none
    | some configKey =>
      (prm.removeConfigKey configKey).map fun prm => if prm.configKey.isNone then none else some prm
  else none

namespace ParameterData

/-- The loop of `DM_ENG_ParameterData_deleteParameters` from a parameter on. -/
def deleteLoop (name : Text) (configKey : Option Text) : Nat → DataModel → Bool → Option (DataModel × Bool)
  | 0, _, _ => none
  | _ + 1, [], res => some ([], res)
  | turns + 1, prm :: rest, res =>
    match prm.lookedAt name configKey with
    | none => (deleteLoop name configKey turns rest res).map (Prod.map (prm :: ·) id)
    | some none => if isNodeName name then deleteLoop name configKey turns rest true else some (rest, true)
    | some (some prm) =>
      if isNodeName name then deleteLoop name configKey turns (prm :: rest) true else some (prm :: rest, true)

/-- `DM_ENG_ParameterData_deleteParameters` with a bound on its turns; the number of the parameters is left as it
is. -/
def deleteParameters (turns : Nat) (data : ParameterData) (name : Text) (configKey : Option Text) :
    Option (ParameterData × Bool) :=
  if name = [] then some (data, false)
  else (deleteLoop name (configKey.map decoded) turns data.parameters false).map fun (parameters, res) =>
    ({ data with parameters }, res)

end ParameterData

end Source

section Keys

def Parameter.keys (prm : Parameter) : List Text := prm.configKey.elim [] splitCommaSeparatedList

/-- An extension that the name stands for and that has the key, if one is given. -/
def Parameter.Owned (name : Text) (configKey : Option Text) (prm : Parameter) : Prop :=
  name ≠ [] ∧ prm.configKey.isSome = true ∧ matchesName name prm.name = true ∧ ∀ key ∈ configKey, key ∈ prm.keys

instance (name : Text) (configKey : Option Text) (prm : Parameter) : Decidable (prm.Owned name configKey) :=
  inferInstanceAs (Decidable (_ ∧ _ ∧ _ ∧ _))

def Parameter.withKeys (prm : Parameter) (keys : List Text) : Option Parameter :=
  if keys = [] then none else some { prm with configKey := some (join ',' keys) }

/-- What a parameter is to be after it is undefined: it stays when it has another key. -/
def Parameter.undefine (name : Text) (configKey : Option Text) (prm : Parameter) : Option Parameter :=
  if prm.Owned name configKey then configKey.bind fun configKey => prm.withKeys (prm.keys.filter (· ≠ configKey))
  else some prm

theorem filter_ne_erase (key : Text) (keys : List Text) :
    (keys.erase key).filter (· ≠ key) = keys.filter (· ≠ key) := by
  induction keys with
  | nil => rfl
  | cons first keys ih =>
    rw [List.erase_cons]
    split
    · rename_i hSame
      rw [List.filter_cons_of_neg (by simpa using hSame)]
    · rename_i hOther
      simp only [List.filter_cons, ih]

theorem erase_eq_filter_iff {key : Text} {keys : List Text} :
    keys.erase key = keys.filter (· ≠ key) ↔ keys.count key ≤ 1 := by
  have hCount : (keys.erase key).count key = keys.count key - 1 := List.count_erase_self
  constructor
  · intro h
    have hNone : (keys.filter (· ≠ key)).count key = 0 := List.count_eq_zero.mpr (by simp)
    rw [h] at hCount
    omega
  · intro h
    have hNone : key ∉ keys.erase key := List.count_eq_zero.mp (by omega)
    rw [← filter_ne_erase]
    refine (List.filter_eq_self.mpr fun item hMem => ?_).symm
    have hOther : item ≠ key := fun hSame => hNone (hSame ▸ hMem)
    simpa using hOther

namespace Parameter

variable {prm : Parameter} {name key : Text} {configKey : Option Text} {keys : List Text}

theorem keys_withKeys {prm' : Parameter} (hKeys : ∀ item ∈ keys, item ∈ prm.keys) (h : prm.withKeys keys = some prm') :
    prm'.keys = keys ∧ prm'.name = prm.name ∧ prm'.configKey.isSome = true ∧
      ∀ others, prm'.withKeys others = prm.withKeys others := by
  obtain ⟨hSome, hPrm⟩ := Option.ite_none_left_eq_some.mp h
  obtain rfl := Option.some.inj hPrm
  refine ⟨?_, rfl, rfl, fun others => rfl⟩
  cases hCsl : prm.configKey with
  | none =>
    obtain ⟨first, hFirst⟩ := List.exists_mem_of_ne_nil keys hSome
    have hNone := hKeys first hFirst
    rw [Parameter.keys, hCsl] at hNone
    cases hNone
  | some csl =>
    rw [Parameter.keys, hCsl] at hKeys
    exact splitCommaSeparatedList_join_items hKeys hSome

theorem withKeys_eq_none_iff : prm.withKeys keys = none ↔ keys = [] := by
  rw [withKeys]
  split <;> simp [*]

theorem withKeys_injective {others : List Text} (hKeys : ∀ item ∈ keys, item ∈ prm.keys)
    (hOthers : ∀ item ∈ others, item ∈ prm.keys) (h : prm.withKeys keys = prm.withKeys others) : keys = others := by
  cases hPrm : prm.withKeys keys with
  | none =>
    rw [hPrm] at h
    rw [withKeys_eq_none_iff.mp hPrm, withKeys_eq_none_iff.mp h.symm]
  | some prm' =>
    have hLeft := (keys_withKeys hKeys hPrm).1
    have hRight := (keys_withKeys hOthers (h ▸ hPrm)).1
    exact hLeft.symm.trans hRight

theorem lookedAt_eq (hLong : name ≠ []) (configKey : Option Text) (prm : Parameter) :
    prm.lookedAt name configKey =
      if prm.Owned name configKey then
        some (configKey.bind fun configKey => prm.withKeys (prm.keys.erase configKey))
      else none := by
  unfold lookedAt
  by_cases hName : (prm.configKey.isSome && matchesName name prm.name) = true
  · rw [if_pos hName]
    obtain ⟨hSome, hMatch⟩ := Bool.and_eq_true_iff.mp hName
    obtain ⟨csl, hCsl⟩ := Option.isSome_iff_exists.mp hSome
    have hKeys : prm.keys = splitCommaSeparatedList csl := by rw [keys, hCsl, Option.elim_some]
    cases configKey with
    | none => rw [if_pos ⟨hLong, hSome, hMatch, by simp⟩, Option.bind_none]
    | some key =>
      by_cases hKey : key ∈ prm.keys
      · rw [if_pos ⟨hLong, hSome, hMatch, by simpa using hKey⟩, hKeys]
        rw [hKeys] at hKey
        simp only [removeConfigKey, deleteFromCommaSeparatedList, hCsl, Option.bind_some, if_pos hKey, Option.map_some,
          withKeys]
        cases (splitCommaSeparatedList csl).erase key <;> rfl
      · have hNot : ¬ prm.Owned name (some key) := fun hOwned => hKey (hOwned.2.2.2 key rfl)
        rw [hKeys] at hKey
        simp only [if_neg hNot, removeConfigKey, deleteFromCommaSeparatedList, hCsl, Option.bind_some, if_neg hKey,
          Option.map_none]
  · have hNot : ¬ prm.Owned name configKey := fun hOwned => hName (Bool.and_eq_true_iff.mpr ⟨hOwned.2.1, hOwned.2.2.1⟩)
    rw [if_neg hName, if_neg hNot]

theorem undefine_of_owned (h : prm.Owned name (some key)) :
    prm.undefine name (some key) = prm.withKeys (prm.keys.filter (· ≠ key)) := if_pos h

theorem undefine_eq_some_self_iff : prm.undefine name configKey = some prm ↔ ¬ prm.Owned name configKey := by
  rw [undefine]
  split
  · rename_i hOwned
    refine iff_of_false (fun hSame => ?_) (not_not.mpr hOwned)
    cases configKey with
    | none => cases hSame
    | some key =>
      have hKeys := (keys_withKeys (fun item hMem => (List.mem_filter.mp hMem).1) hSame).1
      have hKey := hOwned.2.2.2 key rfl
      rw [hKeys] at hKey
      exact absurd (List.mem_filter.mp hKey).2 (by simp)
  · rename_i hNot
    exact iff_of_true rfl hNot

theorem undefine_of_withKeys {prm' : Parameter} (hOwned : prm.Owned name (some key))
    (h : prm.withKeys (prm.keys.erase key) = some prm') :
    prm'.undefine name (some key) = prm.undefine name (some key) ∧ prm'.keys.length + 1 = prm.keys.length := by
  have hKey := hOwned.2.2.2 key rfl
  obtain ⟨hKeys, hName, hSome, hWith⟩ := keys_withKeys (fun item hMem => List.mem_of_mem_erase hMem) h
  have hFilter := (filter_ne_erase key prm.keys).symm
  constructor
  · rw [undefine_of_owned hOwned, undefine]
    split
    · rw [Option.bind_some, hWith, hKeys, hFilter]
    · rename_i hNot
      have hNone : key ∉ prm'.keys := by
        intro hMem
        refine hNot ⟨hOwned.1, hSome, by rw [hName]; exact hOwned.2.2.1, ?_⟩
        intro other hOther
        obtain rfl := Option.some.inj hOther
        exact hMem
      rw [← h, hFilter]
      congr 1
      rw [hKeys] at hNone
      exact (List.filter_eq_self.mpr fun item hMem => by
        have hOther : item ≠ key := fun hSame => hNone (hSame ▸ hMem)
        simpa using hOther).symm
  · rw [hKeys, List.length_erase_of_mem hKey]
    have hPos := List.length_pos_of_mem hKey
    omega

end Parameter

end Keys

section Loop

variable {name : Text} {configKey : Option Text} {dm : DataModel}

/-- The turns that a parameter takes at most. -/
def turnsOf (dm : DataModel) : Nat := dm.foldr (fun prm turns => prm.keys.length + 1 + turns) 0

theorem turnsOf_cons (prm : Parameter) (rest : DataModel) :
    turnsOf (prm :: rest) = prm.keys.length + 1 + turnsOf rest := rfl

theorem deleteLoop_node (hNode : isNodeName name = true) {turns : Nat} (res : Bool) (hTurns : turnsOf dm < turns) :
    ParameterData.deleteLoop name configKey turns dm res =
      some (dm.filterMap (Parameter.undefine name configKey), res || dm.any fun prm => prm.Owned name configKey) := by
  have hLong : name ≠ [] := by
    rintro rfl
    cases hNode
  induction turns generalizing dm res with
  | zero => omega
  | succ turns ih =>
    cases dm with
    | nil => simp [ParameterData.deleteLoop]
    | cons prm rest =>
      rw [turnsOf_cons] at hTurns
      rw [ParameterData.deleteLoop, Parameter.lookedAt_eq hLong]
      by_cases hOwned : prm.Owned name configKey
      · rw [if_pos hOwned]
        have hAny : (res || (prm :: rest).any fun prm => prm.Owned name configKey) = true := by simp [hOwned]
        cases configKey with
        | none =>
          have hGone : prm.undefine name none = none := if_pos hOwned
          simp only [Option.bind_none, if_pos hNode, ih true (show turnsOf rest < turns by omega), hAny]
          rw [List.filterMap_cons_none hGone, Bool.true_or]
        | some key =>
          simp only [Option.bind_some]
          cases hLeft : prm.withKeys (prm.keys.erase key) with
          | none =>
            have hGone : prm.undefine name (some key) = none := by
              rw [Parameter.undefine_of_owned hOwned, Parameter.withKeys_eq_none_iff, ← filter_ne_erase,
                Parameter.withKeys_eq_none_iff.mp hLeft, List.filter_nil]
            simp only [if_pos hNode, ih true (show turnsOf rest < turns by omega), hAny]
            rw [List.filterMap_cons_none hGone, Bool.true_or]
          | some prm' =>
            obtain ⟨hSame, hLength⟩ := Parameter.undefine_of_withKeys hOwned hLeft
            have hAgain : turnsOf (prm' :: rest) < turns := by
              rw [turnsOf_cons]
              omega
            simp only [if_pos hNode, ih true hAgain, hAny]
            rw [List.filterMap_cons, List.filterMap_cons, hSame, Bool.true_or]
      · have hStays : prm.undefine name configKey = some prm := Parameter.undefine_eq_some_self_iff.mpr hOwned
        simp only [if_neg hOwned, ih res (show turnsOf rest < turns by omega), Option.map_some, Prod.map_apply, id]
        rw [List.filterMap_cons_some hStays]
        simp [hOwned]

def undefineFirst (name : Text) (configKey : Option Text) : DataModel → DataModel
  | [] => []
  | prm :: rest =>
    if prm.Owned name configKey then
      (configKey.bind fun configKey => prm.withKeys (prm.keys.erase configKey)).toList ++ rest
    else prm :: undefineFirst name configKey rest

theorem deleteLoop_leaf (hLong : name ≠ []) (hLeaf : isNodeName name = false) {turns : Nat} (res : Bool)
    (hTurns : dm.length < turns) :
    ParameterData.deleteLoop name configKey turns dm res =
      some (undefineFirst name configKey dm, res || dm.any fun prm => prm.Owned name configKey) := by
  induction turns generalizing dm res with
  | zero => omega
  | succ turns ih =>
    cases dm with
    | nil => simp [ParameterData.deleteLoop, undefineFirst]
    | cons prm rest =>
      rw [ParameterData.deleteLoop, Parameter.lookedAt_eq hLong, undefineFirst]
      by_cases hOwned : prm.Owned name configKey
      · rw [if_pos hOwned, if_pos hOwned]
        have hAny : (res || (prm :: rest).any fun prm => prm.Owned name configKey) = true := by simp [hOwned]
        cases configKey.bind fun configKey => prm.withKeys (prm.keys.erase configKey) with
        | none => simpa [hLeaf] using hAny
        | some prm' => simpa [hLeaf] using hAny
      · rw [List.length_cons] at hTurns
        simp only [if_neg hOwned, ih res (show rest.length < turns by omega), Option.map_some, Prod.map_apply, id]
        simp [hOwned]

theorem filterMap_undefine_eq_self_iff :
    dm.filterMap (Parameter.undefine name configKey) = dm ↔ ∀ prm ∈ dm, ¬ prm.Owned name configKey := by
  constructor
  · intro h
    induction dm with
    | nil => simp
    | cons prm rest ih =>
      have hSome := List.filterMap_length_eq_length.mp (congrArg List.length h)
      obtain ⟨prm', hHere⟩ := Option.isSome_iff_exists.mp (hSome prm List.mem_cons_self)
      rw [List.filterMap_cons_some hHere] at h
      obtain ⟨rfl, hRest⟩ := List.cons.inj h
      exact List.forall_mem_cons.mpr ⟨Parameter.undefine_eq_some_self_iff.mp hHere, ih hRest⟩
  · intro h
    induction dm with
    | nil => rfl
    | cons prm rest ih =>
      obtain ⟨hHere, hRest⟩ := List.forall_mem_cons.mp h
      rw [List.filterMap_cons_some (Parameter.undefine_eq_some_self_iff.mpr hHere), ih hRest]

end Loop

section Undefining

/-- At most one parameter of a single name has the key, and has it once. -/
def OnceOnly (name : Text) (configKey : Option Text) (dm : DataModel) : Prop :=
  dm.countP (fun prm => prm.Owned name configKey) ≤ 1 ∧
    ∀ prm ∈ dm, prm.Owned name configKey → ∀ key ∈ configKey, prm.keys.count key ≤ 1

instance (name : Text) (configKey : Option Text) (dm : DataModel) : Decidable (OnceOnly name configKey dm) :=
  inferInstanceAs (Decidable (_ ∧ _))

variable {name : Text} {configKey : Option Text} {dm : DataModel}

/-- Where nothing is deleted, the first parameter of the name is all there is when no other one has the key. -/
theorem undefineFirst_eq_iff (hStay : ∀ prm ∈ dm, (prm.undefine name configKey).isSome = true) :
    undefineFirst name configKey dm = dm.filterMap (Parameter.undefine name configKey) ↔
      OnceOnly name configKey dm := by
  induction dm with
  | nil => simp [undefineFirst, OnceOnly]
  | cons prm rest ih =>
    obtain ⟨hHere, hRest⟩ := List.forall_mem_cons.mp hStay
    by_cases hOwned : prm.Owned name configKey
    · cases configKey with
      | none =>
        have hGone : prm.undefine name none = none := if_pos hOwned
        rw [hGone] at hHere
        cases hHere
      | some key =>
        have hKey := hOwned.2.2.2 key rfl
        obtain ⟨prm'', hUndefine⟩ := Option.isSome_iff_exists.mp hHere
        have hFilter := (Parameter.undefine_of_owned hOwned).symm.trans hUndefine
        have hErase : prm.keys.erase key ≠ [] := by
          intro hNil
          have hNone : prm.keys.filter (· ≠ key) = [] := by rw [← filter_ne_erase, hNil, List.filter_nil]
          rw [Parameter.withKeys_eq_none_iff.mpr hNone] at hFilter
          cases hFilter
        obtain ⟨prm', hOnce⟩ := Option.ne_none_iff_exists'.mp (mt Parameter.withKeys_eq_none_iff.mp hErase)
        have hHead : prm' = prm'' ↔ prm.keys.count key ≤ 1 := by
          rw [← erase_eq_filter_iff, ← Option.some_inj, ← hOnce, ← hFilter]
          refine ⟨fun h => ?_, fun h => by rw [h]⟩
          exact Parameter.withKeys_injective (fun item hMem => List.mem_of_mem_erase hMem)
            (fun item hMem => (List.mem_filter.mp hMem).1) h
        have hTail : rest = rest.filterMap (Parameter.undefine name (some key)) ↔
            rest.countP (fun prm => prm.Owned name (some key)) = 0 := by
          rw [eq_comm, filterMap_undefine_eq_self_iff, List.countP_eq_zero]
          simp
        rw [undefineFirst, if_pos hOwned, Option.bind_some, hOnce, List.filterMap_cons_some hUndefine,
          Option.toList_some, List.singleton_append, List.cons.injEq, hHead, hTail, OnceOnly,
            List.countP_cons_of_pos (by simpa using hOwned)]
        constructor
        · rintro ⟨hHeadOnce, hNone⟩
          refine ⟨by omega, List.forall_mem_cons.mpr ⟨fun _ other hOther => ?_, fun prm hMem hPrm => ?_⟩⟩
          · obtain rfl := Option.some.inj hOther
            exact hHeadOnce
          · exact absurd hPrm (by simpa using List.countP_eq_zero.mp hNone prm hMem)
        · rintro ⟨hOne, hAll⟩
          exact ⟨hAll prm List.mem_cons_self hOwned key rfl, by omega⟩
    · have hSame : prm.undefine name configKey = some prm := Parameter.undefine_eq_some_self_iff.mpr hOwned
      rw [undefineFirst, if_neg hOwned, List.filterMap_cons_some hSame, List.cons_inj_right, ih hRest]
      rw [OnceOnly, OnceOnly, List.countP_cons_of_neg (by simpa using hOwned), List.forall_mem_cons]
      refine and_congr_right fun _ => ?_
      exact ⟨fun h => ⟨fun h' => absurd h' hOwned, h⟩, fun h => h.2⟩

theorem Parameter.isSome_undefine_iff {prm : Parameter} (hOwned : prm.Owned name configKey) :
    (prm.undefine name configKey).isSome = true ↔ ∃ key ∈ configKey, ∃ other ∈ prm.keys, other ≠ key := by
  cases configKey with
  | none => simp [undefine, hOwned]
  | some key =>
    rw [undefine_of_owned hOwned, Option.isSome_iff_ne_none, ne_eq, withKeys_eq_none_iff, List.filter_eq_nil_iff]
    simp

/-- The parameters that the key owns alone are gone, the others have lost it, and the number is right. -/
structure Undefines (name : Text) (configKey : Option Text) (data data' : ParameterData) (res : Bool) : Prop where
  parameters : data'.parameters = data.parameters.filterMap (Parameter.undefine name configKey)
  result : res = true ↔ ∃ prm ∈ data.parameters, prm.Owned name configKey
  counted : data'.Counted

/-- With enough turns the deletion ends, and it undefines what the key owns. -/
def UndefinesExactly (data : ParameterData) (name : Text) (configKey : Option Text) : Prop :=
  ∀ turns, turnsOf data.parameters < turns → ∃ data' res,
    data.deleteParameters turns name configKey = some (data', res) ∧
      Undefines name (configKey.map decoded) data data' res

theorem length_le_turnsOf (dm : DataModel) : dm.length ≤ turnsOf dm := by
  induction dm with
  | nil => exact Nat.le_refl _
  | cons prm rest ih =>
    rw [turnsOf_cons, List.length_cons]
    omega

theorem deleteParameters_eq (data : ParameterData) (name : Text) (configKey : Option Text) {turns : Nat}
    (hTurns : turnsOf data.parameters < turns) :
    data.deleteParameters turns name configKey = some
      ({ data with
        parameters :=
          if isNodeName name then data.parameters.filterMap (Parameter.undefine name (configKey.map decoded))
          else undefineFirst name (configKey.map decoded) data.parameters },
        data.parameters.any fun prm => prm.Owned name (configKey.map decoded)) := by
  rw [ParameterData.deleteParameters]
  by_cases hLong : name = []
  · have hNone : ∀ prm : Parameter, ¬ prm.Owned name (configKey.map decoded) := fun prm hOwned => hOwned.1 hLong
    have hSame : undefineFirst name (configKey.map decoded) data.parameters = data.parameters := by
      induction data.parameters with
      | nil => rfl
      | cons prm rest ih => rw [undefineFirst, if_neg (hNone prm), ih]
    have hLeaf : isNodeName name = false := by
      rw [hLong]
      rfl
    rw [if_pos hLong, hLeaf, if_neg Bool.false_ne_true, hSame]
    simp [hNone]
  · rw [if_neg hLong]
    have hLength := length_le_turnsOf data.parameters
    cases hNode : isNodeName name with
    | true => simp [deleteLoop_node hNode false hTurns]
    | false => simp [deleteLoop_leaf hLong hNode false (show data.parameters.length < turns by omega)]

theorem withoutConfigKey_eq (name : Text) (configKey : Option Text) (prm : Parameter) :
    (if name ≠ [] ∧ (if isNodeName name then name.isPrefixOf prm.name else decide (prm.name = name)) = true then
        prm.withoutConfigKey configKey (isNodeName name) else none) =
      if prm.Owned name configKey then
        some (configKey.bind fun configKey => prm.withKeys (keysWithout configKey (isNodeName name) prm.keys))
      else none := by
  change (if name ≠ [] ∧ matchesName name prm.name = true then _ else _) = _
  by_cases hSelected : name ≠ [] ∧ matchesName name prm.name = true
  · rw [if_pos hSelected]
    cases hCsl : prm.configKey with
    | none =>
      have hNot : ¬ prm.Owned name configKey := by simp [Parameter.Owned, hCsl]
      simp [Parameter.withoutConfigKey, hCsl, hNot]
    | some csl =>
      have hKeys : prm.keys = splitCommaSeparatedList csl := by rw [Parameter.keys, hCsl, Option.elim_some]
      have hOwned : prm.Owned name configKey ↔ ∀ key ∈ configKey, key ∈ splitCommaSeparatedList csl := by
        simp [Parameter.Owned, hSelected, hCsl, hKeys]
      cases configKey with
      | none => simp [Parameter.withoutConfigKey, hCsl, hOwned]
      | some key =>
        by_cases hKey : key ∈ splitCommaSeparatedList csl
        · simp only [Parameter.withoutConfigKey, hCsl, hOwned, hKeys, hKey, if_true, Option.mem_def, Option.some.injEq,
            forall_eq', Option.bind_some, Parameter.withKeys]
          cases keysWithout key (isNodeName name) (splitCommaSeparatedList csl) <;> rfl
        · simp [Parameter.withoutConfigKey, hCsl, hOwned, hKey]
  · have hNot : ¬ prm.Owned name configKey := fun hOwned => hSelected ⟨hOwned.1, hOwned.2.2.1⟩
    rw [if_neg hSelected, if_neg hNot]

theorem parameters_deleteParameters (data : ParameterData) (name : Text) (configKey : Option Text) {turns : Nat}
    (hTurns : turnsOf data.parameters < turns) :
    data.deleteParameters turns name configKey = some
      ({ data with parameters := (data.parameters.deleteParameters name configKey).1 },
        (data.parameters.deleteParameters name configKey).2) := by
  have hList (dm : DataModel) : dm.deleteParameters name configKey =
      (if isNodeName name then dm.filterMap (Parameter.undefine name (configKey.map decoded))
        else undefineFirst name (configKey.map decoded) dm,
        dm.any fun prm => prm.Owned name (configKey.map decoded)) := by
    induction dm with
    | nil => simp [DataModel.deleteParameters, undefineFirst]
    | cons prm rest ih =>
      rw [DataModel.deleteParameters]
      dsimp only
      rw [withoutConfigKey_eq, ih]
      by_cases hOwned : prm.Owned name (configKey.map decoded)
      · rw [if_pos hOwned]
        have hAny : (prm :: rest).any (fun prm => prm.Owned name (configKey.map decoded)) = true := by simp [hOwned]
        rw [hAny, undefineFirst, if_pos hOwned]
        cases isNodeName name with
        | true =>
          have hUndefine : prm.undefine name (configKey.map decoded) = (configKey.map decoded).bind fun key =>
              prm.withKeys (prm.keys.filter (· ≠ key)) := if_pos hOwned
          simp only [keysWithout, if_true, List.filterMap_cons, ← hUndefine]
          cases prm.undefine name (configKey.map decoded) <;> rfl
        | false => simp only [keysWithout, Bool.false_eq_true, if_false]
      · have hSame : prm.undefine name (configKey.map decoded) = some prm :=
          Parameter.undefine_eq_some_self_iff.mpr hOwned
        rw [if_neg hOwned, undefineFirst, if_neg hOwned, List.filterMap_cons_some hSame]
        cases isNodeName name <;> simp [hOwned]
  rw [deleteParameters_eq data name configKey hTurns, hList]

/-- What the key owns is undefined exactly if every parameter that has it has another one too, and for a single name
no second parameter has it and none has it twice. -/
theorem undefinesExactly_iff {data : ParameterData} (h : data.Counted) (name : Text) (configKey : Option Text) :
    UndefinesExactly data name configKey ↔
      (∀ prm ∈ data.parameters, prm.Owned name (configKey.map decoded) →
        ∃ key ∈ configKey.map decoded, ∃ other ∈ prm.keys, other ≠ key) ∧
      (isNodeName name = false → OnceOnly name (configKey.map decoded) data.parameters) := by
  have hStays : (∀ prm ∈ data.parameters, prm.Owned name (configKey.map decoded) →
      ∃ key ∈ configKey.map decoded, ∃ other ∈ prm.keys, other ≠ key) ↔
      ∀ prm ∈ data.parameters, (prm.undefine name (configKey.map decoded)).isSome = true := by
    refine forall₂_congr fun prm _ => ?_
    by_cases hOwned : prm.Owned name (configKey.map decoded)
    · rw [Parameter.isSome_undefine_iff hOwned]
      simp [hOwned]
    · rw [Parameter.undefine_eq_some_self_iff.mpr hOwned]
      simp [hOwned]
  rw [hStays]
  constructor
  · intro hExact
    obtain ⟨data', res, hRun, hUndefines⟩ := hExact _ (Nat.lt_succ_self _)
    rw [deleteParameters_eq data name configKey (Nat.lt_succ_self _), Option.some.injEq, Prod.mk.injEq] at hRun
    obtain ⟨rfl, rfl⟩ := hRun
    have hCounted := hUndefines.counted
    have hLists := hUndefines.parameters
    rw [ParameterData.Counted, hLists] at hCounted
    dsimp only at hCounted hLists
    rw [h] at hCounted
    have hSome := List.filterMap_length_eq_length.mp (Int.ofNat_inj.mp hCounted).symm
    refine ⟨hSome, fun hLeaf => ?_⟩
    rw [hLeaf, if_neg Bool.false_ne_true] at hLists
    exact (undefineFirst_eq_iff hSome).mp hLists
  · rintro ⟨hSome, hOnce⟩ turns hTurns
    refine ⟨_, _, deleteParameters_eq data name configKey hTurns, ?_⟩
    have hLists : (if isNodeName name then data.parameters.filterMap (Parameter.undefine name (configKey.map decoded))
        else undefineFirst name (configKey.map decoded) data.parameters) =
        data.parameters.filterMap (Parameter.undefine name (configKey.map decoded)) := by
      cases hNode : isNodeName name with
      | true => rfl
      | false => exact (undefineFirst_eq_iff hSome).mpr (hOnce hNode)
    rw [hLists]
    constructor
    · rfl
    · simp
    · rw [ParameterData.Counted, List.filterMap_length_eq_length.mpr hSome]
      exact h

def sampleExtension (configKey : Option Text) : Parameter :=
  { newDefinedParameter "Device.Port".toList .any none false with configKey }

/-- A parameter loses one of its two keys. -/
theorem undefinesExactly_shared :
    UndefinesExactly ⟨[sampleExtension (some "a,b".toList)], 1⟩ "Device.Port".toList (some "a".toList) :=
  (undefinesExactly_iff (by decide) _ _).mpr (by decide +kernel)

/-- The parameter is deleted, and the number stays. -/
theorem number_stays :
    ¬ UndefinesExactly ⟨[sampleExtension (some "a".toList)], 1⟩ "Device.Port".toList (some "a".toList) := by
  intro h
  obtain ⟨data', res, hRun, hUndefines⟩ := h 3 (by decide +kernel)
  have hDeleted : ParameterData.deleteParameters 3 ⟨[sampleExtension (some "a".toList)], 1⟩ "Device.Port".toList
      (some "a".toList) = some (⟨[], 1⟩, true) := by decide +kernel
  rw [hDeleted, Option.some.injEq, Prod.mk.injEq] at hRun
  obtain ⟨rfl, -⟩ := hRun
  exact absurd hUndefines.counted (by decide)

end Undefining

end Tr069Agent.Engine
