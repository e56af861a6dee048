import Mathlib.Data.List.Nodup
import Tr069Agent.Engine.ParameterStore
import Tr069Agent.Library.UndoLog

/-! # Changing the attributes of parameters

`DM_ENG_SetParameterAttributes` saves the attributes of a parameter each time before it changes
them. After a fault it goes through what it saved, from the first to the last, and gives each back
through the setter.
-/

namespace Tr069Agent.Engine

open Library Library.UndoLog

set_option autoImplicit false

structure Attributes where
  notification : NotificationMode
  accessList : Option (List Text)
  deriving DecidableEq

structure ParameterAttributesStruct where
  parameterName : Text
  notification : Int
  accessList : Option (List Text)
  deriving DecidableEq

/-- None where the number is beyond the modes; -1 stands for no change. -/
def ParameterAttributesStruct.change (pas : ParameterAttributesStruct) : Option Attributes :=
  if pas.notification = -1 then some ⟨.undefined, pas.accessList⟩
  else if pas.notification < 0 ∨ 3 < pas.notification then none
  else some ⟨.ofNumber pas.notification.toNat, pas.accessList⟩

namespace Parameter

def attributes (prm : Parameter) : Attributes := ⟨prm.notification, prm.accessList⟩

def refuses (prm : Parameter) (change : Attributes) : Prop :=
  change.notification = .active ∧ prm.activeNotificationDenied = true

instance (prm : Parameter) (change : Attributes) : Decidable (prm.refuses change) :=
  inferInstanceAs (Decidable (_ ∧ _))

def setAttributes (prm : Parameter) (change : Attributes) : Int × Parameter :=
  if prm.refuses change then (Fault.notificationRequestRejected, prm)
  else (0, { prm with
              notification := override .undefined prm.notification change.notification
              accessList := override none prm.accessList change.accessList })

end Parameter

namespace SetParameterAttributes

/-- The attributes saved for the rollback, each with the name of its parameter. -/
abbrev BackPasList := List (Text × Attributes)

section Code

variable (load : Text → ParameterStore → Int × ParameterStore)

/-- The body of the loop over the names of a partial path, or over the one name of a leaf. -/
def setAll (change : Attributes) (store : ParameterStore) :
    List Text → Int × ParameterStore × BackPasList
  | [] => (0, store, [])
  | name :: names =>
    match store.getParameter name with
    | none => setAll change store names
    | some prm =>
      if prm.isHidden then setAll change store names
      else
        let (codeRetour, prm') := prm.setAttributes change
        if codeRetour ≠ 0 then (codeRetour, store.put prm', [(name, prm.attributes)])
        else
          let (codeRetour, store', backPasList) := setAll change (store.put prm') names
          (codeRetour, store', (name, prm.attributes) :: backPasList)

/-- The empty name and the names of nodes stand for all the values below them. -/
def targets (store : ParameterStore) (name : Text) : List Text :=
  if name = [] ∨ isNodeName name then
    store.names.filter fun prmName => name.isPrefixOf prmName && !isNodeName prmName && !isProto prmName
  else [name]

def isInvalidName (store : ParameterStore) (name : Text) : Bool :=
  match store.getParameter name with
  | none => true
  | some prm => isProto name || prm.isHidden

def setEntry (store : ParameterStore) (pas : ParameterAttributesStruct) :
    Int × ParameterStore × BackPasList :=
  match pas.change with
  | none => (Fault.invalidArguments, store, [])
  | some change =>
    let (codeRetour, store) := load pas.parameterName store
    if codeRetour ≠ 0 then (codeRetour, store, [])
    else if pas.parameterName ≠ [] ∧ isInvalidName store pas.parameterName then
      (Fault.invalidParameterName, store, [])
    else setAll change store (targets store pas.parameterName)

def setEntries (store : ParameterStore) :
    List ParameterAttributesStruct → Int × ParameterStore × BackPasList
  | [] => (0, store, [])
  | pas :: pasList =>
    let (codeRetour, store, backPasList) := setEntry load store pas
    if codeRetour ≠ 0 then (codeRetour, store, backPasList)
    else
      let (codeRetour, store, more) := setEntries store pasList
      (codeRetour, store, backPasList ++ more)

/-- None where the parameter is not found: the setter is then called on NULL. -/
def giveBack (store : ParameterStore) : BackPasList → Option ParameterStore
  | [] => some store
  | (name, attributes) :: backPasList => do
    let param ← store.getParameter name
    giveBack (store.put (param.setAttributes attributes).2) backPasList

end Code

end SetParameterAttributes

open SetParameterAttributes in
/-- `load` is `DM_ENG_ParameterManager_loadSystemParameters` for the names alone. -/
def setParameterAttributes (load : Text → ParameterStore → Int × ParameterStore)
    (entity : EntityType) (store : ParameterStore) (pasList : List ParameterAttributesStruct) :
    Option (Int × ParameterStore) :=
  if entity ≠ .acs then some (Fault.requestDenied, store)
  else
    let (codeRetour, store, backPasList) := setEntries load store pasList
    if codeRetour ≠ 0 then (giveBack store backPasList).map (codeRetour, ·)
    else some (codeRetour, store)

namespace SetParameterAttributes

/-! ## What the loop does to a parameter -/

/-- What the setter makes of attributes. -/
def set (denied : Bool) (attributes change : Attributes) : Attributes :=
  if change.notification = .active ∧ denied = true then attributes
  else ⟨override .undefined attributes.notification change.notification,
        override none attributes.accessList change.accessList⟩

@[simp]
theorem attributes_setAttributes (prm : Parameter) (change : Attributes) :
    (prm.setAttributes change).2.attributes =
      set prm.activeNotificationDenied prm.attributes change := by
  by_cases h : change.notification = .active ∧ prm.activeNotificationDenied = true <;>
    simp [Parameter.setAttributes, Parameter.refuses, set, h, Parameter.attributes]

@[simp]
theorem denied_setAttributes (prm : Parameter) (change : Attributes) :
    (prm.setAttributes change).2.activeNotificationDenied = prm.activeNotificationDenied := by
  unfold Parameter.setAttributes
  split <;> rfl

@[simp]
theorem name_setAttributes (prm : Parameter) (change : Attributes) :
    (prm.setAttributes change).2.name = prm.name := by
  unfold Parameter.setAttributes
  split <;> rfl

/-- The attributes that a list holds for one parameter. -/
def of (name : Text) (list : List (Text × Attributes)) : List Attributes :=
  (list.filter (·.1 = name)).map (·.2)

@[simp]
theorem of_nil (name : Text) : of name [] = [] := rfl

@[simp]
theorem of_cons (name : Text) (item : Text × Attributes) (list : List (Text × Attributes)) :
    of name (item :: list) = if item.1 = name then item.2 :: of name list else of name list := by
  simp only [of, List.filter_cons]
  split <;> simp_all

@[simp]
theorem of_append (name : Text) (list more : List (Text × Attributes)) :
    of name (list ++ more) = of name list ++ of name more := by
  simp [of]

/-- From `store` to `store'` the parameters have gone through the changes asked, and what they had
before each of them is saved. -/
structure Effect (asked : List (Text × Attributes)) (store store' : ParameterStore)
    (backPasList : BackPasList) : Prop where
  tracks : ∀ name prm, store.getParameter name = some prm → ∃ prm',
    store'.getParameter name = some prm' ∧
    prm'.activeNotificationDenied = prm.activeNotificationDenied ∧
    prm'.attributes = settle (set prm.activeNotificationDenied) prm.attributes (of name asked) ∧
    of name backPasList = saved (set prm.activeNotificationDenied) prm.attributes (of name asked)
  found : ∀ item ∈ backPasList, ∃ prm, store'.getParameter item.1 = some prm

theorem Effect.refl (store : ParameterStore) : Effect [] store store [] where
  tracks name prm h := ⟨prm, h, rfl, rfl, rfl⟩
  found := by simp

theorem Effect.trans {asked asked' : List (Text × Attributes)} {s s' s'' : ParameterStore}
    {l l' : BackPasList} (h : Effect asked s s' l) (h' : Effect asked' s' s'' l') :
    Effect (asked ++ asked') s s'' (l ++ l') where
  tracks := by
    intro name prm hFound
    obtain ⟨prm', hFound', hDenied, hAttributes, hSaved⟩ := h.tracks name prm hFound
    obtain ⟨prm'', hFound'', hDenied', hAttributes', hSaved'⟩ := h'.tracks name prm' hFound'
    refine ⟨prm'', hFound'', hDenied'.trans hDenied, ?_, ?_⟩
    · rw [hAttributes', hDenied, hAttributes, of_append, settle_append]
    · rw [of_append, of_append, saved_append, hSaved, hSaved', hDenied, hAttributes]
  found := by
    intro item hItem
    rcases List.mem_append.mp hItem with hItem | hItem
    · obtain ⟨prm, hFound⟩ := h.found item hItem
      obtain ⟨prm', hFound', -⟩ := h'.tracks item.1 prm hFound
      exact ⟨prm', hFound'⟩
    · exact h'.found item hItem

theorem effect_put {store : ParameterStore} {name : Text} {prm : Parameter}
    (h : store.getParameter name = some prm) (change : Attributes) :
    Effect [(name, change)] store (store.put (prm.setAttributes change).2)
      [(name, prm.attributes)] where
  tracks := by
    intro other prm₁ hOther
    have hName : (prm.setAttributes change).2.name = name := by
      rw [name_setAttributes, ParameterStore.name_of_getParameter h]
    by_cases hSame : name = other
    · subst hSame
      obtain rfl : prm = prm₁ := Option.some.inj (h.symm.trans hOther)
      refine ⟨_, ParameterStore.getParameter_put_self h hName, denied_setAttributes prm change, ?_, ?_⟩
      · simp [settle]
      · simp [saved]
    · refine ⟨prm₁, ?_, rfl, ?_, ?_⟩
      · rw [ParameterStore.getParameter_put_of_ne (hName ▸ Ne.symm hSame), hOther]
      · simp [hSame, settle]
      · simp [hSame, saved]
  found := by
    intro item hItem
    obtain rfl := List.mem_singleton.mp hItem
    refine ⟨_, ParameterStore.getParameter_put_self h ?_⟩
    rw [name_setAttributes, ParameterStore.name_of_getParameter h]

/-! ## What the request asks of the parameters -/

/-- The changes asked of the parameters of these names: up to the first that is refused. -/
def askedOfAll (change : Attributes) (store : ParameterStore) : List Text → List (Text × Attributes)
  | [] => []
  | name :: names =>
    match store.getParameter name with
    | none => askedOfAll change store names
    | some prm =>
      if prm.isHidden then askedOfAll change store names
      else if prm.refuses change then [(name, change)]
      else (name, change) :: askedOfAll change store names

def askedByEntry (load : Text → ParameterStore → Int × ParameterStore) (store : ParameterStore)
    (pas : ParameterAttributesStruct) : List (Text × Attributes) :=
  match pas.change with
  | none => []
  | some change =>
    let (codeRetour, store) := load pas.parameterName store
    if codeRetour ≠ 0 ∨ (pas.parameterName ≠ [] ∧ isInvalidName store pas.parameterName) then []
    else askedOfAll change store (targets store pas.parameterName)

/-- The changes that the entries ask for, one after the other, up to the entry that fails. -/
def asked (load : Text → ParameterStore → Int × ParameterStore) (store : ParameterStore) :
    List ParameterAttributesStruct → List (Text × Attributes)
  | [] => []
  | pas :: pasList =>
    let (codeRetour, store', _) := setEntry load store pas
    askedByEntry load store pas ++ if codeRetour ≠ 0 then [] else asked load store' pasList

theorem askedOfAll_put {store : ParameterStore} {prm : Parameter} (change : Attributes)
    {names : List Text} (h : prm.name ∉ names) :
    askedOfAll change (store.put prm) names = askedOfAll change store names := by
  induction names with
  | nil => rfl
  | cons name names ih =>
    obtain ⟨hHead, hTail⟩ := List.ne_and_not_mem_of_not_mem_cons h
    simp only [askedOfAll, ParameterStore.getParameter_put_of_ne hHead.symm, ih hTail]

theorem effect_setAll (change : Attributes) {names : List Text} (hNames : names.Nodup)
    (store : ParameterStore) :
    Effect (askedOfAll change store names) store (setAll change store names).2.1
      (setAll change store names).2.2 := by
  induction names generalizing store with
  | nil => exact Effect.refl store
  | cons name names ih =>
    obtain ⟨hHead, hTail⟩ := List.nodup_cons.mp hNames
    unfold setAll askedOfAll
    cases hFound : store.getParameter name with
    | none => exact ih hTail store
    | some prm =>
      have hPut := effect_put hFound change
      have hName := ParameterStore.name_of_getParameter hFound
      cases hHidden : prm.isHidden with
      | true => simpa only [hHidden, if_true] using ih hTail store
      | false =>
        by_cases hRefused : prm.refuses change
        · have hCode : (prm.setAttributes change).1 ≠ 0 := by
            simp [Parameter.setAttributes, hRefused, Fault.notificationRequestRejected]
          simpa [hHidden, hRefused, hCode] using hPut
        · have hCode : (prm.setAttributes change).1 = 0 := by
            simp [Parameter.setAttributes, hRefused]
          have hRest := ih hTail (store.put (prm.setAttributes change).2)
          rw [askedOfAll_put change (by rwa [name_setAttributes, hName])] at hRest
          simpa [hHidden, hRefused, hCode] using hPut.trans hRest

theorem nodup_targets (store : ParameterStore) (name : Text) : (targets store name).Nodup := by
  unfold targets
  split
  · exact List.Nodup.filter _ store.nodup
  · exact List.nodup_singleton name

/-- A load finds new instances; what was there before it keeps its attributes. The device still
lists the instances it has shown, so none of them is removed. -/
structure Keeps (load : Text → ParameterStore → Int × ParameterStore) : Prop where
  kept : ∀ path store name prm, ParameterStore.getParameter store name = some prm →
    ∃ prm', (load path store).2.getParameter name = some prm' ∧
      prm'.activeNotificationDenied = prm.activeNotificationDenied ∧
      prm'.attributes = prm.attributes

theorem Keeps.effect {load : Text → ParameterStore → Int × ParameterStore} (h : Keeps load)
    (path : Text) (store : ParameterStore) : Effect [] store (load path store).2 [] where
  tracks name prm hFound := by
    obtain ⟨prm', hFound', hDenied, hAttributes⟩ := h.kept path store name prm hFound
    exact ⟨prm', hFound', hDenied, hAttributes, rfl⟩
  found := by simp

theorem effect_setEntry {load : Text → ParameterStore → Int × ParameterStore} (h : Keeps load)
    (store : ParameterStore) (pas : ParameterAttributesStruct) :
    Effect (askedByEntry load store pas) store (setEntry load store pas).2.1
      (setEntry load store pas).2.2 := by
  unfold setEntry askedByEntry
  cases pas.change with
  | none => exact Effect.refl store
  | some change =>
    have hLoad := h.effect pas.parameterName store
    by_cases hCode : (load pas.parameterName store).1 ≠ 0
    · simpa [hCode] using hLoad
    by_cases hName : pas.parameterName ≠ [] ∧ isInvalidName (load pas.parameterName store).2 pas.parameterName
    · simpa [hCode, hName] using hLoad
    · have hAll := effect_setAll change
        (nodup_targets (load pas.parameterName store).2 pas.parameterName)
        (load pas.parameterName store).2
      simpa only [hCode, hName, or_self, if_false, List.nil_append] using hLoad.trans hAll

theorem effect_setEntries {load : Text → ParameterStore → Int × ParameterStore} (h : Keeps load)
    (store : ParameterStore) (pasList : List ParameterAttributesStruct) :
    Effect (asked load store pasList) store (setEntries load store pasList).2.1
      (setEntries load store pasList).2.2 := by
  induction pasList generalizing store with
  | nil => exact Effect.refl store
  | cons pas pasList ih =>
    have hEntry := effect_setEntry h store pas
    unfold setEntries asked
    by_cases hCode : (setEntry load store pas).1 ≠ 0
    · simpa [hCode] using hEntry
    · simpa only [hCode, if_false] using hEntry.trans (ih (setEntry load store pas).2.1)

/-! ## The rollback -/

theorem giveBack_eq_some {store : ParameterStore} {backPasList : BackPasList}
    (h : ∀ item ∈ backPasList, ∃ prm, store.getParameter item.1 = some prm) :
    ∃ final, giveBack store backPasList = some final ∧
      ∀ name prm, store.getParameter name = some prm → ∃ prm', final.getParameter name = some prm' ∧
        prm'.attributes =
          (of name backPasList).foldl (set prm.activeNotificationDenied) prm.attributes := by
  induction backPasList generalizing store with
  | nil => exact ⟨store, rfl, fun name prm hFound => ⟨prm, hFound, rfl⟩⟩
  | cons item backPasList ih =>
    obtain ⟨name, attributes⟩ := item
    obtain ⟨prm, hFound⟩ := h (name, attributes) List.mem_cons_self
    have hPut := effect_put hFound attributes
    have hRest : ∀ item ∈ backPasList, ∃ prm', (store.put (prm.setAttributes attributes).2).getParameter
        item.1 = some prm' := by
      intro item hItem
      obtain ⟨prm₁, hFound₁⟩ := h item (List.mem_cons_of_mem _ hItem)
      obtain ⟨prm₂, hFound₂, -⟩ := hPut.tracks item.1 prm₁ hFound₁
      exact ⟨prm₂, hFound₂⟩
    obtain ⟨final, hFinal, hTracks⟩ := ih hRest
    refine ⟨final, by simpa [giveBack, hFound] using hFinal, ?_⟩
    intro other prm₁ hOther
    obtain ⟨prm₂, hFound₂, hDenied, hAttributes, -⟩ := hPut.tracks other prm₁ hOther
    obtain ⟨prm₃, hFound₃, hFinal₃⟩ := hTracks other prm₂ hFound₂
    refine ⟨prm₃, hFound₃, ?_⟩
    rw [hFinal₃, hDenied, hAttributes, of_cons]
    by_cases hSame : name = other <;> simp [hSame, settle]

/-- The condition on the changes asked of a parameter under which giving the saved attributes back
restores it: the changes before the last leave what it had, and no change replaces a null. Where
the active notification it has is now denied, nothing is given back. -/
def Restorable (prm : Parameter) (changes : List Attributes) : Prop :=
  let after := settle (set prm.activeNotificationDenied) prm.attributes
  if prm.activeNotificationDenied = true ∧ prm.notification = .active then
    after changes = prm.attributes
  else
    (if prm.notification = .undefined then (after changes).notification = .undefined
     else (after changes.dropLast).notification = prm.notification) ∧
    (if prm.accessList = none then (after changes).accessList = none
     else (after changes.dropLast).accessList = prm.accessList)

instance (prm : Parameter) (changes : List Attributes) : Decidable (Restorable prm changes) := by
  unfold Restorable
  infer_instance

theorem set_notification_ne_undefined (denied : Bool) (v c : Attributes)
    (h : v.notification ≠ .undefined) : (set denied v c).notification ≠ .undefined := by
  unfold set
  split
  · exact h
  · exact override_ne_null h c.notification

theorem set_accessList_ne_none (denied : Bool) (v c : Attributes) (h : v.accessList ≠ none) :
    (set denied v c).accessList ≠ none := by
  unfold set
  split
  · exact h
  · exact override_ne_null h c.accessList

theorem set_notification_ne_active (v c : Attributes) (h : v.notification ≠ .active) :
    (set true v c).notification ≠ .active := by
  unfold set override
  grind

/-- Where no saved attributes are refused, the notification and the access list are given back
independently of each other. -/
theorem foldl_set_of_not_refused {denied : Bool} {list : List Attributes} (v : Attributes)
    (h : ∀ c ∈ list, ¬ (c.notification = .active ∧ denied = true)) :
    list.foldl (set denied) v =
      ⟨(list.map (·.notification)).foldl (override .undefined) v.notification,
        (list.map (·.accessList)).foldl (override none) v.accessList⟩ := by
  induction list generalizing v with
  | nil => rfl
  | cons c list ih =>
    have hHead : set denied v c = ⟨override .undefined v.notification c.notification,
        override none v.accessList c.accessList⟩ := if_neg (h c List.mem_cons_self)
    rw [List.foldl_cons, hHead, ih _ fun d hd => h d (List.mem_cons_of_mem _ hd)]
    rfl

theorem foldl_set_of_refused {list : List Attributes} (v : Attributes)
    (h : ∀ c ∈ list, c.notification = .active) : list.foldl (set true) v = v := by
  induction list with
  | nil => rfl
  | cons c list ih =>
    have hHead : set true v c = v := if_pos ⟨h c List.mem_cons_self, rfl⟩
    rw [List.foldl_cons, hHead]
    exact ih fun d hd => h d (List.mem_cons_of_mem _ hd)

theorem replay_denied_iff {v : Attributes} (hActive : v.notification = .active)
    (changes : List Attributes) :
    (saved (set true) v changes).foldl (set true) (settle (set true) v changes) = v ↔
      settle (set true) v changes = v := by
  by_cases hStill : (settle (set true) v changes).notification = .active
  · have hSaved := not_saved_of_not_settle (P := fun w : Attributes => w.notification ≠ .active)
      set_notification_ne_active (not_not.mpr hStill)
    rw [foldl_set_of_refused]
    exact fun c hc => not_not.mp (hSaved c hc)
  · have hReplayed := settle_induction (P := fun w : Attributes => w.notification ≠ .active)
      set_notification_ne_active hStill (saved (set true) v changes)
    constructor
    · intro h
      exact absurd ((congrArg Attributes.notification h).trans hActive) hReplayed
    · intro h
      exact absurd ((congrArg Attributes.notification h).trans hActive) hStill

theorem replay_eq_iff_restorable (prm : Parameter) (changes : List Attributes) :
    (saved (set prm.activeNotificationDenied) prm.attributes changes).foldl
        (set prm.activeNotificationDenied)
        (settle (set prm.activeNotificationDenied) prm.attributes changes) = prm.attributes ↔
      Restorable prm changes := by
  unfold Restorable
  generalize hDenied : prm.activeNotificationDenied = denied
  split
  next h =>
    obtain ⟨rfl, hActive⟩ := h
    exact replay_denied_iff hActive changes
  next h =>
    have hNotRefused : ∀ c ∈ saved (set denied) prm.attributes changes,
        ¬ (c.notification = .active ∧ denied = true) := by
      cases denied with
      | false => simp
      | true =>
        have hNotActive : prm.attributes.notification ≠ .active := by simpa [Parameter.attributes] using h
        have hSaved := saved_induction (P := fun w : Attributes => w.notification ≠ .active)
          set_notification_ne_active hNotActive changes
        exact fun c hc hBoth => hSaved c hc hBoth.1
    have hNotification :=
      replay_eq_iff (set_notification_ne_undefined denied) prm.attributes changes
    have hAccessList := replay_eq_iff (set_accessList_ne_none denied) prm.attributes changes
    rw [foldl_set_of_not_refused _ hNotRefused]
    simp only [Parameter.attributes, Attributes.mk.injEq] at hNotification hAccessList ⊢
    exact and_congr hNotification hAccessList

end SetParameterAttributes

/-! ## All or nothing -/

/-- Every parameter has the notification mode and the access list it had. -/
def AttributesKept (store final : ParameterStore) : Prop :=
  ∀ name prm, store.getParameter name = some prm →
    ∃ prm', final.getParameter name = some prm' ∧ prm'.attributes = prm.attributes

open SetParameterAttributes

/-- After a fault the attributes are those before the request exactly when each parameter can be
restored after the changes that were asked of it. -/
theorem attributesKept_iff_restorable {load : Text → ParameterStore → Int × ParameterStore}
    (hLoad : Keeps load) (entity : EntityType) (store : ParameterStore)
    (pasList : List ParameterAttributesStruct) :
    ∃ codeRetour final,
      setParameterAttributes load entity store pasList = some (codeRetour, final) ∧
      (codeRetour ≠ 0 → (AttributesKept store final ↔ entity ≠ .acs ∨
        ∀ name prm, store.getParameter name = some prm →
          Restorable prm (of name (asked load store pasList)))) := by
  by_cases hEntity : entity = .acs
  · have hEffect := effect_setEntries hLoad store pasList
    unfold setParameterAttributes
    simp only [hEntity, ne_eq, not_true, if_false, false_or]
    split
    next hCode =>
      obtain ⟨final, hFinal, hGiven⟩ := giveBack_eq_some hEffect.found
      refine ⟨_, final, by rw [hFinal]; rfl, fun _ => ?_⟩
      refine forall_congr' fun name => forall_congr' fun prm => forall_congr' fun hFound => ?_
      obtain ⟨prm₁, hFound₁, hDenied, hAttributes, hSaved⟩ := hEffect.tracks name prm hFound
      obtain ⟨prm₂, hFound₂, hReplayed⟩ := hGiven name prm₁ hFound₁
      rw [hDenied, hAttributes, hSaved] at hReplayed
      rw [← replay_eq_iff_restorable, ← hReplayed]
      constructor
      · rintro ⟨prm', hFound', hSame⟩
        obtain rfl : prm₂ = prm' := Option.some.inj (hFound₂.symm.trans hFound')
        exact hSame
      · exact fun hSame => ⟨prm₂, hFound₂, hSame⟩
    next hCode =>
      exact ⟨_, _, rfl, fun h => absurd h hCode⟩
  · refine ⟨Fault.requestDenied, store, if_pos hEntity, fun _ => ?_⟩
    exact iff_of_true (fun name prm hFound => ⟨prm, hFound, rfl⟩) (.inl hEntity)

section Samples

/-- The device lists no other instances than those held. -/
def namesLoaded (path : Text) (store : ParameterStore) : Int × ParameterStore :=
  (if path = [] ∨ (store.getParameter path).isSome then 0 else Fault.invalidParameterName, store)

theorem keeps_namesLoaded : Keeps namesLoaded where
  kept _ _ _ prm hFound := ⟨prm, hFound, rfl, rfl⟩

def ntpServer : Parameter where
  name := "Device.Time.NTPServer1".toList
  type := .string
  minValue := 64
  maxValue := 0
  storageMode := .dmOnly
  writable := true
  immediateChanges := 0
  accessList := some defaultAccessList
  notification := .off
  mandatoryNotification := false
  activeNotificationDenied := false
  loadingMode := 0
  state := .initial
  backValue := none
  value := none
  configKey := none
  definition := none

def timeStore : ParameterStore := ⟨[ntpServer], by decide⟩

def unknownEntry : ParameterAttributesStruct := ⟨"Device.Time.NTPServer9".toList, 0, none⟩

def setOnce : List ParameterAttributesStruct := [⟨ntpServer.name, 1, none⟩, unknownEntry]

def setTwice : List ParameterAttributesStruct :=
  [⟨ntpServer.name, 1, none⟩, ⟨ntpServer.name, 2, none⟩, unknownEntry]

theorem single_change_undone : ∃ codeRetour final,
    setParameterAttributes namesLoaded .acs timeStore setOnce = some (codeRetour, final) ∧
      codeRetour = Fault.invalidParameterName ∧ AttributesKept timeStore final := by
  obtain ⟨codeRetour, final, hResult, hIff⟩ :=
    attributesKept_iff_restorable keeps_namesLoaded .acs timeStore setOnce
  have hCode : codeRetour = Fault.invalidParameterName := by
    have hMap : (setParameterAttributes namesLoaded .acs timeStore setOnce).map (·.1) =
      some Fault.invalidParameterName := by decide +kernel
    simpa [hResult] using hMap
  refine ⟨codeRetour, final, hResult, hCode, (hIff (by rw [hCode]; decide)).mpr (.inr ?_)⟩
  intro name prm hFound
  obtain rfl : prm = ntpServer := List.mem_singleton.mp (List.mem_of_find?_eq_some hFound)
  obtain rfl := ParameterStore.name_of_getParameter hFound
  decide +kernel

/-- The mode goes from off to passive to active. The rollback gives back off, then passive. -/
theorem two_changes_not_undone : ∃ codeRetour final,
    setParameterAttributes namesLoaded .acs timeStore setTwice = some (codeRetour, final) ∧
      codeRetour ≠ 0 ∧ ¬ AttributesKept timeStore final := by
  have hMap : (setParameterAttributes namesLoaded .acs timeStore setTwice).map
      (fun r => (r.1, (r.2.getParameter ntpServer.name).map (·.notification))) =
      some (Fault.invalidParameterName, some .passive) := by decide +kernel
  obtain ⟨⟨codeRetour, final⟩, hResult, hFinal⟩ := Option.map_eq_some_iff.mp hMap
  obtain ⟨hCode, hFinal⟩ := Prod.mk.inj hFinal
  refine ⟨codeRetour, final, hResult, by rw [show codeRetour = _ from hCode]; decide, ?_⟩
  intro hKept
  obtain ⟨prm, hFound, hSame⟩ := hKept ntpServer.name ntpServer (by decide)
  have hPassive : prm.notification = .passive := by simpa [hFound] using hFinal
  have hOff : prm.notification = .off := congrArg Attributes.notification hSame
  exact absurd (hPassive.symm.trans hOff) (by decide)

end Samples

end Tr069Agent.Engine
