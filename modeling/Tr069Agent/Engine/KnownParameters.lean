import Tr069Agent.Engine.NotificationInterface
import Tr069Agent.Library.Transition

/-! # What the ACS is taken to know and what it knows

The list of known values is rebuilt at each request to set values, before it is known whether the
request is accepted, and pruned once an Inform has gone through. Beside it the history keeps the
last value of each parameter that the ACS has set or received.
-/

namespace Tr069Agent.Engine

open Library Library.Transition

set_option autoImplicit false

def tell (values : Text → Option (Option Text)) (pvs : ParameterValue) (name : Text) :
    Option (Option Text) :=
  if name = pvs.1 then some pvs.2 else values name

/-- What is known after the values of the list have been told one after the other. -/
def learn (values : Text → Option (Option Text)) (parameterList : List ParameterValue) :
    Text → Option (Option Text) :=
  parameterList.foldl tell values

theorem learn_of_forall {values : Text → Option (Option Text)} {parameterList : List ParameterValue}
    {name : Text} {value : Option Text} (hAll : ∀ pvs ∈ parameterList, pvs.1 = name → pvs.2 = value)
    (h : values name = some value ∨ ∃ pvs ∈ parameterList, pvs.1 = name) :
    learn values parameterList name = some value := by
  induction parameterList generalizing values with
  | nil => simpa [learn] using h
  | cons pvs rest ih =>
    apply ih fun pvs' hMem => hAll pvs' (List.mem_cons_of_mem pvs hMem)
    rcases eq_or_ne name pvs.1 with hName | hName
    · left
      rw [tell, if_pos hName, hAll pvs List.mem_cons_self hName.symm]
    · rw [tell, if_neg hName]
      refine h.imp_right ?_
      rintro ⟨pvs', hMem, hEq⟩
      rcases List.mem_cons.mp hMem with rfl | hRest
      · exact absurd hEq.symm hName
      · exact ⟨pvs', hRest, hEq⟩

namespace Listener

/-- The parameter key apart, a name is known once. -/
def KnownOnce (parameterKeyName : Text) (known : List ParameterValue) : Prop :=
  known.Pairwise fun pvs pvs' => pvs.1 = pvs'.1 → pvs.1 = parameterKeyName

theorem knownValue_of_mem {parameterKeyName : Text} {known : List ParameterValue}
    (hOnce : KnownOnce parameterKeyName known) {name : Text} {value : Option Text}
    (hMem : (name, value) ∈ known) (hName : name ≠ parameterKeyName) :
    knownValue known name = some value := by
  induction known with
  | nil => simp at hMem
  | cons pvs rest ih =>
    obtain ⟨hFirst, hRest⟩ := List.pairwise_cons.mp hOnce
    rcases List.mem_cons.mp hMem with rfl | hLater
    · simp [knownValue]
    · have hNe : pvs.1 ≠ name := fun hEq =>
        hName (hEq ▸ hFirst (name, value) hLater hEq)
      have hValue : knownValue rest name = some value := ih hRest hLater
      simpa [knownValue, hNe] using hValue

theorem mem_of_knownValue {known : List ParameterValue} {name : Text} {value : Option Text}
    (h : knownValue known name = some value) : (name, value) ∈ known := by
  obtain ⟨⟨name', value'⟩, hFind, rfl⟩ := Option.map_eq_some_iff.mp h
  obtain rfl : name' = name := by simpa using List.find?_some hFind
  exact List.mem_of_find?_eq_some hFind

theorem knownOnce_addMandatory {parameterKeyName : Text} (store : ParameterStore)
    {known : List ParameterValue} (hOnce : KnownOnce parameterKeyName known) (name : Text) :
    KnownOnce parameterKeyName (addMandatory store known name) := by
  rw [addMandatory]
  split
  · exact hOnce
  · rename_i hUnknown
    split
    · exact hOnce
    · refine List.pairwise_append.mpr ⟨hOnce, List.pairwise_singleton _ _, ?_⟩
      rintro pvs hMem _ hNew hEq
      obtain rfl := List.mem_singleton.mp hNew
      exfalso
      apply hUnknown
      rw [knownValue, Option.isSome_map, List.find?_isSome]
      exact ⟨pvs, hMem, by simpa using hEq⟩

theorem mem_addMandatory {store : ParameterStore} {known : List ParameterValue} {name : Text}
    {pvs : ParameterValue} (h : pvs ∈ addMandatory store known name) :
    pvs ∈ known ∨ pvs.1 = name ∧ (∀ pvs' ∈ known, pvs'.1 ≠ name) ∧
      ∃ prm, store.getParameter name = some prm ∧ prm.value = pvs.2 := by
  rw [addMandatory] at h
  split at h
  · exact .inl h
  · rename_i hUnknown
    split at h
    · exact .inl h
    · rename_i prm hGet
      rcases List.mem_append.mp h with hOld | hNew
      · exact .inl hOld
      · obtain rfl := List.mem_singleton.mp hNew
        refine .inr ⟨rfl, fun pvs' hMem hEq => hUnknown ?_, prm, hGet, rfl⟩
        rw [knownValue, Option.isSome_map, List.find?_isSome]
        exact ⟨pvs', hMem, by simpa using hEq⟩

/-- Adding the mandatory parameters keeps the list and adds values of the store under new names. -/
theorem addMandatory_spec {parameterKeyName : Text} (store : ParameterStore) (names : List Text)
    {known : List ParameterValue} (hOnce : KnownOnce parameterKeyName known) :
    KnownOnce parameterKeyName (names.foldl (addMandatory store) known) ∧
      ∀ pvs ∈ names.foldl (addMandatory store) known, pvs ∈ known ∨
        pvs.1 ∈ names ∧ (∀ pvs' ∈ known, pvs'.1 ≠ pvs.1) ∧
          ∃ prm, store.getParameter pvs.1 = some prm ∧ prm.value = pvs.2 := by
  induction names generalizing known with
  | nil => exact ⟨hOnce, fun pvs hMem => .inl hMem⟩
  | cons name names ih =>
    obtain ⟨hOnce', hRest⟩ := ih (knownOnce_addMandatory store hOnce name)
    refine ⟨hOnce', fun pvs hMem => ?_⟩
    rcases hRest pvs hMem with hHere | ⟨hName, hNew, hValue⟩
    · rcases mem_addMandatory hHere with hOld | ⟨rfl, hNew, hValue⟩
      · exact .inl hOld
      · exact .inr ⟨List.mem_cons_self, hNew, hValue⟩
    · refine .inr ⟨List.mem_cons_of_mem name hName, fun pvs' hOld => hNew pvs' ?_, hValue⟩
      rw [addMandatory]
      split
      · exact hOld
      · split
        · exact hOld
        · exact List.mem_append_left _ hOld

theorem mem_eraseNames {parameterKeyName : Text} (names : List Text) {known : List ParameterValue}
    (hOnce : KnownOnce parameterKeyName known) :
    KnownOnce parameterKeyName (names.foldl (fun known name => known.eraseP (·.1 = name)) known) ∧
      ∀ pvs ∈ names.foldl (fun known name => known.eraseP (·.1 = name)) known,
        pvs ∈ known ∧ (pvs.1 ≠ parameterKeyName → pvs.1 ∉ names) := by
  induction names generalizing known with
  | nil => exact ⟨hOnce, fun pvs hMem => ⟨hMem, by simp⟩⟩
  | cons name names ih =>
    have hSub : (known.eraseP (·.1 = name)).Sublist known := List.eraseP_sublist
    obtain ⟨hOnce', hRest⟩ := ih (hOnce.sublist hSub)
    refine ⟨hOnce', fun pvs hMem => ?_⟩
    obtain ⟨hErased, hNames⟩ := hRest pvs hMem
    refine ⟨hSub.subset hErased, fun hKey hName => ?_⟩
    rcases List.mem_cons.mp hName with rfl | hLater
    case inr => exact hNames hKey hLater
    -- the entry that is left and the erased one would have one name
    obtain ⟨erased, front, back, -, hErasedName, hKnown, hEq⟩ :=
      List.exists_of_eraseP (p := fun x : ParameterValue => decide (x.1 = pvs.1))
        (hSub.subset hErased) (by simp)
    rw [hEq] at hErased
    rw [hKnown] at hOnce
    have hErasedName : erased.1 = pvs.1 := by simpa using hErasedName
    obtain ⟨-, hTail, hCross⟩ := List.pairwise_append.mp hOnce
    rcases List.mem_append.mp hErased with hFront | hBack
    · exact hKey (hCross pvs hFront erased List.mem_cons_self hErasedName.symm)
    · exact hKey (hErasedName ▸ (List.pairwise_cons.mp hTail).1 pvs hBack hErasedName)

section Scan

variable {parameterKeyName : Text} {known : List ParameterValue} {mandatory : List Text}

theorem scan_of_change (parameterList : List ParameterValue) :
    (scan parameterKeyName known mandatory true parameterList).1 = true := by
  induction parameterList with
  | nil => rfl
  | cons pvs rest ih =>
    obtain ⟨name, newVal⟩ := pvs
    simp only [scan]
    split
    · exact ih
    · split
      · simpa using ih
      · split <;> exact ih

theorem scan_of_differs (mandatory : List Text) (change : Bool) {parameterList : List ParameterValue}
    {name : Text} {value : Option Text} (hMem : (name, value) ∈ parameterList)
    (hDiffers : knownValue known name ≠ some value)
    (hKey : name = parameterKeyName → knownValue known name = none) :
    (name, value) ∈ (scan parameterKeyName known mandatory change parameterList).2.1 ∧
      (scan parameterKeyName known mandatory change parameterList).1 = true := by
  induction parameterList generalizing change with
  | nil => simp at hMem
  | cons pvs rest ih =>
    rcases List.mem_cons.mp hMem with rfl | hLater
    · simp only [scan]
      cases hKnown : knownValue known name with
      | none => exact ⟨List.mem_cons_self, scan_of_change rest⟩
      | some knownVal =>
        have hNe : value ≠ knownVal := fun hEq => hDiffers (hEq ▸ hKnown)
        have hName : name ≠ parameterKeyName := fun hEq => by simp [hKey hEq] at hKnown
        simp only [hNe, hName, ne_eq, not_false_eq_true, decide_true, Bool.and_true, if_true]
        split
        · refine ⟨List.mem_cons_self, ?_⟩
          cases change <;> exact scan_of_change rest
        · exact ⟨List.mem_cons_self, scan_of_change rest⟩
    · obtain ⟨name', newVal⟩ := pvs
      simp only [scan]
      split
      · exact (ih true hLater).imp_left (List.mem_cons_of_mem _)
      · split
        · exact (ih _ hLater).imp_left (List.mem_cons_of_mem _)
        · split
          · exact (ih true hLater).imp_left (List.mem_cons_of_mem _)
          · exact ih change hLater

theorem mem_of_mem_scan {change : Bool} {parameterList : List ParameterValue} {pvs : ParameterValue}
    (h : pvs ∈ (scan parameterKeyName known mandatory change parameterList).2.1) :
    pvs ∈ parameterList ∧ (knownValue known pvs.1 = none ∨ pvs.1 ∈ mandatory ∨
      pvs.1 ∈ (scan parameterKeyName known mandatory change parameterList).2.2) := by
  induction parameterList generalizing change with
  | nil => simp [scan] at h
  | cons pvs' rest ih =>
    obtain ⟨name, newVal⟩ := pvs'
    simp only [scan] at h ⊢
    cases hKnown : knownValue known name with
    | none =>
      simp only [hKnown] at h ⊢
      rcases List.mem_cons.mp h with rfl | hLater
      · exact ⟨List.mem_cons_self, .inl hKnown⟩
      · exact (ih hLater).imp_left (List.mem_cons_of_mem _)
    | some knownVal =>
      simp only [hKnown] at h ⊢
      split at h
      · rename_i hMandatory
        rw [if_pos hMandatory]
        rcases List.mem_cons.mp h with rfl | hLater
        · exact ⟨List.mem_cons_self, .inr (.inl hMandatory)⟩
        · exact (ih hLater).imp_left (List.mem_cons_of_mem _)
      · rename_i hOther
        rw [if_neg hOther]
        split at h
        · rename_i hNe
          rw [if_pos hNe]
          rcases List.mem_cons.mp h with rfl | hLater
          · exact ⟨List.mem_cons_self, .inr (.inr List.mem_cons_self)⟩
          · obtain ⟨hRest, hWhere⟩ := ih hLater
            exact ⟨List.mem_cons_of_mem _ hRest,
              hWhere.imp_right (Or.imp_right (List.mem_cons_of_mem _))⟩
        · rename_i hEq
          rw [if_neg hEq]
          obtain ⟨hRest, hWhere⟩ := ih h
          exact ⟨List.mem_cons_of_mem _ hRest,
            hWhere.imp_right (Or.imp_right (List.mem_cons_of_mem _))⟩

end Scan

theorem inform_eq_some {parameterKeyName : Text} {mandatory : List Text} {events : List EventStruct}
    {parameterList : List ParameterValue} {result status : NotificationStatus}
    {listener listener' : Listener} {call : Option Call}
    (h : listener.inform parameterKeyName mandatory events parameterList result =
      some (call, status, listener')) :
    listener.knownParameters = [] ∧ listener' = listener ∨
      ∃ change newList toRemove,
        scan parameterKeyName listener.knownParameters mandatory false parameterList =
          (change, newList, toRemove) ∧
        (∀ sent ∈ call, sent.parameterList = newList) ∧
        (listener' = ⟨if listener.knownParameters.length ≤ mandatory.length then []
            else listener.knownParameters, toRemove⟩ ∨
          listener' = clearKnownParameters ⟨if listener.knownParameters.length ≤ mandatory.length
            then [] else listener.knownParameters, toRemove⟩) := by
  rw [inform] at h
  rcases eq_or_ne listener.knownParameters [] with hNil | hSome
  · rw [if_pos hNil] at h
    cases h
    exact .inl ⟨hNil, rfl⟩
  · rw [if_neg hSome] at h
    right
    refine ⟨_, _, _, rfl, ?_⟩
    dsimp only at h
    split at h
    · cases h
    · split at h
      · cases h
        refine ⟨fun sent hSent => by cases hSent; rfl, ?_⟩
        split
        · exact .inr rfl
        · exact .inl rfl
      · cases h
        exact ⟨by simp, .inr rfl⟩

end Listener

/-- The notification interface, and the last value of each parameter that the ACS has successfully
set or received in an Inform. -/
structure AcsView where
  prog : NotificationInterface
  acsValues : Text → Option (Option Text)

namespace AcsView

inductive Action where
  | activate (entity : EntityType)
  | setParameterValues (entity : EntityType) (store : ParameterStore)
      (parameterList : List ParameterValue) (parameterKey : Option Text) (accepted : Bool)
  | inform (events : List EventStruct) (parameterList : List ParameterValue)
      (acsResult selfcareResult : NotificationStatus) (received : Bool)
  | sessionOpened

def init : AcsView := ⟨.init, fun _ => none⟩

variable (parameterKeyName : Text)

/-- What the ACS has set by a request, with the parameter key that comes with it. -/
def afterSet (values : Text → Option (Option Text)) (parameterList : List ParameterValue)
    (parameterKey : Option Text) (accepted : Bool) : Text → Option (Option Text) :=
  if accepted then
    learn (learn values parameterList)
      (parameterKey.toList.map fun key => (parameterKeyName, some key))
  else values

def afterInform (values : Text → Option (Option Text)) (call : Option Listener.Call)
    (received : Bool) : Text → Option (Option Text) :=
  match call with
  | none => values
  | some call => if received then learn values call.parameterList else values

def step (view : AcsView) : Action → Option AcsView
  | .activate entity => some { view with prog := view.prog.activate entity }
  | .setParameterValues entity store parameterList parameterKey accepted =>
    some { prog := view.prog.setKnownParameterList entity store parameterList
           acsValues :=
             if entity = .acs then
               afterSet parameterKeyName view.acsValues parameterList parameterKey accepted
             else view.acsValues }
  | .inform events parameterList acsResult selfcareResult received => do
    let (call, _, prog) ←
      view.prog.inform parameterKeyName events parameterList acsResult selfcareResult
    return { prog, acsValues := afterInform view.acsValues call received }
  | .sessionOpened =>
    some { view with prog := { view.prog with acs := view.prog.acs.clearKnownParameters } }

/-- What the ACS does not know is passed on by an Inform, with the value change event. -/
def Discloses (view : AcsView) : Action → Prop
  | .inform events parameterList acsResult _ _ =>
    ∀ pvs ∈ parameterList, view.acsValues pvs.1 ≠ some pvs.2 →
      ∃ result ∈ view.prog.acs.inform parameterKeyName view.prog.mandatory events parameterList
        acsResult, ∃ call ∈ result.1, pvs ∈ call.parameterList ∧
          ∀ event ∈ events, Listener.isValueChange event → event ∈ call.events
  | _ => True

/-- The requested parameters of the Informs, the parameter key apart. -/
def asked (store : ParameterStore) (parameterList : List ParameterValue) : List ParameterValue :=
  parameterList.filter fun pvs => store.isInformParameter pvs.1 && pvs.1 ≠ parameterKeyName

/-- A request of the ACS gives a parameter of the Informs once and is accepted, unless it asks for
what the ACS knew; the ACS knows the mandatory values that it does not ask for. -/
def SetGuard (view : AcsView) (store : ParameterStore) (parameterList : List ParameterValue)
    (parameterKey : Option Text) (accepted : Bool) : Prop :=
  let values := afterSet parameterKeyName view.acsValues parameterList parameterKey accepted
  (asked parameterKeyName store parameterList).Pairwise (fun pvs pvs' => pvs.1 ≠ pvs'.1) ∧
    (∀ pvs ∈ asked parameterKeyName store parameterList, values pvs.1 = some pvs.2) ∧
    ∀ name ∈ view.prog.mandatoryParameterList.getD store.getMandatoryParameters,
      name ≠ parameterKeyName →
        (∀ pvs ∈ asked parameterKeyName store parameterList, pvs.1 ≠ name) →
          ∀ prm ∈ store.getParameter name, values name = some prm.value

/-- The ACS knows the parameter key; what waits to be removed is what the ACS knows; and an Inform
that is received while the list is kept has the mandatory values that are known. -/
def InformGuard (view : AcsView) (parameterList : List ParameterValue) (received : Bool) : Prop :=
  let known := view.prog.acs.knownParameters
  (∀ pvs ∈ parameterList, pvs.1 = parameterKeyName → Listener.knownValue known pvs.1 ≠ none →
      view.acsValues pvs.1 = some pvs.2) ∧
    (∀ name ∈ view.prog.acs.knownParametersToRemove, name ≠ parameterKeyName →
      ∀ value ∈ Listener.knownValue known name, view.acsValues name = some value) ∧
    (received = true → view.prog.mandatory.length < known.length →
      ∀ pvs ∈ parameterList, pvs.1 ∈ view.prog.mandatory → pvs.1 ≠ parameterKeyName →
        ∀ value ∈ Listener.knownValue known pvs.1, pvs.2 = value)

def Guard (view : AcsView) : Action → Prop
  | .setParameterValues .acs store parameterList parameterKey accepted =>
    SetGuard parameterKeyName view store parameterList parameterKey accepted
  | .inform _ parameterList _ _ received => InformGuard parameterKeyName view parameterList received
  | _ => True

set_option synthInstance.maxSize 512

instance (view : AcsView) : ∀ a, Decidable (Discloses parameterKeyName view a)
  | .activate _ => isTrue trivial
  | .setParameterValues _ _ _ _ _ => isTrue trivial
  | .sessionOpened => isTrue trivial
  | .inform events parameterList acsResult _ _ => inferInstanceAs (Decidable
      (∀ pvs ∈ parameterList, view.acsValues pvs.1 ≠ some pvs.2 →
        ∃ result ∈ view.prog.acs.inform parameterKeyName view.prog.mandatory events parameterList
          acsResult, ∃ call ∈ result.1, pvs ∈ call.parameterList ∧
            ∀ event ∈ events, Listener.isValueChange event → event ∈ call.events))

instance (view : AcsView) (store : ParameterStore) (parameterList : List ParameterValue)
    (parameterKey : Option Text) (accepted : Bool) :
    Decidable (SetGuard parameterKeyName view store parameterList parameterKey accepted) :=
  inferInstanceAs (Decidable (_ ∧ _ ∧ _))

instance (view : AcsView) (parameterList : List ParameterValue) (received : Bool) :
    Decidable (InformGuard parameterKeyName view parameterList received) :=
  inferInstanceAs (Decidable (_ ∧ _ ∧ _))

instance (view : AcsView) : ∀ a, Decidable (Guard parameterKeyName view a)
  | .activate _ => isTrue trivial
  | .setParameterValues .acs store parameterList parameterKey accepted =>
    inferInstanceAs
      (Decidable (SetGuard parameterKeyName view store parameterList parameterKey accepted))
  | .setParameterValues .selfcareApp _ _ _ _ => isTrue trivial
  | .setParameterValues .system _ _ _ _ => isTrue trivial
  | .setParameterValues .subscriber _ _ _ _ => isTrue trivial
  | .setParameterValues .any _ _ _ _ => isTrue trivial
  | .sessionOpened => isTrue trivial
  | .inform _ parameterList _ _ received =>
    inferInstanceAs (Decidable (InformGuard parameterKeyName view parameterList received))

/-- The parameter key apart, the ACS knows what it is taken to know, or the entry goes before the
next Inform. -/
structure Inv (view : AcsView) : Prop where
  once : Listener.KnownOnce parameterKeyName view.prog.acs.knownParameters
  known : ∀ pvs ∈ view.prog.acs.knownParameters, pvs.1 ≠ parameterKeyName →
    view.acsValues pvs.1 = some pvs.2 ∨ pvs.1 ∈ view.prog.acs.knownParametersToRemove

variable {parameterKeyName}

theorem inv_of_knownParameters_eq_nil {view : AcsView}
    (h : view.prog.acs.knownParameters = []) : Inv parameterKeyName view := by
  constructor
  · rw [h]
    exact List.Pairwise.nil
  · simp [h]

theorem inv_clearKnownParameters {view : AcsView} (h : Inv parameterKeyName view)
    (ni : NotificationInterface) (hAcs : ni.acs = view.prog.acs.clearKnownParameters) :
    Inv parameterKeyName ⟨ni, view.acsValues⟩ := by
  obtain ⟨hOnce, hMem⟩ := Listener.mem_eraseNames view.prog.acs.knownParametersToRemove h.once
  constructor
  · simpa [hAcs, Listener.clearKnownParameters] using hOnce
  · intro pvs hKnown hKey
    simp only [hAcs, Listener.clearKnownParameters] at hKnown ⊢
    obtain ⟨hOld, hLeft⟩ := hMem pvs hKnown
    exact .inl ((h.known pvs hOld hKey).resolve_right (hLeft hKey))

theorem mem_asked {store : ParameterStore} {parameterList : List ParameterValue}
    {pvs : ParameterValue} :
    pvs ∈ asked parameterKeyName store parameterList ↔
      pvs ∈ parameterList.filter (fun pvs => store.isInformParameter pvs.1) ∧
        pvs.1 ≠ parameterKeyName := by
  simp [asked, and_assoc]

/-- The list is rebuilt by a request of the ACS. -/
theorem inv_setKnownParameterList {view : AcsView} {store : ParameterStore}
    {parameterList : List ParameterValue} {parameterKey : Option Text} {accepted : Bool}
    (hGuard : SetGuard parameterKeyName view store parameterList parameterKey accepted) :
    Inv parameterKeyName
      ⟨view.prog.setKnownParameterList .acs store parameterList,
        afterSet parameterKeyName view.acsValues parameterList parameterKey accepted⟩ := by
  obtain ⟨hDistinct, hAsked, hMandatory⟩ := hGuard
  have hOnce : Listener.KnownOnce parameterKeyName
      (parameterList.filter fun pvs => store.isInformParameter pvs.1) := by
    apply List.pairwise_filter.mpr
    refine (List.pairwise_filter.mp hDistinct).imp ?_
    intro pvs pvs' hNe hInform hInform' hEq
    by_contra hKey
    have hKey' : pvs'.1 ≠ parameterKeyName := hEq ▸ hKey
    exact hNe (by simp [hInform, hKey]) (by simp [hInform', hKey']) hEq
  obtain ⟨hOnce', hKnown⟩ := Listener.addMandatory_spec store
    (view.prog.mandatoryParameterList.getD store.getMandatoryParameters) hOnce
  refine ⟨hOnce', fun pvs hMem hKey => .inl ?_⟩
  rcases hKnown pvs hMem with hRequested | ⟨hName, hNew, prm, hGet, hValue⟩
  · exact hAsked pvs (mem_asked.mpr ⟨hRequested, hKey⟩)
  · rw [← hValue]
    apply hMandatory pvs.1 hName hKey _ prm hGet
    exact fun pvs' hMem' => hNew pvs' (mem_asked.mp hMem').1

theorem acs_setKnownParameterList_of_ne {entity : EntityType} (h : entity ≠ .acs)
    (store : ParameterStore) (parameterList : List ParameterValue) (ni : NotificationInterface) :
    (ni.setKnownParameterList entity store parameterList).acs = ni.acs := by
  cases entity with
  | acs => exact absurd rfl h
  | selfcareApp => cases hSelfcare : ni.selfcareApp <;> simp [NotificationInterface.setKnownParameterList, hSelfcare]
  | system => rfl
  | subscriber => rfl
  | any => rfl

theorem Inv.congr {view view' : AcsView} (h : Inv parameterKeyName view)
    (hAcs : view'.prog.acs = view.prog.acs) (hValues : view'.acsValues = view.acsValues) :
    Inv parameterKeyName view' := by
  constructor
  · rw [hAcs]
    exact h.once
  · rw [hAcs, hValues]
    exact h.known

theorem Inv.acsValues_eq {view : AcsView} (h : Inv parameterKeyName view)
    {parameterList : List ParameterValue} {received : Bool}
    (hGuard : InformGuard parameterKeyName view parameterList received) {name : Text}
    {value : Option Text}
    (hKnown : Listener.knownValue view.prog.acs.knownParameters name = some value)
    (hKey : name ≠ parameterKeyName) : view.acsValues name = some value := by
  rcases h.known (name, value) (Listener.mem_of_knownValue hKnown) hKey with hKnows | hToRemove
  · exact hKnows
  · exact hGuard.2.1 name hToRemove hKey value hKnown

theorem discloses_of_guard (view : AcsView) (a : Action) (h : Inv parameterKeyName view)
    (hGuard : Guard parameterKeyName view a) : Discloses parameterKeyName view a := by
  cases a with
  | activate entity => trivial
  | setParameterValues entity store parameterList parameterKey accepted => trivial
  | sessionOpened => trivial
  | inform events parameterList acsResult selfcareResult received =>
    rintro ⟨name, value⟩ hMem hDiffers
    rw [Listener.inform]
    rcases eq_or_ne view.prog.acs.knownParameters [] with hNil | hSome
    · rw [if_pos hNil]
      exact ⟨_, rfl, _, rfl, hMem, fun event hEvent _ => hEvent⟩
    · rw [if_neg hSome]
      have hKey (hEq : name = parameterKeyName) :
          Listener.knownValue view.prog.acs.knownParameters name = none := by
        by_contra hKnown
        exact hDiffers (hGuard.1 (name, value) hMem hEq hKnown)
      have hValue : Listener.knownValue view.prog.acs.knownParameters name ≠ some value := by
        intro hKnown
        apply hDiffers
        apply h.acsValues_eq hGuard hKnown
        intro hEq
        simp [hKey hEq] at hKnown
      obtain ⟨hPassed, hChange⟩ :=
        Listener.scan_of_differs view.prog.mandatory false hMem hValue hKey
      simp only [hChange, Bool.not_true, Bool.false_and, Bool.false_eq_true, if_false,
        Bool.true_or, if_true]
      exact ⟨_, rfl, _, rfl, hPassed, fun event hEvent _ => hEvent⟩

theorem acs_of_inform {ni ni' : NotificationInterface} {events : List EventStruct}
    {parameterList : List ParameterValue} {acsResult selfcareResult status : NotificationStatus}
    {call : Option Listener.Call}
    (h : ni.inform parameterKeyName events parameterList acsResult selfcareResult =
      some (call, status, ni')) :
    ni.acs.inform parameterKeyName ni.mandatory events parameterList acsResult =
      some (call, status, ni'.acs) := by
  obtain ⟨⟨call', status', acs⟩, hAcs, hRest⟩ := Option.bind_eq_some_iff.mp h
  rw [hAcs]
  dsimp only at hRest
  split at hRest
  · cases hRest
    rfl
  · obtain ⟨⟨_, _, listener⟩, -, hEq⟩ := Option.bind_eq_some_iff.mp hRest
    cases hEq
    rfl

/-- Under the guard no value that the ACS receives makes a known one stale. -/
theorem afterInform_eq {view : AcsView} {parameterList : List ParameterValue} {received : Bool}
    (h : Inv parameterKeyName view) (hGuard : InformGuard parameterKeyName view parameterList received)
    {change : Bool} {newList : List ParameterValue} {toRemove : List Text}
    (hScan : Listener.scan parameterKeyName view.prog.acs.knownParameters view.prog.mandatory false
      parameterList = (change, newList, toRemove))
    {call : Option Listener.Call} (hCall : ∀ sent ∈ call, sent.parameterList = newList)
    (hLength : view.prog.mandatory.length < view.prog.acs.knownParameters.length)
    {pvs : ParameterValue} (hMem : pvs ∈ view.prog.acs.knownParameters)
    (hKey : pvs.1 ≠ parameterKeyName) (hKept : pvs.1 ∉ toRemove) :
    afterInform view.acsValues call received pvs.1 = some pvs.2 := by
  have hKnown : Listener.knownValue view.prog.acs.knownParameters pvs.1 = some pvs.2 :=
    Listener.knownValue_of_mem h.once hMem hKey
  have hBefore : view.acsValues pvs.1 = some pvs.2 := h.acsValues_eq hGuard hKnown hKey
  cases call with
  | none => exact hBefore
  | some sent =>
    cases received with
    | false => exact hBefore
    | true =>
      simp only [afterInform, if_true, hCall sent rfl]
      refine learn_of_forall (fun pvs' hPassed hName => ?_) (.inl hBefore)
      have hPassed' : pvs' ∈ (Listener.scan parameterKeyName view.prog.acs.knownParameters
          view.prog.mandatory false parameterList).2.1 := by rwa [hScan]
      obtain ⟨hGiven, hWhy⟩ := Listener.mem_of_mem_scan hPassed'
      rw [hName, hScan, hKnown] at hWhy
      have hMandatory : pvs.1 ∈ view.prog.mandatory := by simpa [hKept] using hWhy
      exact hGuard.2.2 rfl hLength pvs' hGiven (hName ▸ hMandatory) (hName ▸ hKey) pvs.2
        (hName ▸ hKnown)

theorem inv_inform {view : AcsView} {events : List EventStruct} {parameterList : List ParameterValue}
    {acsResult selfcareResult status : NotificationStatus} {received : Bool}
    {call : Option Listener.Call} {prog : NotificationInterface} (h : Inv parameterKeyName view)
    (hGuard : InformGuard parameterKeyName view parameterList received)
    (hInform : view.prog.inform parameterKeyName events parameterList acsResult selfcareResult =
      some (call, status, prog)) :
    Inv parameterKeyName ⟨prog, afterInform view.acsValues call received⟩ := by
  rcases Listener.inform_eq_some (acs_of_inform hInform) with
    ⟨hNil, hAcs⟩ | ⟨change, newList, toRemove, hScan, hCall, hAcs⟩
  · apply inv_of_knownParameters_eq_nil
    rw [hAcs, hNil]
  · -- what holds before the removed entries go
    have hBefore (ni : NotificationInterface)
        (hNi : ni.acs = ⟨if view.prog.acs.knownParameters.length ≤ view.prog.mandatory.length then []
          else view.prog.acs.knownParameters, toRemove⟩) :
        Inv parameterKeyName ⟨ni, afterInform view.acsValues call received⟩ := by
      split at hNi
      · apply inv_of_knownParameters_eq_nil
        rw [hNi]
      · rename_i hLength
        constructor
        · simpa [hNi] using h.once
        · intro pvs hMem hKey
          simp only [hNi] at hMem ⊢
          rw [or_iff_not_imp_right]
          exact afterInform_eq h hGuard hScan hCall (Nat.lt_of_not_le hLength) hMem hKey
    rcases hAcs with hKept | hCleared
    · exact hBefore prog hKept
    · exact inv_clearKnownParameters (hBefore { prog with acs := _ } rfl) prog hCleared

theorem step_inv (view : AcsView) (a : Action) (view' : AcsView) (h : Inv parameterKeyName view)
    (hGuard : Guard parameterKeyName view a) (hStep : step parameterKeyName view a = some view') :
    Inv parameterKeyName view' := by
  cases a with
  | activate entity =>
    cases hStep
    cases entity with
    | acs => exact inv_of_knownParameters_eq_nil rfl
    | selfcareApp => exact h.congr rfl rfl
    | system => exact h.congr rfl rfl
    | subscriber => exact h.congr rfl rfl
    | any => exact h.congr rfl rfl
  | setParameterValues entity store parameterList parameterKey accepted =>
    cases hStep
    rcases eq_or_ne entity .acs with rfl | hOther
    · exact inv_setKnownParameterList hGuard
    · refine h.congr (acs_setKnownParameterList_of_ne hOther store parameterList view.prog) ?_
      rw [if_neg hOther]
  | inform events parameterList acsResult selfcareResult received =>
    obtain ⟨⟨call, status, prog⟩, hInform, hEq⟩ := Option.bind_eq_some_iff.mp hStep
    cases hEq
    exact inv_inform h hGuard hInform
  | sessionOpened =>
    cases hStep
    exact inv_clearKnownParameters h _ rfl

/-- In every history whose steps meet the condition, each Inform passes on what the ACS does not
know. -/
theorem disclosed_of_guard (parameterKeyName : Text) (actions : List Action)
    (h : Along (step parameterKeyName) (Guard parameterKeyName) init actions) :
    Along (step parameterKeyName) (Discloses parameterKeyName) init actions :=
  along_of_along discloses_of_guard step_inv (inv_of_knownParameters_eq_nil rfl) h

section Samples

def keyName : Text := "Device.ManagementServer.ParameterKey".toList

def acsKey : Parameter where
  name := keyName
  type := .string
  minValue := 32
  maxValue := 0
  storageMode := .dmOnly
  writable := false
  immediateChanges := 0
  accessList := none
  notification := .passive
  mandatoryNotification := true
  activeNotificationDenied := false
  loadingMode := 0
  state := .initial
  backValue := none
  value := some "k0".toList
  configKey := none
  definition := none

def timeZone : Parameter :=
  { acsKey with
    name := "Device.Time.LocalTimeZone".toList
    writable := true
    notification := .active
    mandatoryNotification := false
    value := some "UTC".toList }

def zoneStore : ParameterStore := ⟨[acsKey, timeZone], by decide⟩

def informZone (code : EventCode) (zone key : String) : Action :=
  .inform [⟨code, none⟩] [(keyName, some key.toList), (timeZone.name, some zone.toList)]
    .sessionOpening .cancelled true

/-- The ACS learns of a time zone at boot and sets another one. -/
def zoneSet (accepted : Bool) : List Action :=
  [.activate .acs, informZone .boot "UTC" "k0", .sessionOpened,
    .setParameterValues .acs zoneStore [(timeZone.name, some "CET".toList)] (some "k1".toList)
      accepted]

theorem disclosed_zoneSet_accepted : Along (step keyName) (Discloses keyName) init
    (zoneSet true ++ [informZone .valueChange "CET" "k1", .sessionOpened,
      informZone .valueChange "EST" "k1"]) :=
  disclosed_of_guard keyName _ (by decide +kernel)

/-- The request was rejected, but the zone that the device takes later is held to be known. -/
theorem hidden_after_rejected_set : ¬ Along (step keyName) (Discloses keyName) init
    (zoneSet false ++ [informZone .valueChange "CET" "k0"]) := by decide +kernel

end Samples

end AcsView

end Tr069Agent.Engine
