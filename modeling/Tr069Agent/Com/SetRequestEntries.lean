import Tr069Agent.Com.RequestAnswers
import Tr069Agent.Library.Lines

/-! # The entries of the requests that set

The structures of a list are made one entry after the other. A variable keeps the name of the entry
before, and an entry whose elements are missing leaves a gap at which the array ends for the engine.
-/

namespace Tr069Agent.Com

open Library Library.Lines Engine

set_option autoImplicit false

def Action.rpc : Action → Option RpcCall
  | .call rpc => some rpc
  | .send _ => none

def calls (actions : List Action) : List RpcCall := actions.filterMap Action.rpc

/-- Either a fault is sent and the engine is not called, or it is called with one item for each entry, which
is what this entry describes. -/
def EntriesReach {α : Type} (ctx : SoapContext) (soapIdStr : Text) (describes : SoapNode → Option α)
    (call : List α → RpcCall) (entries : List SoapNode) (actions : List Action) : Prop :=
  (∃ nFaultCode, actions = [.send (soapFaultResponse ctx soapIdStr nFaultCode)]) ∨
    ∃ items, calls actions = [call items] ∧ List.Forall₂ (fun entry item => describes entry = some item) entries items

section Entries

def attributeEntries (rpcNode : SoapNode) : List SoapNode :=
  match firstOr "ParameterList" rpcNode with
  | none => []
  | some paramListNode =>
    match paramListNode.elementsByTagName "SetParameterAttributesStruct".toList with
    | [] => paramListNode.elementsByTagName "ParameterAttibutesStruct".toList
    | nodes => nodes

def flagged (tag : String) (entry : SoapNode) : Bool := readFlag (valueOf tag entry)

/-- The strings that an entry gives for its list. -/
def accessItems (entry : SoapNode) : Option (List Text) :=
  (first "AccessList" entry).map fun accessListNode => (childNodesList accessListNode).map cellText

def ownValueStruct (entry : SoapNode) : Option ParameterValueStruct := do
  let name ← valueOf "Name" entry
  let valueNode ← first "Value" entry
  let pValTypeStr ← valueNode.attributeValue "xsi:type".toList
  return ⟨name, findTypeParameter pValTypeStr, some (textOf valueNode)⟩

/-- The mode to be set: none where it is given by a text that is no number. -/
def ownNotification (entry : SoapNode) : Option Int :=
  if flagged "NotificationChange" entry then
    match valueOf "Notification" entry with
    | none => some NotificationMode.undefined.number
    | some text => stringToInt text
  else some NotificationMode.undefined.number

def ownAccessList (entry : SoapNode) : Option (Option (List Text)) :=
  if flagged "AccessListChange" entry then (accessItems entry).map some
  else some none

def ownAttributesStruct (entry : SoapNode) : Option ParameterAttributesStruct := do
  let name ← valueOf "Name" entry
  let _ ← first "NotificationChange" entry
  let _ ← first "AccessListChange" entry
  let notification ← ownNotification entry
  let accessList ← ownAccessList entry
  return ⟨name, notification, accessList⟩

end Entries

section Conditions

def ValuesRefused (rpcNode : SoapNode) : Prop :=
  first "ParameterKey" rpcNode = none ∨ valueEntries rpcNode = [] ∨
    (∃ entry, (valueEntries rpcNode).head? = some entry ∧ first "Name" entry = none) ∨
    ∃ entry ∈ valueEntries rpcNode, ValueRefused entry

/-- The elements without which no structure is made. -/
def HasElements (entry : SoapNode) : Prop :=
  valueOf "Name" entry ≠ none ∧ first "NotificationChange" entry ≠ none ∧ first "AccessListChange" entry ≠ none

/-- The mode is not given, or its text is a number. -/
def NotificationReadable (entry : SoapNode) : Prop :=
  flagged "NotificationChange" entry = true → ∀ text, valueOf "Notification" entry = some text → stringToInt text ≠ none

def AttributesRefused (rpcNode : SoapNode) : Prop :=
  attributeEntries rpcNode = [] ∨ ∃ entry ∈ attributeEntries rpcNode,
    HasElements entry ∧ flagged "AccessListChange" entry = true ∧ first "AccessList" entry = none

end Conditions

section Calls

variable {ctx : SoapContext} {soapIdStr : Text}

theorem entriesReach_withArguments {α β : Type} {describes : SoapNode → Option α} {call : List α → RpcCall}
    {entries : List SoapNode} {arguments : Option β} {perform : β → List Action} {array : β → List α}
    (hCalls : ∀ b, arguments = some b → calls (perform b) = [call (array b)])
    (hCall : Function.Injective call) :
    EntriesReach ctx soapIdStr describes call entries (withArguments ctx soapIdStr arguments perform) ↔
      ∀ b, arguments = some b → List.Forall₂ (fun entry item => describes entry = some item) entries (array b) := by
  cases arguments with
  | none => simp [EntriesReach, withArguments]
  | some b =>
    have hOne : calls (perform b) = [call (array b)] := hCalls b rfl
    constructor
    · rintro (⟨nFaultCode, hFault⟩ | ⟨items, hItems, hEach⟩) b' hB
      · rw [show perform b = _ from hFault] at hOne
        cases hOne
      · have hSame : items = array b := hCall (List.singleton_inj.mp (hItems.symm.trans hOne))
        rwa [← Option.some.inj hB, ← hSame]
    · exact fun h => .inr ⟨array b, hOne, h b rfl⟩

end Calls

section Values

theorem ownValueStruct_eq_none {entry : SoapNode} (h : first "Name" entry = none) : ownValueStruct entry = none := by
  simp [ownValueStruct, valueOf, h]

/-- An entry that is not refused gives one structure, and its own one where it has a name. -/
theorem exists_ownValueStruct (name : Text) {entry : SoapNode} (h : ¬ ValueRefused entry) :
    ∃ name' item, (first "Name" entry ≠ none → ownValueStruct entry = some item) ∧
      ∀ rest, readParameterValueStructs (some name) (entry :: rest) =
        (readParameterValueStructs (some name') rest).map fun structs => structs.map (item :: ·) := by
  rw [ValueRefused, not_or, not_exists] at h
  obtain ⟨hName, hType⟩ := h
  obtain ⟨pValTypeStr, hType⟩ := Option.ne_none_iff_exists'.mp hType
  obtain ⟨valueNode, hValue, hType⟩ := Option.bind_eq_some_iff.mp hType
  cases hNode : first "Name" entry with
  | none =>
    exact ⟨name, _, fun hNone => absurd rfl hNone, fun rest =>
      readParameterValueStructs_read rest hValue hType (by rw [hNode]; rfl)⟩
  | some nameNode =>
    obtain ⟨name', hText⟩ := Option.ne_none_iff_exists'.mp fun hEmpty => hName nameNode ⟨hNode, hEmpty⟩
    refine ⟨name', _, fun _ => ?_, fun rest =>
      readParameterValueStructs_read rest hValue hType (by rw [hNode]; exact hText)⟩
    simp only [ownValueStruct, valueOf, hNode, hValue, Option.bind_eq_bind, Option.bind_some, hText, hType,
      Option.pure_def]

theorem readParameterValueStructs_eq_refused_iff (name : Text) {entries : List SoapNode}
    {arguments : Option (List ParameterValueStruct)}
    (h : readParameterValueStructs (some name) entries = some arguments) :
    arguments = none ↔ ∃ entry ∈ entries, ValueRefused entry := by
  induction entries generalizing name arguments with
  | nil =>
    cases h
    simp
  | cons entry rest ih =>
    by_cases hBare : BareValue entry
    · rw [readParameterValueStructs_bare rest hBare] at h
      cases h
    by_cases hRefused : ValueRefused entry
    · rw [readParameterValueStructs_refused rest hRefused hBare] at h
      cases h
      exact iff_of_true rfl ⟨entry, List.mem_cons_self, hRefused⟩
    · obtain ⟨name', item, -, hCons⟩ := exists_ownValueStruct name hRefused
      rw [hCons] at h
      obtain ⟨structs, hRest, rfl⟩ := Option.map_eq_some_iff.mp h
      rw [Option.map_eq_none_iff, ih name' hRest, List.exists_mem_cons_iff]
      exact ⟨.inr, fun h => h.resolve_left hRefused⟩

theorem forall₂_ownValueStruct_iff {name : Text} {entries : List SoapNode} {items : List ParameterValueStruct}
    (h : readParameterValueStructs (some name) entries = some (some items)) :
    List.Forall₂ (fun entry item => ownValueStruct entry = some item) entries items ↔
      ∀ entry ∈ entries, first "Name" entry ≠ none := by
  induction entries generalizing name items with
  | nil =>
    cases h
    simp
  | cons entry rest ih =>
    by_cases hBare : BareValue entry
    · rw [readParameterValueStructs_bare rest hBare] at h
      cases h
    by_cases hRefused : ValueRefused entry
    · rw [readParameterValueStructs_refused rest hRefused hBare] at h
      cases h
    · obtain ⟨name', item, hOwn, hCons⟩ := exists_ownValueStruct name hRefused
      rw [hCons] at h
      obtain ⟨structs, hRest, hItems⟩ := Option.map_eq_some_iff.mp h
      obtain ⟨items, rfl, rfl⟩ := Option.map_eq_some_iff.mp hItems
      rw [List.forall₂_cons, List.forall_mem_cons, ih hRest]
      refine and_congr_left fun _ => ⟨fun hItem hNone => ?_, hOwn⟩
      rw [ownValueStruct_eq_none hNone] at hItem
      cases hItem

variable (ctx : SoapContext) (engine : RpcInterface) (soapIdStr : Text)

/-- With its arguments read, a request reaches the engine or is refused. -/
theorem valueArguments_reach_iff {rpcNode : SoapNode} {arguments : Option (List ParameterValueStruct × Text)}
    (h : valueArguments rpcNode = some arguments) :
    (∀ b, arguments = some b →
        List.Forall₂ (fun entry item => ownValueStruct entry = some item) (valueEntries rpcNode) b.1) ↔
      ValuesRefused rpcNode ∨ ∀ entry ∈ valueEntries rpcNode, first "Name" entry ≠ none := by
  have hStops : ¬ StopsAtValue rpcNode := by
    rw [← valueArguments_eq_none_iff, h]
    exact Option.some_ne_none arguments
  rw [valueArguments] at h
  rw [ValuesRefused]
  split at h
  · rename_i hMissing
    cases h
    exact iff_of_true (fun _ hSome => by cases hSome) (.inl (hMissing.imp_right .inl))
  · rename_i hMissing
    rw [not_or] at hMissing
    obtain ⟨structs, hRead, rfl⟩ := Option.map_eq_some_iff.mp h
    cases hEntries : valueEntries rpcNode with
    | nil => exact absurd hEntries hMissing.2
    | cons entry rest =>
      rw [hEntries] at hRead
      have hBare : ¬ BareValue entry := by
        intro hBare
        rw [readParameterValueStructs_bare rest hBare] at hRead
        cases hRead
      by_cases hName : first "Name" entry = none
      · rw [readParameterValueStructs_nameless rest hName hBare] at hRead
        cases hRead
        exact iff_of_true (fun _ hSome => by cases hSome) (.inl (.inr (.inr (.inl ⟨entry, rfl, hName⟩))))
      · rw [readParameterValueStructs_named rest hName []] at hRead
        have hIff := readParameterValueStructs_eq_refused_iff [] hRead
        cases structs with
        | none => exact iff_of_true (fun _ hSome => by cases hSome) (.inl (.inr (.inr (.inr (hIff.mp rfl)))))
        | some items =>
          have hNot : ¬ ∃ refused ∈ entry :: rest, ValueRefused refused := by
            rw [← hIff]
            exact Option.some_ne_none items
          rw [← forall₂_ownValueStruct_iff hRead]
          simp only [hNot, or_false, hMissing.1, reduceCtorEq, List.head?_cons, Option.some.injEq, exists_eq_left',
            hName, false_or, Option.map_some, forall_eq']

theorem setParameterValues_reach_iff (rpcNode : SoapNode) :
    (∃ actions ∈ parseSetParameterValues ctx engine soapIdStr rpcNode,
        EntriesReach ctx soapIdStr ownValueStruct (.setParameterValues · (parameterKeyOf rpcNode))
          (valueEntries rpcNode) actions) ↔
      ¬ StopsAtValue rpcNode ∧
        (ValuesRefused rpcNode ∨ ∀ entry ∈ valueEntries rpcNode, first "Name" entry ≠ none) := by
  rw [parseSetParameterValues_eq, ← valueArguments_eq_none_iff]
  cases hArguments : valueArguments rpcNode with
  | none => simp
  | some arguments =>
    simp only [Option.map_some, Option.mem_def, Option.some.injEq, exists_eq_left', reduceCtorEq, not_false_eq_true,
      true_and]
    rw [@entriesReach_withArguments ctx soapIdStr _ _ _ _ _ _ _ Prod.fst, valueArguments_reach_iff hArguments]
    · rintro ⟨list, key⟩ rfl
      have hKey : key = parameterKeyOf rpcNode := by
        rw [valueArguments] at hArguments
        split at hArguments
        · cases hArguments
        · obtain ⟨structs, -, hPair⟩ := Option.map_eq_some_iff.mp hArguments
          obtain ⟨items, -, hPair⟩ := Option.map_eq_some_iff.mp hPair
          exact (congrArg Prod.snd hPair).symm
      rw [hKey]
      rfl
    · intro items items' h
      exact (RpcCall.setParameterValues.inj h).1

end Values

section Attributes

variable (notif : Int)

theorem ownNotification_eq_none_iff {entry : SoapNode} :
    ownNotification entry = none ↔ ¬ NotificationReadable entry := by
  rw [ownNotification, NotificationReadable]
  by_cases hFlag : flagged "NotificationChange" entry = true
  · cases hText : valueOf "Notification" entry <;> simp [hFlag]
  · simp [hFlag]

theorem ownAccessList_eq_none_iff {entry : SoapNode} :
    ownAccessList entry = none ↔ flagged "AccessListChange" entry = true ∧ first "AccessList" entry = none := by
  rw [ownAccessList, accessItems]
  split <;> simp [*]

/-- An entry with its elements: what the loop stores for it and what it describes differ in the mode only. -/
theorem attributesStructs_of_hasElements {entry : SoapNode} (h : HasElements entry) :
    ∃ name, readAttributesStruct notif entry =
        (ownAccessList entry).map (fun accessList => some ⟨name, (ownNotification entry).getD notif, accessList⟩) ∧
      ownAttributesStruct entry = (ownNotification entry).bind fun notification =>
        (ownAccessList entry).map fun accessList => ⟨name, notification, accessList⟩ := by
  obtain ⟨hName, hNotification, hAccess⟩ := h
  obtain ⟨name, hName⟩ := Option.ne_none_iff_exists'.mp hName
  obtain ⟨nameNode, hNameNode, hText⟩ := Option.bind_eq_some_iff.mp hName
  obtain ⟨notificationNode, hNotification⟩ := Option.ne_none_iff_exists'.mp hNotification
  obtain ⟨accessNode, hAccess⟩ := Option.ne_none_iff_exists'.mp hAccess
  have hNotificationFlag : flagged "NotificationChange" entry = readFlag notificationNode.nodeValue := by
    rw [flagged, valueOf, hNotification, Option.bind_some]
  have hAccessFlag : flagged "AccessListChange" entry = readFlag accessNode.nodeValue := by
    rw [flagged, valueOf, hAccess, Option.bind_some]
  refine ⟨name, ?_, ?_⟩
  · simp only [readAttributesStruct, hNameNode, hNotification, hAccess, hText]
    have hMode : (ownNotification entry).getD notif = ((if readFlag notificationNode.nodeValue then
          match valueOf "Notification" entry with
          | none => NotificationMode.undefined.number
          | some text => (stringToInt text).getD notif
        else NotificationMode.undefined.number) : Int) := by
      rw [ownNotification, hNotificationFlag]
      split
      · cases valueOf "Notification" entry <;> rfl
      · rfl
    rw [hMode, ownAccessList, hAccessFlag]
    split
    · rw [accessItems, Option.map_map, Option.map_map]
      rfl
    · rfl
  · simp only [ownAttributesStruct, hName, hNotification, hAccess, Option.bind_eq_bind, Option.bind_some,
      Option.pure_def, Option.map_eq_bind, Function.comp_def]

theorem attributesStructs_of_not_hasElements {entry : SoapNode} (h : ¬ HasElements entry) :
    readAttributesStruct notif entry = some none ∧ ownAttributesStruct entry = none := by
  rw [readAttributesStruct, ownAttributesStruct]
  cases hName : first "Name" entry with
  | none => simp [valueOf, hName]
  | some nameNode =>
    cases hNotification : first "NotificationChange" entry with
    | none => simp
    | some notificationNode =>
      cases hAccess : first "AccessListChange" entry with
      | none => simp
      | some accessNode =>
        have hText : nameNode.nodeValue = none := by
          by_contra hText
          exact h ⟨by rw [valueOf, hName]; exact hText, by simp [hNotification], by simp [hAccess]⟩
        simp [valueOf, hName, hText]

/-- The array is what the entries describe exactly when it has no gap and every mode could be read. -/
theorem forall₂_beforeMissing_iff {entries : List SoapNode} {structs : List (Option ParameterAttributesStruct)}
    (h : List.Forall₂ (fun entry item => readAttributesStruct notif entry = some item) entries structs) :
    List.Forall₂ (fun entry item => ownAttributesStruct entry = some item) entries (beforeMissing structs) ↔
      ∀ entry ∈ entries, HasElements entry ∧ NotificationReadable entry := by
  induction h with
  | nil => simp [beforeMissing]
  | @cons entry item entries structs hItem _ ih =>
    rw [List.forall_mem_cons]
    by_cases hElements : HasElements entry
    · obtain ⟨name, hRead, hOwn⟩ := attributesStructs_of_hasElements notif hElements
      rw [hRead] at hItem
      obtain ⟨accessList, hAccess, rfl⟩ := Option.map_eq_some_iff.mp hItem
      have hArray : beforeMissing (some ⟨name, (ownNotification entry).getD notif, accessList⟩ :: structs) =
          ⟨name, (ownNotification entry).getD notif, accessList⟩ :: beforeMissing structs := rfl
      rw [hArray, List.forall₂_cons, ih, hOwn, hAccess]
      refine and_congr_left fun _ => ?_
      rw [← not_iff_not, not_and, ← ownNotification_eq_none_iff]
      cases ownNotification entry with
      | none => simp [hElements]
      | some notification => simp [hElements]
    · rw [(attributesStructs_of_not_hasElements notif hElements).1] at hItem
      obtain rfl := Option.some.inj hItem
      have hArray : beforeMissing (none :: structs) = [] := rfl
      simp [hArray, hElements]

variable (ctx : SoapContext) (engine : RpcInterface) (soapIdStr : Text)

def attributeArguments (rpcNode : SoapNode) : Option (List ParameterAttributesStruct) :=
  if attributeEntries rpcNode = [] then none
  else ((attributeEntries rpcNode).mapM (readAttributesStruct notif)).map beforeMissing

theorem parseSetParameterAttributes_eq (rpcNode : SoapNode) :
    parseSetParameterAttributes ctx engine notif soapIdStr rpcNode =
      withArguments ctx soapIdStr (attributeArguments notif rpcNode)
        (subSetParameterAttributes ctx engine soapIdStr) := by
  rw [parseSetParameterAttributes, attributeArguments, attributeEntries]
  cases firstOr "ParameterList" rpcNode with
  | none => simp only [Option.bind_eq_bind, Option.bind_none, if_true]
  | some paramListNode =>
    rw [Option.map_eq_bind]
    rfl

/-- Only an entry that has its elements is refused, for its list. -/
theorem readAttributesStruct_eq_none_iff {entry : SoapNode} : readAttributesStruct notif entry = none ↔
    HasElements entry ∧ flagged "AccessListChange" entry = true ∧ first "AccessList" entry = none := by
  by_cases hElements : HasElements entry
  · obtain ⟨name, hRead, -⟩ := attributesStructs_of_hasElements notif hElements
    rw [hRead, Option.map_eq_none_iff, ownAccessList_eq_none_iff]
    exact (and_iff_right hElements).symm
  · simp [(attributesStructs_of_not_hasElements notif hElements).1, hElements]

theorem setParameterAttributes_reach_iff (rpcNode : SoapNode) :
    EntriesReach ctx soapIdStr ownAttributesStruct .setParameterAttributes (attributeEntries rpcNode)
        (parseSetParameterAttributes ctx engine notif soapIdStr rpcNode) ↔
      AttributesRefused rpcNode ∨
        ∀ entry ∈ attributeEntries rpcNode, HasElements entry ∧ NotificationReadable entry := by
  rw [parseSetParameterAttributes_eq, @entriesReach_withArguments ctx soapIdStr _ _ _ _ _ _ _ id]
  · rw [attributeArguments, AttributesRefused]
    by_cases hEntries : attributeEntries rpcNode = []
    · simp [hEntries]
    rw [if_neg hEntries]
    have hRefused := @mapM_eq_none_iff _ _ (readAttributesStruct notif) (attributeEntries rpcNode)
    simp only [readAttributesStruct_eq_none_iff] at hRefused
    cases hStructs : (attributeEntries rpcNode).mapM (readAttributesStruct notif) with
    | none => exact iff_of_true nofun (.inl (.inr (hRefused.mp hStructs)))
    | some structs =>
      rw [← hRefused, ← forall₂_beforeMissing_iff notif (mapM_eq_some_iff.mp hStructs)]
      simp [hEntries, hStructs]
  · exact fun items _ => rfl
  · intro items items' h
    exact RpcCall.setParameterAttributes.inj h

end Attributes

/-- Every entry reaches the engine or none does, if and only if the agent stops at no value, and the request is
refused, or every value has a name and every structure of attributes its elements and a mode that can be read. -/
theorem entries_reach_iff (ctx : SoapContext) (engine : RpcInterface) (notif : Int) (soapIdStr : Text)
    (rpcNode : SoapNode) :
    ((∃ actions ∈ parseRequest ctx engine notif soapIdStr .setParameterValues rpcNode,
        EntriesReach ctx soapIdStr ownValueStruct (.setParameterValues · (parameterKeyOf rpcNode))
          (valueEntries rpcNode) actions) ↔
      ¬ StopsAtValue rpcNode ∧
        (ValuesRefused rpcNode ∨ ∀ entry ∈ valueEntries rpcNode, first "Name" entry ≠ none)) ∧
    ((∃ actions ∈ parseRequest ctx engine notif soapIdStr .setParameterAttributes rpcNode,
        EntriesReach ctx soapIdStr ownAttributesStruct .setParameterAttributes (attributeEntries rpcNode) actions) ↔
      AttributesRefused rpcNode ∨
        ∀ entry ∈ attributeEntries rpcNode, HasElements entry ∧ NotificationReadable entry) := by
  refine ⟨setParameterValues_reach_iff ctx engine soapIdStr rpcNode, ?_⟩
  rw [← setParameterAttributes_reach_iff notif ctx engine soapIdStr rpcNode]
  simp only [parseRequest, Option.mem_def, Option.some.injEq, exists_eq_left']

section Samples

def sampleValue (value : String) : SoapNode :=
  .element "Value".toList [("xsi:type".toList, "xsd:string".toList)] [.text value.toList]

/-- Two values, of which the second one has no name. -/
def namelessValue : SoapNode :=
  node "cwmp:SetParameterValues"
    [node "ParameterList"
      [node "ParameterValueStruct" [leaf "Name" (some "Device.A".toList), sampleValue "1"],
        node "ParameterValueStruct" [sampleValue "2"]],
      leaf "ParameterKey" none]

/-- Two structures of attributes, of which the first one has no name. -/
def namelessAttributes : SoapNode :=
  node "cwmp:SetParameterAttributes"
    [node "ParameterList"
      [node "SetParameterAttributesStruct"
        [leaf "NotificationChange" (some "0".toList), leaf "AccessListChange" (some "0".toList)],
        node "SetParameterAttributesStruct"
        [leaf "Name" (some "Device.A".toList), leaf "NotificationChange" (some "1".toList),
          leaf "Notification" (some "2".toList), leaf "AccessListChange" (some "0".toList)]]]

theorem nameless_entries_lost :
    (¬ ∃ actions ∈ parseRequest sampleContext sampleEngine 0 shortId .setParameterValues namelessValue,
        EntriesReach sampleContext shortId ownValueStruct (.setParameterValues · (parameterKeyOf namelessValue))
          (valueEntries namelessValue) actions) ∧
      (¬ ∃ actions ∈ parseRequest sampleContext sampleEngine 0 shortId .setParameterValues bareRequest,
        EntriesReach sampleContext shortId ownValueStruct (.setParameterValues · (parameterKeyOf bareRequest))
          (valueEntries bareRequest) actions) ∧
      ¬ ∃ actions ∈ parseRequest sampleContext sampleEngine 0 shortId .setParameterAttributes namelessAttributes,
        EntriesReach sampleContext shortId ownAttributesStruct .setParameterAttributes
          (attributeEntries namelessAttributes) actions := by
  refine ⟨?_, ?_, ?_⟩
  · rintro ⟨actions, hActions, ⟨nFaultCode, hFault⟩ | ⟨items, -, hEach⟩⟩
    · have hCall : parseRequest sampleContext sampleEngine 0 shortId .setParameterValues namelessValue =
          some [.call _, .send _] := rfl
      cases hCall.symm.trans (hActions.trans (congrArg some hFault))
    · have hEntries : valueEntries namelessValue =
          [node "ParameterValueStruct" [leaf "Name" (some "Device.A".toList), sampleValue "1"],
            node "ParameterValueStruct" [sampleValue "2"]] := rfl
      rw [hEntries] at hEach
      cases hEach with
      | cons _ hRest =>
        cases hRest with
        | cons hSecond _ => cases (ownValueStruct_eq_none rfl).symm.trans hSecond
  · rintro ⟨actions, hActions, -⟩
    have hStops : parseRequest sampleContext sampleEngine 0 shortId .setParameterValues bareRequest = none := rfl
    cases hStops.symm.trans hActions
  · rintro ⟨actions, hActions, ⟨nFaultCode, hFault⟩ | ⟨items, hCalls, hEach⟩⟩
    · have hCall : parseRequest sampleContext sampleEngine 0 shortId .setParameterAttributes namelessAttributes =
          some [.call _, .send _] := rfl
      cases hCall.symm.trans (hActions.trans (congrArg some hFault))
    · have hNothing : parseRequest sampleContext sampleEngine 0 shortId .setParameterAttributes namelessAttributes =
          some [.call (.setParameterAttributes []), .send _] := rfl
      cases hNothing.symm.trans hActions
      obtain rfl : [] = items := RpcCall.setParameterAttributes.inj
        (List.singleton_inj.mp (show [RpcCall.setParameterAttributes []] = _ from hCalls))
      have hTwo : (attributeEntries namelessAttributes).length = 2 := rfl
      rw [hEach.length_eq] at hTwo
      cases hTwo

end Samples

end Tr069Agent.Com
