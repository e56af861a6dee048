import Tr069Agent.Com.SoapDispatcher

/-! # One answer for each request

A request is answered when one message is sent, the response of its method or a fault, that bears its
identifier.
-/

namespace Tr069Agent.Com

open Library Engine

set_option autoImplicit false

/-- The responses that the agent has for the methods. -/
def RpcMethod.responseTag : RpcMethod → Option Text
  | getRPCMethods => some "cwmp:GetRPCMethodsResponse".toList
  | setParameterValues => some "cwmp:SetParameterValuesResponse".toList
  | getParameterValues => some "cwmp:GetParameterValuesResponse".toList
  | setParameterAttributes => some "cwmp:SetParameterAttributesResponse".toList
  | getParameterAttributes => some "cwmp:GetParameterAttributesResponse".toList
  | getParameterNames => some "cwmp:GetParameterNamesResponse".toList
  | addObject => some "cwmp:AddObjectResponse".toList
  | deleteObject => some "cwmp:DeleteObjectResponse".toList
  | reboot => some "cwmp:RebootResponse".toList
  | download => some "cwmp:DownloadResponse".toList
  | factoryReset => some "cwmp:FactoryResetResponse".toList
  | scheduleInform => some "cwmp:ScheduleInformResponse".toList
  | upload => some "cwmp:UploadResponse".toList
  | getAllQueuedTransfers => some "cwmp:GetAllQueuedTransfersResponse".toList
  | getQueuedTransfers => none
  | setVouchers => none
  | getOptions => none

/-- The name of an answer to a request: the response of the method or a fault. -/
def IsAnswer (ctx : SoapContext) (method : RpcMethod) (tag : Text) : Prop :=
  method.responseTag = some tag ∨ tag = ctx.faultTagName

/-- The one message that is sent is an answer to a request of the method with that identifier. -/
def Answered (ctx : SoapContext) (method : RpcMethod) (soapId : Text) (actions : List Action) : Prop :=
  ∃ message, sent actions = [message] ∧ (∃ tag, messageRpc ctx message = some tag ∧ IsAnswer ctx method tag) ∧
    messageId ctx message = some soapId

section Values

def valueEntries (rpcNode : SoapNode) : List SoapNode :=
  match firstOr "ParameterList" rpcNode with
  | none => []
  | some paramListNode => paramListNode.elementsByTagName "ParameterValueStruct".toList

def parameterKeyOf (rpcNode : SoapNode) : Text := ((first "ParameterKey" rpcNode).map textOf).getD []

def valueType (entry : SoapNode) : Option Text :=
  (first "Value" entry).bind (·.attributeValue "xsi:type".toList)

/-- An entry that is refused wherever it stands: its name is empty or its value has no type. -/
def ValueRefused (entry : SoapNode) : Prop :=
  (∃ nameNode, first "Name" entry = some nameNode ∧ nameNode.nodeValue = none) ∨ valueType entry = none

def BareValue (entry : SoapNode) : Prop :=
  ∃ valueNode, first "Value" entry = some valueNode ∧ valueNode.attributes = []

/-- A value without attributes is come to: no entry in front of it is refused. -/
def MeetsBareValue : List SoapNode → Prop
  | [] => False
  | entry :: rest => BareValue entry ∨ ¬ ValueRefused entry ∧ MeetsBareValue rest

/-- The same for a request, whose first entry must have a name for the others to be looked at. -/
def StopsAtValue (rpcNode : SoapNode) : Prop :=
  first "ParameterKey" rpcNode ≠ none ∧
    match valueEntries rpcNode with
    | [] => False
    | entry :: rest => BareValue entry ∨ ¬ ValueRefused entry ∧ first "Name" entry ≠ none ∧ MeetsBareValue rest

end Values

/-- The requests with an answer: a method that is known, no value at which the agent stops, and where a delay is
given also the key that goes with it. -/
def RpcMethod.IsAnswered (method : RpcMethod) (rpcNode : SoapNode) : Prop :=
  method ≠ .setVouchers ∧ method ≠ .getOptions ∧
    (method = .scheduleInform → valueOr "DelaySeconds" rpcNode = none ∨ firstOr "CommandKey" rpcNode ≠ none) ∧
    (method = .setParameterValues → ¬ StopsAtValue rpcNode)

section Reading

theorem readParameterValueStructs_bare {parameterNameStr : Option Text} {entry : SoapNode} (rest : List SoapNode)
    (h : BareValue entry) : readParameterValueStructs parameterNameStr (entry :: rest) = none := by
  obtain ⟨valueNode, hValue, hBare⟩ := h
  simp only [readParameterValueStructs, hValue, attributValue, hBare, if_true]

theorem readParameterValueStructs_refused {parameterNameStr : Option Text} {entry : SoapNode} (rest : List SoapNode)
    (h : ValueRefused entry) (hBare : ¬ BareValue entry) :
    readParameterValueStructs parameterNameStr (entry :: rest) = some none := by
  rw [readParameterValueStructs]
  cases hValue : first "Value" entry with
  | none => rfl
  | some valueNode =>
    have hAttributes : valueNode.attributes ≠ [] := fun hNone => hBare ⟨valueNode, hValue, hNone⟩
    simp only [attributValue, hAttributes, if_false]
    rcases h with ⟨nameNode, hName, hEmpty⟩ | hType
    · simp only [hName, nodeParameter, hEmpty]
    · rw [valueType, hValue, Option.bind_some] at hType
      rw [hType]
      cases nodeParameter parameterNameStr (first "Name" entry) <;> rfl

theorem readParameterValueStructs_read {parameterNameStr : Option Text} {entry valueNode : SoapNode}
    {name pValTypeStr : Text} (rest : List SoapNode) (hValue : first "Value" entry = some valueNode)
    (hType : valueNode.attributeValue "xsi:type".toList = some pValTypeStr)
    (hName : nodeParameter parameterNameStr (first "Name" entry) = some name) :
    readParameterValueStructs parameterNameStr (entry :: rest) =
      (readParameterValueStructs (some name) rest).map fun structs =>
        structs.map (⟨name, findTypeParameter pValTypeStr, some (textOf valueNode)⟩ :: ·) := by
  have hAttributes : valueNode.attributes ≠ [] := by
    intro hNone
    rw [Xml.attributeValue, hNone] at hType
    cases hType
  rw [readParameterValueStructs]
  simp only [hValue, hName, attributValue, hAttributes, if_false, hType]

/-- An entry that is not refused is read, and the name that the next one may take is there. -/
theorem exists_readParameterValueStructs (name : Text) {entry : SoapNode} (h : ¬ ValueRefused entry) :
    ∃ name' item, ∀ rest, readParameterValueStructs (some name) (entry :: rest) =
      (readParameterValueStructs (some name') rest).map fun structs => structs.map (item :: ·) := by
  rw [ValueRefused, not_or, not_exists] at h
  obtain ⟨hName, hType⟩ := h
  obtain ⟨pValTypeStr, hType⟩ := Option.ne_none_iff_exists'.mp hType
  obtain ⟨valueNode, hValue, hType⟩ := Option.bind_eq_some_iff.mp hType
  cases hNode : first "Name" entry with
  | none => exact ⟨name, _, fun rest => readParameterValueStructs_read rest hValue hType (by rw [hNode]; rfl)⟩
  | some nameNode =>
    obtain ⟨name', hText⟩ := Option.ne_none_iff_exists'.mp fun hEmpty => hName nameNode ⟨hNode, hEmpty⟩
    exact ⟨name', _, fun rest => readParameterValueStructs_read rest hValue hType (by rw [hNode]; exact hText)⟩

theorem readParameterValueStructs_eq_none_iff (name : Text) (entries : List SoapNode) :
    readParameterValueStructs (some name) entries = none ↔ MeetsBareValue entries := by
  induction entries generalizing name with
  | nil => simp [readParameterValueStructs, MeetsBareValue]
  | cons entry rest ih =>
    rw [MeetsBareValue]
    by_cases hBare : BareValue entry
    · exact iff_of_true (readParameterValueStructs_bare rest hBare) (.inl hBare)
    by_cases hRefused : ValueRefused entry
    · rw [readParameterValueStructs_refused rest hRefused hBare]
      exact iff_of_false (fun h => nomatch h) fun h => h.elim hBare fun hRest => hRest.1 hRefused
    · obtain ⟨name', item, hCons⟩ := exists_readParameterValueStructs name hRefused
      rw [hCons, Option.map_eq_none_iff, ih]
      exact ⟨fun h => .inr ⟨hRefused, h⟩, fun h => (h.resolve_left hBare).2⟩

theorem readParameterValueStructs_named {entry : SoapNode} (rest : List SoapNode) (h : first "Name" entry ≠ none)
    (name : Text) :
    readParameterValueStructs none (entry :: rest) = readParameterValueStructs (some name) (entry :: rest) := by
  obtain ⟨nameNode, hNode⟩ := Option.ne_none_iff_exists'.mp h
  simp only [readParameterValueStructs, hNode, nodeParameter]

theorem readParameterValueStructs_nameless {entry : SoapNode} (rest : List SoapNode) (h : first "Name" entry = none)
    (hBare : ¬ BareValue entry) : readParameterValueStructs none (entry :: rest) = some none := by
  rw [readParameterValueStructs]
  cases hValue : first "Value" entry with
  | none => rfl
  | some valueNode =>
    have hAttributes : valueNode.attributes ≠ [] := fun hNone => hBare ⟨valueNode, hValue, hNone⟩
    simp only [h, attributValue, hAttributes, if_false, nodeParameter]

/-- The arguments of a request whose entries are looked at. -/
def valueArguments (rpcNode : SoapNode) : Option (Option (List ParameterValueStruct × Text)) :=
  if first "ParameterKey" rpcNode = none ∨ valueEntries rpcNode = [] then some none
  else (readParameterValueStructs none (valueEntries rpcNode)).map fun structs =>
    structs.map (·, parameterKeyOf rpcNode)

theorem parseSetParameterValues_eq (ctx : SoapContext) (engine : RpcInterface) (soapIdStr : Text)
    (rpcNode : SoapNode) :
    parseSetParameterValues ctx engine soapIdStr rpcNode =
      (valueArguments rpcNode).map fun arguments => withArguments ctx soapIdStr arguments fun (list, key) =>
        subSetParameterValues ctx engine soapIdStr list key := by
  rw [parseSetParameterValues, valueArguments, valueEntries, parameterKeyOf]
  cases firstOr "ParameterList" rpcNode with
  | none => simp only [or_true, if_true]
  | some paramListNode =>
    cases first "ParameterKey" rpcNode with
    | none => simp only [true_or, if_true]
    | some paramKeyNode => simp only [Option.map_some, Option.getD_some, reduceCtorEq, false_or]

theorem valueArguments_eq_none_iff (rpcNode : SoapNode) : valueArguments rpcNode = none ↔ StopsAtValue rpcNode := by
  rw [valueArguments, StopsAtValue]
  cases hKey : first "ParameterKey" rpcNode with
  | none => simp
  | some keyNode =>
    cases hEntries : valueEntries rpcNode with
    | nil => simp
    | cons entry rest =>
      simp only [reduceCtorEq, or_self, if_false, Option.map_eq_none_iff, ne_eq, not_false_eq_true, true_and]
      by_cases hBare : BareValue entry
      · exact iff_of_true (readParameterValueStructs_bare rest hBare) (.inl hBare)
      by_cases hName : first "Name" entry = none
      · rw [readParameterValueStructs_nameless rest hName hBare]
        exact iff_of_false (fun h => nomatch h) fun h => h.elim hBare fun hRest => hRest.2.1 hName
      · rw [readParameterValueStructs_named rest hName [], readParameterValueStructs_eq_none_iff, MeetsBareValue]
        simp only [hName, not_false_eq_true, true_and]

end Reading

section Answers

variable {ctx : SoapContext} {method : RpcMethod} {soapId : Text}

theorem answered_call_iff {rpc : RpcCall} {actions : List Action} :
    Answered ctx method soapId (.call rpc :: actions) ↔ Answered ctx method soapId actions := Iff.rfl

theorem answered_soapMessage {allEnveloppeAttributs : Bool} {rpc : SoapNode} {tag : Text}
    (hName : rpc.name = some tag) (hTag : IsAnswer ctx method tag) :
    Answered ctx method soapId [.send (soapMessage ctx allEnveloppeAttributs soapId rpc)] :=
  ⟨_, rfl, ⟨tag, (messageRpc_soapMessage ..).trans hName, hTag⟩, messageId_soapMessage ..⟩

theorem answered_fault (nFaultCode : Int) :
    Answered ctx method soapId [.send (soapFaultResponse ctx soapId nFaultCode)] :=
  answered_soapMessage rfl (.inr rfl)

theorem answered_respond {allEnveloppeAttributs : Bool} {nRPCRet : Int} {response : Option SoapNode} {tag : Text}
    (hTag : method.responseTag = some tag) (hName : ∀ rpc ∈ response, rpc.name = some tag) :
    Answered ctx method soapId [.send (respond ctx soapId allEnveloppeAttributs nRPCRet response)] := by
  unfold respond
  split
  · exact answered_fault nRPCRet
  · rename_i rpc
    split
    · exact answered_soapMessage (hName rpc rfl) (.inl hTag)
    · exact answered_fault nRPCRet

theorem answered_respond_some {nRPCRet : Int} {rpc : SoapNode} {tag : Text}
    (hTag : method.responseTag = some tag) (hName : rpc.name = some tag) :
    Answered ctx method soapId [.send (respond ctx soapId false nRPCRet (some rpc))] :=
  answered_respond hTag fun _ h => Option.some.inj h ▸ hName

theorem answered_respond_map {β : Type} {allEnveloppeAttributs : Bool} {nRPCRet : Int} {result : Option β}
    {response : β → SoapNode} {tag : Text} (hTag : method.responseTag = some tag)
    (hName : ∀ r, (response r).name = some tag) :
    Answered ctx method soapId
      [.send (respond ctx soapId allEnveloppeAttributs nRPCRet (result.map response))] := by
  refine answered_respond hTag fun rpc hRpc => ?_
  obtain ⟨r, -, rfl⟩ := Option.map_eq_some_iff.mp hRpc
  exact hName r

theorem answered_withArguments {α : Type} {arguments : Option α} {perform : α → List Action}
    (h : ∀ a, arguments = some a → Answered ctx method soapId (perform a)) :
    Answered ctx method soapId (withArguments ctx soapId arguments perform) := by
  cases arguments with
  | none => exact answered_fault _
  | some a => exact h a rfl

end Answers

section Requests

variable (ctx : SoapContext) (engine : RpcInterface) (notif : Int) (soapId : Text)

theorem answered_subSetParameterValues (list : List ParameterValueStruct) (key : Text) :
    Answered ctx .setParameterValues soapId (subSetParameterValues ctx engine soapId list key) := by
  rw [subSetParameterValues, answered_call_iff]
  split
  · exact answered_soapMessage rfl (.inl rfl)
  · exact answered_soapMessage rfl (.inr rfl)

theorem answered_subScheduleInform (delay key : Text) :
    Answered ctx .scheduleInform soapId (subScheduleInform ctx engine soapId delay (some key)) := by
  unfold subScheduleInform
  dsimp only
  split
  · exact answered_fault _
  · exact answered_call_iff.mpr (answered_respond_some rfl rfl)

theorem first_self {tag : String} {rpcNode : SoapNode} (hName : rpcNode.name = some tag.toList) :
    first tag rpcNode = some rpcNode := by
  cases rpcNode with
  | element name attributes children =>
    cases hName
    exact Xml.firstByTagName_self ..
  | text value => cases hName

theorem answered_parseRequest {method : RpcMethod} {rpcNode : SoapNode} (hName : rpcNode.name = some method.tag)
    (hAnswered : method.IsAnswered rpcNode) :
    ∃ actions, parseRequest ctx engine notif soapId method rpcNode = some actions ∧
      Answered ctx method soapId actions := by
  cases method with
  | getRPCMethods => exact ⟨_, rfl, answered_call_iff.mpr (answered_respond_map rfl fun _ => rfl)⟩
  | setParameterValues =>
    have hArguments : valueArguments rpcNode ≠ none := mt (valueArguments_eq_none_iff rpcNode).mp (hAnswered.2.2.2 rfl)
    obtain ⟨arguments, hArguments⟩ := Option.ne_none_iff_exists'.mp hArguments
    refine ⟨_, (parseSetParameterValues_eq ..).trans (congrArg _ hArguments), ?_⟩
    exact answered_withArguments fun _ _ => answered_subSetParameterValues ..
  | getParameterValues =>
    exact ⟨_, rfl, answered_withArguments fun _ _ => answered_call_iff.mpr (answered_respond_map rfl fun _ => rfl)⟩
  | setParameterAttributes =>
    exact ⟨_, rfl, answered_withArguments fun _ _ => answered_call_iff.mpr (answered_respond_some rfl rfl)⟩
  | getParameterAttributes =>
    exact ⟨_, rfl, answered_withArguments fun _ _ => answered_call_iff.mpr (answered_respond_map rfl fun _ => rfl)⟩
  | getParameterNames =>
    exact ⟨_, rfl, answered_withArguments fun _ _ => answered_call_iff.mpr (answered_respond_map rfl fun _ => rfl)⟩
  | addObject =>
    exact ⟨_, rfl, answered_withArguments fun _ _ => answered_call_iff.mpr (answered_respond_some rfl rfl)⟩
  | deleteObject =>
    exact ⟨_, rfl, answered_withArguments fun _ _ => answered_call_iff.mpr (answered_respond_some rfl rfl)⟩
  | reboot =>
    exact ⟨_, rfl, answered_withArguments fun _ _ => answered_call_iff.mpr (answered_respond_some rfl rfl)⟩
  | download =>
    exact ⟨_, rfl, answered_withArguments fun _ _ => answered_call_iff.mpr (answered_respond_map rfl fun _ => rfl)⟩
  | factoryReset => exact ⟨_, rfl, answered_call_iff.mpr (answered_respond_some rfl rfl)⟩
  | scheduleInform =>
    refine ⟨_, rfl, answered_withArguments fun delay hDelay => ?_⟩
    rw [first_self hName] at hDelay ⊢
    obtain hNone | hKey := hAnswered.2.2.1 rfl
    · exact absurd (hNone.symm.trans hDelay) (by simp)
    · obtain ⟨keyNode, hKey⟩ := Option.ne_none_iff_exists'.mp hKey
      rw [Option.bind_some, hKey]
      exact answered_subScheduleInform ..
  | upload =>
    exact ⟨_, rfl, answered_withArguments fun _ _ => answered_call_iff.mpr (answered_respond_map rfl fun _ => rfl)⟩
  | getQueuedTransfers => exact ⟨_, rfl, answered_fault _⟩
  | getAllQueuedTransfers => exact ⟨_, rfl, answered_call_iff.mpr (answered_respond_some rfl rfl)⟩
  | setVouchers => exact absurd rfl hAnswered.1
  | getOptions => exact absurd rfl hAnswered.2.1

theorem sent_parseRequest_eq_nil {method : RpcMethod} {rpcNode : SoapNode} {actions : List Action}
    (hName : rpcNode.name = some method.tag) (hAnswered : ¬ method.IsAnswered rpcNode)
    (h : parseRequest ctx engine notif soapId method rpcNode = some actions) : sent actions = [] := by
  by_cases hVouchers : method = .setVouchers
  · subst hVouchers
    cases h
    rfl
  by_cases hOptions : method = .getOptions
  · subst hOptions
    cases h
    rfl
  simp only [RpcMethod.IsAnswered, hVouchers, hOptions, not_false_eq_true, true_and, ne_eq, not_and_or,
    Classical.not_imp, not_or, not_not] at hAnswered
  rcases hAnswered with ⟨rfl, hDelay, hKey⟩ | ⟨rfl, hStops⟩
  · obtain ⟨delay, hDelay⟩ := Option.ne_none_iff_exists'.mp hDelay
    cases h
    simp [parseScheduleInform, first_self hName, hDelay, hKey, withArguments, subScheduleInform, sent]
  · rw [parseRequest, parseSetParameterValues_eq, (valueArguments_eq_none_iff rpcNode).mpr hStops] at h
    cases h

/-- A request that is alone in the body, or not alone and then refused: it has an answer with the
identifier that was read, or nothing is sent. -/
theorem parseSoapBodyMessage_cases {pBody rpcNode : SoapNode} {method : RpcMethod}
    (hBody : pBody.children.filter (·.name.isSome) = [rpcNode])
    (hMethod : rpcNode.name.bind RpcMethod.ofTag = some method) :
    ((pBody.children = [rpcNode] → method.IsAnswered rpcNode) →
      ∃ actions, parseSoapBodyMessage ctx engine notif soapId pBody = some actions ∧
        Answered ctx method soapId actions) ∧
    (¬ (pBody.children = [rpcNode] → method.IsAnswered rpcNode) →
      ∀ actions, parseSoapBodyMessage ctx engine notif soapId pBody = some actions → sent actions = []) := by
  by_cases hAlone : pBody.children = [rpcNode]
  · obtain ⟨tag, hName, hTag⟩ := Option.bind_eq_some_iff.mp hMethod
    have hName : rpcNode.name = some method.tag := hName.trans (congrArg some (RpcMethod.tag_of_ofTag hTag))
    have hParse : parseSoapBodyMessage ctx engine notif soapId pBody =
        parseRequest ctx engine notif soapId method rpcNode := by
      simp [parseSoapBodyMessage, childNodesList, hAlone, hMethod]
    rw [hParse]
    exact ⟨fun h => answered_parseRequest ctx engine notif soapId hName (h hAlone), fun h actions =>
      sent_parseRequest_eq_nil ctx engine notif soapId hName fun hYes => h fun _ => hYes⟩
  · refine ⟨fun _ => ⟨_, ?_, answered_fault Fault.invalidArguments⟩, fun h => absurd (fun hYes => absurd hYes hAlone) h⟩
    unfold parseSoapBodyMessage childNodesList
    have hFault (other : SoapNode) : pBody.children ≠ [other] := by
      intro hOne
      rw [hOne] at hBody hAlone
      have hOther : List.Sublist ([other].filter (·.name.isSome)) [other] := List.filter_sublist
      rw [hBody] at hOther
      exact hAlone (hOther.eq_of_length rfl).symm
    match hChildren : pBody.children with
    | [] =>
      rw [hChildren] at hBody
      cases hBody
    | [other] => exact absurd hChildren (hFault other)
    | _ :: _ :: _ => rfl

end Requests

/-- What is done with a message answers the request in it. -/
def RequestAnswered (ctx : SoapContext) (engine : RpcInterface) (notif : Int) (document : SoapNode)
    (method : RpcMethod) (soapId : Text) : Prop :=
  ∃ actions, receiveMessage ctx engine notif document = some actions ∧ Answered ctx method soapId actions

section Samples

def sampleContext : SoapContext where
  soapEnvNS := "soapenv".toList
  cwmpVersionSupported := "urn:dslforum-org:cwmp-1-1".toList
  parameterPrefix := "Device.".toList
  dateTimeToString := fun _ => none

/-- An engine that knows no parameter. -/
def sampleEngine : RpcInterface where
  getRPCMethods := (0, some ["GetRPCMethods".toList])
  setParameterValues := fun _ _ => (Fault.invalidArguments, .undefined, [])
  getParameterValues := fun _ => (Fault.invalidParameterName, none)
  setParameterAttributes := fun _ => Fault.invalidParameterName
  getParameterAttributes := fun _ => (Fault.invalidParameterName, none)
  getParameterNames := fun _ _ => (Fault.invalidParameterName, none)
  addObject := fun _ _ => (Fault.invalidParameterName, 0, .undefined)
  deleteObject := fun _ _ => (Fault.invalidParameterName, .undefined)
  reboot := fun _ => 0
  download := fun _ => (Fault.requestDenied, none)
  upload := fun _ => (Fault.requestDenied, none)
  factoryReset := 0
  scheduleInform := fun _ _ => 0
  getAllQueuedTransfers := (0, some [])

def sampleRequest (id : Text) (rpcNode : SoapNode) : SoapNode :=
  node "soapenv:Envelope" [node "soapenv:Header" [leaf "cwmp:ID" (some id)], node "soapenv:Body" [rpcNode]]

def shortId : Text := "1187869873996".toList

def longId : Text := List.replicate 51 '7'

def methodsRequest : SoapNode := node "cwmp:GetRPCMethods" []

def vouchersRequest : SoapNode := node "cwmp:SetVouchers" []

/-- A delay without a command key. -/
def scheduleRequest : SoapNode := node "cwmp:ScheduleInform" [leaf "DelaySeconds" (some "60".toList)]

/-- A value without attributes. -/
def bareRequest : SoapNode :=
  node "cwmp:SetParameterValues"
    [node "ParameterList"
      [node "ParameterValueStruct" [leaf "Name" (some "Device.A".toList), leaf "Value" (some "1".toList)]],
      leaf "ParameterKey" none]

end Samples

end Tr069Agent.Com
