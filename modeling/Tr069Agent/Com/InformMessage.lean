import Tr069Agent.Com.RpcCommands
import Tr069Agent.Engine.EventStruct

/-! # The values of an Inform

The message with which a session begins lists values as the answer to GetParameterValues does. It has an
encoder of its own, where a value goes through a buffer that has an end.
-/

namespace Tr069Agent.Com

open Library Library.Decimal Engine

set_option autoImplicit false

def tmpBufferSize : Nat := 150

structure DeviceIdStruct where
  manufacturer : Option Text
  oui : Option Text
  productClass : Option Text
  serialNumber : Option Text

section Encoder

def eventStructNode (evt : EventStruct) : SoapNode :=
  node "EventStruct"
    [leaf "EventCode" (some evt.eventCode.text), leaf "CommandKey" (some (evt.commandKey.getD []))]

/-- The text in `pTmpValueBuffer`. -/
def tmpValue (value : Option Text) : Text := (value.getD []).take (tmpBufferSize - 1)

/-- A type without a text leaves what `pTmpBuffer` held. -/
def informValueStructs (pTmpBuffer : Text) : List ParameterValueStruct → List SoapNode
  | [] => []
  | pvs :: rest =>
    let pTmpBuffer := (xsdType pvs.type).getD pTmpBuffer
    node "ParameterValueStruct"
      [leaf "Name" (some pvs.parameterName),
        .element "Value".toList [("xsi:type".toList, pTmpBuffer)] [.text (tmpValue pvs.value)]] ::
      informValueStructs pTmpBuffer rest

variable (ctx : SoapContext) (deviceId : DeviceIdStruct) (event : List EventStruct) (maxEnveloppes : Nat)
  (currentTime : Int) (retryCounts : Nat) (parameterList : List ParameterValueStruct)

def informNode : SoapNode :=
  let pTmpBuffer := arrayType "cwmp:ParameterValueStruct" parameterList.length
  node "cwmp:Inform"
    [node "DeviceId"
        [leaf "Manufacturer" (some (deviceId.manufacturer.getD [])), leaf "OUI" (some (deviceId.oui.getD [])),
          leaf "ProductClass" (some (deviceId.productClass.getD [])),
          leaf "SerialNumber" (some (deviceId.serialNumber.getD []))],
      arrayNode "Event" "cwmp:EventStruct" (event.map eventStructNode),
      leaf "MaxEnvelopes" (some (showInt (ofUint maxEnveloppes))),
      leaf "CurrentTime" (ctx.dateTimeToString currentTime),
      leaf "RetryCount" (some (showInt (ofUint retryCounts))),
      arrayNode "ParameterList" "cwmp:ParameterValueStruct" (informValueStructs pTmpBuffer parameterList)]

/-- The message of `DM_ACS_Inform`, with the identifier that was generated for it. -/
def acsInform (pUniqueHeaderID : Text) : SoapNode :=
  soapMessage ctx true pUniqueHeaderID
    (informNode ctx deviceId event maxEnveloppes currentTime retryCounts parameterList)

/-- The structures in the list of a message. -/
def listedStructs (message : SoapNode) : Option (List SoapNode) :=
  ((message.firstByTagName ctx.bodyTagName).bind (·.firstByTagName "ParameterList".toList)).map (·.children)

/-- What the element of a value should hold: its name, its whole text and its type. -/
def valueStructNode (pvs : ParameterValueStruct) : SoapNode :=
  node "ParameterValueStruct"
    [leaf "Name" (some pvs.parameterName),
      .element "Value".toList ((xsdType pvs.type).toList.map ("xsi:type".toList, ·)) [.text (pvs.value.getD [])]]

end Encoder

section Lists

theorem bodyTagName_ne_parameterList (ctx : SoapContext) : ctx.bodyTagName ≠ "ParameterList".toList := by
  intro hEq
  have hMem : ':' ∈ "ParameterList".toList := by
    rw [← hEq, SoapContext.bodyTagName, SoapContext.prefixed]
    exact List.mem_append_right _ List.mem_cons_self
  exact absurd hMem (by decide)

theorem listedStructs_soapMessage (ctx : SoapContext) (allEnveloppeAttributs : Bool) (soapId : Text) (rpc : SoapNode) :
    listedStructs ctx (soapMessage ctx allEnveloppeAttributs soapId rpc) =
      (rpc.firstByTagName "ParameterList".toList).map (·.children) := by
  rw [listedStructs, body_soapMessage, Option.bind_some, Xml.firstByTagName_of_ne (bodyTagName_ne_parameterList ctx),
    List.findSome?_cons]
  cases rpc.firstByTagName "ParameterList".toList <;> rfl

theorem listedStructs_acsInform (ctx : SoapContext) (deviceId : DeviceIdStruct) (event : List EventStruct)
    (maxEnveloppes : Nat) (currentTime : Int) (retryCounts : Nat) (parameterList : List ParameterValueStruct)
    (pUniqueHeaderID : Text) :
    listedStructs ctx
        (acsInform ctx deviceId event maxEnveloppes currentTime retryCounts parameterList pUniqueHeaderID) =
      some (informValueStructs (arrayType "cwmp:ParameterValueStruct" parameterList.length) parameterList) := by
  have hEvent : (arrayNode "Event" "cwmp:EventStruct" (event.map eventStructNode)).firstByTagName
      "ParameterList".toList = none := by
    rw [arrayNode, Xml.firstByTagName_of_ne (by decide), List.findSome?_eq_none_iff]
    intro eventNode hMem
    obtain ⟨evt, -, rfl⟩ := List.mem_map.mp hMem
    rfl
  have hTime : (leaf "CurrentTime" (ctx.dateTimeToString currentTime)).firstByTagName "ParameterList".toList =
      none := by
    cases ctx.dateTimeToString currentTime <;> rfl
  rw [acsInform, listedStructs_soapMessage, informNode, node, Xml.firstByTagName_of_ne (by decide)]
  simp only [List.findSome?_cons, hEvent, hTime]
  rfl

theorem listedStructs_getParameterValues (ctx : SoapContext) (soapId : Text) (pResult : List ParameterValueStruct) :
    listedStructs ctx (soapMessage ctx true soapId (getParameterValuesResponse pResult)) =
      some (parameterValueStructs (arrayType "cwmp:ParameterValueStruct" pResult.length) pResult) := by
  rw [listedStructs_soapMessage]
  rfl

theorem xsdType_ne_none_iff {type : ParameterType} : xsdType type ≠ none ↔ type ≠ .undefined ∧ type ≠ .other := by
  cases type <;> decide

theorem parameterValueStructs_eq_map_iff (pTmpBuffer : Text) (list : List ParameterValueStruct) :
    parameterValueStructs pTmpBuffer list = list.map valueStructNode ↔
      ∀ pvs ∈ list, pvs.type ≠ .undefined ∧ pvs.type ≠ .other := by
  induction list generalizing pTmpBuffer with
  | nil => simp [parameterValueStructs]
  | cons pvs rest ih =>
    rw [parameterValueStructs, List.map_cons, List.forall_mem_cons, List.cons.injEq, ih]
    refine and_congr_left fun _ => ?_
    rw [← xsdType_ne_none_iff, valueStructNode]
    cases xsdType pvs.type <;> simp [node]

theorem tmpValue_eq_iff (value : Option Text) :
    tmpValue value = value.getD [] ↔ (value.getD []).length < tmpBufferSize := by
  rw [tmpValue, List.take_eq_self_iff, tmpBufferSize]
  omega

/-- The encoders agree exactly when every value has room in the buffer. -/
theorem informValueStructs_eq_iff (pTmpBuffer : Text) (list : List ParameterValueStruct) :
    informValueStructs pTmpBuffer list = parameterValueStructs pTmpBuffer list ↔
      ∀ pvs ∈ list, (pvs.value.getD []).length < tmpBufferSize := by
  induction list generalizing pTmpBuffer with
  | nil => simp [informValueStructs, parameterValueStructs]
  | cons pvs rest ih =>
    rw [informValueStructs, parameterValueStructs, List.forall_mem_cons, List.cons.injEq, ih, ← tmpValue_eq_iff]
    refine and_congr_left fun _ => ?_
    simp [node]

end Lists

/-- The values of an Inform are those of the answer to GetParameterValues, each under its name with its whole
text and its type, if and only if every text has room in the buffer and every type has a name. -/
theorem same_values_iff (ctx : SoapContext) (deviceId : DeviceIdStruct) (event : List EventStruct)
    (maxEnveloppes : Nat) (currentTime : Int) (retryCounts : Nat) (pUniqueHeaderID soapId : Text)
    (parameterList : List ParameterValueStruct) :
    (listedStructs ctx
          (acsInform ctx deviceId event maxEnveloppes currentTime retryCounts parameterList pUniqueHeaderID) =
        listedStructs ctx (respond ctx soapId true 0 (some (getParameterValuesResponse parameterList))) ∧
      listedStructs ctx
          (acsInform ctx deviceId event maxEnveloppes currentTime retryCounts parameterList pUniqueHeaderID) =
        some (parameterList.map valueStructNode)) ↔
      ∀ pvs ∈ parameterList, (pvs.value.getD []).length < tmpBufferSize ∧
        pvs.type ≠ .undefined ∧ pvs.type ≠ .other := by
  have hRespond : respond ctx soapId true 0 (some (getParameterValuesResponse parameterList)) =
      soapMessage ctx true soapId (getParameterValuesResponse parameterList) := rfl
  rw [hRespond, listedStructs_acsInform, listedStructs_getParameterValues, Option.some.injEq, Option.some.injEq]
  generalize arrayType "cwmp:ParameterValueStruct" parameterList.length = pTmpBuffer
  calc
    _ ↔ informValueStructs pTmpBuffer parameterList = parameterValueStructs pTmpBuffer parameterList ∧
        parameterValueStructs pTmpBuffer parameterList = parameterList.map valueStructNode :=
      and_congr_right fun hSame => by rw [hSame]
    _ ↔ _ := by
      rw [informValueStructs_eq_iff, parameterValueStructs_eq_map_iff]
      exact forall₂_and.symm

section Samples

def bareContext : SoapContext where
  soapEnvNS := "soapenv".toList
  cwmpVersionSupported := "urn:dslforum-org:cwmp-1-0".toList
  parameterPrefix := "Device.".toList
  dateTimeToString := fun _ => none

def bareDevice : DeviceIdStruct := ⟨none, none, none, none⟩

/-- A value of 150 characters. -/
def longValue : ParameterValueStruct := ⟨"Device.A".toList, .string, some (List.replicate 150 'a')⟩

def untypedValue : ParameterValueStruct := ⟨"Device.B".toList, .undefined, none⟩

/-- The first Inform loses the end of the value, and the second one has the type of the array. -/
theorem values_differ :
    listedStructs bareContext (acsInform bareContext bareDevice [] 1 0 0 [longValue] "1".toList) ≠
        listedStructs bareContext
          (respond bareContext "1".toList true 0 (some (getParameterValuesResponse [longValue]))) ∧
      listedStructs bareContext (acsInform bareContext bareDevice [] 1 0 0 [untypedValue] "1".toList) ≠
        some ([untypedValue].map valueStructNode) := by
  have hRespond : respond bareContext "1".toList true 0 (some (getParameterValuesResponse [longValue])) =
      soapMessage bareContext true "1".toList (getParameterValuesResponse [longValue]) := rfl
  rw [hRespond, listedStructs_acsInform, listedStructs_getParameterValues, listedStructs_acsInform]
  refine ⟨fun hSame => ?_, fun hSame => ?_⟩
  · have hRoom := (informValueStructs_eq_iff _ _).mp (Option.some.inj hSame) longValue List.mem_cons_self
    have hLength : (longValue.value.getD []).length = 150 := List.length_replicate
    rw [hLength] at hRoom
    exact absurd hRoom (Nat.lt_irrefl 150)
  · have hValue := Option.some.inj hSame
    rw [(informValueStructs_eq_iff _ _).mpr (by decide)] at hValue
    exact ((parameterValueStructs_eq_map_iff _ _).mp hValue untypedValue List.mem_cons_self).1 rfl

end Samples

end Tr069Agent.Com
