import Tr069Agent.Com.SoapMessage
import Tr069Agent.Engine.SetParameterAttributes

/-! # The RPC methods of the agent

Each method calls the engine once and hands one message to the HTTP client: the response of the method or
a SOAP fault.
-/

namespace Tr069Agent.Engine

open Library

set_option autoImplicit false

def Fault.methodNotSupported : Int := 9000

def faultMessages : List Text :=
  ["Method not supported", "Request denied (no reason specified)", "Internal error", "Invalid arguments",
    "Resources exceeded", "Invalid parameter name", "Invalid parameter type", "Invalid parameter value",
    "Attempt to set a non-writable parameter", "Notification request rejected", "Download failure",
    "Upload failure", "File transfer server authentication failure",
    "Unsupported protocol for file transfer", "Download failure: unable to join multicast group",
    "Download failure: unable to contact file server", "Download failure: unable to access file",
    "Download failure: unable to complete download", "Download failure: file corrupted",
    "Download failure: file authentication failure", "Vendor specific fault"].map String.toList

def maxFaultMessages : Nat := 20

def getFaultString (code : Int) : Option Text :=
  let i := code - 9000
  if 0 ≤ i ∧ i < maxFaultMessages then faultMessages[i.toNat]?
  else if 800 ≤ i ∧ i ≤ 899 then faultMessages[maxFaultMessages]?
  else none

def ParameterStatus.number : ParameterStatus → Int
  | .undefined => -1
  | .applied => 0
  | .readyToApply => 1

structure ParameterValueStruct where
  parameterName : Text
  type : ParameterType
  value : Option Text
  deriving DecidableEq

structure SetParameterValuesFault where
  parameterName : Text
  faultCode : Nat
  faultString : Option Text

structure ParameterInfoStruct where
  parameterName : Text
  writable : Bool

structure TransferResultStruct where
  status : ParameterStatus
  startTime : Int
  completeTime : Int

structure AllQueuedTransferStruct where
  isDownload : Bool
  state : Int
  fileType : Option Text
  fileSize : Nat
  commandKey : Option Text

structure DownloadArguments where
  fileType : Text
  url : Text
  username : Option Text
  password : Option Text
  fileSize : Nat
  targetFileName : Option Text
  delay : Nat
  successUrl : Option Text
  failureUrl : Option Text
  commandKey : Text
  deriving DecidableEq

structure UploadArguments where
  fileType : Text
  url : Text
  username : Option Text
  password : Option Text
  delay : Nat
  commandKey : Text
  deriving DecidableEq

/-- What the functions of the RPC interface return to the ACS: a code, which is zero for a success, and
the values of their other arguments. -/
structure RpcInterface where
  getRPCMethods : Int × Option (List Text)
  setParameterValues : List ParameterValueStruct → Text → Int × ParameterStatus × List SetParameterValuesFault
  getParameterValues : List Text → Int × Option (List ParameterValueStruct)
  setParameterAttributes : List ParameterAttributesStruct → Int
  getParameterAttributes : List Text → Int × Option (List ParameterAttributesStruct)
  getParameterNames : Text → Bool → Int × Option (List ParameterInfoStruct)
  addObject : Text → Text → Int × Nat × ParameterStatus
  deleteObject : Text → Text → Int × ParameterStatus
  reboot : Text → Int
  download : DownloadArguments → Int × Option TransferResultStruct
  upload : UploadArguments → Int × Option TransferResultStruct
  factoryReset : Int
  scheduleInform : Nat → Text → Int
  getAllQueuedTransfers : Int × Option (List AllQueuedTransferStruct)

/-- A call of the RPC interface. -/
inductive RpcCall where
  | getRPCMethods
  | setParameterValues (parameterList : List ParameterValueStruct) (parameterKey : Text)
  | getParameterValues (parameterNames : List Text)
  | setParameterAttributes (pasList : List ParameterAttributesStruct)
  | getParameterAttributes (names : List Text)
  | getParameterNames (path : Text) (nextLevel : Bool)
  | addObject (objectName parameterKey : Text)
  | deleteObject (objectName parameterKey : Text)
  | reboot (commandKey : Text)
  | download (arguments : DownloadArguments)
  | upload (arguments : UploadArguments)
  | factoryReset
  | scheduleInform (delay : Nat) (commandKey : Text)
  | getAllQueuedTransfers
  deriving DecidableEq

end Tr069Agent.Engine

namespace Tr069Agent.Com

open Library Library.Decimal Engine

set_option autoImplicit false

/-- A call of the engine, or a message that is handed to `DM_SendHttpMessage`. -/
inductive Action where
  | call (rpc : RpcCall)
  | send (message : SoapNode)

def Action.message : Action → Option SoapNode
  | .call _ => none
  | .send message => some message

def sent (actions : List Action) : List SoapNode := actions.filterMap Action.message

section Nodes

def leaf (name : String) (value : Option Text) : SoapNode := Xml.leaf name.toList value

def node (name : String) (children : List SoapNode) : SoapNode := .element name.toList [] children

def arrayType (itemType : String) (count : Nat) : Text :=
  itemType.toList ++ "[".toList ++ (if count < 10 then "0".toList else []) ++ showInt count ++ "]".toList

/-- An element with the attribute that tells how many items of a type it has. -/
def arrayNode (name itemType : String) (items : List SoapNode) : SoapNode :=
  .element name.toList [(SoapContext.arrayTypeAttrName, arrayType itemType items.length)] items

end Nodes

section Faults

variable (ctx : SoapContext) (pSoapId : Text)

def soapFault (nFaultCode : Int) (parameterFaults : List SoapNode) : SoapNode :=
  .element ctx.faultTagName []
    [leaf "faultcode" (some "Client".toList), leaf "faultstring" (some "CWMP fault".toList),
      node "detail" [node "cwmp:Fault"
        ([leaf "FaultCode" (some (showInt nFaultCode)), leaf "FaultString" (getFaultString nFaultCode)] ++
          parameterFaults)]]

/-- The message of `DM_SoapFaultResponse`. -/
def soapFaultResponse (nFaultCode : Int) : SoapNode := soapMessage ctx false pSoapId (soapFault ctx nFaultCode [])

/-- What `DM_SoapEmptyResponse` puts into the body. -/
def soapEmptyResponse (pResponseTag : String) : SoapNode := node pResponseTag []

/-- What a method sends: its response when the engine has succeeded and has given a result. -/
def respond (allEnveloppeAttributs : Bool) (nRPCRet : Int) (response : Option SoapNode) : SoapNode :=
  match response with
  | none => soapFaultResponse ctx pSoapId nRPCRet
  | some rpc =>
    if nRPCRet = 0 then soapMessage ctx allEnveloppeAttributs pSoapId rpc
    else soapFaultResponse ctx pSoapId nRPCRet

end Faults

section Responses

def getRPCMethodsResponse (methodsList : List Text) : SoapNode :=
  node "cwmp:GetRPCMethodsResponse"
    [arrayNode "MethodList" "string" (methodsList.map fun name => leaf "string" (some name))]

def setParameterValuesResponse (status : ParameterStatus) : SoapNode :=
  node "cwmp:SetParameterValuesResponse" [leaf "Status" (some (showInt status.number))]

def setParameterValuesFault (fault : SetParameterValuesFault) : SoapNode :=
  node "SetParameterValuesFault"
    [leaf "ParameterName" (some fault.parameterName),
      leaf "FaultCode" (some (showInt (ofUint fault.faultCode))), leaf "FaultString" fault.faultString]

def xsdType : ParameterType → Option Text
  | .int => some "xsd:int".toList
  | .uint => some "xsd:unsignedInt".toList
  | .long => some "xsd:long".toList
  | .boolean => some "xsd:boolean".toList
  | .date => some "xsd:dateTime".toList
  | .string => some "xsd:string".toList
  | .statistics => some "xsd:any".toList
  | .any => some "xsd:any".toList
  | .undefined | .other => none

/-- A type without a text leaves the buffer as the value before has left it. -/
def parameterValueStructs (pTmpBuffer : Text) : List ParameterValueStruct → List SoapNode
  | [] => []
  | pvs :: rest =>
    let pTmpBuffer := (xsdType pvs.type).getD pTmpBuffer
    node "ParameterValueStruct"
      [leaf "Name" (some pvs.parameterName),
        .element "Value".toList [("xsi:type".toList, pTmpBuffer)] [.text (pvs.value.getD [])]] ::
      parameterValueStructs pTmpBuffer rest

def getParameterValuesResponse (pResult : List ParameterValueStruct) : SoapNode :=
  let pTmpBuffer := arrayType "cwmp:ParameterValueStruct" pResult.length
  node "cwmp:GetParameterValuesResponse"
    [arrayNode "ParameterList" "cwmp:ParameterValueStruct" (parameterValueStructs pTmpBuffer pResult)]

def getParameterAttributesResponse (pResult : List ParameterAttributesStruct) : SoapNode :=
  node "cwmp:GetParameterAttributesResponse"
    [arrayNode "ParameterList" "cwmp:ParameterAttributeStruct"
      (pResult.map fun pas => node "ParameterAttributeStruct"
        [leaf "Name" (some pas.parameterName), leaf "Notification" (some (showInt pas.notification)),
          arrayNode "AccessList" "string"
            ((pas.accessList.getD []).map fun entity => leaf "string" (some entity))])]

def getParameterNamesResponse (pResult : List ParameterInfoStruct) : SoapNode :=
  node "cwmp:GetParameterNamesResponse"
    [arrayNode "ParameterList" "cwmp:ParameterInfoStruct"
      (pResult.map fun info => node "ParameterInfoStruct"
        [leaf "Name" (some info.parameterName), leaf "Writable" (some (showInt info.writable.toNat))])]

def addObjectResponse (nInstanceNumber : Nat) (status : ParameterStatus) : SoapNode :=
  node "cwmp:AddObjectResponse"
    [leaf "InstanceNumber" (some (showInt (ofUint nInstanceNumber))),
      leaf "Status" (some (showInt status.number))]

def deleteObjectResponse (status : ParameterStatus) : SoapNode :=
  node "cwmp:DeleteObjectResponse" [leaf "Status" (some (showInt status.number))]

/-- The response of a transfer tells its times when it is over. -/
def transferResponse (ctx : SoapContext) (responseTag : String) (pResult : TransferResultStruct) : SoapNode :=
  let time (t : Int) := if pResult.status.number = 0 then ctx.dateTimeToString t else some unknownTime
  node responseTag
    [leaf "Status" (some (showInt pResult.status.number)), leaf "StartTime" (time pResult.startTime),
      leaf "CompleteTime" (time pResult.completeTime)]

def allQueuedTransferStruct (transfer : AllQueuedTransferStruct) : SoapNode :=
  node "AllQueuedTransferStruct"
    [leaf "CommandKey" transfer.commandKey, leaf "State" (some (showInt transfer.state)),
      leaf "IsDownload" (some (showInt transfer.isDownload.toNat)), leaf "FileType" transfer.fileType,
      leaf "FileSize" (some (showInt (ofUint transfer.fileSize))), leaf "TargetFileName" (some [])]

def getAllQueuedTransfersResponse (pResult : List AllQueuedTransferStruct) : SoapNode :=
  node "cwmp:GetAllQueuedTransfersResponse" [node "TransferList" (pResult.map allQueuedTransferStruct)]

end Responses

section Commands

variable (ctx : SoapContext) (engine : RpcInterface) (pSoapId : Text)

def subGetRPCMethods : List Action :=
  let (nRPCRet, methodsList) := engine.getRPCMethods
  [.call .getRPCMethods,
    .send (respond ctx pSoapId false nRPCRet (methodsList.map getRPCMethodsResponse))]

def subGetParameterNames (pPath : Text) (nNextLevel : Bool) : List Action :=
  let (nRPCRet, pResult) := engine.getParameterNames pPath nNextLevel
  [.call (.getParameterNames pPath nNextLevel),
    .send (respond ctx pSoapId false nRPCRet (pResult.map getParameterNamesResponse))]

/-- The fault also names the parameters that could not be set. -/
def subSetParameterValues (pParameterList : List ParameterValueStruct) (pParameterKey : Text) : List Action :=
  let (nRPCRet, status, pFaults) := engine.setParameterValues pParameterList pParameterKey
  [.call (.setParameterValues pParameterList pParameterKey),
    .send (soapMessage ctx false pSoapId
      (if nRPCRet = 0 then setParameterValuesResponse status
      else soapFault ctx nRPCRet (pFaults.map setParameterValuesFault)))]

def subGetParameterValues (pParameterName : List Text) : List Action :=
  let (nRPCRet, pResult) := engine.getParameterValues pParameterName
  [.call (.getParameterValues pParameterName),
    .send (respond ctx pSoapId true nRPCRet (pResult.map getParameterValuesResponse))]

def subSetParameterAttributes (pParameterList : List ParameterAttributesStruct) : List Action :=
  [.call (.setParameterAttributes pParameterList),
    .send (respond ctx pSoapId false (engine.setParameterAttributes pParameterList)
      (some (soapEmptyResponse "cwmp:SetParameterAttributesResponse")))]

def subGetParameterAttributes (pParameterName : List Text) : List Action :=
  let (nRPCRet, pResult) := engine.getParameterAttributes pParameterName
  [.call (.getParameterAttributes pParameterName),
    .send (respond ctx pSoapId false nRPCRet (pResult.map getParameterAttributesResponse))]

def subAddObject (pObjectName pParameterKey : Text) : List Action :=
  let (nRPCRet, nInstanceNumber, status) := engine.addObject pObjectName pParameterKey
  [.call (.addObject pObjectName pParameterKey),
    .send (respond ctx pSoapId false nRPCRet (some (addObjectResponse nInstanceNumber status)))]

def subDeleteObject (pObjectName pParameterKey : Text) : List Action :=
  let (nRPCRet, status) := engine.deleteObject pObjectName pParameterKey
  [.call (.deleteObject pObjectName pParameterKey),
    .send (respond ctx pSoapId false nRPCRet (some (deleteObjectResponse status)))]

/-- The code of the fault when a transfer has succeeded without a result. -/
def transferCode (nRPCRet : Int) (pResult : Option TransferResultStruct) : Int :=
  if nRPCRet = 0 ∧ pResult.isNone then Fault.internalError else nRPCRet

def subDownload (arguments : DownloadArguments) : List Action :=
  let (nRPCRet, pResult) := engine.download arguments
  [.call (.download arguments),
    .send (respond ctx pSoapId false (transferCode nRPCRet pResult)
      (pResult.map (transferResponse ctx "cwmp:DownloadResponse")))]

def subUpload (arguments : UploadArguments) : List Action :=
  let (nRPCRet, pResult) := engine.upload arguments
  [.call (.upload arguments),
    .send (respond ctx pSoapId false (transferCode nRPCRet pResult)
      (pResult.map (transferResponse ctx "cwmp:UploadResponse")))]

/-- A response without a list is sent for a success without a result. -/
def subGetAllQueuedTransfers : List Action :=
  let (rc, pResult) := engine.getAllQueuedTransfers
  [.call .getAllQueuedTransfers,
    .send (respond ctx pSoapId false rc (some (getAllQueuedTransfersResponse (pResult.getD []))))]

def subFactoryReset : List Action :=
  [.call .factoryReset,
    .send (respond ctx pSoapId false engine.factoryReset (some (soapEmptyResponse "cwmp:FactoryResetResponse")))]

/-- Nothing is sent without a command key. -/
def subScheduleInform (pDelay : Text) (pCommandKey : Option Text) : List Action :=
  match pCommandKey with
  | none => []
  | some pCommandKey =>
    match stringToUint pDelay with
    | none => [.send (soapFaultResponse ctx pSoapId Fault.invalidArguments)]
    | some delay =>
      [.call (.scheduleInform delay pCommandKey),
        .send (respond ctx pSoapId false (engine.scheduleInform delay pCommandKey)
          (some (soapEmptyResponse "cwmp:ScheduleInformResponse")))]

def subReboot (pCommandKey : Text) : List Action :=
  [.call (.reboot pCommandKey),
    .send (respond ctx pSoapId false (engine.reboot pCommandKey) (some (soapEmptyResponse "cwmp:RebootResponse")))]

end Commands

end Tr069Agent.Com
