import Tr069Agent.Com.RpcCommands

/-! # The requests of the ACS

The body of a message holds one element, whose name tells the method. The arguments are looked for below
it by their names, and a request whose arguments are missing or cannot be read is answered with a fault.
-/

namespace Tr069Agent.Com

open Library Library.Decimal Engine

set_option autoImplicit false

inductive RpcMethod where
  | getRPCMethods
  | setParameterValues
  | getParameterValues
  | setParameterAttributes
  | getParameterAttributes
  | getParameterNames
  | addObject
  | deleteObject
  | reboot
  | download
  | factoryReset
  | scheduleInform
  | upload
  | getQueuedTransfers
  | getAllQueuedTransfers
  | setVouchers
  | getOptions
  deriving DecidableEq

namespace RpcMethod

def all : List RpcMethod :=
  [getRPCMethods, setParameterValues, getParameterValues, setParameterAttributes, getParameterAttributes,
    getParameterNames, addObject, deleteObject, reboot, download, factoryReset, scheduleInform, upload,
    getQueuedTransfers, getAllQueuedTransfers, setVouchers, getOptions]

def tag : RpcMethod → Text
  | getRPCMethods => "cwmp:GetRPCMethods".toList
  | setParameterValues => "cwmp:SetParameterValues".toList
  | getParameterValues => "cwmp:GetParameterValues".toList
  | setParameterAttributes => "cwmp:SetParameterAttributes".toList
  | getParameterAttributes => "cwmp:GetParameterAttributes".toList
  | getParameterNames => "cwmp:GetParameterNames".toList
  | addObject => "cwmp:AddObject".toList
  | deleteObject => "cwmp:DeleteObject".toList
  | reboot => "cwmp:Reboot".toList
  | download => "cwmp:Download".toList
  | factoryReset => "cwmp:FactoryReset".toList
  | scheduleInform => "cwmp:ScheduleInform".toList
  | upload => "cwmp:Upload".toList
  | getQueuedTransfers => "cwmp:GetQueuedTransfers".toList
  | getAllQueuedTransfers => "cwmp:GetAllQueuedTransfers".toList
  | setVouchers => "cwmp:SetVouchers".toList
  | getOptions => "cwmp:GetOptions".toList

def ofTag (rpcCommandTypeStr : Text) : Option RpcMethod := all.find? fun method => method.tag = rpcCommandTypeStr

theorem tag_of_ofTag {rpcCommandTypeStr : Text} {method : RpcMethod} (h : ofTag rpcCommandTypeStr = some method) :
    rpcCommandTypeStr = method.tag := by
  simpa [eq_comm] using List.find?_some h

end RpcMethod

section Lookup

/-- `xmlGetFirstNodeWithTagName` -/
def first (tag : String) (node : SoapNode) : Option SoapNode := node.firstByTagName tag.toList

def valueOf (tag : String) (node : SoapNode) : Option Text := (first tag node).bind (·.nodeValue)

/-- A node under its name or under its name with the prefix of the protocol. -/
def firstOr (tag : String) (node : SoapNode) : Option SoapNode :=
  (first tag node).or (first ("cwmp:" ++ tag) node)

def valueOr (tag : String) (node : SoapNode) : Option Text := (valueOf tag node).or (valueOf ("cwmp:" ++ tag) node)

def textOf (node : SoapNode) : Text := node.nodeValue.getD []

/-- A variable after `xmlGetNodeParameters`: without a node it stays as it was. -/
def nodeParameter (before : Option Text) : Option SoapNode → Option Text
  | none => before
  | some node => node.nodeValue

/-- `xmlGetChildNodesList`: the list of a node without children has one empty cell. -/
def childNodesList (node : SoapNode) : List (Option SoapNode) :=
  match node.children with
  | [] => [none]
  | children => children.map some

def cellText (cell : Option SoapNode) : Text := (cell.map textOf).getD []

/-- `xmlGetAttributValue`: it stops at an element without attributes, whose map is there and has no item. -/
def attributValue (attributName : String) (node : SoapNode) : Option (Option Text) :=
  if node.attributes = [] then none else some (node.attributeValue attributName.toList)

end Lookup

section Arguments

def findTypeParameter (pParameterType : Text) : ParameterType :=
  if pParameterType = "xsd:int".toList then .int
  else if pParameterType = "xsd:unsignedInt".toList then .uint
  else if pParameterType = "xsd:long".toList then .long
  else if pParameterType = "xsd:boolean".toList then .boolean
  else if pParameterType = "xsd:dateTime".toList then .date
  else if pParameterType = "xsd:string".toList then .string
  else if pParameterType = "xsd:any".toList then .any
  else .undefined

/-- The structures of a list of values; one without a name takes that of the structure before it, and
none of them is set when a name or a type cannot be read. The agent stops at a value without attributes. -/
def readParameterValueStructs (parameterNameStr : Option Text) :
    List SoapNode → Option (Option (List ParameterValueStruct))
  | [] => some (some [])
  | pvsNode :: rest =>
    let parameterNameStr := nodeParameter parameterNameStr (first "Name" pvsNode)
    match first "Value" pvsNode with
    | none => some none
    | some valueNode =>
      match attributValue "xsi:type" valueNode with
      | none => none
      | some pValTypeStr =>
        match parameterNameStr, pValTypeStr with
        | some name, some pValTypeStr =>
          (readParameterValueStructs parameterNameStr rest).map fun structs =>
            structs.map (⟨name, findTypeParameter pValTypeStr, some (textOf valueNode)⟩ :: ·)
        | _, _ => some none

/-- The variable after `DM_ENG_stringToBool` has been called on it, where it was false before: what
follows the value is not looked at. -/
def readFlag (ch : Option Text) : Bool :=
  let ch := (ch.getD []).dropWhile isspace
  if falseString.isPrefixOf (ch.map Char.toLower) then false
  else if trueString.isPrefixOf (ch.map Char.toLower) then true
  else ch.head? = some '1'

/-- A structure of attributes: none when the request is refused, and no structure when its name or a flag
is missing. The mode has a value of its own, `notif`, where its text is no number. -/
def readAttributesStruct (notif : Int) (pasNode : SoapNode) : Option (Option ParameterAttributesStruct) :=
  match first "Name" pasNode, first "NotificationChange" pasNode, first "AccessListChange" pasNode with
  | some nameNode, some notificationChangeNode, some accessListChangeNode =>
    match nameNode.nodeValue with
    | none => some none
    | some name =>
      let notification : Int :=
        if readFlag notificationChangeNode.nodeValue then
          match valueOf "Notification" pasNode with
          | none => NotificationMode.undefined.number
          | some text => (stringToInt text).getD notif
        else NotificationMode.undefined.number
      if readFlag accessListChangeNode.nodeValue then
        (first "AccessList" pasNode).map fun accessListNode =>
          some ⟨name, notification, some ((childNodesList accessListNode).map cellText)⟩
      else some (some ⟨name, notification, none⟩)
  | _, _, _ => some none

def beforeMissing (pParameterList : List (Option ParameterAttributesStruct)) : List ParameterAttributesStruct :=
  (pParameterList.takeWhile (·.isSome)).filterMap id

def readUint (ch : Option Text) : Option Nat :=
  match ch with
  | none => some 0
  | some ch => stringToUint ch

def readDownload (downloadNode : SoapNode) : Option DownloadArguments := do
  let commandKey ← (firstOr "CommandKey" downloadNode).map textOf
  let fileType ← valueOr "FileType" downloadNode
  let url ← valueOr "URL" downloadNode
  let fileSize ← readUint (valueOr "FileSize" downloadNode)
  let delay ← readUint (valueOr "DelaySeconds" downloadNode)
  return { fileType, url, fileSize, delay, commandKey
           username := valueOr "Username" downloadNode
           password := valueOr "Password" downloadNode
           targetFileName := valueOr "TargetFileName" downloadNode
           successUrl := valueOr "SuccessURL" downloadNode
           failureUrl := valueOr "FailureURL" downloadNode }

def readUpload (downloadNode : SoapNode) : Option UploadArguments := do
  let commandKey ← (firstOr "CommandKey" downloadNode).map textOf
  let fileType ← valueOr "FileType" downloadNode
  let url ← valueOr "URL" downloadNode
  let delay ← readUint (valueOr "DelaySeconds" downloadNode)
  return { fileType, url, delay, commandKey
           username := valueOr "Username" downloadNode
           password := valueOr "Password" downloadNode }

/-- The names of parameters; a node without a text stands for the whole data model. -/
def readParameterNames (rpcNode : SoapNode) : Option (List Text) :=
  (firstOr "ParameterNames" rpcNode).map fun paramNamesNode => (childNodesList paramNamesNode).map cellText

end Arguments

section Dispatch

variable (ctx : SoapContext) (engine : RpcInterface) (notif : Int) (soapIdStr : Text)

def withArguments {α : Type} (arguments : Option α) (perform : α → List Action) : List Action :=
  match arguments with
  | none => [.send (soapFaultResponse ctx soapIdStr Fault.invalidArguments)]
  | some arguments => perform arguments

/-- None where the agent stops. -/
def parseSetParameterValues (rpcNode : SoapNode) : Option (List Action) :=
  let arguments : Option (Option (List ParameterValueStruct × Text)) :=
    match firstOr "ParameterList" rpcNode, first "ParameterKey" rpcNode with
    | some paramListNode, some paramKeyNode =>
      let nodes := paramListNode.elementsByTagName "ParameterValueStruct".toList
      if nodes = [] then some none
      else (readParameterValueStructs none nodes).map fun structs => structs.map (·, textOf paramKeyNode)
    | _, _ => some none
  arguments.map fun arguments =>
    withArguments ctx soapIdStr arguments fun (list, key) => subSetParameterValues ctx engine soapIdStr list key

def parseSetParameterAttributes (rpcNode : SoapNode) : List Action :=
  let arguments : Option (List ParameterAttributesStruct) := do
    let paramListNode ← firstOr "ParameterList" rpcNode
    let nodes :=
      match paramListNode.elementsByTagName "SetParameterAttributesStruct".toList with
      | [] => paramListNode.elementsByTagName "ParameterAttibutesStruct".toList
      | nodes => nodes
    if nodes = [] then none else return beforeMissing (← nodes.mapM (readAttributesStruct notif))
  withArguments ctx soapIdStr arguments (subSetParameterAttributes ctx engine soapIdStr)

def parseGetParameterNames (rpcNode : SoapNode) : List Action :=
  withArguments ctx soapIdStr ((valueOf "NextLevel" rpcNode).bind stringToBool) fun nextLevel =>
    subGetParameterNames ctx engine soapIdStr ((valueOf "ParameterPath" rpcNode).getD ctx.parameterPrefix) nextLevel

def readObject (rpcNode : SoapNode) : Option (Text × Text) := do
  let objectName ← valueOf "ObjectName" rpcNode
  let paramKeyNode ← first "ParameterKey" rpcNode
  return (objectName, textOf paramKeyNode)

def parseScheduleInform (rpcNode : SoapNode) : List Action :=
  let scheduleInformNode := first "cwmp:ScheduleInform" rpcNode
  withArguments ctx soapIdStr (scheduleInformNode.bind (valueOr "DelaySeconds")) fun delaySeconds =>
    subScheduleInform ctx engine soapIdStr delaySeconds
      ((scheduleInformNode.bind (firstOr "CommandKey")).map textOf)

/-- The branch of a request. Two methods have a branch that does nothing. -/
def parseRequest (method : RpcMethod) (rpcNode : SoapNode) : Option (List Action) :=
  match method with
  | .getRPCMethods => some (subGetRPCMethods ctx engine soapIdStr)
  | .setParameterValues => parseSetParameterValues ctx engine soapIdStr rpcNode
  | .getParameterValues =>
    some (withArguments ctx soapIdStr (readParameterNames rpcNode) (subGetParameterValues ctx engine soapIdStr))
  | .setParameterAttributes => some (parseSetParameterAttributes ctx engine notif soapIdStr rpcNode)
  | .getParameterAttributes =>
    some (withArguments ctx soapIdStr (readParameterNames rpcNode) (subGetParameterAttributes ctx engine soapIdStr))
  | .getParameterNames => some (parseGetParameterNames ctx engine soapIdStr rpcNode)
  | .addObject =>
    some (withArguments ctx soapIdStr (readObject rpcNode) fun (name, key) =>
      subAddObject ctx engine soapIdStr name key)
  | .deleteObject =>
    some (withArguments ctx soapIdStr (readObject rpcNode) fun (name, key) =>
      subDeleteObject ctx engine soapIdStr name key)
  | .reboot =>
    some (withArguments ctx soapIdStr ((firstOr "CommandKey" rpcNode).map textOf) (subReboot ctx engine soapIdStr))
  | .download =>
    some (withArguments ctx soapIdStr ((first "cwmp:Download" rpcNode).bind readDownload)
      (subDownload ctx engine soapIdStr))
  | .factoryReset => some (subFactoryReset ctx engine soapIdStr)
  | .scheduleInform => some (parseScheduleInform ctx engine soapIdStr rpcNode)
  | .upload =>
    some (withArguments ctx soapIdStr ((first "cwmp:Upload" rpcNode).bind readUpload) (subUpload ctx engine soapIdStr))
  | .getQueuedTransfers => some [.send (soapFaultResponse ctx soapIdStr Fault.methodNotSupported)]
  | .getAllQueuedTransfers => some (subGetAllQueuedTransfers ctx engine soapIdStr)
  | .setVouchers => some []
  | .getOptions => some []

/-- `DM_ParseSoapBodyMessage`; none where the one element of the body is no request, and where the agent
stops, as it does at an empty body, whose one cell has no name. -/
def parseSoapBodyMessage (pBody : SoapNode) : Option (List Action) :=
  match childNodesList pBody with
  | [none] => none
  | [some rpcNode] => (rpcNode.name.bind RpcMethod.ofTag).bind (parseRequest ctx engine notif soapIdStr · rpcNode)
  | _ => some [.send (soapFaultResponse ctx soapIdStr Fault.invalidArguments)]

end Dispatch

/-- What is done with a message that was received: none for one that is no request, where the agent stops, and
where reading the identifier leaves its structure. -/
def receiveMessage (ctx : SoapContext) (engine : RpcInterface) (notif : Int) (document : SoapNode) :
    Option (List Action) :=
  match analyseSoapMessage ctx false document with
  | none => some []
  | some soap => do
    let soapIdStr ← soap.pSoapID
    parseSoapBodyMessage ctx engine notif soapIdStr soap.pBody

end Tr069Agent.Com
