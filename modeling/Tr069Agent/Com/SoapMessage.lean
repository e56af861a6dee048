import Tr069Agent.Engine.ParameterValue
import Tr069Agent.Library.Xml

/-! # SOAP messages

What is read of the envelope of a message, and the messages that the agent builds: an envelope with the
identifier of the request in its header and one element in its body.
-/

namespace Tr069Agent.Com

open Library Library.Decimal Engine

set_option autoImplicit false

abbrev SoapNode := Xml Text

/-- What the module keeps for the messages: the prefix of the envelope, the version of the protocol, the
root of the names and the printing of dates. -/
structure SoapContext where
  soapEnvNS : Text
  cwmpVersionSupported : Text
  parameterPrefix : Text
  dateTimeToString : Int → Option Text

namespace SoapContext

variable (ctx : SoapContext)

def prefixed (tag : Text) : Text := ctx.soapEnvNS ++ ':' :: tag

def envelopeTagName : Text := ctx.prefixed "Envelope".toList

def headerTagName : Text := ctx.prefixed "Header".toList

def bodyTagName : Text := ctx.prefixed "Body".toList

def faultTagName : Text := ctx.prefixed "Fault".toList

def mustUnderstandAttrName : Text := ctx.prefixed "mustUnderstand".toList

def arrayTypeAttrName : Text := "soapenc:arrayType".toList

def headerId : Text := "cwmp:ID".toList

def headerHoldRequest : Text := "cwmp:HoldRequests".toList

theorem prefixed_inj {a b : Text} : ctx.prefixed a = ctx.prefixed b ↔ a = b := by
  simp [prefixed]

theorem prefixed_ne_headerId {tag : Text} (h : tag.getLast? ≠ some 'D') (hTag : tag ≠ []) :
    ctx.prefixed tag ≠ headerId := by
  intro hEq
  have hLast := congrArg List.getLast? hEq
  rw [prefixed, List.getLast?_append_cons, List.getLast?_cons_of_ne_nil hTag] at hLast
  exact h (hLast.trans rfl)

end SoapContext

section Skeleton

variable (ctx : SoapContext)

def setAttribute (attributes : List (Text × Text)) (attr : Text × Text) : List (Text × Text) :=
  if attributes.any (·.1 = attr.1) then attributes.map fun a => if a.1 = attr.1 then attr else a
  else attributes ++ [attr]

def envelopeAttributes (allEnveloppeAttributs : Bool) : List (Text × Text) :=
  [("xmlns:soapenc".toList, "http://schemas.xmlsoap.org/soap/encoding/".toList),
    ("xmlns:".toList ++ ctx.soapEnvNS, "http://schemas.xmlsoap.org/soap/envelope/".toList)] ++
  (if allEnveloppeAttributs then
    [("xmlns:xsd".toList, "http://www.w3.org/2001/XMLSchema".toList)] else []) ++
  [("xmlns:xsi".toList, "http://www.w3.org/2001/XMLSchema-instance".toList),
    ("xmlns:cwmp".toList, ctx.cwmpVersionSupported)]

/-- What `_buildSoapMessageSkeleton` makes of the envelope, also of one that was received. -/
def addSkeleton (allEnveloppeAttributs : Bool) (envelope : SoapNode) : SoapNode :=
  .element ctx.envelopeTagName
    ((envelopeAttributes ctx allEnveloppeAttributs).foldl setAttribute envelope.attributes)
    (envelope.children ++ [.element ctx.headerTagName [] [], .element ctx.bodyTagName [] []])

end Skeleton

section Analysis

/-- The fields of `DM_SoapXml`, with the text of the identifier before it is copied. -/
structure SoapXml where
  pHeader : SoapNode
  pBody : SoapNode
  nodeHeaderIdStr : Option Text
  nHoldRequest : Nat

def headerIdSize : Nat := 50

/-- `atoi` into an `unsigned int`; a number beyond `long` is cut to it. -/
def atoiUint (text : Text) : Nat := toUint (max longMin (min longMax (atol text)))

/-- `DM_AnalyseSoapMessage` on the tree of a message. -/
def analyseSoapMessage (ctx : SoapContext) (allEnveloppeAttributs : Bool) (document : SoapNode) :
    Option SoapXml := do
  let pRoot ← document.modifyFirst ctx.envelopeTagName (addSkeleton ctx allEnveloppeAttributs)
  let pHeader ← pRoot.firstByTagName ctx.headerTagName
  let nodeHeaderIdStr := (pHeader.firstByTagName SoapContext.headerId).bind (·.nodeValue)
  let holdRequestStr := (pHeader.firstByTagName SoapContext.headerHoldRequest).bind (·.nodeValue)
  let pBody ← pRoot.firstByTagName ctx.bodyTagName
  return { pHeader, pBody, nodeHeaderIdStr, nHoldRequest := (holdRequestStr.map atoiUint).getD 0 }

/-- The bytes of `nHoldRequest`, which follow those of `pSoapID`. -/
def holdRequestBytes (nHoldRequest : Nat) : List Nat :=
  [nHoldRequest % 256, nHoldRequest / 2 ^ 8 % 256, nHoldRequest / 2 ^ 16 % 256, nHoldRequest / 2 ^ 24 % 256]

/-- What is read behind `pSoapID` where no zero ends it; none beyond the structure. -/
def behindSoapId (nHoldRequest : Nat) : Option Text :=
  if 0 ∈ holdRequestBytes nHoldRequest then
    some (((holdRequestBytes nHoldRequest).takeWhile (· ≠ 0)).map Char.ofNat)
  else none

/-- The text of `pSoapID` after the copy of `HEADER_ID_SIZE` characters at most. -/
def SoapXml.pSoapID (soap : SoapXml) : Option Text :=
  let id := soap.nodeHeaderIdStr.getD []
  if id.length < headerIdSize then some id
  else (behindSoapId soap.nHoldRequest).map (id.take headerIdSize ++ ·)

/-- The identifier has less characters than there is room for, or what it has beyond them is what is
read there. -/
def SoapXml.KeepsId (soap : SoapXml) : Prop :=
  let id := soap.nodeHeaderIdStr.getD []
  id.length < headerIdSize ∨ behindSoapId soap.nHoldRequest = some (id.drop headerIdSize)

theorem pSoapID_eq_some_iff (soap : SoapXml) :
    soap.pSoapID = some (soap.nodeHeaderIdStr.getD []) ↔ soap.KeepsId := by
  rw [SoapXml.pSoapID, SoapXml.KeepsId]
  generalize soap.nodeHeaderIdStr.getD [] = id
  by_cases hShort : id.length < headerIdSize
  · simp [hShort]
  · have hAppend : ∀ tail : Text, id.take headerIdSize ++ tail = id ↔ tail = id.drop headerIdSize := by
      intro tail
      nth_rewrite 2 [← List.take_append_drop headerIdSize id]
      exact List.append_right_inj _
    simp [hShort, Option.map_eq_some_iff, hAppend]

end Analysis

section Building

variable (ctx : SoapContext)

/-- The identifier that `DM_AddSoapHeaderID` puts into the header. -/
def headerIdNode (soapId : Text) : SoapNode :=
  .element SoapContext.headerId [(ctx.mustUnderstandAttrName, "1".toList)] [.text soapId]

/-- A skeleton with an identifier in its header and an element in its body. -/
def soapMessage (allEnveloppeAttributs : Bool) (soapId : Text) (rpc : SoapNode) : SoapNode :=
  .element ctx.envelopeTagName ((envelopeAttributes ctx allEnveloppeAttributs).foldl setAttribute [])
    [.element ctx.headerTagName [] [headerIdNode ctx soapId], .element ctx.bodyTagName [] [rpc]]

/-- The identifier of a message. -/
def messageId (message : SoapNode) : Option Text :=
  ((message.firstByTagName ctx.headerTagName).bind (·.firstByTagName SoapContext.headerId)).bind (·.nodeValue)

/-- The name of the element that is alone in the body of a message. -/
def messageRpc (message : SoapNode) : Option Text :=
  match (message.firstByTagName ctx.bodyTagName).map (·.children) with
  | some [rpc] => rpc.name
  | _ => none

theorem analyseSoapMessage_skeleton (allEnveloppeAttributs : Bool) :
    analyseSoapMessage ctx allEnveloppeAttributs (.element ctx.envelopeTagName [] []) =
      some ⟨.element ctx.headerTagName [] [], .element ctx.bodyTagName [] [], none, 0⟩ := by
  have hEnvelope : ctx.envelopeTagName ≠ ctx.headerTagName := mt ctx.prefixed_inj.mp (by decide)
  have hBody : ctx.envelopeTagName ≠ ctx.bodyTagName := mt ctx.prefixed_inj.mp (by decide)
  have hHeader : ctx.headerTagName ≠ ctx.bodyTagName := mt ctx.prefixed_inj.mp (by decide)
  have hId : ctx.headerTagName ≠ SoapContext.headerId := ctx.prefixed_ne_headerId (by decide) (by decide)
  have hHold : ctx.headerTagName ≠ SoapContext.headerHoldRequest := by
    intro hEq
    have hLast := congrArg List.getLast? hEq
    rw [SoapContext.headerTagName, SoapContext.prefixed, List.getLast?_append_cons] at hLast
    exact absurd hLast (by decide)
  simp [analyseSoapMessage, Xml.modifyFirst, addSkeleton, Xml.firstByTagName, Xml.elementsByTagName,
    Xml.elementsOfList, Xml.children, hEnvelope, hBody, hHeader, hId, hHold]

theorem headerTagName_ne_headerId : ctx.headerTagName ≠ SoapContext.headerId :=
  ctx.prefixed_ne_headerId (by decide) (by decide)

theorem messageId_soapMessage (allEnveloppeAttributs : Bool) (soapId : Text) (rpc : SoapNode) :
    messageId ctx (soapMessage ctx allEnveloppeAttributs soapId rpc) = some soapId := by
  have hEnvelope : ctx.envelopeTagName ≠ ctx.headerTagName := mt ctx.prefixed_inj.mp (by decide)
  rw [messageId, soapMessage, Xml.firstByTagName_of_ne hEnvelope, List.findSome?_cons,
    Xml.firstByTagName_self]
  change ((Xml.element ctx.headerTagName [] [headerIdNode ctx soapId]).firstByTagName _).bind _ = _
  rw [Xml.firstByTagName_of_ne (headerTagName_ne_headerId ctx), List.findSome?_cons, headerIdNode,
    Xml.firstByTagName_self]
  rfl

theorem body_soapMessage (allEnveloppeAttributs : Bool) (soapId : Text) (rpc : SoapNode) :
    (soapMessage ctx allEnveloppeAttributs soapId rpc).firstByTagName ctx.bodyTagName =
      some (.element ctx.bodyTagName [] [rpc]) := by
  have hEnvelope : ctx.envelopeTagName ≠ ctx.bodyTagName := mt ctx.prefixed_inj.mp (by decide)
  have hHeader : ctx.headerTagName ≠ ctx.bodyTagName := mt ctx.prefixed_inj.mp (by decide)
  have hId : SoapContext.headerId ≠ ctx.bodyTagName := (ctx.prefixed_ne_headerId (by decide) (by decide)).symm
  have hSkip : (Xml.element ctx.headerTagName [] [headerIdNode ctx soapId]).firstByTagName ctx.bodyTagName
      = none := by
    rw [Xml.firstByTagName_of_ne hHeader, headerIdNode, List.findSome?_cons,
      Xml.firstByTagName_of_ne hId]
    rfl
  rw [soapMessage, Xml.firstByTagName_of_ne hEnvelope, List.findSome?_cons, hSkip,
    List.findSome?_cons, Xml.firstByTagName_self]

theorem messageRpc_soapMessage (allEnveloppeAttributs : Bool) (soapId : Text) (rpc : SoapNode) :
    messageRpc ctx (soapMessage ctx allEnveloppeAttributs soapId rpc) = rpc.name := by
  rw [messageRpc, body_soapMessage]
  rfl

end Building

end Tr069Agent.Com
