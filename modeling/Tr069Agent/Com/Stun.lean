import Mathlib.Data.List.Nodup
import Mathlib.Data.List.TakeDrop
import Tr069Agent.Library.Decimal
import Tr069Agent.Library.Transition

/-! # The messages of the STUN client

A datagram that is no STUN answer may be a UDP connection request. Its parameters are looked for in one
pass, which ends at the fifth match of any of them, and are copied to buffers that keep what they hold
where a parameter is not found.
-/

namespace Tr069Agent.Com.Stun

open Library Library.Decimal

set_option autoImplicit false

def stunMaxMessageSize : Nat := 2048

def stunMaxString : Nat := 256

def hmacSize : Nat := 20

inductive MessageType where
  | none
  | messageUnknown
  | udpRequest
  | bindingResponse
  | timeoutResponse
  | msgIntegrityResponse
  | bindingErrorResponse
  deriving DecidableEq

section Signatures

/-- The result of HMAC-SHA1. -/
structure Digest where
  bytes : List UInt8
  size : bytes.length = hmacSize

def hexDigit (n : Nat) : Char := (Nat.digitChar n).toUpper

def hextoAscii (hexaMsg : List UInt8) : Text :=
  hexaMsg.flatMap fun byte => [hexDigit (byte.toNat / 16), hexDigit (byte.toNat % 16)]

/-- Whether two texts differ in the case of letters only. -/
def SameDigits (left right : Text) : Prop := left.map Char.toLower = right.map Char.toLower

instance (left right : Text) : Decidable (SameDigits left right) :=
  inferInstanceAs (Decidable (left.map Char.toLower = right.map Char.toLower))

/-- `DM_STUN_isHmacIdentical`: `strncasecmp` takes as many digits as the HMAC has bytes. -/
def isHmacIdentical (hmacSha1 : Text → Text → Digest) (signatureReceived msg password : Text) : Bool :=
  SameDigits ((hextoAscii (hmacSha1 password msg).bytes).take hmacSize) signatureReceived

end Signatures

section Parameters

/-- The parameters of a request, in the order of the comparisons. -/
inductive UdpParameter where
  | ts
  | id
  | un
  | cn
  | sig
  deriving DecidableEq

def UdpParameter.token : UdpParameter → Text
  | .ts => "?ts=".toList
  | .id => "&id=".toList
  | .un => "&un=".toList
  | .cn => "&cn=".toList
  | .sig => "&sig=".toList

def parameterAt (message : Text) : Option UdpParameter :=
  [UdpParameter.ts, .id, .un, .cn, .sig].find? fun param => param.token.isPrefixOf message

/-- The matches of the pass, each with the text from its value on, where `left` more are looked for. Behind
a match the pass goes on after the first character of the value. -/
def findParameters : (left skip : Nat) → Text → List (UdpParameter × Text)
  | 0, _, _ => []
  | _, _, [] => []
  | left + 1, skip + 1, _ :: message => findParameters (left + 1) skip message
  | left + 1, 0, c :: message =>
    match parameterAt (c :: message) with
    | none => findParameters (left + 1) 0 message
    | some param =>
      (param, (c :: message).drop param.token.length) :: findParameters left param.token.length message

/-- The text before the next separator: none where the eight bits of the size do not reach it. -/
def valueText (message : Text) : Option Text :=
  let value := message.takeWhile (· ≠ '&')
  if value.length < 2 ^ 8 ∧ value.length < message.length then some value else none

/-- The text up to the terminating zero. -/
def cString (text : Text) : Text := text.takeWhile (· ≠ '\x00')

def strtoull (text : Text) : Nat :=
  let val := atol text
  if val.natAbs < 2 ^ 64 then (val % 2 ^ 64).toNat else 2 ^ 64 - 1

/-- What a request is read into: two numbers of the caller and three buffers on the stack. -/
structure UdpBuffers where
  timeStamp : Nat
  messageId : Nat
  username : Text
  cnonce : Text
  signature : Text
  deriving DecidableEq

/-- The text that is copied for a parameter. The numbers pass through a buffer of 50 characters. -/
def copied : UdpParameter × Text → Option Text
  | (.ts, message) | (.id, message) => (valueText message).filter fun value => value.length < 50
  | (.un, message) | (.cn, message) => (valueText message).map cString
  | (.sig, message) => if message.length < hmacSize then none else some (message.take hmacSize)

def UdpBuffers.put (buffers : UdpBuffers) : UdpParameter → Text → UdpBuffers
  | .ts, value => { buffers with timeStamp := strtoull value }
  | .id, value => { buffers with messageId := strtoull value }
  | .un, username => { buffers with username }
  | .cn, cnonce => { buffers with cnonce }
  | .sig, signature => { buffers with signature }

def UdpBuffers.store (buffers : UdpBuffers) (found : UdpParameter × Text) : Option UdpBuffers :=
  (copied found).map (buffers.put found.1)

/-- The matches in a datagram, which stands in an array of zeros. -/
def parametersOf (datagram : Text) : List (UdpParameter × Text) :=
  findParameters 5 0 (datagram ++ List.replicate (stunMaxMessageSize - datagram.length) '\x00')

/-- `DM_STUN_extractUdpParameters`, which never returns false. No result stands for a pass that does not end
or leaves the arrays. -/
def extractUdpParameters (datagram : Text) (buffers : UdpBuffers) : Option UdpBuffers :=
  (parametersOf datagram).foldlM UdpBuffers.store buffers

end Parameters

section Messages

/-- The attributes of a STUN message. -/
structure StunMessage where
  hasMappedAddress : Bool
  hasSourceAddress : Bool
  hasChangedAddress : Bool
  hasReflectedFrom : Bool
  hasMessageIntegrity : Bool
  hasErrorCode : Bool

/-- `stunParseMessage`: the length in the header must be that of the datagram. -/
def stunParseMessage (parseAttributes : Text → Option StunMessage) (datagram : Text) : Option StunMessage :=
  match datagram with
  | _ :: _ :: high :: low :: _ =>
    if datagram.length < 20 ∨ high.toNat * 2 ^ 8 + low.toNat + 20 ≠ datagram.length then none
    else parseAttributes datagram
  | _ => none

/-- The type of a STUN answer: none where the assertion fails. Where traces are not built the assertion is
empty, and the type stays unknown. -/
def answerType (answer : StunMessage) : Option MessageType :=
  if answer.hasMappedAddress && answer.hasSourceAddress && answer.hasChangedAddress then
    if answer.hasReflectedFrom then some .timeoutResponse
    else if answer.hasMessageIntegrity then some .msgIntegrityResponse
    else some .bindingResponse
  else if answer.hasErrorCode then some .bindingErrorResponse
  else none

structure Configuration where
  connectionRequestUsername : Text
  connectionRequestPassword : Text
  deriving DecidableEq

/-- `%lld` of a number of 64 bits. -/
def showSigned (n : Nat) : Text := showInt (if n < 2 ^ 63 then (n : Int) else (n : Int) - 2 ^ 64)

/-- The text that is signed, cut at the size of its buffer. -/
def UdpBuffers.signed (buffers : UdpBuffers) : Text :=
  (showSigned buffers.timeStamp ++ showSigned buffers.messageId ++ buffers.username ++ buffers.cnonce).take
    (2 * 8 + 2 * stunMaxString - 1)

/-- Whether a text has the form of a connection request. -/
def isRequest (datagram : Text) : Bool :=
  "GET".toList.isPrefixOf (cString datagram) && Text.strstr (cString datagram) "HTTP/1.1".toList

section Reading

variable (hmacSha1 : Text → Text → Digest) (parseAttributes : Text → Option StunMessage) (config : Configuration)

/-- The part of `DM_STUN_readMessage` about a text that is no STUN answer. -/
def readRequest (datagram : Text) (buffers : UdpBuffers) : Option (MessageType × UdpBuffers) :=
  if isRequest datagram then
    (extractUdpParameters datagram buffers).map fun after =>
      if config.connectionRequestUsername ≠ after.username then (.messageUnknown, after)
      else if !isHmacIdentical hmacSha1 after.signature after.signed config.connectionRequestPassword then
        (.messageUnknown, after)
      else (.udpRequest, after)
  else some (.messageUnknown, buffers)

/-- `DM_STUN_readMessage` after `select`, where no text stands for the end of the timeout. -/
def readMessage (received : Option Text) (buffers : UdpBuffers) : Option (MessageType × UdpBuffers) :=
  match received with
  | none => some (.none, buffers)
  | some datagram =>
    if datagram = [] ∨ datagram.length + 1 ≥ stunMaxMessageSize then some (.messageUnknown, buffers)
    else
      match stunParseMessage parseAttributes datagram with
      | some answer => some ((answerType answer).getD .messageUnknown, buffers)
      | none => readRequest hmacSha1 config datagram buffers

end Reading

end Messages

end Tr069Agent.Com.Stun
