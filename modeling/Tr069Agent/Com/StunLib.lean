import Tr069Agent.Com.Sha1
import Tr069Agent.Library.Tlv

/-! # The messages of the STUN library -/

namespace Tr069Agent.Com.StunLib

open Library.Words

set_option autoImplicit false

abbrev Bytes := List UInt8

section Messages

def STUN_MAX_STRING : Nat := 256
def STUN_MAX_UNKNOWN_ATTRIBUTES : Nat := 8
def STUN_MAX_MESSAGE_SIZE : Nat := 2048
def HMAC_SIZE : Nat := 20

def MappedAddress : UInt16 := 0x0001
def ResponseAddress : UInt16 := 0x0002
def ChangeRequest : UInt16 := 0x0003
def SourceAddress : UInt16 := 0x0004
def ChangedAddress : UInt16 := 0x0005
def Username : UInt16 := 0x0006
def Password : UInt16 := 0x0007
def MessageIntegrity : UInt16 := 0x0008
def ErrorCode : UInt16 := 0x0009
def UnknownAttribute : UInt16 := 0x000A
def ReflectedFrom : UInt16 := 0x000B
def XorMappedAddress : UInt16 := 0x8020
def XorOnly : UInt16 := 0x0021
def ServerName : UInt16 := 0x8022
def SecondaryAddress : UInt16 := 0x8050
def CONNECTION_REQUEST_BINDING : UInt16 := 0xC001
def BINGIND_CHANGE : UInt16 := 0xC002

def BindRequestMsg : UInt16 := 0x0001
def BindResponseMsg : UInt16 := 0x0101
def BindErrorResponseMsg : UInt16 := 0x0111
def SharedSecretRequestMsg : UInt16 := 0x0002

def IPv4Family : UInt8 := 0x01

structure StunMsgHdr where
  msgType : UInt16
  msgLength : UInt16
  id : Bytes
  sixteen : id.length = 16
  deriving DecidableEq

structure StunAddress4 where
  port : UInt16
  addr : UInt32
  deriving DecidableEq

structure StunAtrAddress4 where
  pad : UInt8
  family : UInt8
  ipv4 : StunAddress4
  deriving DecidableEq

structure StunAtrError where
  pad : UInt16
  errorClass : UInt8
  number : UInt8
  reason : Bytes
  fits : reason.length < STUN_MAX_STRING
  deriving DecidableEq

structure StunAtrUnknown where
  attrType : List UInt16
  fits : attrType.length ≤ STUN_MAX_UNKNOWN_ATTRIBUTES
  deriving DecidableEq

structure StunAtrString where
  value : Bytes
  fits : value.length < STUN_MAX_STRING
  deriving DecidableEq

structure StunAtrIntegrity where
  hash : Bytes
  twenty : hash.length = HMAC_SIZE
  deriving DecidableEq

def StunAtrAddress4.zero : StunAtrAddress4 := ⟨0, 0, ⟨0, 0⟩⟩
def StunAtrString.zero : StunAtrString := ⟨[], by decide⟩
def StunAtrError.zero : StunAtrError := ⟨0, 0, 0, [], by decide⟩
def StunAtrUnknown.zero : StunAtrUnknown := ⟨[], by decide⟩
def StunAtrIntegrity.zero : StunAtrIntegrity := ⟨List.replicate HMAC_SIZE 0, List.length_replicate⟩

/-- A flag of the source and the attribute it announces are one field here. -/
structure StunMessage where
  msgHdr : StunMsgHdr
  mappedAddress : Option StunAtrAddress4
  responseAddress : Option StunAtrAddress4
  changeRequest : Option UInt32
  sourceAddress : Option StunAtrAddress4
  changedAddress : Option StunAtrAddress4
  username : Option StunAtrString
  password : Option StunAtrString
  messageIntegrity : Option StunAtrIntegrity
  errorCode : Option StunAtrError
  unknownAttributes : Option StunAtrUnknown
  reflectedFrom : Option StunAtrAddress4
  xorMappedAddress : Option StunAtrAddress4
  xorOnly : Bool
  serverName : Option StunAtrString
  connectionRequestBinding : Option StunAtrString
  hasBindingChange : Bool
  secondaryAddress : Option StunAtrAddress4
  deriving DecidableEq

/-- A message with its header only. -/
def StunMessage.blank (msgHdr : StunMsgHdr) : StunMessage where
  msgHdr
  mappedAddress := none
  responseAddress := none
  changeRequest := none
  sourceAddress := none
  changedAddress := none
  username := none
  password := none
  messageIntegrity := none
  errorCode := none
  unknownAttributes := none
  reflectedFrom := none
  xorMappedAddress := none
  xorOnly := false
  serverName := none
  connectionRequestBinding := none
  hasBindingChange := false
  secondaryAddress := none

def StunMsgHdr.zero : StunMsgHdr := ⟨0, 0, List.replicate 16 0, List.length_replicate⟩

/-- The message after `memset`. -/
def StunMessage.zero : StunMessage := .blank .zero

end Messages

section Parsing

/-- How reading stops early: with false and what was read so far, or outside of an array. -/
inductive Stop (α : Type) where
  | refused (left : α)
  | outOfArray
  deriving DecidableEq

abbrev Parsed (α : Type) := Except (Stop α) α

/-- What is read into a field of a message. -/
def Parsed.into {α β : Type} (put : α → β) : Parsed α → Parsed β
  | .ok value => .ok (put value)
  | .error (.refused left) => .error (.refused (put left))
  | .error .outOfArray => .error .outOfArray

def stunParseAtrAddress (body : Bytes) (hdrLen : Nat) (result : StunAtrAddress4) : Parsed StunAtrAddress4 :=
  if hdrLen ≠ 8 then .error (.refused result)
  else
    match body with
    | pad :: family :: p1 :: p0 :: a3 :: a2 :: a1 :: a0 :: _ =>
      if family = IPv4Family then .ok ⟨pad, family, ⟨word16 p1 p0, word32 a3 a2 a1 a0⟩⟩
      else .error (.refused { result with pad, family })
    | _ => .error .outOfArray

def stunParseAtrChangeRequest (body : Bytes) (hdrLen : Nat) (result : UInt32) : Parsed UInt32 :=
  if hdrLen ≠ 4 then .error (.refused result)
  else
    match body with
    | v3 :: v2 :: v1 :: v0 :: _ => .ok (word32 v3 v2 v1 v0)
    | _ => .error .outOfArray

/-- The size of the reason is a word of two bytes: it wraps for less than four bytes. -/
def stunParseAtrError (body : Bytes) (hdrLen : Nat) (result : StunAtrError) : Parsed StunAtrError :=
  if hdrLen ≥ STUN_MAX_STRING + 6 then .error (.refused result)
  else
    match body with
    | p1 :: p0 :: errorClass :: number :: body =>
      let sizeReason := (UInt16.ofNat hdrLen - 4).toNat
      if h : sizeReason ≤ body.length ∧ sizeReason < STUN_MAX_STRING then
        .ok ⟨word16 p1 p0, errorClass, number, body.take sizeReason, (List.length_take_le _ _).trans_lt h.2⟩
      else .error .outOfArray
    | _ => .error .outOfArray

def readTypes : Nat → Bytes → Option (List UInt16)
  | 0, _ => some []
  | n + 1, t1 :: t0 :: body => (readTypes n body).map (word16 t1 t0 :: ·)
  | _ + 1, _ => none

theorem length_readTypes {n : Nat} {body : Bytes} {types : List UInt16} (h : readTypes n body = some types) :
    types.length = n := by
  induction n, body using readTypes.induct generalizing types with
  | case1 => cases h; rfl
  | case2 n t1 t0 body ih =>
    obtain ⟨rest, hRest, rfl⟩ := Option.map_eq_some_iff.mp h
    rw [List.length_cons, ih hRest]
  | case3 n body hShort => simp [readTypes] at h

def stunParseAtrUnknown (body : Bytes) (hdrLen : Nat) (result : StunAtrUnknown) : Parsed StunAtrUnknown :=
  if hdrLen ≥ 2 * STUN_MAX_UNKNOWN_ATTRIBUTES + 2 then .error (.refused result)
  else if hdrLen % 4 ≠ 0 then .error (.refused result)
  else
    match readTypes (hdrLen / 4) body with
    | some attrType =>
      if hFits : attrType.length ≤ STUN_MAX_UNKNOWN_ATTRIBUTES then .ok ⟨attrType, hFits⟩ else .error .outOfArray
    | none => .error .outOfArray

def stunParseAtrString (body : Bytes) (hdrLen : Nat) (result : StunAtrString) : Parsed StunAtrString :=
  if hLong : hdrLen ≥ STUN_MAX_STRING then .error (.refused result)
  else if hdrLen % 4 ≠ 0 then .error (.refused result)
  else if hdrLen ≤ body.length then
    .ok ⟨body.take hdrLen, (List.length_take_le _ _).trans_lt (Nat.lt_of_not_ge hLong)⟩
  else .error .outOfArray

def stunParseAtrIntegrity (body : Bytes) (hdrLen : Nat) (result : StunAtrIntegrity) : Parsed StunAtrIntegrity :=
  if hdrLen ≠ 20 then .error (.refused result)
  else if h : 20 ≤ body.length then .ok ⟨body.take 20, List.length_take_of_le h⟩
  else .error .outOfArray

/-- The `switch` of `stunParseMessage`. -/
def parseAttribute (atrType : UInt16) (body : Bytes) (attrLen : Nat) (msg : StunMessage) : Parsed StunMessage :=
  let address (old : Option StunAtrAddress4) (put : StunAtrAddress4 → StunMessage) : Parsed StunMessage :=
    (stunParseAtrAddress body attrLen (old.getD .zero)).into put
  let string (old : Option StunAtrString) (put : StunAtrString → StunMessage) : Parsed StunMessage :=
    (stunParseAtrString body attrLen (old.getD .zero)).into put
  if atrType = MappedAddress then address msg.mappedAddress ({ msg with mappedAddress := some · })
  else if atrType = ResponseAddress then address msg.responseAddress ({ msg with responseAddress := some · })
  else if atrType = ChangeRequest then
    (stunParseAtrChangeRequest body attrLen (msg.changeRequest.getD 0)).into ({ msg with changeRequest := some · })
  else if atrType = SourceAddress then address msg.sourceAddress ({ msg with sourceAddress := some · })
  else if atrType = ChangedAddress then address msg.changedAddress ({ msg with changedAddress := some · })
  else if atrType = Username then string msg.username ({ msg with username := some · })
  else if atrType = Password then string msg.password ({ msg with password := some · })
  else if atrType = MessageIntegrity then
    (stunParseAtrIntegrity body attrLen (msg.messageIntegrity.getD .zero)).into
    ({ msg with messageIntegrity := some · })
  else if atrType = ErrorCode then
    (stunParseAtrError body attrLen (msg.errorCode.getD .zero)).into ({ msg with errorCode := some · })
  else if atrType = UnknownAttribute then
    (stunParseAtrUnknown body attrLen (msg.unknownAttributes.getD .zero)).into
    ({ msg with unknownAttributes := some · })
  else if atrType = ReflectedFrom then address msg.reflectedFrom ({ msg with reflectedFrom := some · })
  else if atrType = XorMappedAddress then address msg.xorMappedAddress ({ msg with xorMappedAddress := some · })
  else if atrType = XorOnly then .ok { msg with xorOnly := true }
  else if atrType = ServerName then string msg.serverName ({ msg with serverName := some · })
  else if atrType = SecondaryAddress then address msg.secondaryAddress ({ msg with secondaryAddress := some · })
  -- only the flag is set
  else if atrType = CONNECTION_REQUEST_BINDING then
    .ok { msg with connectionRequestBinding := some (msg.connectionRequestBinding.getD .zero) }
  else if atrType = BINGIND_CHANGE then .ok { msg with hasBindingChange := true }
  else if atrType ≤ 0x7FFF then .error (.refused msg)
  else .ok msg

/-- The loop of `stunParseMessage`; the body goes on to the end of the buffer, the size to that of the message. -/
def parseAttributes (body : Bytes) (size : Nat) (msg : StunMessage) : Parsed StunMessage :=
  if size = 0 then .ok msg
  else
    match body with
    | t1 :: t0 :: l1 :: l0 :: body =>
      let attrLen := (word16 l1 l0).toNat
      if attrLen + 4 > size then .error (.refused msg)
      else
        match parseAttribute (word16 t1 t0) body attrLen msg with
        | .ok msg => parseAttributes (body.drop attrLen) (size - 4 - attrLen) msg
        | stopped => stopped
    | _ => .error .outOfArray
termination_by size

def stunParseMessage (buf : Bytes) (bufLen : Nat) : Parsed StunMessage :=
  if 20 > bufLen then .error (.refused .zero)
  else
    match buf with
    | t1 :: t0 :: l1 :: l0 :: rest =>
      if h : 16 ≤ rest.length then
        let msg := StunMessage.blank ⟨word16 t1 t0, word16 l1 l0, rest.take 16, List.length_take_of_le h⟩
        if msg.msgHdr.msgLength.toNat + 20 ≠ bufLen then .error (.refused msg)
        else parseAttributes (rest.drop 16) msg.msgHdr.msgLength.toNat msg
      else .error .outOfArray
    | _ => .error .outOfArray

end Parsing

section Encoding

def encodeAtrAddress4 (type : UInt16) (atr : StunAtrAddress4) : Bytes :=
  bytes16 type ++ bytes16 8 ++ [atr.pad, IPv4Family] ++ bytes16 atr.ipv4.port ++ bytes32 atr.ipv4.addr

def encodeAtrChangeRequest (value : UInt32) : Bytes := bytes16 ChangeRequest ++ bytes16 4 ++ bytes32 value

def encodeAtrError (atr : StunAtrError) : Bytes :=
  bytes16 ErrorCode ++ bytes16 (UInt16.ofNat (4 + atr.reason.length)) ++ bytes16 atr.pad ++
    [atr.errorClass, atr.number] ++ atr.reason

def encodeAtrUnknown (atr : StunAtrUnknown) : Bytes :=
  bytes16 UnknownAttribute ++ bytes16 (UInt16.ofNat (2 + 2 * atr.attrType.length)) ++ atr.attrType.flatMap bytes16

/-- There is a type only. -/
def encodeXorOnly : Bytes := bytes16 XorOnly

/-- None where the assertion fails. -/
def encodeAtrString (type : UInt16) (atr : StunAtrString) : Option Bytes :=
  if atr.value.length % 4 = 0 then some (bytes16 type ++ bytes16 (UInt16.ofNat atr.value.length) ++ atr.value)
  else none

def encodeAtrIntegrity (hash : Bytes) : Bytes := bytes16 MessageIntegrity ++ bytes16 20 ++ hash

def encodeBindingChange : Bytes := bytes16 BINGIND_CHANGE ++ bytes16 0

/-- What `stunEncodeMessage` writes between the header and the signature. -/
def encodeAttributes (msg : StunMessage) : Option Bytes := do
  let address (type : UInt16) (atr : Option StunAtrAddress4) : Bytes := (atr.map (encodeAtrAddress4 type)).getD []
  let string (type : UInt16) (atr : Option StunAtrString) : Option Bytes := atr.elim (some []) (encodeAtrString type)
  let username ← string Username msg.username
  let password ← string Password msg.password
  let serverName ← string ServerName msg.serverName
  let connectionRequestBinding ← string CONNECTION_REQUEST_BINDING msg.connectionRequestBinding
  return address MappedAddress msg.mappedAddress ++ address ResponseAddress msg.responseAddress ++
    (msg.changeRequest.map encodeAtrChangeRequest).getD [] ++ address SourceAddress msg.sourceAddress ++
    address ChangedAddress msg.changedAddress ++ username ++ password ++
    (msg.errorCode.map encodeAtrError).getD [] ++ (msg.unknownAttributes.map encodeAtrUnknown).getD [] ++
    address ReflectedFrom msg.reflectedFrom ++ address XorMappedAddress msg.xorMappedAddress ++
    (if msg.xorOnly then encodeXorOnly else []) ++ serverName ++ address SecondaryAddress msg.secondaryAddress ++
    connectionRequestBinding ++ (if msg.hasBindingChange then encodeBindingChange else [])

def computeHmac (stack : Sha1.SHA1_CTX) (input key : Bytes) : Option Bytes := Sha1.hmac_sha1 stack key input

/-- None where an assertion fails or the buffer is too small; `stack` is what the frame of the digest holds. -/
def stunEncodeMessage (stack : Sha1.SHA1_CTX) (msg : StunMessage) (bufLen : Nat) (password : StunAtrString) :
    Option Bytes := do
  if bufLen < 20 then none
  else
    let attributes ← encodeAttributes msg
    let sizeHeader := UInt16.ofNat attributes.length + if password.value.length > 0 then 24 else 0
    let buf := bytes16 msg.msgHdr.msgType ++ bytes16 sizeHeader ++ msg.msgHdr.id ++ attributes
    let written ← if password.value.length > 0 then
        (computeHmac stack buf password.value).map (buf ++ encodeAtrIntegrity ·)
      else some buf
    if written.length ≤ bufLen then some written else none

end Encoding

end Tr069Agent.Com.StunLib
