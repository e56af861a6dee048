import Tr069Agent.Com.MappedAddress
import Tr069Agent.Com.StunLibRoundTrip

/-! # Requests of the STUN client, answered by the server of the same library -/

namespace Tr069Agent.Com.StunLib

open Library Library.Words Library.Tlv

set_option autoImplicit false

section Client

inductive RequestType where
  | bindingRequest
  | bindingChange
  | msgIntegrity
  | timeoutDiscovery
  deriving DecidableEq

def ascii (text : String) : Bytes := text.toList.map fun c => UInt8.ofNat c.toNat

/-- `CONNECTION_REQUEST_BINDING_VALUE` -/
def connectionRequestBindingValue : StunAtrString := ⟨ascii "dslforum.org/TR-111 ", by decide⟩

/-- `htonl` where the low byte of a word is stored first. -/
def htonl (x : UInt32) : UInt32 := word32 x.toUInt8 (x >>> 8).toUInt8 (x >>> 16).toUInt8 (x >>> 24).toUInt8

/-- The message and the key of `DM_STUN_sendMessage`. -/
def request (messageType : RequestType) (id : StunMsgHdr) (username password : StunAtrString) (wanIp : UInt32)
    (receptionPortWan : UInt16) : StunMessage × StunAtrString :=
  let request := StunMessage.blank { id with msgType := BindRequestMsg, msgLength := 0 }
  match messageType with
  | .bindingRequest =>
    ({ request with connectionRequestBinding := some connectionRequestBindingValue, username := some username }, .zero)
  | .bindingChange =>
    ({ request with
      connectionRequestBinding := some connectionRequestBindingValue
      hasBindingChange := true
      username := some username }, .zero)
  | .msgIntegrity =>
    ({ request with
      connectionRequestBinding := some connectionRequestBindingValue
      hasBindingChange := true
      username := some username
      messageIntegrity := some .zero }, password)
  | .timeoutDiscovery =>
    let address := { StunAtrAddress4.zero with ipv4 := ⟨receptionPortWan, htonl wanIp⟩ }
    ({ request with responseAddress := some address }, .zero)

/-- What `DM_STUN_sendMessage` sends. -/
def sendMessage (stack : Sha1.SHA1_CTX) (messageType : RequestType) (id : StunMsgHdr)
    (username password : StunAtrString)
    (wanIp : UInt32) (receptionPortWan : UInt16) : Option Bytes :=
  let (request, hmacKey) := request messageType id username password wanIp receptionPortWan
  stunEncodeMessage stack request STUN_MAX_MESSAGE_SIZE hmacKey

end Client

section Server

def hexmap (n : Nat) : UInt8 := if n < 10 then UInt8.ofNat (48 + n) else UInt8.ofNat (87 + n)

def toHex (buffer : Bytes) : Bytes := buffer.flatMap fun temp => [hexmap (temp.toNat / 16), hexmap (temp.toNat % 16)]

theorem length_toHex (buffer : Bytes) : (toHex buffer).length = 2 * buffer.length := by
  rw [toHex, List.length_flatMap]
  simp [Nat.mul_comm]

/-- A name and the digits of its signature: none where an assertion fails. -/
def signedName (stack : Sha1.SHA1_CTX) (buffer : Bytes) : Option StunAtrString :=
  if buffer.length + 41 < STUN_MAX_STRING then
    (computeHmac stack buffer (ascii "Jason")).bind fun hmac =>
      let buffer := buffer ++ toHex hmac
      if h : buffer.length + 1 < STUN_MAX_STRING ∧ buffer.length % 4 = 0 then some ⟨buffer, Nat.lt_of_succ_lt h.1⟩
      else none
  else none

def stunCreateUserName (stack : Sha1.SHA1_CTX) (source : StunAddress4) (time : Nat) (rand : UInt32) :
    Option StunAtrString :=
  let time := (time + 2 ^ 64 - time % 20 * 60) % 2 ^ 64
  let lotime := UInt32.ofNat time
  signedName stack
    (toHex (bytes32 source.addr) ++ [58] ++ toHex (bytes32 rand) ++ [58] ++ toHex (bytes32 lotime) ++ [58])

def stunCreatePassword (stack : Sha1.SHA1_CTX) (username : StunAtrString) : Option StunAtrString :=
  (computeHmac stack (username.value.takeWhile (· ≠ 0)) (ascii "1234")).bind fun hmac =>
    if h : (toHex hmac).length < STUN_MAX_STRING then some ⟨toHex hmac, h⟩ else none

def stunCreateErrorResponse (response : StunMessage) (cl number : UInt8) (msg : StunAtrString) : StunMessage :=
  { response with
    msgHdr := { response.msgHdr with msgType := BindErrorResponseMsg }
    errorCode := some ⟨0, cl, number, msg.value, msg.fits⟩ }

/-- The variables of `stunServerProcessMsg` that stay. -/
structure Statics where
  g_timeLastBinding : Int
  g_fromPort : UInt16
  deriving DecidableEq

structure Processed where
  ok : Bool
  resp : StunMessage
  /-- the sender, whose port is counted on where the end of a session is simulated -/
  source : StunAddress4
  destination : StunAddress4
  hmacPassword : StunAtrString
  statics : Statics

/-- The session of the sender: a new port starts one, and one that is too old moves the port. -/
def timeSession (source : StunAddress4) (now natTimeSession : Int) (statics : Statics) : StunAddress4 × Statics :=
  if statics.g_fromPort ≠ source.port then (source, ⟨now, source.port⟩)
  else if now - statics.g_timeLastBinding ≥ natTimeSession then ({ source with port := source.port + 1 }, statics)
  else (source, { statics with g_timeLastBinding := now })

/-- The end of `stunServerProcessMsg`: the addresses the response announces, and its header. -/
def fillResponse (req : StunMessage) (source myAddr : StunAddress4) (resp : StunMessage) : StunMessage :=
  { resp with
    mappedAddress := resp.mappedAddress.map ({ · with ipv4 := source })
    sourceAddress := resp.sourceAddress.map ({ · with ipv4 := myAddr })
    changedAddress := resp.changedAddress.map ({ · with ipv4 := myAddr })
    msgHdr := { req.msgHdr with msgType := BindResponseMsg, msgLength := resp.msgHdr.msgLength } }

/-- The response to a request, before its addresses are filled in. -/
def announced : StunMessage :=
  { StunMessage.zero with
    mappedAddress := some .zero
    sourceAddress := some .zero
    changedAddress := some .zero }

section Processing

variable (stack : Sha1.SHA1_CTX) (time : Nat) (rand : UInt32) (now natTimeSession : Int)

/-- None outside of an array and where an assertion fails. -/
def stunServerProcessMsg (buf : Bytes) (bufLen : Nat) (source myAddr destination : StunAddress4) (statics : Statics) :
    Option Processed :=
  let start : Processed := ⟨false, .zero, source, destination, .zero, statics⟩
  match stunParseMessage buf bufLen with
  | .error .outOfArray => none
  | .error (.refused _) => some start
  | .ok req =>
    if req.msgHdr.msgType = SharedSecretRequestMsg then
      (stunCreateUserName stack source time rand).bind fun username =>
        (stunCreatePassword stack username).map fun password =>
          let resp := { StunMessage.zero with username := some username, password := some password }
          { start with ok := true, resp := fillResponse req source myAddr resp }
    else if req.msgHdr.msgType = BindRequestMsg then
      if req.connectionRequestBinding.isNone then
        let (source, statics) := timeSession source now natTimeSession statics
        let resp := { announced with reflectedFrom := some { StunAtrAddress4.zero with ipv4 := source } }
        some ⟨true, fillResponse req source myAddr resp, source, (req.responseAddress.getD .zero).ipv4, .zero, statics⟩
      else
        let start := { start with ok := true, destination := source }
        if req.hasBindingChange && req.username.isSome && req.messageIntegrity.isNone then
          -- the transaction is not copied
          some { start with resp := stunCreateErrorResponse .zero 4 1 ⟨ascii "Unauthorized", by decide⟩ }
        else if req.hasBindingChange && req.username.isSome && req.messageIntegrity.isSome then
          some { start with
            resp := fillResponse req source myAddr { announced with messageIntegrity := some .zero }
            hmacPassword := ⟨ascii "1234", by decide⟩ }
        else if req.username.isSome then some { start with resp := fillResponse req source myAddr announced }
        else some { start with resp := fillResponse req source myAddr .zero }
    else some { start with resp := fillResponse req source myAddr .zero }

/-- The end of `stunServerProcess`: none where nothing is sent. -/
def stunServerReply (processed : Processed) : Option (Bytes × StunAddress4) :=
  if processed.ok then
    (stunEncodeMessage stack processed.resp STUN_MAX_MESSAGE_SIZE processed.hmacPassword).bind fun buf =>
      if processed.destination.addr ≠ 0 ∧ processed.destination.port ≠ 0 then some (buf, processed.destination)
      else none
  else none

theorem signedName_eq_none (hBuffer : stack.buffer.length = 64) {name : Bytes} (hLength : name.length = 27) :
    signedName stack name = none := by
  have hKey : Sha1.Countable (ascii "Jason") := by decide
  have hHmac : computeHmac stack name (ascii "Jason") = some (Sha1.standardHmac (ascii "Jason") name) :=
    Sha1.hmac_sha1_eq hBuffer hKey (show name.length + 63 < 2 ^ 32 by omega)
  have hDigits : (toHex (Sha1.standardHmac (ascii "Jason") name)).length = 40 := by
    rw [length_toHex, Sha1.standardHmac, Sha1.length_standardDigest]
  rw [signedName, if_pos (by rw [hLength]; decide), hHmac, Option.bind_some, dif_neg]
  rw [List.length_append, hLength, hDigits]
  decide

/-- The name has sixty-seven characters, and the assertion asks for a multiple of four. -/
theorem stunCreateUserName_eq_none (hBuffer : stack.buffer.length = 64) (source : StunAddress4) :
    stunCreateUserName stack source time rand = none := by
  have hWord (x : UInt32) : (toHex (bytes32 x)).length = 8 := by rw [length_toHex, length_bytes32]
  exact signedName_eq_none stack hBuffer (by simp [hWord])

/-- A request for a shared secret ends the server. -/
theorem process_sharedSecret (hBuffer : stack.buffer.length = 64) {buf : Bytes} {bufLen : Nat} {req : StunMessage}
    (hParse : stunParseMessage buf bufLen = .ok req) (hType : req.msgHdr.msgType = SharedSecretRequestMsg)
    (source myAddr destination : StunAddress4) (statics : Statics) :
    stunServerProcessMsg stack time rand now natTimeSession buf bufLen source myAddr destination statics = none := by
  rw [stunServerProcessMsg, hParse]
  dsimp only
  rw [if_pos hType, stunCreateUserName_eq_none stack time rand hBuffer, Option.bind_none]

end Processing

end Server

section Wire

/-- The characters of a datagram. -/
def textOf (bytes : Bytes) : Text := bytes.map fun byte => Char.ofNat byte.toNat

def bytesOf (text : Text) : Bytes := text.map fun c => UInt8.ofNat c.toNat

theorem toNat_char (byte : UInt8) : (Char.ofNat byte.toNat).toNat = byte.toNat := by
  have hByte := byte.toNat_lt
  have hValid : byte.toNat.isValidChar := .inl (by omega)
  rw [Char.ofNat, dif_pos hValid]
  rfl

theorem bytesOf_textOf (bytes : Bytes) : bytesOf (textOf bytes) = bytes := by
  rw [bytesOf, textOf, List.map_map]
  refine (List.map_congr_left fun byte _ => ?_).trans (List.map_id bytes)
  rw [Function.comp, toNat_char, UInt8.ofNat_toNat, id]

/-- The buffer of `DM_STUN_readMessage`, filled with zeros before a datagram is read. -/
def wireBuffer (datagram : Text) : Bytes :=
  bytesOf datagram ++ List.replicate (STUN_MAX_MESSAGE_SIZE - datagram.length) 0

def flagsOf (msg : StunMessage) : Stun.StunMessage where
  hasMappedAddress := msg.mappedAddress.isSome
  hasSourceAddress := msg.sourceAddress.isSome
  hasChangedAddress := msg.changedAddress.isSome
  hasReflectedFrom := msg.reflectedFrom.isSome
  hasMessageIntegrity := msg.messageIntegrity.isSome
  hasErrorCode := msg.errorCode.isSome

def addressOf (address : StunAddress4) : Stun.MappedAddress where
  addr := ⟨(address.addr >>> 24).toUInt8, (address.addr >>> 16).toUInt8, (address.addr >>> 8).toUInt8,
    address.addr.toUInt8⟩
  port := address.port

def parseText (datagram : Text) : Option StunMessage :=
  match stunParseMessage (wireBuffer datagram) datagram.length with
  | .ok msg => some msg
  | .error _ => none

/-- The attributes that `DM_STUN_readMessage` looks at. -/
def wireFlags (datagram : Text) : Option Stun.StunMessage := (parseText datagram).map flagsOf

/-- The mapped address that `DM_STUN_readMessage` takes. -/
def wireMapped (datagram : Text) : Stun.MappedAddress :=
  addressOf (((parseText datagram).bind fun msg => msg.mappedAddress).getD .zero).ipv4

variable {datagram : Bytes} {msg : StunMessage}

theorem parseText_of_parse (h : ∀ after, stunParseMessage (datagram ++ after) datagram.length = .ok msg) :
    parseText (textOf datagram) = some msg := by
  have hLength : (textOf datagram).length = datagram.length := List.length_map _
  rw [parseText, wireBuffer, bytesOf_textOf, hLength, h]

theorem stunParseMessage_wire (h : ∀ after, stunParseMessage (datagram ++ after) datagram.length = .ok msg) :
    Stun.stunParseMessage wireFlags (textOf datagram) = some (flagsOf msg) := by
  have hFlags : wireFlags (textOf datagram) = some (flagsOf msg) := by
    rw [wireFlags, parseText_of_parse h, Option.map_some]
  have hAll : datagram.take datagram.length = datagram := List.take_length
  obtain ⟨hdr, body, hFramed⟩ : ∃ hdr body, Framed (datagram.take datagram.length) hdr body := by
    by_contra hNone
    simp only [not_exists] at hNone
    obtain ⟨left, hLeft⟩ := stunParseMessage_unframed le_rfl hNone
    have hParse := h []
    rw [List.append_nil, hLeft] at hParse
    cases hParse
  have hBytes := hFramed.bytes
  rw [hAll] at hBytes
  have hLength : (textOf datagram).length = 20 + body.length := by
    rw [textOf, List.length_map, hBytes, List.length_append, hdr.length_bytes]
  have hWord := toNat_word16 (hdr.msgLength >>> 8).toUInt8 hdr.msgLength.toUInt8
  rw [word16_bytes, hFramed.length] at hWord
  have hFirst : textOf datagram =
      Char.ofNat (hdr.msgType >>> 8).toUInt8.toNat :: Char.ofNat hdr.msgType.toUInt8.toNat ::
      Char.ofNat (hdr.msgLength >>> 8).toUInt8.toNat :: Char.ofNat hdr.msgLength.toUInt8.toNat ::
      textOf (hdr.id ++ body) := by
    rw [hBytes]
    simp [textOf, StunMsgHdr.bytes, bytes16]
  unfold Stun.stunParseMessage
  split
  · rename_i high low rest hText
    rw [hFirst] at hText
    simp only [List.cons.injEq] at hText
    obtain ⟨-, -, rfl, rfl, -⟩ := hText
    rw [if_neg, hFlags]
    rw [hLength, toNat_char, toNat_char]
    omega
  · rename_i hShort
    exact absurd hFirst (hShort _ _ _ _ _)

end Wire

section Exchange

/-- The transaction of a message and the kind of answer it is read as, with the address taken. -/
structure ReadAs (reply : Bytes) (id : Bytes) (type : Stun.MessageType)
    (mapped : Option Stun.MappedAddress) : Prop where
  id : ∃ msg, stunParseMessage reply reply.length = .ok msg ∧ msg.msgHdr.id = id
  read : ∀ hmacSha1 asserts config buffers,
    Stun.readMapped hmacSha1 wireFlags wireMapped asserts config (some (textOf reply)) buffers =
      some (type, buffers, mapped)

variable {stack : Sha1.SHA1_CTX} {msg : StunMessage} {password : StunAtrString}

/-- A message that is sent is read by its attributes. -/
theorem readAs_of_written (hBuffer : stack.buffer.length = 64)
    (hAligned : ∀ atr ∈ msg.strings, atr.value.length % 4 = 0) (hUnknown : msg.unknownAttributes = none)
    (hOnly : msg.xorOnly = false) {reply : Bytes}
    (h : stunEncodeMessage stack msg STUN_MAX_MESSAGE_SIZE password = some reply) {type : Stun.MessageType}
    (hType : Stun.answerType { flagsOf msg with hasMessageIntegrity := !password.value.isEmpty } = some type) :
    ReadAs reply msg.msgHdr.id type (msg.mappedAddress.map fun atr => addressOf atr.ipv4) := by
  have hParse := parse_written hBuffer hAligned hUnknown hOnly h
  obtain ⟨hLong, hShort⟩ := length_written hBuffer h
  have hWhole := hParse []
  rw [List.append_nil] at hWhole
  refine ⟨⟨_, hWhole, rfl⟩, fun hmacSha1 asserts config buffers => ?_⟩
  have hLength : (textOf reply).length = reply.length := List.length_map _
  have hMax : Stun.stunMaxMessageSize = 2048 := rfl
  have hRoom : ¬(textOf reply = [] ∨ (textOf reply).length + 1 ≥ Stun.stunMaxMessageSize) := by
    rintro (hEmpty | hFull)
    · rw [hEmpty, List.length_nil] at hLength
      omega
    · omega
  have hFlags : flagsOf (msg.received (msg.msgHdr.sent (reply.length - 20))
      (signature password (reply.take (reply.length - signatureSize password)))) =
        { flagsOf msg with hasMessageIntegrity := !password.value.isEmpty } := by
    simp only [flagsOf, StunMessage.received, Option.isSome_map, isSome_signature]
  have hMapped : wireMapped (textOf reply) =
      addressOf ((msg.mappedAddress.map StunAtrAddress4.received).getD .zero).ipv4 := by
    rw [wireMapped, parseText_of_parse hParse]
    rfl
  simp only [Stun.readMapped, if_neg hRoom, stunParseMessage_wire hParse, hFlags, hType, Option.some_or,
    Option.map_some, hMapped]
  cases hAddress : msg.mappedAddress with
  | none => simp [flagsOf, hAddress]
  | some atr => simp [flagsOf, hAddress, StunAtrAddress4.received]

theorem answered_of_processed (hBuffer : stack.buffer.length = 64) {processed : Processed} (hOk : processed.ok = true)
    (hAligned : ∀ atr ∈ processed.resp.strings, atr.value.length % 4 = 0)
    (hUnknown : processed.resp.unknownAttributes = none) (hOnly : processed.resp.xorOnly = false)
    (hAddr : processed.destination.addr ≠ 0) (hPort : processed.destination.port ≠ 0) {type : Stun.MessageType}
    (hType : Stun.answerType { flagsOf processed.resp with
      hasMessageIntegrity := !processed.hmacPassword.value.isEmpty } = some type) :
    ∃ reply, stunServerReply stack processed = some (reply, processed.destination) ∧
      ReadAs reply processed.resp.msgHdr.id type (processed.resp.mappedAddress.map fun atr => addressOf atr.ipv4) := by
  obtain ⟨reply, hReply⟩ := @exists_written stack processed.resp processed.hmacPassword hBuffer hAligned
  refine ⟨reply, ?_, readAs_of_written hBuffer hAligned hUnknown hOnly hReply hType⟩
  rw [stunServerReply, if_pos hOk, hReply, Option.bind_some, if_pos ⟨hAddr, hPort⟩]

/-- The answer to a request: an error where a change is announced without a signature. -/
def answerTo (messageType : RequestType) (password : StunAtrString) : Stun.MessageType :=
  match messageType with
  | .bindingRequest => .bindingResponse
  | .bindingChange => .bindingErrorResponse
  | .msgIntegrity => if password.value.isEmpty then .bindingErrorResponse else .msgIntegrityResponse
  | .timeoutDiscovery => .timeoutResponse

/-- The requests the server takes for one of a timeout discovery ask for their answer elsewhere. -/
def answerGoesTo (messageType : RequestType) (source : StunAddress4) (wanIp : UInt32) (receptionPortWan : UInt16) :
    StunAddress4 :=
  match messageType with
  | .timeoutDiscovery => ⟨receptionPortWan, htonl wanIp⟩
  | _ => source

theorem aligned_request (messageType : RequestType) (id : StunMsgHdr) {username : StunAtrString}
    (hUsername : username.value.length % 4 = 0) (password : StunAtrString) (wanIp : UInt32)
    (receptionPortWan : UInt16) :
    ∀ atr ∈ (request messageType id username password wanIp receptionPortWan).1.strings, atr.value.length % 4 = 0 := by
  have hText : ∀ atr ∈ [username, connectionRequestBindingValue], atr.value.length % 4 = 0 :=
    List.forall_mem_cons.mpr ⟨hUsername, by decide⟩
  cases messageType with
  | timeoutDiscovery => exact nofun
  | _ => exact hText

/-- The server reads the request that was sent. -/
theorem exists_sent (hBuffer : stack.buffer.length = 64) (messageType : RequestType) (id : StunMsgHdr)
    {username : StunAtrString} (hUsername : username.value.length % 4 = 0) (password : StunAtrString) (wanIp : UInt32)
    (receptionPortWan : UInt16) (after : Bytes) :
    ∃ sent hdr signed, sendMessage stack messageType id username password wanIp receptionPortWan = some sent ∧
      hdr.id = id.id ∧ hdr.msgType = BindRequestMsg ∧
      stunParseMessage (sent ++ after) sent.length =
        .ok ((request messageType id username password wanIp receptionPortWan).1.received hdr
          (signature (request messageType id username password wanIp receptionPortWan).2 signed)) := by
  have hAligned := aligned_request messageType id hUsername password wanIp receptionPortWan
  obtain ⟨sent, hSent⟩ := @exists_written stack _
    (request messageType id username password wanIp receptionPortWan).2 hBuffer hAligned
  have hKept : (request messageType id username password wanIp receptionPortWan).1.unknownAttributes = none ∧
      (request messageType id username password wanIp receptionPortWan).1.xorOnly = false ∧
      (request messageType id username password wanIp receptionPortWan).1.msgHdr.id = id.id ∧
      (request messageType id username password wanIp receptionPortWan).1.msgHdr.msgType = BindRequestMsg := by
    cases messageType <;> exact ⟨rfl, rfl, rfl, rfl⟩
  obtain ⟨hUnknown, hOnly, hId, hType⟩ := hKept
  exact ⟨sent, (request messageType id username password wanIp receptionPortWan).1.msgHdr.sent (sent.length - 20), _,
    hSent, hId, hType, parse_written hBuffer hAligned hUnknown hOnly hSent after⟩

variable (time : Nat) (rand : UInt32) (now natTimeSession : Int) (statics : Statics)

/-- The sender as the server sees it. -/
def seenAs (messageType : RequestType) (source : StunAddress4) : StunAddress4 × Statics :=
  match messageType with
  | .timeoutDiscovery => timeSession source now natTimeSession statics
  | _ => (source, statics)

/-- Each request of the client is sent, answered at its place and read by the client as the answer to that kind of
request, with the address the server saw; an error does not repeat the transaction. -/
theorem exchange_answered (hBuffer : stack.buffer.length = 64) (messageType : RequestType) (id : StunMsgHdr)
    {username password : StunAtrString} (hUsername : username.value.length % 4 = 0) (wanIp : UInt32)
    (receptionPortWan : UInt16) (source myAddr destination : StunAddress4)
    (hAddr : (answerGoesTo messageType source wanIp receptionPortWan).addr ≠ 0)
    (hPort : (answerGoesTo messageType source wanIp receptionPortWan).port ≠ 0) (after : Bytes) :
    ∃ sent processed reply,
      sendMessage stack messageType id username password wanIp receptionPortWan = some sent ∧
        stunServerProcessMsg stack time rand now natTimeSession (sent ++ after) sent.length source myAddr destination
          statics = some processed ∧
        stunServerReply stack processed = some (reply, answerGoesTo messageType source wanIp receptionPortWan) ∧
        processed.statics = (seenAs now natTimeSession statics messageType source).2 ∧
        ReadAs reply (if answerTo messageType password = .bindingErrorResponse then List.replicate 16 0 else id.id)
          (answerTo messageType password)
          (if answerTo messageType password = .bindingErrorResponse then none
            else some (addressOf (seenAs now natTimeSession statics messageType source).1)) := by
  obtain ⟨sent, hdr, signed, hSent, hId, hType, hParse⟩ :=
    exists_sent hBuffer messageType id hUsername password wanIp receptionPortWan after
  suffices h : ∃ processed, stunServerProcessMsg stack time rand now natTimeSession (sent ++ after) sent.length source
      myAddr destination statics = some processed ∧ processed.ok = true ∧ processed.resp.strings = [] ∧
      processed.resp.unknownAttributes = none ∧ processed.resp.xorOnly = false ∧
      processed.destination = answerGoesTo messageType source wanIp receptionPortWan ∧
      processed.statics = (seenAs now natTimeSession statics messageType source).2 ∧
      Stun.answerType { flagsOf processed.resp with
        hasMessageIntegrity := !processed.hmacPassword.value.isEmpty } = some (answerTo messageType password) ∧
      processed.resp.msgHdr.id =
        (if answerTo messageType password = .bindingErrorResponse then List.replicate 16 0 else id.id) ∧
      (processed.resp.mappedAddress.map fun atr => addressOf atr.ipv4) =
        (if answerTo messageType password = .bindingErrorResponse then none
          else some (addressOf (seenAs now natTimeSession statics messageType source).1)) by
    obtain ⟨processed, hProcess, hOk, hStrings, hUnknown, hOnly, hGoes, hStatics, hAnswer, hReplyId, hMapped⟩ := h
    obtain ⟨reply, hReply, hRead⟩ := answered_of_processed hBuffer hOk (by rw [hStrings]; exact nofun) hUnknown hOnly
      (by rwa [hGoes]) (by rwa [hGoes]) hAnswer
    rw [hReplyId, hMapped] at hRead
    exact ⟨sent, processed, reply, hSent, hProcess, hGoes ▸ hReply, hStatics, hRead⟩
  generalize hReq : (request messageType id username password wanIp receptionPortWan).1.received hdr
    (signature (request messageType id username password wanIp receptionPortWan).2 signed) = req at hParse
  have hReqHdr : req.msgHdr = hdr := by rw [← hReq]; rfl
  have hNotSecret : ¬req.msgHdr.msgType = SharedSecretRequestMsg := by
    rw [hReqHdr, hType]
    decide
  have hBind : req.msgHdr.msgType = BindRequestMsg := by rw [hReqHdr, hType]
  have hReqId (seen : StunAddress4) (resp : StunMessage) : (fillResponse req seen myAddr resp).msgHdr.id = id.id := by
    rw [← hId, ← hReqHdr]
    rfl
  rw [stunServerProcessMsg, hParse]
  dsimp only
  rw [if_neg hNotSecret, if_pos hBind]
  cases messageType with
  | bindingRequest =>
    refine ⟨⟨true, fillResponse req source myAddr announced, source, source, .zero, statics⟩, ?_, rfl, rfl, rfl, rfl,
      rfl, rfl, rfl, hReqId _ _, rfl⟩
    rw [← hReq]
    rfl
  | bindingChange =>
    refine ⟨⟨true, stunCreateErrorResponse .zero 4 1 ⟨ascii "Unauthorized", by decide⟩, source, source, .zero, statics⟩,
      ?_, rfl, rfl, rfl, rfl, rfl, rfl, rfl, rfl, rfl⟩
    rw [← hReq]
    rfl
  | msgIntegrity =>
    have hMac : (signature password signed).isSome = !password.value.isEmpty := isSome_signature password signed
    cases hEmpty : password.value.isEmpty with
    | true =>
      have hNone : signature password signed = none := by
        rwa [hEmpty, Bool.not_true, Option.isSome_eq_false_iff, Option.isNone_iff_eq_none] at hMac
      have hAnswer : answerTo .msgIntegrity password = .bindingErrorResponse := if_pos hEmpty
      rw [hAnswer]
      refine ⟨⟨true, stunCreateErrorResponse .zero 4 1 ⟨ascii "Unauthorized", by decide⟩, source, source, .zero,
        statics⟩, ?_, rfl, rfl, rfl, rfl, rfl, rfl, rfl, rfl, rfl⟩
      rw [← hReq, request, hNone]
      rfl
    | false =>
      obtain ⟨mac, hSome⟩ : ∃ mac, signature password signed = some mac := by
        rwa [hEmpty, Bool.not_false, Option.isSome_iff_exists] at hMac
      have hAnswer : answerTo .msgIntegrity password = .msgIntegrityResponse := if_neg (by rw [hEmpty]; decide)
      rw [hAnswer]
      refine ⟨⟨true, fillResponse req source myAddr { announced with messageIntegrity := some .zero }, source, source,
        ⟨ascii "1234", by decide⟩, statics⟩, ?_, rfl, rfl, rfl, rfl, rfl, rfl, rfl, hReqId _ _, rfl⟩
      rw [← hReq, request, hSome]
      rfl
  | timeoutDiscovery =>
    generalize hSession : timeSession source now natTimeSession statics = session
    refine ⟨⟨true, fillResponse req session.1 myAddr
      { announced with reflectedFrom := some { StunAtrAddress4.zero with ipv4 := session.1 } }, session.1,
      ⟨receptionPortWan, htonl wanIp⟩, .zero, session.2⟩, ?_, rfl, rfl, rfl, rfl, rfl, ?_, rfl, hReqId _ _, ?_⟩
    · rw [← hReq]
      rfl
    · rw [seenAs, hSession]
    · rw [seenAs, hSession]
      rfl

/-- A request with a signature, over the wire and back. -/
theorem exchange_answered_sample :
    ∃ sent processed reply,
      sendMessage ⟨Sha1.initialState, 0, 0, List.replicate 64 0xaa⟩ .msgIntegrity sampleMessage.msgHdr samplePassword
          samplePassword 0 0 = some sent ∧
        stunServerProcessMsg ⟨Sha1.initialState, 0, 0, List.replicate 64 0xaa⟩ 0 0 0 60 (sent ++ []) sent.length
          ⟨5000, 0xC0A8010A⟩ ⟨3478, 0xC0A80101⟩ ⟨0, 0⟩ ⟨0, 0⟩ = some processed ∧
        stunServerReply ⟨Sha1.initialState, 0, 0, List.replicate 64 0xaa⟩ processed = some (reply, ⟨5000, 0xC0A8010A⟩) ∧
        processed.statics = ⟨0, 0⟩ ∧
        ReadAs reply (List.replicate 16 7) .msgIntegrityResponse (some ⟨⟨192, 168, 1, 10⟩, 5000⟩) :=
  exchange_answered 0 0 0 60 ⟨0, 0⟩ List.length_replicate .msgIntegrity sampleMessage.msgHdr (by decide) 0 0
    ⟨5000, 0xC0A8010A⟩ ⟨3478, 0xC0A80101⟩ ⟨0, 0⟩ (by decide) (by decide) []

end Exchange

end Tr069Agent.Com.StunLib
