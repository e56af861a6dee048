import Tr069Agent.Com.Stun

/-! # The signature of a UDP connection request

What the agent checks of a request before it takes it for one of the ACS, and what a full signature needs
besides.
-/

namespace Tr069Agent.Com.Stun

open Library Library.Decimal

set_option autoImplicit false

section Buffers

variable {buffers after : UdpBuffers}

theorem put_put (param : UdpParameter) (value value' : Text) :
    (buffers.put param value).put param value' = buffers.put param value' := by
  cases param <;> rfl

theorem put_comm {param other : UdpParameter} (h : param ≠ other) (value value' : Text) :
    (buffers.put param value).put other value' = (buffers.put other value').put param value := by
  cases param <;> cases other <;> first | rfl | exact absurd rfl h

/-- The last match of a parameter. -/
def lastMatch (found : List (UdpParameter × Text)) (param : UdpParameter) : Option (UdpParameter × Text) :=
  found.reverse.find? fun f => f.1 = param

theorem put_of_lastMatch {found : List (UdpParameter × Text)} {param : UdpParameter} {f : UdpParameter × Text}
    (hStore : found.foldlM UdpBuffers.store buffers = some after) (hLast : lastMatch found param = some f) :
    ∃ value, copied f = some value ∧ after.put param value = after := by
  induction found using List.reverseRecOn generalizing after with
  | nil => cases hLast
  | append_singleton found g ih =>
    rw [List.foldlM_append] at hStore
    obtain ⟨mid, hMid, hG⟩ := Option.bind_eq_some_iff.mp hStore
    have hStep : mid.store g = some after := by simpa using hG
    obtain ⟨valueG, hCopied, rfl⟩ := Option.map_eq_some_iff.mp hStep
    rw [lastMatch, List.reverse_concat, List.find?_cons] at hLast
    by_cases hSame : g.1 = param
    · obtain rfl : g = f := by simpa [hSame] using hLast
      exact ⟨valueG, hCopied, by rw [hSame, put_put]⟩
    · obtain ⟨value, hValue, hHeld⟩ := ih hMid (by simpa [lastMatch, hSame] using hLast)
      exact ⟨value, hValue, by rw [put_comm hSame, hHeld]⟩

end Buffers

section Requests

/-- The value of a parameter in the text from its value on. A full signature has two digits for each byte. -/
def valueOf : UdpParameter × Text → Text
  | (.ts, message) | (.id, message) => message.takeWhile (· ≠ '&')
  | (.un, message) | (.cn, message) => cString (message.takeWhile (· ≠ '&'))
  | (.sig, message) => message.take (2 * hmacSize)

def UdpParameter.value (datagram : Text) (param : UdpParameter) : Option Text :=
  (lastMatch (parametersOf datagram) param).map valueOf

structure UdpRequest where
  ts : Text
  id : Text
  un : Text
  cn : Text
  sig : Text
  deriving DecidableEq

/-- The request that a datagram carries, where it has all the parameters. -/
def requestOf (datagram : Text) : Option UdpRequest := do
  let ts ← UdpParameter.ts.value datagram
  let id ← UdpParameter.id.value datagram
  let un ← UdpParameter.un.value datagram
  let cn ← UdpParameter.cn.value datagram
  let sig ← UdpParameter.sig.value datagram
  return { ts, id, un, cn, sig }

def UdpRequest.text (request : UdpRequest) : Text := request.ts ++ request.id ++ request.un ++ request.cn

/-- The buffers into which a request is read. -/
def UdpRequest.buffers (request : UdpRequest) : UdpBuffers where
  timeStamp := strtoull request.ts
  messageId := strtoull request.id
  username := request.un
  cnonce := request.cn
  signature := request.sig.take hmacSize

theorem valueOf_of_copied {f : UdpParameter × Text} {value : Text} (h : copied f = some value) :
    value = if f.1 = .sig then (valueOf f).take hmacSize else valueOf f := by
  have hText : ∀ {message text : Text}, valueText message = some text → text = message.takeWhile (· ≠ '&') := by
    intro message text hText
    rw [valueText] at hText
    split at hText
    · exact (Option.some.inj hText).symm
    · cases hText
  obtain ⟨param, message⟩ := f
  cases param with
  | ts | id =>
    obtain ⟨hSome, -⟩ := Option.filter_eq_some_iff.mp h
    exact hText hSome
  | un | cn =>
    obtain ⟨text, hSome, rfl⟩ := Option.map_eq_some_iff.mp h
    rw [hText hSome]
    rfl
  | sig =>
    simp only [copied] at h
    split at h
    · cases h
    · obtain rfl := Option.some.inj h
      simp [valueOf, List.take_take, hmacSize]

/-- A datagram with all the parameters leaves nothing of the former contents. -/
theorem extract_of_request {datagram : Text} {buffers after : UdpBuffers} {request : UdpRequest}
    (hRequest : requestOf datagram = some request) (hExtract : extractUdpParameters datagram buffers = some after) :
    after = request.buffers := by
  have hHeld : ∀ {param : UdpParameter} {text : Text}, param.value datagram = some text →
      after.put param (if param = .sig then text.take hmacSize else text) = after := by
    intro param text hText
    obtain ⟨f, hLast, rfl⟩ := Option.map_eq_some_iff.mp hText
    obtain ⟨value, hCopied, hHeld⟩ := put_of_lastMatch hExtract hLast
    have hParam : f.1 = param := by simpa using List.find?_some hLast
    rw [valueOf_of_copied hCopied, hParam] at hHeld
    exact hHeld
  obtain ⟨ts, hTs, hRest⟩ := Option.bind_eq_some_iff.mp hRequest
  obtain ⟨id, hId, hRest⟩ := Option.bind_eq_some_iff.mp hRest
  obtain ⟨un, hUn, hRest⟩ := Option.bind_eq_some_iff.mp hRest
  obtain ⟨cn, hCn, hRest⟩ := Option.bind_eq_some_iff.mp hRest
  obtain ⟨sig, hSig, hRest⟩ := Option.bind_eq_some_iff.mp hRest
  obtain rfl := Option.some.inj hRest
  have hTimeStamp := congrArg UdpBuffers.timeStamp (hHeld hTs)
  have hMessageId := congrArg UdpBuffers.messageId (hHeld hId)
  have hUsername := congrArg UdpBuffers.username (hHeld hUn)
  have hCnonce := congrArg UdpBuffers.cnonce (hHeld hCn)
  have hSignature := congrArg UdpBuffers.signature (hHeld hSig)
  cases after
  simp_all [UdpBuffers.put, UdpRequest.buffers]

end Requests

section Acceptance

theorem SameDigits.symm {left right : Text} (h : SameDigits left right) : SameDigits right left := Eq.symm h

theorem SameDigits.trans {left mid right : Text} (h : SameDigits left mid) (h' : SameDigits mid right) :
    SameDigits left right := Eq.trans h h'

theorem sameDigits_iff_take {left right : Text} (n : Nat) :
    SameDigits left right ↔ SameDigits (left.take n) (right.take n) ∧ SameDigits (left.drop n) (right.drop n) := by
  constructor
  · intro h
    exact ⟨by simp only [SameDigits, List.map_take, show left.map _ = _ from h],
      by simp only [SameDigits, List.map_drop, show left.map _ = _ from h]⟩
  · rintro ⟨hTake, hDrop⟩
    rw [SameDigits, ← List.take_append_drop n left, ← List.take_append_drop n right, List.map_append,
      List.map_append, show (left.take n).map _ = _ from hTake, show (left.drop n).map _ = _ from hDrop]

variable (hmacSha1 : Text → Text → Digest) (parseAttributes : Text → Option StunMessage) (config : Configuration)

/-- The digits of the HMAC of a text under the configured password. -/
def hmacDigits (text : Text) : Text := hextoAscii (hmacSha1 config.connectionRequestPassword text).bytes

/-- The datagram carries all the parameters, the configured user name and the whole HMAC of their
concatenation. -/
def FullySigned (datagram : Text) : Prop :=
  ∃ request, requestOf datagram = some request ∧ request.un = config.connectionRequestUsername ∧
    SameDigits request.sig (hmacDigits hmacSha1 config request.text)

/-- What the code checks of a datagram that it reads as a request. -/
structure Accepted (datagram : Text) (buffers after : UdpBuffers) : Prop where
  nonempty : datagram ≠ []
  fits : datagram.length + 1 < stunMaxMessageSize
  unanswered : stunParseMessage parseAttributes datagram = none
  form : isRequest datagram = true
  extracted : extractUdpParameters datagram buffers = some after
  username : config.connectionRequestUsername = after.username
  identical : isHmacIdentical hmacSha1 after.signature after.signed config.connectionRequestPassword = true

/-- What the code leaves unchecked: that no parameter is missing, that the text it signs (where the numbers are
printed anew, and which is cut) has an HMAC with the same first half as the concatenation, and the second half
of the digits. -/
def LeftUnchecked (datagram : Text) : Prop :=
  ∃ request, requestOf datagram = some request ∧
    SameDigits ((hmacDigits hmacSha1 config request.buffers.signed).take hmacSize)
      ((hmacDigits hmacSha1 config request.text).take hmacSize) ∧
    SameDigits (request.sig.drop hmacSize) ((hmacDigits hmacSha1 config request.text).drop hmacSize)

variable {hmacSha1 parseAttributes config}

theorem readMessage_udpRequest_iff {datagram : Text} {buffers after : UdpBuffers} :
    readMessage hmacSha1 parseAttributes config (some datagram) buffers = some (.udpRequest, after) ↔
      Accepted hmacSha1 parseAttributes config datagram buffers after := by
  constructor
  · intro h
    simp only [readMessage] at h
    split at h
    · simp at h
    rename_i hSize
    rw [not_or] at hSize
    split at h
    · obtain ⟨hType, -⟩ := Prod.mk.inj (Option.some.inj h)
      unfold answerType at hType
      split_ifs at hType <;> cases hType
    rename_i hAnswer
    rw [readRequest] at h
    split at h
    · rename_i hForm
      obtain ⟨read, hExtract, hChecks⟩ := Option.map_eq_some_iff.mp h
      split_ifs at hChecks with hUser hHmac
      · cases hChecks
      · cases hChecks
      · obtain rfl := (Prod.mk.inj hChecks).2
        exact ⟨hSize.1, by omega, hAnswer, hForm, hExtract, not_not.mp hUser, by simpa using hHmac⟩
    · simp at h
  · rintro ⟨hSome, hFits, hAnswer, hForm, hExtract, hUser, hHmac⟩
    have hSize : ¬ (datagram = [] ∨ datagram.length + 1 ≥ stunMaxMessageSize) := by
      rw [not_or]
      exact ⟨hSome, by omega⟩
    simp only [readMessage, if_neg hSize, hAnswer, readRequest, hForm, hExtract, if_true, Option.map_some, hUser,
      hHmac, ne_eq, not_true, if_false, Bool.not_true, Bool.false_eq_true]

theorem fullySigned_iff_of_accepted {datagram : Text} {buffers after : UdpBuffers}
    (h : Accepted hmacSha1 parseAttributes config datagram buffers after) :
    FullySigned hmacSha1 config datagram ↔ LeftUnchecked hmacSha1 config datagram := by
  refine exists_congr fun request => and_congr_right fun hRequest => ?_
  have hAfter := extract_of_request hRequest h.extracted
  have hUser : request.un = config.connectionRequestUsername := by rw [h.username, hAfter]; rfl
  have hHalf : SameDigits ((hmacDigits hmacSha1 config request.buffers.signed).take hmacSize)
      (request.sig.take hmacSize) := by
    rw [← hAfter, show request.sig.take hmacSize = after.signature by rw [hAfter]; rfl]
    exact of_decide_eq_true h.identical
  rw [sameDigits_iff_take hmacSize]
  constructor
  · rintro ⟨-, hFirst, hSecond⟩
    exact ⟨hHalf.trans hFirst, hSecond⟩
  · rintro ⟨hSigned, hSecond⟩
    exact ⟨hUser, hHalf.symm.trans hSigned, hSecond⟩

end Acceptance

/-- A datagram that passes the checks of the code is fully signed exactly when it meets what they leave out. -/
theorem udpRequest_fullySigned_iff (hmacSha1 : Text → Text → Digest)
    (parseAttributes : Text → Option StunMessage) (config : Configuration) (datagram : Text)
    (buffers : UdpBuffers) :
    (∀ after, readMessage hmacSha1 parseAttributes config (some datagram) buffers = some (.udpRequest, after) →
      FullySigned hmacSha1 config datagram) ↔
    ∀ after, Accepted hmacSha1 parseAttributes config datagram buffers after →
      LeftUnchecked hmacSha1 config datagram := by
  refine forall_congr' fun after => ?_
  rw [readMessage_udpRequest_iff]
  exact forall_congr' fun hAccepted => fullySigned_iff_of_accepted hAccepted

section Samples

/-- HMAC-SHA1 on two texts. -/
def sampleHmac (password msg : Text) : Digest :=
  if password ≠ "secret".toList then ⟨List.replicate hmacSize 0, rfl⟩
  else if msg = "11openstb7".toList then
    ⟨[0x1C, 0xD5, 0x6F, 0xB1, 0x04, 0x3E, 0x62, 0x80, 0x18, 0x65, 0xFE, 0xE6, 0x4E, 0x1F, 0xF3, 0xB1,
      0x7E, 0x86, 0x21, 0x37], rfl⟩
  else if msg = "12openstb7".toList then
    ⟨[0xC4, 0xEC, 0x5E, 0xEB, 0xE4, 0xDA, 0x89, 0x60, 0x2A, 0xEC, 0x21, 0xE4, 0x9E, 0x7E, 0xF8, 0x03,
      0xAD, 0x6C, 0x47, 0xA7], rfl⟩
  else ⟨List.replicate hmacSize 0, rfl⟩

def sampleConfig : Configuration := ⟨"openstb".toList, "secret".toList⟩

def blankBuffers : UdpBuffers := ⟨0, 0, [], [], List.replicate hmacSize '\x00'⟩

/-- The second half of the signature is all zeros. -/
def halfSigned : Text :=
  "GET ?ts=1&id=1&un=openstb&cn=7&sig=1CD56FB1043E6280186500000000000000000000 HTTP/1.1".toList

def halfSignedRequest : UdpRequest :=
  ⟨"1".toList, "1".toList, "openstb".toList, "7".toList, "1CD56FB1043E6280186500000000000000000000".toList⟩

theorem half_signature_accepted :
    ¬ ∀ after, readMessage sampleHmac (fun _ => none) sampleConfig (some halfSigned) blankBuffers =
        some (.udpRequest, after) → FullySigned sampleHmac sampleConfig halfSigned := by
  intro hAll
  obtain ⟨request, hRequest, -, hSig⟩ := hAll halfSignedRequest.buffers (by decide +kernel)
  have hRead : requestOf halfSigned = some halfSignedRequest := by decide +kernel
  obtain rfl := Option.some.inj (hRead.symm.trans hRequest)
  exact absurd hSig (by decide +kernel)

end Samples

end Tr069Agent.Com.Stun
