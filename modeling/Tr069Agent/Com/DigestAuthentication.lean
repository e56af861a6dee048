import Mathlib.Data.List.Nodup
import Tr069Agent.Library.Text
import Tr069Agent.Library.Transition

/-! # The connection requests of the HTTP server

A request is refused with a new challenge, of which the nonce and the opaque string are kept in two
buffers that are empty at the start, until it carries the answer to the last challenge. The buffers stay
as they are when it is accepted.
-/

namespace Tr069Agent.Com.ConnectionRequest

open Library Library.Transition

set_option autoImplicit false

section Tokens

/-- `strstr`: the text from the first place where the token occurs. -/
def textFrom (token : Text) : Text → Option Text
  | [] => none
  | c :: text => if token.isPrefixOf (c :: text) then some (c :: text) else textFrom token text

def maxTokenSize : Nat := 100

def sizeHttpMsg : Nat := 4096

/-- What stands between two characters, where it is shorter than the buffer. -/
def textBetween (opening closing : Char) (inTokenStr : Text) : Option Text :=
  let behind := inTokenStr.dropWhile (· ≠ opening)
  if behind = [] ∨ closing ∉ behind.tail then none
  else
    let found := behind.tail.takeWhile (· ≠ closing)
    if found.length < maxTokenSize then some found else none

def getQuotedString (inTokenStr : Text) : Option Text := textBetween '"' '"' inTokenStr

def getNonQuotedString (inTokenStr : Text) : Option Text := textBetween '=' ',' inTokenStr

def digestTokens : List Text :=
  ["Authorization:".toList, "Digest username=".toList, "realm=".toList, "nonce=".toList, "uri=".toList,
    "response=".toList, "opaque=".toList, "qop=".toList, "nc=".toList, "cnonce=".toList]

def checkDigestAuthMessageContent (text : Text) : Bool :=
  digestTokens.all fun token => (textFrom token text).isSome

structure DigestTokens where
  username : Text
  realm : Text
  nonce : Text
  uri : Text
  response : Text
  opaqueStr : Text
  qop : Text
  nc : Text
  cnonce : Text

def getDigestMessageToken (text : Text) : Option DigestTokens := do
  let username ← (textFrom "Digest username=".toList text).bind getQuotedString
  let realm ← (textFrom "realm=".toList text).bind getQuotedString
  let nonce ← (textFrom "nonce=".toList text).bind getQuotedString
  let uri ← (textFrom "uri=".toList text).bind getQuotedString
  let response ← (textFrom "response=".toList text).bind getQuotedString
  let opaqueStr ← (textFrom "opaque=".toList text).bind getQuotedString
  let qop ← (textFrom "qop=".toList text).bind getNonQuotedString
  let nc ← (textFrom "nc=".toList text).bind getNonQuotedString
  let cnonce ← (textFrom "cnonce=".toList text).bind getQuotedString
  return { username, realm, nonce, uri, response, opaqueStr, qop, nc, cnonce }

end Tokens

section Authentication

def strtok (delimiter : Char) (text : Text) : Text × Text :=
  let text := text.dropWhile (· = delimiter)
  (text.takeWhile (· ≠ delimiter), (text.dropWhile (· ≠ delimiter)).tail)

/-- Texts put one behind the other with colons, cut at the size of the buffer. -/
def joinColons (size : Nat) (texts : List Text) : Text := (texts.intersperse [':']).flatten.take size

structure Credentials where
  username : Text
  password : Text
  deriving DecidableEq

/-- The result that the answer to a challenge must carry, where `md5` gives the digest in hexadecimal. -/
def computedResponse (md5 : Text → Text) (cpe : Credentials) (text : Text) (tokens : DigestTokens) : Text :=
  let ha1 := md5 (joinColons (3 * maxTokenSize) [cpe.username, tokens.realm, cpe.password])
  let ha2 := md5 (joinColons (2 * maxTokenSize) [(strtok ' ' text).1, tokens.uri])
  md5 (joinColons (6 * maxTokenSize) [ha1, tokens.nonce, tokens.nc, tokens.cnonce, tokens.qop, ha2])

/-- The two buffers of the last challenge. -/
structure Challenge where
  randomNonceStr : Text
  randomOpaqueStr : Text
  deriving DecidableEq

def performClientDigestAuthentication (md5 : Text → Text) (cpe : Option Credentials) (challenge : Challenge)
    (text : Text) : Bool :=
  match getDigestMessageToken text with
  | none => false
  | some tokens =>
    if challenge.randomNonceStr ≠ tokens.nonce ∨ challenge.randomOpaqueStr ≠ tokens.opaqueStr then false
    else
      match cpe with
      | none => false
      | some cpe => computedResponse md5 cpe text tokens = tokens.response

def checkHttpMessageContent (text : Text) : Bool :=
  let (method, rest) := strtok ' ' text
  let (path, rest) := strtok ' ' rest
  let (protocol, _) := strtok '\r' rest
  path ≠ [] && method = "GET".toList && protocol = "HTTP/1.1".toList

end Authentication

/-- A connection, with what the server finds outside: whether too many connections came, the text that was
received, whether a session is in progress, the credentials, the answer of the engine and the strings of
the challenge that is sent when the connection is refused. -/
structure Connection where
  maxConnectionReached : Bool
  received : Option Text
  bSession : Bool
  cpe : Option Credentials
  engineOK : Bool
  challenge : Challenge
  deriving DecidableEq

inductive HttpCode where
  | none
  | ok
  | unauthorized
  | serviceUnavailable
  deriving DecidableEq

/-- The server with what happened so far: the challenges generated, the texts accepted, each with the number
of challenges before it, and those that were accepted since the last challenge. -/
structure Server where
  challenge : Challenge
  challenges : List Challenge
  accepted : List (Text × Nat)
  since : List Text
  deriving DecidableEq

def init : Server where
  challenge := ⟨[], []⟩
  challenges := []
  accepted := []
  since := []

section Serving

/-- The text that comes to the authentication, where one does. -/
def Connection.checked (connection : Connection) : Option Text :=
  if connection.maxConnectionReached then none
  else connection.received.filter fun text => !connection.bSession && checkDigestAuthMessageContent text

variable (md5 : Text → Text)

/-- The text that `performClientDigestAuthentication` accepts, where it does. -/
def Connection.accepted (connection : Connection) (s : Server) : Option Text :=
  connection.checked.filter fun text =>
    performClientDigestAuthentication md5 connection.cpe s.challenge (text.take (sizeHttpMsg - 1))

/-- The code with which a connection is answered. -/
def httpCode (connection : Connection) (s : Server) : HttpCode :=
  if connection.maxConnectionReached then .serviceUnavailable
  else
    match connection.received with
    | none => .none
    | some text =>
      if connection.bSession then .serviceUnavailable
      else if !checkDigestAuthMessageContent text then .unauthorized
      else if !performClientDigestAuthentication md5 connection.cpe s.challenge (text.take (sizeHttpMsg - 1)) then
        .unauthorized
      else if !checkHttpMessageContent text then .unauthorized
      else if connection.engineOK then .ok
      else .serviceUnavailable

def sendAuthenticationRequest (challenge : Challenge) (s : Server) : Server :=
  { s with challenge, challenges := challenge :: s.challenges, since := [] }

def accept (text : Text) (s : Server) : Server :=
  { s with accepted := (text, s.challenges.length) :: s.accepted, since := text :: s.since }

/-- One round of the loop of `DM_HttpServer_Start`. -/
def step (s : Server) (connection : Connection) : Option Server :=
  let after := (connection.accepted md5 s).elim s fun text => accept text s
  some (if httpCode md5 connection s = .unauthorized then sendAuthenticationRequest connection.challenge after
    else after)

/-- No text is accepted before a challenge, and none twice. -/
structure NotReplayed (s : Server) : Prop where
  once : (s.accepted.map Prod.fst).Nodup
  challenged : ∀ a ∈ s.accepted, a.2 ≠ 0

/-- The challenges differ. -/
def Fresh (s : Server) (connection : Connection) : Prop :=
  httpCode md5 connection s = .unauthorized → connection.challenge ∉ s.challenges

end Serving

/-- The challenge that a text answers. -/
def answered (text : Text) : Option Challenge :=
  (getDigestMessageToken (text.take (sizeHttpMsg - 1))).map fun tokens => ⟨tokens.nonce, tokens.opaqueStr⟩

/-- A text that comes to the authentication does not answer an empty challenge before the first is
generated, and is none that was accepted since the last. -/
def NewAnswer (s : Server) (connection : Connection) : Prop :=
  ∀ text ∈ connection.checked, (s.challenges = [] → answered text ≠ some ⟨[], []⟩) ∧ text ∉ s.since

section Safety

variable {md5 : Text → Text} {s s' : Server} {connection : Connection}

theorem answered_of_accepted {text : Text} (h : connection.accepted md5 s = some text) :
    connection.checked = some text ∧ answered text = some s.challenge := by
  obtain ⟨hChecked, hPerform⟩ := Option.filter_eq_some_iff.mp h
  refine ⟨hChecked, ?_⟩
  rw [performClientDigestAuthentication] at hPerform
  rw [answered]
  split at hPerform
  · cases hPerform
  rename_i tokens hTokens
  split at hPerform
  · cases hPerform
  rename_i hSame
  rw [not_or, not_not, not_not] at hSame
  rw [hTokens, Option.map_some, ← hSame.1, ← hSame.2]

/-- The buffers hold the last challenge, the accepted texts answer one that was generated, and those that
answer the last were accepted since. -/
structure ServerInv (s : Server) : Prop where
  buffers : s.challenge = s.challenges.headD ⟨[], []⟩
  answers : ∀ a ∈ s.accepted, ∃ challenge ∈ s.challenges, answered a.1 = some challenge
  recent : ∀ a ∈ s.accepted, answered a.1 = some s.challenge → a.1 ∈ s.since
  safe : NotReplayed s

theorem serverInv_accept (h : ServerInv s) {text : Text} (hAnswer : answered text = some s.challenge)
    (hNew : (s.challenges = [] → answered text ≠ some ⟨[], []⟩) ∧ text ∉ s.since) : ServerInv (accept text s) := by
  have hSome : s.challenges ≠ [] := by
    intro hNone
    apply hNew.1 hNone
    rw [hAnswer, h.buffers, hNone, List.headD_nil]
  refine ⟨h.buffers, fun a hMem => ?_, fun a hMem hLast => ?_, ?_, fun a hMem => ?_⟩
  · obtain rfl | hOld := List.mem_cons.mp hMem
    · refine ⟨s.challenge, ?_, hAnswer⟩
      obtain ⟨last, rest, hList⟩ := List.exists_cons_of_ne_nil hSome
      have hLast : s.challenge = last := by rw [h.buffers, hList, List.headD_cons]
      rw [hLast]
      exact hList ▸ List.mem_cons_self
    · exact h.answers a hOld
  · obtain rfl | hOld := List.mem_cons.mp hMem
    · exact List.mem_cons_self
    · exact List.mem_cons_of_mem _ (h.recent a hOld hLast)
  · refine List.nodup_cons.mpr ⟨fun hMem => ?_, h.safe.once⟩
    obtain ⟨a, hAccepted, rfl⟩ := List.mem_map.mp hMem
    exact hNew.2 (h.recent a hAccepted hAnswer)
  · obtain rfl | hOld := List.mem_cons.mp hMem
    · exact fun hLength => hSome (List.eq_nil_of_length_eq_zero hLength)
    · exact h.safe.challenged a hOld

theorem serverInv_sendAuthenticationRequest (h : ServerInv s) {challenge : Challenge}
    (hFresh : challenge ∉ s.challenges) : ServerInv (sendAuthenticationRequest challenge s) := by
  refine ⟨rfl, fun a hMem => ?_, fun a hMem hLast => ?_, h.safe.once, h.safe.challenged⟩
  · obtain ⟨old, hOld, hAnswer⟩ := h.answers a hMem
    exact ⟨old, List.mem_cons_of_mem _ hOld, hAnswer⟩
  · obtain ⟨old, hOld, hAnswer⟩ := h.answers a hMem
    obtain rfl : challenge = old := Option.some.inj (hLast.symm.trans hAnswer)
    exact absurd hOld hFresh

theorem serverInv_step (h : ServerInv s) (hGuard : Fresh md5 s connection ∧ NewAnswer s connection)
    (hStep : step md5 s connection = some s') : ServerInv s' := by
  obtain rfl := Option.some.inj hStep
  have hAfter : ServerInv ((connection.accepted md5 s).elim s fun text => accept text s) ∧
      ((connection.accepted md5 s).elim s fun text => accept text s).challenges = s.challenges := by
    cases hAccepted : connection.accepted md5 s with
    | none => exact ⟨h, rfl⟩
    | some text =>
      obtain ⟨hChecked, hAnswer⟩ := answered_of_accepted hAccepted
      exact ⟨serverInv_accept h hAnswer (hGuard.2 text hChecked), rfl⟩
  split
  · rename_i hCode
    apply serverInv_sendAuthenticationRequest hAfter.1
    rw [hAfter.2]
    exact hGuard.1 hCode
  · exact hAfter.1

end Safety

/-- In a run with different challenges, in which every text that is checked is a new answer, no text is
accepted before a challenge and none twice. -/
theorem not_replayed (md5 : Text → Text) (connections : List Connection)
    (hFresh : Along (step md5) (Fresh md5) init connections) (hNew : Along (step md5) NewAnswer init connections) :
    Throughout (step md5) NotReplayed init connections := by
  have hInit : ServerInv init :=
    ⟨rfl, by simp [init], by simp [init], List.nodup_nil, by simp [init]⟩
  exact (throughout_of_along (fun _ _ _ h hGuard hStep => serverInv_step h hGuard hStep) hInit
    (along_and.mpr ⟨hFresh, hNew⟩)).mono fun _ h => h.safe

section Samples

instance (md5 : Text → Text) (s : Server) (connection : Connection) : Decidable (Fresh md5 s connection) :=
  inferInstanceAs (Decidable (_ → _))

instance (s : Server) (connection : Connection) : Decidable (NewAnswer s connection) :=
  inferInstanceAs (Decidable (∀ text ∈ connection.checked, (s.challenges = [] → answered text ≠ some ⟨[], []⟩) ∧ _))

instance (s : Server) : Decidable (NotReplayed s) :=
  decidable_of_iff ((s.accepted.map Prod.fst).Nodup ∧ ∀ a ∈ s.accepted, a.2 ≠ 0)
    ⟨fun h => ⟨h.1, h.2⟩, fun h => ⟨h.once, h.challenged⟩⟩

/-- A digest for samples: the last five characters. -/
def sampleDigest (text : Text) : Text := text.drop (text.length - 5)

def sampleConnection (received : String) (challenge : Challenge) : Connection where
  maxConnectionReached := false
  received := some received.toList
  bSession := false
  cpe := some ⟨"cpe".toList, "password".toList⟩
  engineOK := true
  challenge

def firstRequest : Connection := sampleConnection "GET / HTTP/1.1\r\n" ⟨"abc".toList, "xyz".toList⟩

def answerRequest : Connection :=
  sampleConnection
    ("GET / HTTP/1.1\r\nAuthorization: Digest username=\"cpe\", realm=\"liveboxrealm\", nonce=\"abc\", uri=\"/\", " ++
      "response=\"GET:/\", opaque=\"xyz\", qop=auth, nc=1, cnonce=\"c\"")
    ⟨"def".toList, "uvw".toList⟩

/-- A challenge is sent and answered. -/
theorem not_replayed_answer :
    Throughout (step sampleDigest) NotReplayed init [firstRequest, answerRequest] :=
  not_replayed sampleDigest _ (by decide +kernel) (by decide +kernel)

/-- The answer is accepted again when it comes a second time. -/
theorem replayed_answer :
    ¬ Throughout (step sampleDigest) NotReplayed init [firstRequest, answerRequest, answerRequest] := by
  decide +kernel

end Samples

end Tr069Agent.Com.ConnectionRequest
