import Mathlib.Tactic.Common
import Tr069Agent.Library.Transition

/-! # The HTTP session with the ACS

Four flags are shared by the header callback, the dispatcher, the supervision thread and the
Inform callback. A run takes the answers of the ACS, the supervision timeouts and the two moments of
an Inform, its transmission and the opening of the session, in any order.
-/

namespace Tr069Agent.Com.Session

open Library.Transition

set_option autoImplicit false

/-- The session data of the module, with what happened so far: the argument of every call of
`DM_ENG_SessionClosed`, the sessions opened and the requests served while none was open. -/
structure SessionData where
  bSession : Bool
  bIRTCInProgess : Bool
  cwmpSessionClosingFlag : Bool
  ignoreHttpNoContentMsgFlag : Bool
  informSent : Bool
  engineInSession : Bool
  sessionClosed : List Bool
  opened : Nat
  servedOutside : Nat
  deriving DecidableEq

def init : SessionData where
  bSession := false
  bIRTCInProgess := false
  cwmpSessionClosingFlag := false
  ignoreHttpNoContentMsgFlag := true
  informSent := false
  engineInSession := false
  sessionClosed := []
  opened := 0
  servedOutside := 0

def closeAcsSession (success : Bool) (s : SessionData) : SessionData :=
  { s with
    bSession := false
    ignoreHttpNoContentMsgFlag := true
    cwmpSessionClosingFlag := false
    engineInSession := false
    sessionClosed := success :: s.sessionClosed
    bIRTCInProgess := false }

def forceAcsSessionToClose (s : SessionData) : SessionData := closeAcsSession false s

/-- The two kinds of header line the callback looks at: one that begins with `HTTP/`, and
`Content-Length: 0`. -/
inductive HeaderLine where
  | httpVersion
  | contentLength0
  deriving DecidableEq

/-- `DM_HttpCallbackClientHeader`; `ready` is the answer of `DM_ENG_IsReadyToClose` and `sent` tells
whether the empty message could be handed to the HTTP client. -/
def httpCallbackClientHeader (line : HeaderLine) (lastHttpResponseCode : Nat) (ready sent : Bool)
    (s : SessionData) : SessionData :=
  match line with
  | .httpVersion =>
    if lastHttpResponseCode = 200 then
      if s.cwmpSessionClosingFlag then closeAcsSession true { s with ignoreHttpNoContentMsgFlag := false }
      else { s with ignoreHttpNoContentMsgFlag := false }
    else if lastHttpResponseCode = 204 then
      if s.ignoreHttpNoContentMsgFlag then { s with ignoreHttpNoContentMsgFlag := false }
      else if s.bSession then
        if !s.bIRTCInProgess then
          { s with
            bIRTCInProgess := ready
            cwmpSessionClosingFlag := s.cwmpSessionClosingFlag || (ready && sent) }
        else closeAcsSession true s
      else s
    else s
  | .contentLength0 =>
    if lastHttpResponseCode = 200 ∧ s.bIRTCInProgess ∧ !s.cwmpSessionClosingFlag then
      { s with cwmpSessionClosingFlag := sent }
    else s

/-- What a SOAP body holds, as the dispatcher tells it: not exactly one element, a fault with its
fault codes (`none` for a text that is no number), a request of one of the known methods, one of the
three responses, or another element. `idKnown` is the result of `DM_RemoveHeaderIDFromTab`. -/
inductive Body where
  | malformed
  | fault (faultCodes : List (Option Int)) (idKnown : Bool)
  | request
  | informResponse (idKnown : Bool) (holdRequests : Nat)
  | transferCompleteResponse (idKnown : Bool) (holdRequests : Nat)
  | requestDownloadResponse (idKnown : Bool) (holdRequests : Nat)
  | unknown
  deriving DecidableEq

def acsErrorRetryRequest : Int := 8005

/-- `retryCpeRequest` after the loop over the fault codes. -/
def retryCpeRequest (retry : Bool) : List (Option Int) → Bool
  | [] => retry
  | some code :: codes => if code = acsErrorRetryRequest then retryCpeRequest true codes else false
  | none :: _ => false

/-- An empty message is sent after a response when the ACS holds the requests or nothing is left to
report; the agent then asks for the end of the session unless the requests are held. -/
def askToClose (holdRequests : Nat) (ready : Bool) (s : SessionData) : SessionData :=
  if holdRequests ≠ 0 ∨ ready then
    if holdRequests = 0 then { s with bIRTCInProgess := true } else s
  else s

def parseSoapBodyMessage (ready : Bool) (body : Body) (s : SessionData) : SessionData :=
  match body with
  | .malformed => s
  | .fault codes _ => if !retryCpeRequest false codes then forceAcsSessionToClose s else s
  | .request =>
    if s.bSession ∧ s.engineInSession then s else { s with servedOutside := s.servedOutside + 1 }
  | .informResponse idKnown holdRequests => if idKnown then askToClose holdRequests ready s else s
  | .transferCompleteResponse idKnown holdRequests =>
    if idKnown ∧ s.bSession then askToClose holdRequests ready s else s
  | .requestDownloadResponse idKnown holdRequests =>
    if idKnown ∧ s.bSession then askToClose holdRequests ready s else s
  | .unknown => forceAcsSessionToClose s

/-- An HTTP answer of the ACS with the results of the calls made while it is treated. -/
structure Answer where
  lastHttpResponseCode : Nat
  contentLength0 : Bool
  body : Option Body
  readyInHeader : Bool
  sentInHeader : Bool
  sentForLength : Bool
  readyInBody : Bool
  deriving DecidableEq

/-- The supervision thread after the session has lasted too long. -/
def sessionTimeout (s : SessionData) : SessionData := if s.bSession then closeAcsSession false s else s

def headers (a : Answer) (s : SessionData) : SessionData :=
  let s := httpCallbackClientHeader .httpVersion a.lastHttpResponseCode a.readyInHeader a.sentInHeader s
  if a.contentLength0 then
    httpCallbackClientHeader .contentLength0 a.lastHttpResponseCode a.readyInHeader a.sentForLength s
  else s

def data (a : Answer) (s : SessionData) : SessionData :=
  match a.body with
  | none => s
  | some body => parseSoapBodyMessage a.readyInBody body s

/-- What happens: the Inform callback hands an Inform over and later opens the session, the
supervision thread reaches its timeout, or an answer arrives, where the timeout may also fall
between its headers and its data. -/
inductive Event where
  | informSent
  | informReturns
  | timeout
  | answer (a : Answer) (timeoutBetween : Bool)

def step (s : SessionData) : Event → Option SessionData
  | .informSent =>
    if s.informSent ∨ s.engineInSession then none else some { s with informSent := true }
  | .informReturns =>
    if s.informSent then
      some { s with informSent := false, bSession := true, engineInSession := true, opened := s.opened + 1 }
    else none
  | .timeout => some (sessionTimeout s)
  | .answer a timeoutBetween =>
    let s := headers a s
    some (data a (if timeoutBetween then sessionTimeout s else s))

/-- No request was served outside a session, and each session opened was closed once, but for the
one that is open. -/
def ServedInSession (s : SessionData) : Prop :=
  s.servedOutside = 0 ∧ s.sessionClosed.length + s.bSession.toNat = s.opened

instance (s : SessionData) : Decidable (ServedInSession s) := inferInstanceAs (Decidable (_ ∧ _))

/-- The bodies that make the agent execute a request or close the session. -/
def Body.needsSession : Body → Bool
  | .request => true
  | .fault codes _ => !retryCpeRequest false codes
  | .unknown => true
  | _ => false

/-- The status line makes the agent close the session before it reads the data. -/
def closedByStatus (s : SessionData) (a : Answer) : Bool :=
  (a.lastHttpResponseCode = 200 && s.cwmpSessionClosingFlag) ||
    (a.lastHttpResponseCode = 204 && !s.ignoreHttpNoContentMsgFlag && s.bSession && s.bIRTCInProgess)

/-- The condition on a step: an answer that finds the closing flag set finds the session open, and
data that need the session come while it is open, in an answer whose status line does not close it
and without a timeout before them. -/
def Guard (s : SessionData) : Event → Prop
  | .informSent => True
  | .informReturns => True
  | .timeout => True
  | .answer a timeoutBetween =>
    (a.lastHttpResponseCode = 200 ∧ s.cwmpSessionClosingFlag = true → s.bSession = true) ∧
    (a.body.any Body.needsSession = true →
      s.bSession = true ∧ closedByStatus s a = false ∧ timeoutBetween = false)

/-- What a call does to the session as the engine sees it: it closes the session or not, and serves
a request outside a session or not. -/
structure Effect (s s' : SessionData) (closed outside : Bool) : Prop where
  bSession : s'.bSession = (s.bSession && !closed)
  engineInSession : s'.engineInSession = (s.engineInSession && !closed)
  sessionClosed : s'.sessionClosed.length = s.sessionClosed.length + closed.toNat
  opened : s'.opened = s.opened
  informSent : s'.informSent = s.informSent
  servedOutside : s'.servedOutside = s.servedOutside + outside.toNat

theorem Effect.refl (s : SessionData) : Effect s s false false := by
  constructor <;> simp

theorem effect_closeAcsSession (success : Bool) (s : SessionData) :
    Effect s (closeAcsSession success s) true false := by
  constructor <;> simp [closeAcsSession]

theorem effect_httpVersion (s : SessionData) (a : Answer) :
    Effect s (httpCallbackClientHeader .httpVersion a.lastHttpResponseCode a.readyInHeader
      a.sentInHeader s) (closedByStatus s a) false := by
  unfold httpCallbackClientHeader closedByStatus
  dsimp only
  split_ifs with h200 hClosing h204 hIgnore hSession hIrtc
  · constructor <;> simp [h200, hClosing, closeAcsSession]
  · constructor <;> simp [h200, hClosing]
  · constructor <;> simp [h204, hIgnore]
  · have hIrtc' : s.bIRTCInProgess = false := by simpa using hIrtc
    constructor <;> simp [h204, hIrtc']
  · have hIrtc' : s.bIRTCInProgess = true := by simpa using hIrtc
    constructor <;> simp [h204, hIgnore, hSession, hIrtc', closeAcsSession]
  · constructor <;> simp [h204, hSession]
  · constructor <;> simp [h200, h204]

theorem effect_headers (s : SessionData) (a : Answer) :
    Effect s (headers a s) (closedByStatus s a) false := by
  have h := effect_httpVersion s a
  unfold headers
  dsimp only
  split
  · generalize httpCallbackClientHeader .httpVersion _ _ _ s = s₁ at h ⊢
    obtain ⟨h₁, h₂, h₃, h₄, h₅, h₆⟩ := h
    unfold httpCallbackClientHeader
    dsimp only
    split
    · exact ⟨h₁, h₂, h₃, h₄, h₅, h₆⟩
    · exact ⟨h₁, h₂, h₃, h₄, h₅, h₆⟩
  · exact h

theorem effect_sessionTimeout (s : SessionData) : Effect s (sessionTimeout s) s.bSession false := by
  unfold sessionTimeout
  split_ifs with hSession
  · exact hSession ▸ effect_closeAcsSession false s
  · simpa [hSession] using Effect.refl s

/-- Data that need the session close it or are served in it; the others leave it as it is. -/
def Body.closes : Body → Bool
  | .fault codes _ => !retryCpeRequest false codes
  | .unknown => true
  | _ => false

theorem effect_askToClose (holdRequests : Nat) (ready : Bool) (s : SessionData) :
    Effect s (askToClose holdRequests ready s) false false := by
  unfold askToClose
  split_ifs <;> constructor <;> simp

theorem effect_parseSoapBodyMessage (ready : Bool) (body : Body) (s : SessionData) :
    Effect s (parseSoapBodyMessage ready body s) body.closes
      (body.needsSession && !body.closes && !(s.bSession && s.engineInSession)) := by
  cases body with
  | malformed => exact .refl s
  | fault codes idKnown =>
    simp only [parseSoapBodyMessage, Body.closes, Body.needsSession]
    split_ifs with hRetry
    · simpa [hRetry, forceAcsSessionToClose] using effect_closeAcsSession false s
    · simpa [hRetry] using Effect.refl s
  | request =>
    simp only [parseSoapBodyMessage, Body.closes, Body.needsSession]
    split_ifs with hOpen
    · simpa [hOpen] using Effect.refl s
    · have hOut : (s.bSession && s.engineInSession) = false := by simpa using hOpen
      constructor <;> simp [hOut]
  | informResponse idKnown holdRequests =>
    simp only [parseSoapBodyMessage, Body.closes, Body.needsSession]
    split_ifs
    · exact effect_askToClose holdRequests ready s
    · exact .refl s
  | transferCompleteResponse idKnown holdRequests =>
    simp only [parseSoapBodyMessage, Body.closes, Body.needsSession]
    split_ifs
    · exact effect_askToClose holdRequests ready s
    · exact .refl s
  | requestDownloadResponse idKnown holdRequests =>
    simp only [parseSoapBodyMessage, Body.closes, Body.needsSession]
    split_ifs
    · exact effect_askToClose holdRequests ready s
    · exact .refl s
  | unknown =>
    simpa [parseSoapBodyMessage, Body.closes, Body.needsSession, forceAcsSessionToClose]
      using effect_closeAcsSession false s

theorem effect_data (a : Answer) (s : SessionData) :
    Effect s (data a s) (a.body.any Body.closes)
      (a.body.any Body.needsSession && !a.body.any Body.closes && !(s.bSession && s.engineInSession)) := by
  unfold data
  cases a.body with
  | none => simpa using Effect.refl s
  | some body => exact effect_parseSoapBodyMessage a.readyInBody body s

theorem Body.needsSession_of_closes {body : Option Body} (h : body.any Body.closes = true) :
    body.any Body.needsSession = true := by
  rcases body with _ | body
  · simp at h
  · cases body <;> simp_all [Body.closes, Body.needsSession]

/-- The invariant: besides the property, the engine knows the session exactly while it is open, and
no session is open while an Inform is on its way. -/
structure Inv (s : SessionData) : Prop where
  served : ServedInSession s
  engine : s.engineInSession = s.bSession
  inform : s.informSent = true → s.bSession = false

theorem inv_init : Inv init where
  served := by decide
  engine := rfl
  inform := by decide

/-- A call that closes only an open session and serves no request outside keeps the invariant. -/
theorem Effect.inv {s s' : SessionData} {closed outside : Bool} (h : Effect s s' closed outside)
    (hs : Inv s) (hClosed : closed = true → s.bSession = true) (hOutside : outside = false) : Inv s' := by
  obtain ⟨⟨hServed, hCount⟩, hEngine, hInform⟩ := hs
  refine ⟨⟨?_, ?_⟩, ?_, ?_⟩
  · rw [h.servedOutside, hServed, hOutside]
    rfl
  · rw [h.sessionClosed, h.bSession, h.opened, ← hCount]
    cases closed with
    | false => simp
    | true => simp [hClosed rfl]
  · rw [h.engineInSession, h.bSession, hEngine]
  · rw [h.informSent, h.bSession]
    intro hSent
    simp [hInform hSent]

/-- The property is lost for good: too many calls of `DM_ENG_SessionClosed`, or a request served
outside a session. -/
def Broken (s : SessionData) : Prop :=
  s.opened < s.sessionClosed.length + s.bSession.toNat ∨ 0 < s.servedOutside

theorem Broken.not_served {s : SessionData} (h : Broken s) : ¬ ServedInSession s := by
  rintro ⟨hServed, hCount⟩
  rcases h with h | h <;> omega

theorem Effect.broken {s s' : SessionData} {closed outside : Bool} (h : Effect s s' closed outside)
    (hs : Broken s) : Broken s' := by
  unfold Broken at hs ⊢
  rw [h.servedOutside, h.sessionClosed, h.bSession, h.opened]
  rcases hs with hs | hs
  · left
    cases closed <;> cases hOpen : s.bSession <;> simp [hOpen] at hs ⊢ <;> omega
  · right
    omega

theorem Effect.broken_of_inv {s s' : SessionData} {closed outside : Bool}
    (h : Effect s s' closed outside) (hs : Inv s)
    (hBad : closed = true ∧ s.bSession = false ∨ outside = true) : Broken s' := by
  unfold Broken
  rw [h.servedOutside, h.sessionClosed, h.bSession, h.opened, ← hs.served.2]
  rcases hBad with ⟨rfl, hOpen⟩ | rfl
  · left
    simp [hOpen]
  · right
    simp

/-- The state in which the data of an answer are read. -/
def beforeData (a : Answer) (timeoutBetween : Bool) (s : SessionData) : SessionData :=
  if timeoutBetween then sessionTimeout (headers a s) else headers a s

theorem effect_timeoutBetween (a : Answer) (timeoutBetween : Bool) (s : SessionData) :
    Effect (headers a s) (beforeData a timeoutBetween s) (timeoutBetween && (headers a s).bSession)
      false := by
  cases timeoutBetween with
  | false => simpa [beforeData] using Effect.refl (headers a s)
  | true => simpa [beforeData] using effect_sessionTimeout (headers a s)

theorem beforeData_bSession (a : Answer) (timeoutBetween : Bool) (s : SessionData) :
    (beforeData a timeoutBetween s).bSession =
      (s.bSession && !closedByStatus s a && !timeoutBetween) := by
  rw [(effect_timeoutBetween a timeoutBetween s).bSession, (effect_headers s a).bSession]
  cases s.bSession <;> cases closedByStatus s a <;> cases timeoutBetween <;> rfl

theorem inv_beforeData {s : SessionData} (hs : Inv s) (a : Answer) (timeoutBetween : Bool)
    (hStatus : a.lastHttpResponseCode = 200 ∧ s.cwmpSessionClosingFlag = true → s.bSession = true) :
    Inv (beforeData a timeoutBetween s) := by
  have hHeaders : Inv (headers a s) := by
    refine (effect_headers s a).inv hs (fun hClosed => ?_) rfl
    simp only [closedByStatus, Bool.or_eq_true, Bool.and_eq_true, decide_eq_true_eq] at hClosed
    rcases hClosed with hClosing | ⟨⟨-, hOpen⟩, -⟩
    · exact hStatus hClosing
    · exact hOpen
  exact (effect_timeoutBetween a timeoutBetween s).inv hHeaders
    (fun hClosed => (Bool.and_eq_true_iff.mp hClosed).2) rfl

theorem inv_answer {s : SessionData} (hs : Inv s) (a : Answer) (timeoutBetween : Bool)
    (hGuard : Guard s (.answer a timeoutBetween)) : Inv (data a (beforeData a timeoutBetween s)) := by
  have hBefore := inv_beforeData hs a timeoutBetween hGuard.1
  have hOpen : a.body.any Body.needsSession = true →
      (beforeData a timeoutBetween s).bSession = true := by
    intro hNeeds
    obtain ⟨hSession, hStatus, hTimeout⟩ := hGuard.2 hNeeds
    simp [beforeData_bSession, hSession, hStatus, hTimeout]
  refine (effect_data a _).inv hBefore (fun hCloses => hOpen (Body.needsSession_of_closes hCloses)) ?_
  cases hNeeds : a.body.any Body.needsSession with
  | false => rfl
  | true => simp [hBefore.engine, hOpen hNeeds]

theorem broken_answer {s : SessionData} (hs : Inv s) (a : Answer) (timeoutBetween : Bool)
    (hGuard : ¬ Guard s (.answer a timeoutBetween)) :
    Broken (data a (beforeData a timeoutBetween s)) := by
  by_cases hStatus : a.lastHttpResponseCode = 200 ∧ s.cwmpSessionClosingFlag = true → s.bSession = true
  · have hBefore := inv_beforeData hs a timeoutBetween hStatus
    obtain ⟨hNeeds, hShut⟩ := Classical.not_imp.mp fun h => hGuard ⟨hStatus, h⟩
    have hOpen : (beforeData a timeoutBetween s).bSession = false := by
      rw [beforeData_bSession]
      cases hSession : s.bSession <;> cases hClosed : closedByStatus s a <;>
        cases timeoutBetween <;> simp_all
    refine (effect_data a _).broken_of_inv hBefore ?_
    cases hCloses : a.body.any Body.closes with
    | false => exact .inr (by simp [hNeeds, hOpen])
    | true => exact .inl ⟨rfl, hOpen⟩
  · obtain ⟨⟨hCode, hClosing⟩, hShut⟩ := Classical.not_imp.mp hStatus
    have hHeaders : Broken (headers a s) :=
      (effect_headers s a).broken_of_inv hs
        (.inl ⟨by simp [closedByStatus, hCode, hClosing], by simpa using hShut⟩)
    exact (effect_data a _).broken ((effect_timeoutBetween a timeoutBetween s).broken hHeaders)

theorem step_answer (s : SessionData) (a : Answer) (timeoutBetween : Bool) :
    step s (.answer a timeoutBetween) = some (data a (beforeData a timeoutBetween s)) := rfl

theorem step_inv (s : SessionData) (e : Event) (s' : SessionData) (hs : Inv s) (hGuard : Guard s e)
    (hStep : step s e = some s') : Inv s' := by
  cases e with
  | informSent =>
    simp only [step] at hStep
    split at hStep
    · cases hStep
    · rename_i hIdle
      obtain rfl := Option.some.inj hStep
      obtain ⟨-, hEngine⟩ := not_or.mp hIdle
      exact ⟨hs.served, hs.engine, fun _ => by simpa [hs.engine] using hEngine⟩
  | informReturns =>
    simp only [step] at hStep
    split at hStep
    · rename_i hSent
      obtain rfl := Option.some.inj hStep
      refine ⟨⟨hs.served.1, ?_⟩, rfl, by simp⟩
      have hCount := hs.served.2
      simp only [hs.inform hSent, Bool.toNat_false, Nat.add_zero] at hCount
      simp [hCount]
    · cases hStep
  | timeout =>
    obtain rfl := Option.some.inj hStep
    exact (effect_sessionTimeout s).inv hs id rfl
  | answer a timeoutBetween =>
    obtain rfl := Option.some.inj (step_answer s a timeoutBetween ▸ hStep)
    exact inv_answer hs a timeoutBetween hGuard

/-- Every run serves its requests inside a session, and closes each session once, exactly when each
of its steps meets the condition. -/
theorem served_in_session_iff (events : List Event) :
    Throughout step ServedInSession init events ↔ Along step Guard init events := by
  refine throughout_iff_along (fun _ hs => hs.served) step_inv ?_ inv_init
  intro s e hs hGuard
  cases e with
  | informSent => exact absurd trivial hGuard
  | informReturns => exact absurd trivial hGuard
  | timeout => exact absurd trivial hGuard
  | answer a timeoutBetween =>
    exact ⟨_, rfl, (broken_answer hs a timeoutBetween hGuard).not_served⟩

/-- After an Inform and its response the ACS answers nothing, the agent announces the end of the
session with an empty message, and the answer to it carries a request. -/
def requestInClosingAnswer : List Event :=
  [.informSent, .informReturns,
    .answer ⟨200, false, some (.informResponse true 0), false, false, false, false⟩ false,
    .answer ⟨204, false, none, true, true, false, false⟩ false,
    .answer ⟨200, false, some .request, false, false, false, false⟩ false]

theorem request_in_closing_answer_served_outside :
    ¬ Throughout step ServedInSession init requestInClosingAnswer := by
  intro h
  have hLast := throughout_iff_exec.mp h requestInClosingAnswer (List.prefix_refl _) _ rfl
  exact absurd hLast (by decide)

end Tr069Agent.Com.Session
