import Mathlib.Data.List.Basic
import Mathlib.Tactic.Common
import Tr069Agent.Com.Session
import Tr069Agent.Library.Text

/-! # The HTTP client

A message is transmitted by a thread that is launched for it, or it waits in the pending list until that
thread comes to it. One mutex delimits the steps; it is free while a thread transmits, so that messages
and closes may come from the callbacks too. A copy of a message is kept for the case that the ACS asks
for it again.
-/

namespace Tr069Agent.Com.HttpClient

open Library Library.Transition

set_option autoImplicit false

/-- A message that was accepted, with the number of messages that were accepted before it. -/
structure Message where
  number : Nat
  text : Text
  deriving DecidableEq

/-- Where a sending thread is: it has not begun, the message is set and the mutex free, it is in
`curl_easy_perform`, or it is back from it and waits for the mutex. -/
inductive Place where
  | starting
  | prepared
  | performing
  | performed
  deriving DecidableEq

/-- The data of the module and its sending threads, with what happened so far: the sessions opened, the
messages accepted, transmitted and discarded, and the closes, each with the session that was open and
the number of messages accepted before. -/
structure Client where
  httpMessageBeingSent : Option Message
  pendingHttpMessages : List Message
  closeHttpSessionExpected : Bool
  sessionHandle : Option Nat
  retryBuffer : Option Text
  threads : List Place
  opened : Nat
  accepted : List Message
  transmitted : List (Message × Option Nat)
  discarded : List Message
  closes : List (Nat × Nat)
  launched : Option Text
  deriving DecidableEq

def init : Client where
  httpMessageBeingSent := none
  pendingHttpMessages := []
  closeHttpSessionExpected := false
  sessionHandle := none
  retryBuffer := none
  threads := []
  opened := 0
  accepted := []
  transmitted := []
  discarded := []
  closes := []
  launched := none

section Sending

def updateRetryBuffer (text : Text) : Option Text := if text.length ≠ 0 then some text else none

/-- `_initHttpSession`; a session that cannot be opened leaves no handle. -/
def initHttpSession (initOK : Bool) (s : Client) : Client :=
  match s.sessionHandle with
  | some _ => s
  | none => if initOK then { s with sessionHandle := some s.opened, opened := s.opened + 1 } else s

def accept (text : Text) (s : Client) : Message × Client :=
  let message := ⟨s.accepted.length, text⟩
  (message, { s with accepted := s.accepted ++ [message] })

/-- `DM_SendHttpMessage`: whether the message is accepted. -/
def sendHttpMessage (text : Text) (initOK threadOK : Bool) (s : Client) : Bool × Client :=
  if s.closeHttpSessionExpected then (false, s)
  else if s.httpMessageBeingSent.isSome then
    let (message, s) := accept text s
    (true, { s with pendingHttpMessages := s.pendingHttpMessages ++ [message] })
  else
    let s := initHttpSession initOK s
    if s.sessionHandle.isNone then (false, s)
    else if threadOK then
      let (message, s) := accept text s
      (true, { s with
        httpMessageBeingSent := some message
        threads := s.threads ++ [.starting]
        retryBuffer := updateRetryBuffer text
        launched := some text })
    else (false, s)

def closeHttpSession (s : Client) : Client :=
  { s with
    closeHttpSessionExpected := s.httpMessageBeingSent.isSome
    pendingHttpMessages := []
    discarded := s.discarded ++ s.pendingHttpMessages
    sessionHandle := if s.httpMessageBeingSent.isSome then s.sessionHandle else none }

def close (s : Client) : Client :=
  { closeHttpSession s with
    closes := s.sessionHandle.elim s.closes fun session => (session, s.accepted.length) :: s.closes }

/-- The rounds of `_sendHttpMessage` begin with the mutex held; the thread ends when there is no message. -/
def beginRound (i : Nat) (s : Client) : Client :=
  if s.httpMessageBeingSent.isSome then { s with threads := s.threads.set i .prepared }
  else
    let s := if s.closeHttpSessionExpected then closeHttpSession s else s
    { s with threads := s.threads.eraseIdx i }

def threadStep (i : Nat) (s : Client) : Option Client :=
  match s.threads[i]? with
  | none => none
  | some .starting => some (beginRound i s)
  | some .prepared =>
    some { s with
      threads := s.threads.set i .performing
      transmitted := s.transmitted ++ s.httpMessageBeingSent.toList.map fun message => (message, s.sessionHandle) }
  | some .performing => some { s with threads := s.threads.set i .performed }
  | some .performed =>
    some (beginRound i { s with
      httpMessageBeingSent := s.pendingHttpMessages.head?
      pendingHttpMessages := s.pendingHttpMessages.tail })

/-- `_retryRequest`: the text that is handed to `DM_SendHttpMessage`. Where a thread would be launched for
it, the copy would be freed before it is copied. -/
def retryRequest (s : Client) : Option (Option Text × Client) :=
  match s.retryBuffer with
  | none => some (none, s)
  | some text =>
    if s.httpMessageBeingSent.isSome then some (some text, (sendHttpMessage text true true s).2) else none

def parseFault (faultCodes : List (Option Int)) (s : Client) : Option (Option Text × Client) :=
  if Session.retryCpeRequest false faultCodes then retryRequest s else some (none, s)

end Sending

/-- What happens: a call from any thread, a step of a sending thread, or an answer of the ACS to the
message that a thread transmits. -/
inductive Event where
  | send (text : Text) (initOK threadOK : Bool)
  | close
  | thread (i : Nat)
  | fault (i : Nat) (faultCodes : List (Option Int))
  deriving DecidableEq

def step (s : Client) : Event → Option Client
  | .send text initOK threadOK => some (sendHttpMessage text initOK threadOK s).2
  | .close => some (close s)
  | .thread i => threadStep i s
  | .fault i faultCodes =>
    if s.threads[i]? = some .performing then (parseFault faultCodes s).map Prod.snd else none

def waiting (s : Client) : List Message :=
  (if Place.performing ∈ s.threads ∨ Place.performed ∈ s.threads then []
    else s.httpMessageBeingSent.toList) ++ s.pendingHttpMessages

/-- One ordered queue: one thread transmits at most, the messages go out once and in the order in which
they were accepted, none is forgotten, and none that was accepted after a close goes out in the session
that was closed. -/
structure Ordered (s : Client) : Prop where
  alone : s.threads.count .performing ≤ 1
  distinct : s.accepted.Nodup
  order : (s.transmitted.map Prod.fst).Sublist s.accepted
  kept : ∀ message ∈ s.accepted,
    message ∈ s.transmitted.map Prod.fst ∨ message ∈ waiting s ∨ message ∈ s.discarded
  discarded : ∀ message ∈ s.discarded, message ∉ s.transmitted.map Prod.fst
  closed : ∀ session before, (session, before) ∈ s.closes →
    ∀ sent ∈ s.transmitted, before ≤ sent.1.number → sent.2 ≠ some session

/-- `DM_SendHttpMessage` returns `DM_OK` exactly when its message joins the accepted ones. -/
def Reported (s : Client) (text : Text) (initOK threadOK : Bool) : Prop :=
  (sendHttpMessage text initOK threadOK s).2.accepted =
    s.accepted ++ if (sendHttpMessage text initOK threadOK s).1 then [⟨s.accepted.length, text⟩] else []

/-- The calls of `DM_SendHttpMessage` are reported, those of `_retryRequest` among them, and nothing else makes a
message an accepted one. -/
def AcceptsReported (s : Client) : Event → Prop
  | .send text initOK threadOK => Reported s text initOK threadOK
  | .fault _ _ => ∀ text ∈ s.retryBuffer, Reported s text true true
  | .close => (close s).accepted = s.accepted
  | .thread i => ∀ s' ∈ threadStep i s, s'.accepted = s.accepted

def ReleasedIdle (s : Client) (e : Event) : Prop :=
  ∀ s' ∈ step s e, ∀ session ∈ s.sessionHandle, s'.sessionHandle ≠ some session →
    Place.performing ∉ s.threads ∧ Place.performing ∉ s'.threads

def RetriesAnswered (s : Client) : Event → Prop
  | .fault i faultCodes =>
    s.threads[i]? = some .performing → faultCodes ≠ [] →
      (∀ code ∈ faultCodes, code = some Session.acsErrorRetryRequest) →
        ∀ message ∈ s.httpMessageBeingSent, message.text ≠ [] →
          (parseFault faultCodes s).map Prod.fst = some (some message.text)
  | _ => True

def AnswersLaunched (s : Client) : Event → Prop
  | .fault i faultCodes =>
    s.threads[i]? = some .performing → faultCodes ≠ [] →
      (∀ code ∈ faultCodes, code = some Session.acsErrorRetryRequest) →
        ∀ message ∈ s.httpMessageBeingSent, message.text ≠ [] → s.launched = some message.text
  | _ => True

end Tr069Agent.Com.HttpClient
