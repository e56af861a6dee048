import Tr069Agent.Engine.InformMessageScheduler
import Tr069Agent.Library.Mutex

/-! # The mutexes of a session

The scheduler, the HTTP sending thread, which delivers what the ACS answers, and the supervisor of
the session share four mutexes. A function is the list of the lock, unlock and wait operations it
makes, with calls for the functions it calls. What the rest of the engine, the clock and the ACS
decide is an outside choice.
-/

namespace Tr069Agent.Com.SessionLocks

open Engine Library Library.Mutex

set_option autoImplicit false

inductive Mutex where
  | scheduler
  | status
  | acsSession
  | httpSendThreadControl
  deriving DecidableEq

inductive Thread where
  | scheduler
  | httpSend
  | supervisor
  deriving DecidableEq

structure Data where
  sendMessageStatus : NotificationStatus
  bSession : Bool
  bIRTCInProgess : Bool
  cwmpSessionClosingFlag : Bool
  ignoreHttpNoContentMsgFlag : Bool
  httpMessageBeingSent : Bool
  pendingHttpMessages : Nat
  closeHttpSessionExpected : Bool
  /-- Whether the last message was taken by `DM_SendHttpMessage`, in each thread. -/
  messageSent : Thread → Bool

def Data.init : Data where
  sendMessageStatus := .completed
  bSession := false
  bIRTCInProgess := false
  cwmpSessionClosingFlag := false
  ignoreHttpNoContentMsgFlag := true
  httpMessageBeingSent := false
  pendingHttpMessages := 0
  closeHttpSessionExpected := false
  messageSent := fun _ => false

/-- What the engine does under the scheduler mutex, or towards the HTTP client, when a parameter is
committed or the data are unlocked: an event or a timeout, the start of the scheduler, and new
parameters of the ACS. -/
inductive Notice where
  | event
  | start
  | acsParameters
  deriving DecidableEq

inductive Header where
  | ok
  | noContent (ready : Bool)
  | contentLengthZero
  | other
  deriving DecidableEq

/-- What a request of the ACS makes the engine do, and the answer. -/
inductive RpcStep where
  | isSessionOpened
  | notice (n : Notice)
  | answer
  deriving DecidableEq

inductive Answer where
  | partialMessage
  | badBody
  | fault (retry : Bool)
  | request (steps : List RpcStep)
  | informResponse (known holdRequests ready : Bool)
  | transferResponse (known holdRequests ready : Bool)
  | unknown
  deriving DecidableEq

/-- How the Inform goes to the ACS: not at all, as nothing has changed, or through the callback,
which sends none when there is no IP address or the message cannot be built. -/
inductive InformCase where
  | unchanged
  | callback (ready : Bool)
  deriving DecidableEq

inductive Call where
  | run
  | runLoop
  | unlockParameters (notices : List Notice)
  | sendMessage (inform : Option InformCase)
  | inform (inform : InformCase)
  | informSent
  | openSession
  | setStatus (status : NotificationStatus)
  | sessionLoop
  | sessionStep
  | httpThread
  | sendLoop
  | nextMessage
  | perform
  | header (h : Header)
  | noContent (ready : Bool)
  | noContentReady (ready : Bool)
  | closingIfSent
  | data (a : Answer)
  | transferResponse (holdRequests ready : Bool)
  | askedReady (ready : Bool)
  | sendHttpMessage
  | handOver
  | isSessionOpened
  | openedBody
  | isReadyToClose
  | readyIfOpened
  | forceACSSessionToClose
  | closeACSSession (success : Bool)
  | closeHttp
  | leaveSession
  | sessionClosed (success : Bool)
  | endSession
  | supervise
  | checkSession
  deriving DecidableEq

/-- The passes of the scheduler's loop: it is stopped, it has nothing to send and waits, or it
sends an Inform. `waits` counts the waits for an event, the last wait groups events. -/
inductive RunChoice where
  | stopped (notices : List Notice)
  | pause (notices : List Notice) (waits : Nat) (lastWait again : Bool)
  | session (inform : Option InformCase)
  deriving DecidableEq

inductive Choice where
  | none
  | run (pass : RunChoice)
  | alive (alive : Bool)
  | sessionStep (timedOut sends : Bool)
  | initOK (ok : Bool)
  | performed
  | received (h : Header)
  | receivedData (a : Answer)
  | timedOut (timedOut : Bool)
  deriving DecidableEq

abbrev Code := List (Command Mutex Call)

open Command Call

def noticeCode : Notice → Code
  | .event => [lock .scheduler, unlock .scheduler]
  | .start => [lock .scheduler, lock .httpSendThreadControl, unlock .httpSendThreadControl,
      unlock .scheduler]
  | .acsParameters => [lock .httpSendThreadControl, unlock .httpSendThreadControl]

def rpcCode : RpcStep → Code
  | .isSessionOpened => [call isSessionOpened]
  | .notice n => noticeCode n
  | .answer => [call sendHttpMessage]

def runPass : RunChoice → Code
  | .stopped notices =>
    [unlock .scheduler, call (unlockParameters notices), lock .scheduler]
  | .pause notices waits lastWait again =>
    [unlock .scheduler, call (unlockParameters notices), lock .scheduler] ++
      List.replicate waits (wait .scheduler) ++
      if lastWait then
        wait .scheduler ::
          if again then [unlock .scheduler, lock .scheduler, call runLoop] else []
      else []
  | .session informed => [call (sendMessage informed), call sessionLoop, call runLoop]

def sessionRunning (data : Data) : Bool :=
  data.sendMessageStatus = .sessionOpening || data.sendMessageStatus = .sessionOpened

/-- A timeout cancels the session; a result is sent when the session is opened. -/
def sessionStepBody (timedOut sends : Bool) (data : Data) : Data × Code :=
  let status := if timedOut && sessionRunning data then .cancelled else data.sendMessageStatus
  ({ data with sendMessageStatus := status },
    if status = .sessionOpened && sends then [call sendHttpMessage] else [])

/-- The part of `DM_SendHttpMessage` under its mutex. `ok` tells whether the session handle and the
thread can be made. -/
def handOverBody (t : Thread) (ok : Bool) (data : Data) : Data :=
  if data.closeHttpSessionExpected then
    { data with messageSent := Function.update data.messageSent t false }
  else if data.httpMessageBeingSent then
    { data with
      pendingHttpMessages := data.pendingHttpMessages + 1
      messageSent := Function.update data.messageSent t true }
  else
    { data with
      httpMessageBeingSent := ok
      messageSent := Function.update data.messageSent t ok }

def closeHttpBody (data : Data) : Data :=
  { data with
    closeHttpSessionExpected := data.httpMessageBeingSent
    pendingHttpMessages := 0 }

def headerBody (data : Data) : Header → Data × Code
  | .ok =>
    ({ data with ignoreHttpNoContentMsgFlag := false },
      if data.cwmpSessionClosingFlag then [call (closeACSSession true)] else [])
  | .noContent ready =>
    if data.ignoreHttpNoContentMsgFlag then
      ({ data with ignoreHttpNoContentMsgFlag := false }, [])
    else (data, [lock .acsSession, call (noContent ready), unlock .acsSession])
  | .contentLengthZero =>
    (data, if data.bIRTCInProgess && !data.cwmpSessionClosingFlag then
      [call sendHttpMessage, call closingIfSent] else [])
  | .other => (data, [])

def noContentBody (ready : Bool) (data : Data) : Code :=
  if data.bSession then
    if data.bIRTCInProgess then [call (closeACSSession true)]
    else [call isReadyToClose, call (noContentReady ready)]
  else []

def updateAcsSessionTimer : Code := [lock .acsSession, unlock .acsSession]

def dataBody : Answer → Code
  | .partialMessage => []
  | .badBody => [call sendHttpMessage]
  | .fault retry =>
    updateAcsSessionTimer ++ [call (if retry then sendHttpMessage else forceACSSessionToClose)]
  | .request steps => updateAcsSessionTimer ++ steps.flatMap rpcCode
  | .informResponse known holdRequests ready =>
    updateAcsSessionTimer ++
      if known then
        if holdRequests then [call sendHttpMessage] else [call isReadyToClose, call (askedReady ready)]
      else []
  -- the mutex is given back even when it has not been taken
  | .transferResponse known holdRequests ready =>
    updateAcsSessionTimer ++
      (if known then [lock .acsSession, call (transferResponse holdRequests ready)] else []) ++
      [unlock .acsSession]
  | .unknown => updateAcsSessionTimer ++ [call forceACSSessionToClose]

def transferResponseBody (holdRequests ready : Bool) (data : Data) : Code :=
  if data.bSession then
    if holdRequests then [call sendHttpMessage] else [call isReadyToClose, call (askedReady ready)]
  else []

/-- What a call does to the data and the code that stands for it, where it can happen. -/
def body (t : Thread) (choice : Choice) (data : Data) (f : Call) : Option (Data × Code) :=
  match f, choice with
  | .run, _ => some (data, [lock .scheduler, call runLoop, unlock .scheduler, call run])
  | .runLoop, .run pass => some (data, runPass pass)
  | .unlockParameters notices, _ => some (data, notices.flatMap noticeCode)
  | .sendMessage informed, _ =>
    some ({ data with sendMessageStatus := .cancelled },
      match informed with
      | none => []
      | some case => [lock .status, call (inform case), unlock .status])
  | .inform .unchanged, _ => some (data, [call (setStatus .completed)])
  | .inform (.callback ready), _ =>
    some (data, if ready then [call sendHttpMessage, call informSent]
      else [call (setStatus .cancelled)])
  | .informSent, _ =>
    some (data, if data.messageSent t then
      [lock .acsSession, call openSession, unlock .acsSession, call (setStatus .sessionOpening)]
      else [call (setStatus .cancelled)])
  | .openSession, _ => some ({ data with bSession := true }, [])
  | .setStatus status, _ => some ({ data with sendMessageStatus := status }, [])
  | .sessionLoop, .alive alive =>
    some (data, if alive && sessionRunning data then
      [wait .scheduler, lock .status, call sessionStep, unlock .status, call sessionLoop] else [])
  | .sessionStep, .sessionStep timedOut sends => some (sessionStepBody timedOut sends data)
  | .httpThread, _ =>
    if data.httpMessageBeingSent then
      some (data, [lock .httpSendThreadControl, call sendLoop, unlock .httpSendThreadControl,
        call httpThread])
    else none
  | .sendLoop, _ =>
    if data.httpMessageBeingSent then
      some (data, [unlock .httpSendThreadControl, call perform, lock .httpSendThreadControl,
        call nextMessage, call sendLoop])
    else some (if data.closeHttpSessionExpected then closeHttpBody data else data, [])
  | .nextMessage, _ =>
    some ({ data with
        httpMessageBeingSent := data.pendingHttpMessages ≠ 0
        pendingHttpMessages := data.pendingHttpMessages - 1 }, [])
  | .perform, .performed => some (data, [])
  | .perform, .received h => some (data, [call (header h), call perform])
  | .perform, .receivedData a => some (data, [call (.data a), call perform])
  | .header h, _ => some (headerBody data h)
  | .noContent ready, _ => some (data, noContentBody ready data)
  | .noContentReady ready, _ =>
    some ({ data with bIRTCInProgess := ready },
      if ready then [call sendHttpMessage, call closingIfSent] else [])
  | .closingIfSent, _ =>
    some ({ data with
        cwmpSessionClosingFlag := data.messageSent t || data.cwmpSessionClosingFlag }, [])
  | .data a, _ => some (data, dataBody a)
  | .transferResponse holdRequests ready, _ =>
    some (data, transferResponseBody holdRequests ready data)
  | .askedReady ready, _ =>
    some ({ data with bIRTCInProgess := ready || data.bIRTCInProgess },
      if ready then [call sendHttpMessage] else [])
  | .sendHttpMessage, _ =>
    some (data, [lock .httpSendThreadControl, call handOver, unlock .httpSendThreadControl])
  | .handOver, .initOK ok => some (handOverBody t ok data, [])
  | .isSessionOpened, _ => some (data, [lock .status, call openedBody, unlock .status])
  | .openedBody, _ =>
    some ({ data with
        sendMessageStatus :=
          if data.sendMessageStatus = .sessionOpening then .sessionOpened
          else data.sendMessageStatus }, [])
  | .isReadyToClose, _ => some (data, [call isSessionOpened, call readyIfOpened])
  | .readyIfOpened, _ =>
    some (data, if data.sendMessageStatus = .sessionOpened then [lock .status, unlock .status] else [])
  | .forceACSSessionToClose, _ =>
    some (data, [lock .acsSession, call (closeACSSession false), unlock .acsSession])
  | .closeACSSession success, _ =>
    some ({ data with bSession := false },
      [lock .httpSendThreadControl, call closeHttp, unlock .httpSendThreadControl,
        call leaveSession, call (sessionClosed success), call endSession])
  | .closeHttp, _ => some (closeHttpBody data, [])
  | .leaveSession, _ =>
    some ({ data with
        ignoreHttpNoContentMsgFlag := true
        cwmpSessionClosingFlag := false }, [])
  | .sessionClosed success, _ =>
    some (data, (if success then [call isSessionOpened] else []) ++
      [lock .scheduler, call (setStatus (if success then .completed else .cancelled)),
        unlock .scheduler])
  | .endSession, _ => some ({ data with bIRTCInProgess := false }, [])
  | .supervise, _ =>
    some (data, [lock .acsSession, call checkSession, unlock .acsSession, call supervise])
  | .checkSession, .timedOut timedOut =>
    some (data, if data.bSession && timedOut then [call (closeACSSession false)] else [])
  | _, _ => none

abbrev Agent := Mutex.State Thread SessionLocks.Mutex Call Data

def init : Agent where
  owner _ := none
  code
    | .scheduler => [call run]
    | .httpSend => [call httpThread]
    | .supervisor => [call supervise]
  data := .init

abbrev step (s : Agent) (l : Thread × Choice) : Option Agent := Mutex.State.step body s l

end Tr069Agent.Com.SessionLocks
