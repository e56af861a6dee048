import Tr069Agent.Engine.EventStruct
import Tr069Agent.Engine.TransferRequest
import Tr069Agent.Library.Transition

/-! # The Inform message scheduler

The scheduler thread moves the pending events to the persistent list, sends an Inform and waits for
the end of the session; the threads that call the engine add events, report the ACS's answers and
close the session. `Scheduler` is the data of the program, `History` what happened to the messages.
A step is what one thread does while it holds the mutex of the data it touches.
-/

namespace Tr069Agent.Engine

open Library

set_option autoImplicit false

inductive NotificationStatus where
  | completed
  | sessionOpening
  | sessionOpened
  | cancelled
  deriving DecidableEq

/-- Where the scheduler thread is: at the top of its loop, after `manageEvents`, waiting for events,
waiting for the end of the session, or past a session that did not start. It holds the scheduler
mutex but for the two waits. -/
inductive Phase where
  | top
  | managed
  | waiting
  | inSession
  | done
  deriving DecidableEq

structure Scheduler where
  phase : Phase
  retryOn : Bool
  inSession : Bool
  sendMessageStatus : NotificationStatus
  transferIdSending : Nat
  requestDownloadSending : Bool
  pendingEvents : List EventStruct
  events : List EventStruct
  transferRequests : List TransferRequest
  lastTransferId : Nat
  downloadRequests : List DownloadRequest
  deriving DecidableEq

namespace Scheduler

def init : Scheduler where
  phase := .waiting
  retryOn := false
  inSession := false
  sendMessageStatus := .completed
  transferIdSending := 0
  requestDownloadSending := false
  pendingEvents := []
  events := []
  transferRequests := []
  lastTransferId := 0
  downloadRequests := []

/-- The scheduler thread waits, so another thread may take the scheduler mutex. -/
def mutexFree (s : Scheduler) : Bool := s.phase = .waiting || s.phase = .inSession

def sessionRunning (s : Scheduler) : Bool :=
  s.sendMessageStatus = .sessionOpening || s.sendMessageStatus = .sessionOpened

def nothingInFlight (s : Scheduler) : Bool := s.transferIdSending = 0 && !s.requestDownloadSending

def addEvent (es : EventStruct) (s : Scheduler) : Scheduler :=
  { s with pendingEvents := EventList.add s.pendingEvents es }

/-- A request that is due is applied; the device answers 0 (done), 1 (begun) or a fault code. -/
def applyTransferRequest (now : Int) (device : Nat → Nat) (tr : TransferRequest) : TransferRequest :=
  if tr.state = .notYetStarted ∧ tr.transferTime ≤ now then
    if device tr.transferId = 1 then
      { tr with state := .inProgress, faultCode := 0, startTime := 0, completeTime := 0 }
    else
      { tr with
        state := .completed
        faultCode := device tr.transferId
        startTime := now
        completeTime := if device tr.transferId = 0 then now else 0 }
  else tr

def addIfAbsent (events : List EventStruct) (evCode : EventCode) : List EventStruct :=
  if EventList.isInEvents events evCode then events else EventList.add events ⟨evCode, none⟩

def transferEvent (tr : TransferRequest) : EventCode :=
  match tr.commandKey with
  | none => .autonomousTransferComplete
  | some _ => .transferComplete

/-- What `manageEvents` finds when it looks at the clock and asks the device. -/
structure Due where
  now : Int
  periodic : Bool
  scheduled : List (Option Text)
  device : Nat → Nat

def scheduledEvents (events : List EventStruct) (scheduled : List (Option Text)) : List EventStruct :=
  scheduled.foldl
    (fun evts ck => EventList.add (addIfAbsent evts .scheduled) ⟨.mScheduleInform, ck⟩) events

def transferEvents (events : List EventStruct) (queue : List TransferRequest) : List EventStruct :=
  queue.foldl (fun evts tr => if tr.state = .completed then addIfAbsent evts (transferEvent tr) else evts)
    events

def manageEvents (due : Due) (s : Scheduler) : Scheduler :=
  let queue := s.transferRequests.map (applyTransferRequest due.now due.device)
  let moved := EventList.addAll s.events s.pendingEvents
  let periodic := if due.periodic then addIfAbsent moved .periodic else moved
  let withTransfers := transferEvents (scheduledEvents periodic due.scheduled) queue
  { s with
    pendingEvents := []
    transferRequests := queue
    events := if s.downloadRequests = [] then withTransfers
      else addIfAbsent withTransfers .requestDownload }

/-- The thread waits when a retry is due, there is nothing to send or a session just ended. -/
def mustWait (s : Scheduler) : Bool := s.retryOn || s.events = [] || s.inSession

/-- The retry flag stays when an event was added as the thread released its mutex. -/
def waitEvents (eventAdded : Bool) (s : Scheduler) : Scheduler :=
  { s with phase := .waiting, inSession := false, retryOn := s.retryOn && eventAdded }

def updateValueChangeEvent (valueChanged : Bool) (events : List EventStruct) : List EventStruct :=
  if EventList.isInEvents events .valueChange then
    if valueChanged then events else EventList.deleteEvent events .valueChange
  else if valueChanged then EventList.add events ⟨.valueChange, none⟩
  else events

def addMTransferEvents (queue : List TransferRequest) (events : List EventStruct) : List EventStruct :=
  queue.foldl
    (fun evts tr =>
      if tr.state = .completed ∧ tr.commandKey.isSome then
        EventList.add evts ⟨if tr.isDownload then .mDownload else .mUpload, tr.commandKey⟩
      else evts) events

def deleteMTransferEvents (events : List EventStruct) : List EventStruct :=
  EventList.deleteEvent (EventList.deleteEvent events .mDownload) .mUpload

/-- The events of the Inform that `sendMessage` sends, if it sends one. -/
def informEvents (ready valueChanged : Bool) (s : Scheduler) : Option (List EventStruct) :=
  let events := updateValueChangeEvent valueChanged s.events
  if !ready || events = [] then none else some (addMTransferEvents s.transferRequests events)

/-- `sendMessage`; `outcome` is the result of the Inform callback. -/
def sendMessage (ready valueChanged : Bool) (outcome : NotificationStatus) (s : Scheduler) : Scheduler :=
  if !ready then { s with sendMessageStatus := .cancelled, phase := .done, inSession := true }
  else
    let events := updateValueChangeEvent valueChanged s.events
    if events = [] then
      { s with sendMessageStatus := .cancelled, phase := .done, inSession := true, events }
    else
      { s with
        inSession := true
        phase := if outcome = .sessionOpening ∨ outcome = .sessionOpened then .inSession else .done
        sendMessageStatus := outcome
        events := deleteMTransferEvents (addMTransferEvents s.transferRequests events)
        transferRequests := if outcome = .completed then
            TransferQueue.removeAllTransferResults s.transferRequests
          else s.transferRequests
        downloadRequests := if outcome = .completed then [] else s.downloadRequests }

/-- `DM_ACS_TransfertComplete`: the status it returns, whatever `DM_SendHttpMessage` says. -/
def transfertComplete (commandKey : Option Text) (_sent : Bool) : NotificationStatus :=
  match commandKey with
  | none => .cancelled
  | some _ => .sessionOpening

/-- `DM_ACS_RequestDownloadCallback`, for a file type that is always there. -/
def requestDownload (_fileType : Text) (_sent : Bool) : NotificationStatus := .sessionOpening

/-- A new attempt to report a result or a download request, when nothing is in flight. -/
def sendResult (sent : Bool) (s : Scheduler) : Scheduler :=
  match TransferQueue.getTransferResult s.transferRequests with
  | some tr =>
    let status := transfertComplete tr.commandKey sent
    { s with
      transferIdSending := if status ≠ .sessionOpening then 0 else tr.transferId
      transferRequests := if status = .completed then
          TransferQueue.remove s.transferRequests tr.transferId
        else s.transferRequests }
  | none =>
    match s.downloadRequests with
    | [] => s
    | dr :: rest =>
      let status := requestDownload dr.fileType sent
      { s with
        requestDownloadSending := decide (status = .sessionOpening)
        downloadRequests := if status = .completed then rest else s.downloadRequests }

def cancelOnTimeout (timedOut : Bool) (s : Scheduler) : Scheduler :=
  if s.sessionRunning ∧ timedOut then
    { s with
      sendMessageStatus := .cancelled
      transferIdSending := 0
      requestDownloadSending := false }
  else s

def mustSendResult (s : Scheduler) : Bool := s.sendMessageStatus = .sessionOpened && s.nothingInFlight

/-- The body of the session loop, after a wait that was ended by a signal or by the timeout. -/
def sessionLoop (timedOut sent : Bool) (s : Scheduler) : Scheduler :=
  let s := cancelOnTimeout timedOut s
  if s.mustSendResult then sendResult sent s else s

/-- After the session loop: a completed session clears the events, another one is retried. -/
def endOfSession (s : Scheduler) : Scheduler :=
  if s.sendMessageStatus = .completed then { s with phase := .top, events := [] }
  else { s with phase := .top, retryOn := true }

/-- The first half of `isSessionOpened`: the Inform is taken for transmitted. -/
def confirmOpening (openingOK : Bool) (s : Scheduler) : Scheduler :=
  if s.sendMessageStatus = .sessionOpening ∧ openingOK then
    { s with events := [], sendMessageStatus := .sessionOpened }
  else s

/-- The second half: the result or the download request in flight is taken for reported. -/
def dropInFlight (openingOK : Bool) (s : Scheduler) : Scheduler :=
  if s.sendMessageStatus = .sessionOpened ∧ openingOK then
    if s.transferIdSending ≠ 0 then
      { s with
        transferRequests := TransferQueue.remove s.transferRequests s.transferIdSending
        transferIdSending := 0 }
    else if s.requestDownloadSending then
      { s with downloadRequests := s.downloadRequests.tail, requestDownloadSending := false }
    else s
  else s

def isSessionOpened (openingOK : Bool) (s : Scheduler) : Scheduler :=
  dropInFlight openingOK (confirmOpening openingOK s)

/-- The part of `sessionClosed` done under the scheduler mutex. -/
def sessionClosed (success : Bool) (s : Scheduler) : Scheduler :=
  { s with
    sendMessageStatus := if success then .completed else .cancelled
    transferIdSending := 0
    requestDownloadSending := false }

def insertTransferRequest (tr : TransferRequest) (s : Scheduler) : Scheduler :=
  { s with
    lastTransferId := s.lastTransferId + 1
    transferRequests :=
      TransferQueue.insert { tr with transferId := s.lastTransferId + 1 } s.transferRequests }

/-- `processTransferCompleteResult` for a request of the queue. -/
def transferComplete (transferId code : Nat) (start comp : Int) (s : Scheduler) : Scheduler :=
  { s with
    transferRequests := TransferQueue.update transferId .completed code start comp s.transferRequests }

def addDownloadRequest (dr : DownloadRequest) (s : Scheduler) : Scheduler :=
  { s with downloadRequests := s.downloadRequests ++ [dr] }

end Scheduler

end Tr069Agent.Engine
