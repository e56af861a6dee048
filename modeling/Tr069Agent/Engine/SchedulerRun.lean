import Tr069Agent.Engine.InformMessageScheduler

/-! # Runs of the scheduler with the threads that call it

`History` keeps what the program does not: the events and results still to be acknowledged, what the
last Inform carried, and which messages the ACS has answered.
-/

namespace Tr069Agent.Engine

open Library Library.Transition

set_option autoImplicit false

structure History where
  informAnswered : Bool
  resultTransmitted : Bool
  resultAnswered : Bool
  owedEvents : List EventStruct
  carried : List EventStruct
  owedResults : List Nat
  owedDownloads : List DownloadRequest
  deriving DecidableEq

structure System where
  prog : Scheduler
  hist : History
  deriving DecidableEq

namespace System

def init : System where
  prog := .init
  hist :=
    { informAnswered := false
      resultTransmitted := false
      resultAnswered := false
      owedEvents := []
      carried := []
      owedResults := []
      owedDownloads := [] }

/-- The results that a step completes are owed to the ACS. -/
def owe (before after : Scheduler) (owed : List Nat) : List Nat :=
  owed ++ (TransferQueue.completedIds after.transferRequests).filter fun i =>
    i ∉ TransferQueue.completedIds before.transferRequests

/-- What happens, thread by thread: an event is added; the scheduler thread handles the pending
events, waits, wakes up, sends an Inform, goes through its session loop, leaves it; the ACS answers
the Inform or the message that reports a result; a call tests the session (any RPC, any connection
request, `sessionClosed` with success); the session is closed; a transfer request is inserted or
completes; the device asks for a download. -/
inductive Action where
  | addEvent (es : EventStruct)
  | manageEvents (due : Scheduler.Due)
  | waitEvents (eventAdded : Bool)
  | wakeUp
  | sendMessage (ready valueChanged : Bool) (outcome : NotificationStatus)
  | sessionLoop (timedOut sent : Bool)
  | endOfSession
  | acsAnswersInform
  | acsAnswersResult
  | isSessionOpened (openingOK : Bool)
  | sessionClosed (success : Bool)
  | insertTransferRequest (tr : TransferRequest)
  | transferComplete (transferId code : Nat) (start comp : Int)
  | requestDownload (dr : DownloadRequest)

def addEvent (es : EventStruct) (y : System) : System where
  prog := y.prog.addEvent es
  hist :=
    { y.hist with
      owedEvents := es :: y.hist.owedEvents
      carried := y.hist.carried.filter fun evt => !decide (evt = es) }

def manageEvents (due : Scheduler.Due) (y : System) : System :=
  let prog := y.prog.manageEvents due
  { prog := { prog with phase := .managed }
    hist :=
      { y.hist with
        owedEvents := y.hist.owedEvents ++ prog.events.filter fun evt => evt ∉ y.prog.events
        owedResults := owe y.prog prog y.hist.owedResults } }

/-- An Inform that completes at once is acknowledged, and then no result is reported. -/
def sendMessage (ready valueChanged : Bool) (outcome : NotificationStatus) (y : System) : System where
  prog := y.prog.sendMessage ready valueChanged outcome
  hist :=
    match y.prog.informEvents ready valueChanged with
    | none => { y.hist with informAnswered := false, carried := [] }
    | some events =>
      if outcome = .completed then
        { y.hist with
          informAnswered := true
          carried := events
          owedEvents := y.hist.owedEvents.filter fun evt => evt ∉ events
          owedResults := []
          owedDownloads := [] }
      else { y.hist with informAnswered := false, carried := events }

/-- The message of a new attempt is transmitted when it could be handed over. -/
def sessionLoop (timedOut sent : Bool) (y : System) : System where
  prog := y.prog.sessionLoop timedOut sent
  hist :=
    if (y.prog.cancelOnTimeout timedOut).mustSendResult then
      { y.hist with resultTransmitted := sent, resultAnswered := false }
    else y.hist

def acsAnswersInform (y : System) : System where
  prog := y.prog
  hist :=
    { y.hist with
      informAnswered := true
      owedEvents := y.hist.owedEvents.filter fun evt => evt ∉ y.hist.carried
      carried := [] }

/-- The message in flight is answered once; of the download requests only the first one is ever in
flight, and it is still owed when as many are owed as are in the list. -/
def acsAnswersResult (y : System) : System where
  prog := y.prog
  hist :=
    { y.hist with
      resultTransmitted := false
      resultAnswered := true
      owedResults := y.hist.owedResults.filter fun i => i ≠ y.prog.transferIdSending
      owedDownloads :=
        if y.prog.transferIdSending = 0 ∧
            y.hist.owedDownloads.length = y.prog.downloadRequests.length then
          y.hist.owedDownloads.tail
        else y.hist.owedDownloads }

def transferComplete (transferId code : Nat) (start comp : Int) (y : System) : System :=
  let prog := y.prog.transferComplete transferId code start comp
  { prog, hist := { y.hist with owedResults := owe y.prog prog y.hist.owedResults } }

def insertTransferRequest (tr : TransferRequest) (y : System) : System :=
  let prog := y.prog.insertTransferRequest tr
  { prog, hist := { y.hist with owedResults := owe y.prog prog y.hist.owedResults } }

def requestDownload (dr : DownloadRequest) (y : System) : System where
  prog := y.prog.addDownloadRequest dr
  hist := { y.hist with owedDownloads := y.hist.owedDownloads ++ [dr] }

/-- Whether the mutexes and the place of the scheduler thread allow the action. -/
def enabled (y : System) : Action → Bool
  | .addEvent _ => y.prog.mutexFree
  | .manageEvents _ => y.prog.phase = .top
  | .waitEvents _ => y.prog.phase = .managed && y.prog.mustWait
  | .wakeUp => y.prog.phase = .waiting
  | .sendMessage _ _ _ => y.prog.phase = .managed && !y.prog.mustWait
  | .sessionLoop _ _ => y.prog.phase = .inSession
  | .endOfSession =>
    y.prog.phase = .done || (y.prog.phase = .inSession && !y.prog.sessionRunning)
  | .acsAnswersInform => y.prog.phase = .inSession && !y.hist.informAnswered
  | .acsAnswersResult => y.hist.resultTransmitted && !y.prog.nothingInFlight
  | .isSessionOpened _ => true
  | .sessionClosed _ => y.prog.mutexFree
  | .insertTransferRequest _ => true
  | .transferComplete transferId _ _ _ =>
    decide (transferId ∈ TransferQueue.ids y.prog.transferRequests)
  | .requestDownload _ => true

def apply (y : System) : Action → System
  | .addEvent es => y.addEvent es
  | .manageEvents due => y.manageEvents due
  | .waitEvents eventAdded => { y with prog := y.prog.waitEvents eventAdded }
  | .wakeUp => { y with prog := { y.prog with phase := .top } }
  | .sendMessage ready valueChanged outcome => y.sendMessage ready valueChanged outcome
  | .sessionLoop timedOut sent => y.sessionLoop timedOut sent
  | .endOfSession => { y with prog := y.prog.endOfSession }
  | .acsAnswersInform => y.acsAnswersInform
  | .acsAnswersResult => y.acsAnswersResult
  | .isSessionOpened openingOK => { y with prog := y.prog.isSessionOpened openingOK }
  | .sessionClosed success => { y with prog := y.prog.sessionClosed success }
  | .insertTransferRequest tr => y.insertTransferRequest tr
  | .transferComplete transferId code start comp => y.transferComplete transferId code start comp
  | .requestDownload dr => y.requestDownload dr

def step (y : System) (a : Action) : Option System := if y.enabled a then some (y.apply a) else none

theorem step_eq_some {y y' : System} {a : Action} (h : step y a = some y') :
    y.enabled a = true ∧ y' = y.apply a := by
  unfold step at h
  split at h
  · rename_i hEnabled
    exact ⟨hEnabled, (Option.some.inj h).symm⟩
  · cases h

end System

end Tr069Agent.Engine
