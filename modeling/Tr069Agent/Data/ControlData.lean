import Mathlib.Data.List.Basic
import Mathlib.Tactic.Common
import Tr069Agent.Data.LineFile
import Tr069Agent.Engine.EventStruct
import Tr069Agent.Engine.TransferRequest
import Tr069Agent.Library.Decimal
import Tr069Agent.Library.Scanner

/-! # The control data file

One line of events, one line of times and command keys, a line for each transfer request and, behind
a line with a hash sign, a line for each download request. The fields are separated by semicolons and
an underscore stands for a missing text.
-/

namespace Tr069Agent.Data

open Library Library.Lines Library.Decimal Engine

set_option autoImplicit false

structure ControlData where
  events : List EventStruct
  periodicInformTime : Int
  sScheduledInformTime : Option Text
  sScheduledInformCommandKey : Option Text
  sRebootCommandKey : Option Text
  retryCount : Int
  transferRequests : List TransferRequest
  downloadRequests : List DownloadRequest
  deriving DecidableEq

/-- The control data and the number given last to a transfer request, which no file holds. -/
structure DmControl extends ControlData where
  lastTransferId : Nat
  deriving DecidableEq

def DmControl.empty : DmControl where
  events := []
  periodicInformTime := 0
  sScheduledInformTime := none
  sScheduledInformCommandKey := none
  sRebootCommandKey := none
  retryCount := 0
  transferRequests := []
  downloadRequests := []
  lastTransferId := 0

section Writing

def nullCode : Text := "_".toList

def orNullCode (text : Option Text) : Text := text.getD nullCode

def TransferRequestState.toInt : TransferRequestState → Int
  | .undefined => 0
  | .notYetStarted => 1
  | .inProgress => 2
  | .completed => 3

def eventsLine : List EventStruct → Text
  | [] => []
  | [evt] => evt.eventCode.text ++ ';' :: orNullCode evt.commandKey
  | evt :: next => evt.eventCode.text ++ ';' :: (orNullCode evt.commandKey ++ ';' :: eventsLine next)

def othersLine (data : ControlData) : Text :=
  join ';' [showInt data.periodicInformTime, orNullCode data.sScheduledInformTime,
    orNullCode data.sScheduledInformCommandKey, orNullCode data.sRebootCommandKey,
    showInt data.retryCount]

def transferLine (dr : TransferRequest) : Text :=
  join ';' [showInt (if dr.isDownload then 1 else 0), showInt (TransferRequestState.toInt dr.state),
    showInt dr.transferTime, orNullCode dr.fileType, orNullCode dr.url, orNullCode dr.username,
    orNullCode dr.password, showInt dr.fileSize, orNullCode dr.targetFileName,
    orNullCode dr.successURL, orNullCode dr.failureURL, orNullCode dr.commandKey,
    orNullCode dr.announceURL, showInt dr.faultCode, showInt dr.startTime, showInt dr.completeTime,
    showInt dr.transferId]

/-- `DM_ENG_tablen`: no array counts as an empty one. -/
def tablen {α : Type} (list : Option (List α)) : Nat := (list.getD []).length

def argText (arg : ArgStruct) : Text := ';' :: (arg.name ++ ';' :: orNullCode arg.value)

def downloadLine (dr : DownloadRequest) : Text :=
  dr.fileType ++ ';' :: (showInt (tablen dr.args) ++ (dr.args.getD []).flatMap argText)

def downloadLines (requests : List DownloadRequest) : List Text :=
  if requests = [] then [] else "#".toList :: requests.map downloadLine

def controlLines (data : ControlData) : List Text :=
  eventsLine data.events :: othersLine data ::
    (data.transferRequests.map transferLine ++ downloadLines data.downloadRequests)

def writeDmControl (data : ControlData) : Text := writeFile (controlLines data)

end Writing

section Reading

def endsToken (c : Char) : Bool := c = ';' || belowSpace c

/-- `nextToken` on the text at the static pointer: the token and the text it leaves. -/
def nextToken (it : Text) : Option Text × Text :=
  let (res, it) := cut endsToken it
  (if res.head? = some '_' then none else some res, it)

def token : Scanner Text (Option Text) := fun it => some (nextToken it)

/-- `atol(nextToken(NULL))`, which is undefined for a missing text. -/
def number : Scanner Text Int := do
  let text ← token
  match text with
  | none => failure
  | some text => return atol text

/-- `nextToken(NULL)` copied with `strdup`, which is undefined for a missing text. -/
def text : Scanner Text Text := do
  let text ← token
  match text with
  | none => failure
  | some text => return text

/-- The conversion to `unsigned int`. -/
def toUnsigned (n : Int) : Nat := (n % 2 ^ 32).toNat

/-- Other numbers than these are never written. -/
def TransferRequestState.ofInt (s : Int) : Scanner Text TransferRequestState :=
  if s = 0 then return .undefined
  else if s = 1 then return .notYetStarted
  else if s = 2 then return .inProgress
  else if s = 3 then return .completed
  else failure

/-- The loop of `setEvents`; each round takes at least one character. -/
def readEvents : Nat → Text → List EventStruct
  | 0, _ => []
  | fuel + 1, it =>
    match nextToken it with
    | (none, _) => []
    | (some [], _) => []
    | (some code, it) =>
      let (key, it) := nextToken it
      { eventCode := .intern code, commandKey := key } :: readEvents fuel it

def setEvents (line : Option Text) (data : DmControl) : DmControl :=
  match line with
  | none => data
  | some line => { data with events := data.events ++ readEvents (line.length + 1) line }

def scanOthers (data : DmControl) : Scanner Text DmControl := do
  let periodicInformTime ← number
  let sScheduledInformTime ← token
  let sScheduledInformCommandKey ← token
  let sRebootCommandKey ← token
  let next ← token
  let retryCount := match next with
    | none => 0
    | some next => atol next
  return { data with periodicInformTime, sScheduledInformTime, sScheduledInformCommandKey,
                     sRebootCommandKey, retryCount }

def setOthersData (line : Option Text) (data : DmControl) : Option DmControl :=
  match line with
  | none => some data
  | some line => (scanOthers data).run' line

def scanTransferRequest : Scanner Text TransferRequest := do
  let d ← number
  let s ← number
  let transferTime ← number
  let fileType ← token
  let url ← token
  let username ← token
  let password ← token
  let fs ← number
  let targetFileName ← token
  let successURL ← token
  let failureURL ← token
  let commandKey ← token
  let announceURL ← token
  let code ← number
  let startTime ← number
  let completeTime ← number
  let id ← number
  let state ← TransferRequestState.ofInt s
  return { isDownload := d ≠ 0, state, transferTime, fileType, url, username, password,
           fileSize := toUnsigned fs, targetFileName, successURL, failureURL, commandKey, announceURL,
           faultCode := toUnsigned code, startTime, completeTime, transferId := toUnsigned id }

/-- `DM_ENG_addTransferRequest`: by growing transfer time, but never before the first request. -/
def addTransferRequest (queue : List TransferRequest) (newDR : TransferRequest) :
    List TransferRequest :=
  match queue with
  | [] => [newDR]
  | dr :: next => dr :: TransferQueue.insert newDR next

def addNewTransferRequest (line : Text) (data : DmControl) : Option DmControl := do
  let dr ← scanTransferRequest.run' line
  return { data with lastTransferId := max data.lastTransferId dr.transferId,
                     transferRequests := addTransferRequest data.transferRequests dr }

def scanArg : Scanner Text ArgStruct := do
  let name ← text
  let value ← token
  return { name, value }

/-- The size of the local array of arguments. -/
def arraySize (nbArgs : Int) : Scanner Text Nat := if nbArgs < 0 then failure else return nbArgs.toNat

def scanDownloadRequest : Scanner Text DownloadRequest := do
  let fileType ← text
  let nbArgs ← number
  let size ← arraySize nbArgs
  let args ← scanArg.times size
  return { fileType, args := some args }

def addNewDownloadRequest (line : Text) (data : DmControl) : Option DmControl := do
  let dr ← scanDownloadRequest.run' line
  return { data with downloadRequests := data.downloadRequests ++ [dr] }

/-- The last loop of `_readDmControl`, over the lines up to the end of the data. -/
def readDownloads : List Text → DmControl → Option DmControl
  | [], data => some data
  | line :: lines, data => do readDownloads lines (← addNewDownloadRequest line data)

def readTransfers : List Text → DmControl → Option DmControl
  | [], data => some data
  | line :: lines, data =>
    if line.head? = some '#' then readDownloads lines data
    else do readTransfers lines (← addNewTransferRequest line data)

/-- `_releaseCtrl` leaves the retry count, the download requests and the last number. -/
def releaseCtrl (data : DmControl) : DmControl :=
  { data with events := [], periodicInformTime := 0, sScheduledInformTime := none,
              sScheduledInformCommandKey := none, sRebootCommandKey := none, transferRequests := [] }

/-- `_readDmControl` on a file that is newer than the data. -/
def readDmControl (data : DmControl) (file : Text) : Option DmControl := do
  let data := releaseCtrl data
  let (_, checked) := readLines (.open file)
  if checked.crcOK then
    let (line, fp) := readln { LineReader.open file with crcOK := true }
    let data := setEvents line data
    let (line, fp) := readln fp
    let data ← setOthersData line data
    readTransfers (readLines fp).1 data
  else return data

end Reading

end Tr069Agent.Data
