import Mathlib.Data.List.Basic
import Mathlib.Tactic.Common
import Tr069Agent.Library.Text

/-! # Transfer requests and download requests

The queue of transfer requests is kept by growing transfer time; a request is found again by the
number it got when it was inserted. The download requests of the device form a plain queue.
-/

namespace Tr069Agent.Engine

open Library

set_option autoImplicit false

inductive TransferRequestState where
  | undefined
  | notYetStarted
  | inProgress
  | completed
  deriving DecidableEq

structure TransferRequest where
  isDownload : Bool
  state : TransferRequestState
  transferTime : Int
  fileType : Option Text
  url : Option Text
  username : Option Text
  password : Option Text
  fileSize : Nat
  targetFileName : Option Text
  successURL : Option Text
  failureURL : Option Text
  commandKey : Option Text
  announceURL : Option Text
  faultCode : Nat
  startTime : Int
  completeTime : Int
  transferId : Nat
  deriving DecidableEq

structure ArgStruct where
  name : Text
  value : Option Text
  deriving DecidableEq

structure DownloadRequest where
  fileType : Text
  args : Option (List ArgStruct)
  deriving DecidableEq

namespace TransferQueue

/-- `DM_ENG_ParameterData_insertTransferRequest`, without the numbering: before the first request
that is due later. -/
def insert (tr : TransferRequest) : List TransferRequest → List TransferRequest
  | [] => [tr]
  | curr :: queue =>
    if tr.transferTime ≥ curr.transferTime then curr :: insert tr queue else tr :: curr :: queue

/-- The first request of that number is removed. -/
def remove (queue : List TransferRequest) (transferId : Nat) : List TransferRequest :=
  queue.eraseP fun tr => tr.transferId = transferId

/-- The first request of that number gets a new state, result and times. -/
def update (transferId : Nat) (state : TransferRequestState) (code : Nat) (start comp : Int) :
    List TransferRequest → List TransferRequest
  | [] => []
  | curr :: queue =>
    if curr.transferId = transferId then
      { curr with state, faultCode := code, startTime := start, completeTime := comp } :: queue
    else curr :: update transferId state code start comp queue

/-- `DM_ENG_ParameterManager_getTransferResult`: the first completed request. -/
def getTransferResult (queue : List TransferRequest) : Option TransferRequest :=
  queue.find? fun tr => tr.state = .completed

/-- Every completed request is removed by its number. -/
def removeAllTransferResults (queue : List TransferRequest) : List TransferRequest :=
  queue.foldl (fun left tr => if tr.state = .completed then remove left tr.transferId else left) queue

/-- The numbers of the completed requests. -/
def completedIds (queue : List TransferRequest) : List Nat :=
  (queue.filter fun tr => tr.state = .completed).map TransferRequest.transferId

def ids (queue : List TransferRequest) : List Nat := queue.map TransferRequest.transferId

end TransferQueue

end Tr069Agent.Engine
