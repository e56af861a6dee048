import Tr069Agent.Data.TransferOrder

/-! # The reports of completed transfers

The device reports a transfer by its number. The report is processed at once or, while the data are locked,
by the owner of the lock before it unlocks them, and the request is looked for in the queue only then.
-/

namespace Tr069Agent.Data

open Library Library.Transition Engine

set_option autoImplicit false

/-- The transfer data with the lock and the reports that wait for it. `nullUsed` tells whether a request that
was not found was used, `present` has the numbers that were given to requests and not removed. -/
structure TransferManager where
  data : TransferData
  locked : Bool
  pendingChanges : List TransferRequest
  nullUsed : Bool
  present : List Nat

def TransferManager.init : TransferManager where
  data := .init
  locked := false
  pendingChanges := []
  nullUsed := false
  present := []

inductive ManagerAction where
  | operation (op : TransferOperation)
  | lock
  | processPending
  | unlock
  | transferComplete (transferId code : Nat) (startTime completeTime : Int)
  | autonomousTransferComplete (result : TransferRequest)
  deriving DecidableEq

namespace TransferManager

section Reports

variable (actionAfterDownload : Option Text → Option Text → Nat)

/-- `processTransferCompleteResult`, which does not test whether the update has found the request. -/
def processTransferCompleteResult (result : TransferRequest) (s : TransferManager) : TransferManager :=
  if result.transferId = 0 then
    let data := s.data.insertTransferRequest result
    { s with data, present := data.lastTransferId :: s.present }
  else
    match s.data.transferRequests.find? fun tr => tr.transferId = result.transferId with
    | none => { s with nullUsed := true }
    | some updated =>
      let faultCode := if result.faultCode = 0 then actionAfterDownload updated.fileType updated.targetFileName
        else result.faultCode
      let transferRequests := TransferQueue.update result.transferId .completed faultCode result.startTime
        result.completeTime s.data.transferRequests
      { s with data.transferRequests := transferRequests }

/-- The record that carries a report. -/
def newResult (transferId code : Nat) (startTime completeTime : Int) : TransferRequest where
  isDownload := true
  state := .completed
  transferTime := 0
  fileType := none
  url := none
  username := none
  password := none
  fileSize := 0
  targetFileName := none
  successURL := none
  failureURL := none
  commandKey := none
  announceURL := none
  faultCode := code
  startTime
  completeTime
  transferId

/-- Processed when the lock is free, and put off when it is not. -/
def report (result : TransferRequest) (s : TransferManager) : TransferManager :=
  if s.locked then { s with pendingChanges := s.pendingChanges ++ [result] }
  else processTransferCompleteResult actionAfterDownload result s

def operate (op : TransferOperation) (s : TransferManager) : Option TransferManager :=
  (s.data.step op).map fun data =>
    match op with
    | .insertTransferRequest _ => { s with data, present := data.lastTransferId :: s.present }
    | .updateTransferRequest _ _ _ _ _ => { s with data }
    | .removeTransferRequest transferId => { s with data, present := s.present.erase transferId }
    | .removeAllTransferResults =>
      { s with data, present := (TransferQueue.completedIds s.data.transferRequests).foldl List.erase s.present }
    | .setOthers _ => { s with data }
    | .reload restarted =>
      if restarted then { s with data, locked := false, pendingChanges := [] } else { s with data }

def step (s : TransferManager) : ManagerAction → Option TransferManager
  | .operation op => s.operate op
  | .lock => if s.locked then none else some { s with locked := true }
  | .processPending =>
    match s.pendingChanges with
    | [] => none
    | result :: next =>
      if s.locked then some (processTransferCompleteResult actionAfterDownload result { s with pendingChanges := next })
      else none
  | .unlock => some { s with locked := false }
  | .transferComplete transferId code startTime completeTime =>
    some (report actionAfterDownload (newResult transferId code startTime completeTime) s)
  | .autonomousTransferComplete result => some (report actionAfterDownload { result with transferId := 0 } s)

end Reports

/-- The number is zero, or that of a request that was inserted and not removed. -/
def Known (s : TransferManager) (transferId : Nat) : Prop := transferId = 0 ∨ transferId ∈ s.present

/-- The data that are read back are readable. -/
def ReadsBack (s : TransferManager) : ManagerAction → Prop
  | .operation (.reload _) => ReadableData s.data.toControlData
  | _ => True

/-- The reports that are processed are about known numbers. -/
def Reported (s : TransferManager) : ManagerAction → Prop
  | .transferComplete transferId _ _ _ => s.locked = false → s.Known transferId
  | .processPending => s.locked = true → ∀ result ∈ s.pendingChanges.head?, s.Known result.transferId
  | _ => True

/-- No request is used that is not in the queue. -/
def Handled (s : TransferManager) : Prop := s.nullUsed = false

structure Inv (s : TransferManager) : Prop where
  handled : s.Handled
  present : (TransferQueue.ids s.data.transferRequests).Perm s.present
  small : ∀ transferId ∈ s.present, transferId < 2 ^ 32

section Steps

open TransferQueue

theorem ids_remove (queue : List TransferRequest) (transferId : Nat) :
    ids (remove queue transferId) = (ids queue).erase transferId := by
  induction queue with
  | nil => rfl
  | cons tr queue ih =>
    by_cases hId : tr.transferId = transferId
    · simp [remove, ids, hId]
    · have hTail : ids (remove (tr :: queue) transferId) = tr.transferId :: ids (remove queue transferId) := by
        simp [remove, ids, hId]
      have hIds : ids (tr :: queue) = tr.transferId :: ids queue := rfl
      rw [hTail, ih, hIds, List.erase_cons_tail (by simpa using hId)]

theorem ids_removeAllTransferResults (queue : List TransferRequest) :
    ids (removeAllTransferResults queue) = (completedIds queue).foldl List.erase (ids queue) := by
  have hLoop : ∀ seen left : List TransferRequest,
      ids (seen.foldl (fun left tr => if tr.state = .completed then remove left tr.transferId else left) left) =
        (completedIds seen).foldl List.erase (ids left) := by
    intro seen
    induction seen with
    | nil => exact fun left => rfl
    | cons tr seen ih =>
      intro left
      rw [List.foldl_cons, ih]
      by_cases hState : tr.state = .completed
      · simp [completedIds, hState, ids_remove]
      · simp [completedIds, hState]
  exact hLoop queue queue

theorem ids_update (transferId : Nat) (state : TransferRequestState) (code : Nat) (start comp : Int)
    (queue : List TransferRequest) : ids (update transferId state code start comp queue) = ids queue := by
  rw [ids_eq_map_place, places_update, ids_eq_map_place]

theorem perm_foldl_erase {left right : List Nat} (h : left.Perm right) (removed : List Nat) :
    (removed.foldl List.erase left).Perm (removed.foldl List.erase right) := by
  induction removed generalizing left right with
  | nil => exact h
  | cons transferId removed ih => exact ih (h.erase transferId)

variable {s s' : TransferManager}

theorem perm_insertTransferRequest (h : (ids s.data.transferRequests).Perm s.present) (tr : TransferRequest) :
    (ids (s.data.insertTransferRequest tr).transferRequests).Perm
      ((s.data.insertTransferRequest tr).lastTransferId :: s.present) :=
  ((perm_insert _ _).map TransferRequest.transferId).trans (h.cons _)

theorem small_insertTransferRequest (h : ∀ transferId ∈ s.present, transferId < 2 ^ 32) (tr : TransferRequest) :
    ∀ transferId ∈ (s.data.insertTransferRequest tr).lastTransferId :: s.present, transferId < 2 ^ 32 :=
  List.forall_mem_cons.mpr ⟨Nat.mod_lt _ (by decide), h⟩

theorem subset_foldl_erase (removed present : List Nat) : removed.foldl List.erase present ⊆ present := by
  induction removed generalizing present with
  | nil => exact List.Subset.refl _
  | cons transferId removed ih => exact List.Subset.trans (ih _) List.erase_subset

/-- ReadableData data bring every number back. -/
theorem perm_reload {restarted : Bool} {data : TransferData} (h : s.Inv) (hRead : ReadableData s.data.toControlData)
    (hData : s.data.reload restarted = some data) : (ids data.transferRequests).Perm s.present := by
  obtain ⟨read, hFile, hQueue, -⟩ := exists_readDmControl hRead (if restarted then .empty else s.data.toDmControl)
  obtain rfl := Option.some.inj ((congrArg (Option.map _) hFile).symm.trans hData)
  have hIds : ids (s.data.transferRequests.map readBack) = ids s.data.transferRequests := by
    rw [ids, List.map_map]
    refine List.map_congr_left fun tr hMem => toUnsigned_natCast ?_
    exact h.small _ (h.present.subset (List.mem_map_of_mem hMem))
  dsimp only
  rw [hQueue]
  refine ((perm_foldl_addTransferRequest [] _).map _).trans ?_
  rw [List.nil_append]
  exact (List.Perm.of_eq hIds).trans h.present

theorem inv_operate (h : s.Inv) {op : TransferOperation} (hRead : s.ReadsBack (.operation op))
    (hStep : s.operate op = some s') : s'.Inv := by
  obtain ⟨data, hData, rfl⟩ := Option.map_eq_some_iff.mp hStep
  cases op with
  | insertTransferRequest tr =>
    obtain rfl := Option.some.inj hData
    exact ⟨h.handled, perm_insertTransferRequest h.present tr, small_insertTransferRequest h.small tr⟩
  | updateTransferRequest transferId state code start comp =>
    obtain rfl := Option.some.inj hData
    exact ⟨h.handled, (ids_update _ _ _ _ _ _).symm ▸ h.present, h.small⟩
  | removeTransferRequest transferId =>
    obtain rfl := Option.some.inj hData
    exact ⟨h.handled, (ids_remove _ _).symm ▸ h.present.erase transferId,
      fun id hMem => h.small id (List.mem_of_mem_erase hMem)⟩
  | removeAllTransferResults =>
    obtain rfl := Option.some.inj hData
    exact ⟨h.handled, (ids_removeAllTransferResults _).symm ▸ perm_foldl_erase h.present _,
      fun id hMem => h.small id (subset_foldl_erase _ _ hMem)⟩
  | setOthers others =>
    obtain rfl := Option.some.inj hData
    exact ⟨h.handled, h.present, h.small⟩
  | reload restarted =>
    have hQueue := perm_reload h hRead hData
    cases restarted
    · exact ⟨h.handled, hQueue, h.small⟩
    · exact ⟨h.handled, hQueue, h.small⟩

variable {actionAfterDownload : Option Text → Option Text → Nat} {result : TransferRequest}

theorem mem_present_iff (h : s.Inv) {transferId : Nat} :
    transferId ∈ s.present ↔ (s.data.transferRequests.find? fun tr => tr.transferId = transferId).isSome = true := by
  rw [← h.present.mem_iff, List.find?_isSome, ids]
  simp

theorem inv_processTransferCompleteResult (h : s.Inv) (hKnown : s.Known result.transferId) :
    (processTransferCompleteResult actionAfterDownload result s).Inv := by
  unfold processTransferCompleteResult
  split
  · exact ⟨h.handled, perm_insertTransferRequest h.present result, small_insertTransferRequest h.small result⟩
  · rename_i hId
    split
    · rename_i hNone
      have := (mem_present_iff h).mp (hKnown.resolve_left hId)
      rw [hNone] at this
      cases this
    · exact ⟨h.handled, (ids_update _ _ _ _ _ _).symm ▸ h.present, h.small⟩

theorem not_handled_processTransferCompleteResult (h : s.Inv) (hUnknown : ¬ s.Known result.transferId) :
    ¬ (processTransferCompleteResult actionAfterDownload result s).Handled := by
  rw [Known, not_or, mem_present_iff h, Option.not_isSome_iff_eq_none] at hUnknown
  unfold processTransferCompleteResult
  rw [if_neg hUnknown.1, hUnknown.2]
  exact fun hHandled => Bool.noConfusion hHandled

theorem inv_report (h : s.Inv) (hKnown : s.locked = false → s.Known result.transferId) :
    (report actionAfterDownload result s).Inv := by
  unfold report
  split
  · exact ⟨h.handled, h.present, h.small⟩
  · rename_i hFree
    exact inv_processTransferCompleteResult h (hKnown (by simpa using hFree))

theorem inv_step (h : s.Inv) {action : ManagerAction} (hRead : s.ReadsBack action) (hGuard : s.Reported action)
    (hStep : s.step actionAfterDownload action = some s') : s'.Inv := by
  cases action with
  | operation op => exact inv_operate h hRead hStep
  | lock =>
    simp only [step] at hStep
    split at hStep
    · cases hStep
    · obtain rfl := Option.some.inj hStep
      exact ⟨h.handled, h.present, h.small⟩
  | processPending =>
    simp only [step] at hStep
    split at hStep
    · cases hStep
    rename_i first next hPending
    split at hStep
    · rename_i hLocked
      obtain rfl := Option.some.inj hStep
      refine inv_processTransferCompleteResult ⟨h.handled, h.present, h.small⟩ ?_
      exact hGuard hLocked first (by rw [hPending]; rfl)
    · cases hStep
  | unlock =>
    obtain rfl := Option.some.inj hStep
    exact ⟨h.handled, h.present, h.small⟩
  | transferComplete transferId code startTime completeTime =>
    obtain rfl := Option.some.inj hStep
    exact inv_report h hGuard
  | autonomousTransferComplete result =>
    obtain rfl := Option.some.inj hStep
    exact inv_report h fun _ => .inl rfl

theorem not_handled_step (h : s.Inv) {action : ManagerAction} (hGuard : ¬ s.Reported action) :
    ∃ s', s.step actionAfterDownload action = some s' ∧ ¬ s'.Handled := by
  cases action with
  | transferComplete transferId code startTime completeTime =>
    obtain ⟨hFree, hUnknown⟩ := Classical.not_imp.mp hGuard
    refine ⟨_, rfl, ?_⟩
    rw [report, hFree]
    exact not_handled_processTransferCompleteResult h hUnknown
  | processPending =>
    obtain ⟨hLocked, hFirst⟩ := Classical.not_imp.mp hGuard
    cases hPending : s.pendingChanges with
    | nil => simp [hPending] at hFirst
    | cons first next =>
      have hUnknown : ¬ s.Known first.transferId := by simpa [hPending] using hFirst
      refine ⟨processTransferCompleteResult actionAfterDownload first { s with pendingChanges := next }, ?_, ?_⟩
      · simp only [step, hPending, hLocked, if_true]
      · exact not_handled_processTransferCompleteResult ⟨h.handled, h.present, h.small⟩ hUnknown
  | operation | lock | unlock | autonomousTransferComplete => exact absurd trivial hGuard

end Steps

end TransferManager

open TransferManager in
/-- As long as what is read back is readable, every completion is handled exactly when each report that is processed
is about a request that was inserted and not removed. -/
theorem completions_handled_iff (actionAfterDownload : Option Text → Option Text → Nat)
    (actions : List ManagerAction)
    (hRead : Along (TransferManager.step actionAfterDownload) ReadsBack TransferManager.init actions) :
    Throughout (TransferManager.step actionAfterDownload) Handled TransferManager.init actions ↔
      Along (TransferManager.step actionAfterDownload) Reported TransferManager.init actions :=
  throughout_iff_along_of_along (fun _ h => h.handled) (fun _ _ _ h hRead hGuard hStep => inv_step h hRead hGuard hStep)
    (fun _ _ h _ hGuard => not_handled_step h hGuard) ⟨rfl, List.Perm.refl _, fun _ hMem => nomatch hMem⟩ hRead

section Samples

instance (s : TransferManager) : Decidable s.Handled := inferInstanceAs (Decidable (s.nullUsed = false))

instance (s : TransferManager) (action : ManagerAction) : Decidable (s.ReadsBack action) :=
  match action with
  | .operation (.reload _) => inferInstanceAs (Decidable (ReadableData s.data.toControlData))
  | .operation (.insertTransferRequest _) | .operation (.updateTransferRequest _ _ _ _ _)
  | .operation (.removeTransferRequest _) | .operation .removeAllTransferResults | .operation (.setOthers _)
  | .lock | .processPending | .unlock | .transferComplete _ _ _ _ | .autonomousTransferComplete _ => isTrue trivial

/-- A restart between the insertion and the report. -/
theorem completions_handled_restart :
    Throughout (TransferManager.step fun _ _ => 0) TransferManager.Handled TransferManager.init
        [.operation (.insertTransferRequest (sampleTransfer .inProgress 100)), .operation (.reload true),
          .transferComplete 1 0 100 101] ↔
      Along (TransferManager.step fun _ _ => 0) TransferManager.Reported TransferManager.init
        [.operation (.insertTransferRequest (sampleTransfer .inProgress 100)), .operation (.reload true),
          .transferComplete 1 0 100 101] :=
  completions_handled_iff _ _ (by decide +kernel)

/-- The result has been sent and the request removed when the device reports it again; and a request whose address
holds a semicolon has lost its number when it is read back. -/
theorem repeated_report_uses_null :
    (¬ Throughout (TransferManager.step fun _ _ => 0) TransferManager.Handled TransferManager.init
        [.operation (.insertTransferRequest (sampleTransfer .inProgress 100)), .transferComplete 1 0 100 101,
          .operation (.removeTransferRequest 1), .transferComplete 1 0 100 101]) ∧
      ¬ Throughout (TransferManager.step fun _ _ => 0) TransferManager.Handled TransferManager.init
        [.operation (.insertTransferRequest splitTransfer), .operation (.reload true),
          .transferComplete 1 0 100 101] := by
  constructor
  · decide +kernel
  · decide +kernel

end Samples

end Tr069Agent.Data
