import Tr069Agent.Engine.SchedulerRun

/-! # No transfer result is lost

A completed request stays in the queue, and a download request in its list, until the ACS has
answered the message that reported it. The result in flight is dropped by any call that tests the
session, so the condition asks that the answer has come by then.
-/

namespace Tr069Agent.Engine

open Library Library.Transition

set_option autoImplicit false

namespace TransferQueue

theorem mem_completedIds {queue : List TransferRequest} {i : Nat} :
    i ∈ completedIds queue ↔ ∃ tr ∈ queue, tr.state = .completed ∧ tr.transferId = i := by
  simp [completedIds, and_assoc]

/-- Only requests of that number are removed. -/
theorem mem_completedIds_remove {queue : List TransferRequest} {i j : Nat}
    (h : i ∈ completedIds queue) (hNe : i ≠ j) : i ∈ completedIds (remove queue j) := by
  obtain ⟨tr, hMem, hState, rfl⟩ := mem_completedIds.mp h
  refine mem_completedIds.mpr ⟨tr, ?_, hState, rfl⟩
  exact (List.mem_eraseP_of_neg (by simpa using hNe)).mpr hMem

theorem mem_completedIds_insert {queue : List TransferRequest} {i : Nat} (tr : TransferRequest)
    (h : i ∈ completedIds queue) : i ∈ completedIds (insert tr queue) := by
  obtain ⟨other, hMem, hState, rfl⟩ := mem_completedIds.mp h
  refine mem_completedIds.mpr ⟨other, ?_, hState, rfl⟩
  induction queue with
  | nil => cases hMem
  | cons curr queue ih =>
    unfold insert
    split
    · rcases List.mem_cons.mp hMem with rfl | hMem
      · exact List.mem_cons_self
      · exact List.mem_cons_of_mem _ (ih hMem (mem_completedIds.mpr ⟨other, hMem, hState, rfl⟩))
    · exact List.mem_cons_of_mem _ hMem

theorem mem_completedIds_update {queue : List TransferRequest} {i : Nat} (j code : Nat)
    (start comp : Int) (h : i ∈ completedIds queue) :
    i ∈ completedIds (update j .completed code start comp queue) := by
  obtain ⟨tr, hMem, hState, rfl⟩ := mem_completedIds.mp h
  induction queue with
  | nil => cases hMem
  | cons curr queue ih =>
    unfold update
    split
    · rcases List.mem_cons.mp hMem with rfl | hMem
      · exact mem_completedIds.mpr ⟨_, List.mem_cons_self, rfl, rfl⟩
      · exact mem_completedIds.mpr ⟨tr, List.mem_cons_of_mem _ hMem, hState, rfl⟩
    · rcases List.mem_cons.mp hMem with rfl | hMem
      · exact mem_completedIds.mpr ⟨tr, List.mem_cons_self, hState, rfl⟩
      · obtain ⟨other, hOther, hDone, hId⟩ :=
          mem_completedIds.mp (ih hMem (mem_completedIds.mpr ⟨tr, hMem, hState, rfl⟩))
        exact mem_completedIds.mpr ⟨other, List.mem_cons_of_mem _ hOther, hDone, hId⟩

theorem mem_completedIds_apply {queue : List TransferRequest} {i : Nat} (now : Int)
    (device : Nat → Nat) (h : i ∈ completedIds queue) :
    i ∈ completedIds (queue.map (Scheduler.applyTransferRequest now device)) := by
  obtain ⟨tr, hMem, hState, rfl⟩ := mem_completedIds.mp h
  have hSame : Scheduler.applyTransferRequest now device tr = tr := by
    simp [Scheduler.applyTransferRequest, hState]
  exact mem_completedIds.mpr ⟨tr, List.mem_map.mpr ⟨tr, hMem, hSame⟩, hState, rfl⟩

end TransferQueue

open TransferQueue

namespace System

/-- Every result still to be reported is in the queue, and every download request in its list. -/
def ResultsKept (y : System) : Prop :=
  (∀ i ∈ y.hist.owedResults, i ∈ completedIds y.prog.transferRequests) ∧
    y.hist.owedDownloads <:+ y.prog.downloadRequests

instance (y : System) : Decidable (ResultsKept y) :=
  inferInstanceAs (Decidable ((∀ i ∈ y.hist.owedResults, i ∈ completedIds y.prog.transferRequests) ∧
    y.hist.owedDownloads <:+ y.prog.downloadRequests))

/-- The condition on a step: a call that tests an open session with success, while a result or a
download request is in flight, comes after the ACS has answered the message that reports it. -/
def ResultGuard (y : System) : Action → Prop
  | .isSessionOpened openingOK =>
    y.prog.sendMessageStatus = .sessionOpened ∧ openingOK = true ∧ y.prog.nothingInFlight = false →
      y.hist.resultAnswered = true
  | _ => True

instance (y : System) (a : Action) : Decidable (ResultGuard y a) :=
  match a with
  | .isSessionOpened openingOK =>
    inferInstanceAs (Decidable (y.prog.sendMessageStatus = .sessionOpened ∧ openingOK = true ∧
      y.prog.nothingInFlight = false → y.hist.resultAnswered = true))
  | .addEvent _ | .manageEvents _ | .waitEvents _ | .wakeUp | .sendMessage _ _ _ | .sessionLoop _ _
  | .endOfSession | .acsAnswersInform | .acsAnswersResult | .sessionClosed _ | .insertTransferRequest _
  | .transferComplete _ _ _ _ | .requestDownload _ => isTrue trivial

/-- What is in flight, and what the ACS knows of it. -/
structure ResultInv (y : System) : Prop where
  kept : ResultsKept y
  inFlight : y.prog.nothingInFlight = true ∨
    y.prog.sendMessageStatus = .sessionOpened ∧ y.prog.phase = .inSession
  oneAtATime : y.prog.transferIdSending = 0 ∨ y.prog.requestDownloadSending = false
  first : y.prog.requestDownloadSending = true → y.prog.downloadRequests ≠ []
  reported : y.prog.transferIdSending ≠ 0 →
    y.prog.transferIdSending ∈ completedIds y.prog.transferRequests
  transfer : y.prog.transferIdSending ≠ 0 → y.hist.resultAnswered = true →
    y.prog.transferIdSending ∉ y.hist.owedResults
  download : y.prog.requestDownloadSending = true → y.hist.resultAnswered = true →
    y.hist.owedDownloads <:+ y.prog.downloadRequests.tail

theorem resultInv_init : ResultInv init := by
  constructor <;> simp [ResultsKept, init, Scheduler.init, Scheduler.nothingInFlight]

theorem nothingInFlight_iff {s : Scheduler} :
    s.nothingInFlight = true ↔ s.transferIdSending = 0 ∧ s.requestDownloadSending = false := by
  simp [Scheduler.nothingInFlight]

theorem ResultInv.of_idle {y : System} (hKept : ResultsKept y)
    (hIdle : y.prog.nothingInFlight = true) : ResultInv y := by
  obtain ⟨hTransfer, hDownload⟩ := nothingInFlight_iff.mp hIdle
  exact ⟨hKept, .inl hIdle, .inl hTransfer, by simp [hDownload], by simp [hTransfer],
    by simp [hTransfer], by simp [hDownload]⟩

/-- A step that leaves the lists, what is in flight and the open session as they are. -/
theorem ResultInv.congr {y y' : System} (h : ResultInv y)
    (hQueue : y'.prog.transferRequests = y.prog.transferRequests)
    (hDownloads : y'.prog.downloadRequests = y.prog.downloadRequests)
    (hTransfer : y'.prog.transferIdSending = y.prog.transferIdSending)
    (hDownload : y'.prog.requestDownloadSending = y.prog.requestDownloadSending)
    (hOpen : y.prog.sendMessageStatus = .sessionOpened ∧ y.prog.phase = .inSession →
      y'.prog.sendMessageStatus = .sessionOpened ∧ y'.prog.phase = .inSession)
    (hResults : y'.hist.owedResults = y.hist.owedResults)
    (hOwed : y'.hist.owedDownloads = y.hist.owedDownloads)
    (hAnswered : y'.hist.resultAnswered = y.hist.resultAnswered) : ResultInv y' := by
  obtain ⟨hKept, hFlight, hOne, hFirst, hReported, hRes, hDl⟩ := h
  refine ⟨?_, ?_, ?_, ?_, ?_, ?_, ?_⟩
  · unfold ResultsKept
    rw [hResults, hQueue, hOwed, hDownloads]
    exact hKept
  · unfold Scheduler.nothingInFlight at hFlight ⊢
    rw [hTransfer, hDownload]
    exact hFlight.imp_right hOpen
  · rw [hTransfer, hDownload]
    exact hOne
  · rw [hDownload, hDownloads]
    exact hFirst
  · rw [hTransfer, hQueue]
    exact hReported
  · rw [hTransfer, hAnswered, hResults]
    exact hRes
  · rw [hDownload, hAnswered, hOwed, hDownloads]
    exact hDl

theorem mem_owe {before after : Scheduler} {owed : List Nat} {i : Nat} :
    i ∈ owe before after owed ↔ i ∈ owed ∨ i ∈ completedIds after.transferRequests ∧
      i ∉ completedIds before.transferRequests := by
  simp [owe]

/-- What is newly owed is completed, so the results owed stay in a queue that keeps those completed. -/
theorem resultsKept_owe {y : System} (h : ResultsKept y) {prog : Scheduler} {hist : History}
    (hQueue : ∀ i ∈ completedIds y.prog.transferRequests, i ∈ completedIds prog.transferRequests)
    (hDownloads : prog.downloadRequests = y.prog.downloadRequests)
    (hResults : hist.owedResults = owe y.prog prog y.hist.owedResults)
    (hOwed : hist.owedDownloads = y.hist.owedDownloads) : ResultsKept ⟨prog, hist⟩ := by
  refine ⟨?_, ?_⟩
  · intro i hMem
    rw [hResults, mem_owe] at hMem
    rcases hMem with hMem | ⟨hMem, -⟩
    · exact hQueue i (h.1 i hMem)
    · exact hMem
  · rw [hOwed, hDownloads]
    exact h.2

/-- A step that completes or adds requests, in the queue only. -/
theorem ResultInv.queue {y : System} (h : ResultInv y) {queue : List TransferRequest} {last : Nat}
    (hQueue : ∀ i ∈ completedIds y.prog.transferRequests, i ∈ completedIds queue) :
    let prog := { y.prog with transferRequests := queue, lastTransferId := last }
    ResultInv ⟨prog, { y.hist with owedResults := owe y.prog prog y.hist.owedResults }⟩ := by
  obtain ⟨hKept, hFlight, hOne, hFirst, hReported, hRes, hDl⟩ := h
  refine ⟨resultsKept_owe hKept hQueue rfl rfl rfl, hFlight, hOne, hFirst, ?_, ?_, hDl⟩
  · exact fun hSending => hQueue _ (hReported hSending)
  · intro hSending hAnswered hMem
    rcases mem_owe.mp hMem with hMem | ⟨-, hNew⟩
    · exact hRes hSending hAnswered hMem
    · exact hNew (hReported hSending)

theorem ResultInv.idle {y : System} (h : ResultInv y) (hPhase : y.prog.phase ≠ .inSession) :
    y.prog.nothingInFlight = true := by
  rcases h.inFlight with hIdle | ⟨-, hIn⟩
  · exact hIdle
  · exact absurd hIn hPhase

theorem ResultInv.idle_of_not_opened {y : System} (h : ResultInv y)
    (hStatus : y.prog.sendMessageStatus ≠ .sessionOpened) : y.prog.nothingInFlight = true := by
  rcases h.inFlight with hIdle | ⟨hOpened, -⟩
  · exact hIdle
  · exact absurd hOpened hStatus

theorem resultInv_manageEvents {y : System} (h : ResultInv y) (due : Scheduler.Due)
    (hPhase : y.prog.phase = .top) : ResultInv (y.manageEvents due) := by
  refine .of_idle ?_ (h.idle (by simp [hPhase]))
  exact resultsKept_owe h.kept (fun i => mem_completedIds_apply due.now due.device) rfl rfl rfl

/-- Only an Inform that completes at once removes requests. -/
theorem resultInv_sendMessage {y : System} (h : ResultInv y) (ready valueChanged : Bool)
    (outcome : NotificationStatus) (hPhase : y.prog.phase = .managed) :
    ResultInv (y.sendMessage ready valueChanged outcome) := by
  have hIdle := h.idle (by simp [hPhase])
  unfold sendMessage Scheduler.sendMessage Scheduler.informEvents
  dsimp only
  cases ready with
  | false => exact .of_idle h.kept hIdle
  | true =>
    by_cases hEmpty : Scheduler.updateValueChangeEvent valueChanged y.prog.events = []
    · simp only [hEmpty, Bool.not_true, Bool.false_eq_true, if_false, if_true]
      exact .of_idle h.kept hIdle
    · simp only [hEmpty, Bool.not_true, Bool.false_eq_true, if_false]
      by_cases hCompleted : outcome = .completed
      · simp only [hCompleted, if_true]
        exact .of_idle ⟨by simp, List.nil_suffix⟩ hIdle
      · simp only [if_neg hCompleted]
        exact .of_idle h.kept hIdle

theorem sendResult_cases (sent : Bool) {s : Scheduler} (hIdle : s.nothingInFlight = true) :
    s.sendResult sent = s ∨
    (∃ i ∈ completedIds s.transferRequests, s.sendResult sent = { s with transferIdSending := i }) ∨
    (s.downloadRequests ≠ [] ∧ s.sendResult sent = { s with requestDownloadSending := true }) := by
  obtain ⟨hTransfer, hDownload⟩ := nothingInFlight_iff.mp hIdle
  unfold Scheduler.sendResult
  cases hResult : getTransferResult s.transferRequests with
  | some tr =>
    have hMem : tr.transferId ∈ completedIds s.transferRequests :=
      mem_completedIds.mpr ⟨tr, List.mem_of_find?_eq_some hResult,
        by simpa using List.find?_some hResult, rfl⟩
    cases hKey : tr.commandKey with
    | none =>
      left
      simp [hKey, Scheduler.transfertComplete, ← hTransfer]
    | some key =>
      right; left
      exact ⟨tr.transferId, hMem, by simp [hKey, Scheduler.transfertComplete]⟩
  | none =>
    cases hRequests : s.downloadRequests with
    | nil => exact .inl rfl
    | cons dr rest =>
      right; right
      exact ⟨by simp, by simp [Scheduler.requestDownload]⟩

/-- A new attempt is not yet answered, so nothing is said of it. -/
theorem resultInv_sendResult {y : System} (h : ResultInv y) (sent : Bool)
    (hOpened : y.prog.sendMessageStatus = .sessionOpened) (hPhase : y.prog.phase = .inSession)
    (hIdle : y.prog.nothingInFlight = true) :
    ResultInv ⟨y.prog.sendResult sent,
      { y.hist with resultTransmitted := sent, resultAnswered := false }⟩ := by
  obtain ⟨hTransfer, hDownload⟩ := nothingInFlight_iff.mp hIdle
  rcases sendResult_cases sent hIdle with hSame | ⟨i, hMem, hSame⟩ | ⟨hFirst, hSame⟩ <;> rw [hSame]
  · exact .of_idle h.kept hIdle
  · refine ⟨h.kept, .inr ⟨hOpened, hPhase⟩, .inr hDownload, ?_, fun _ => hMem, ?_, ?_⟩
    · simp [hDownload]
    · intro _ hAnswered
      cases hAnswered
    · intro _ hAnswered
      cases hAnswered
  · refine ⟨h.kept, .inr ⟨hOpened, hPhase⟩, .inl hTransfer, fun _ => hFirst, ?_, ?_, ?_⟩
    · exact fun hSending => absurd hTransfer hSending
    · intro _ hAnswered
      cases hAnswered
    · intro _ hAnswered
      cases hAnswered

theorem resultInv_sessionLoop {y : System} (h : ResultInv y) (timedOut sent : Bool)
    (hPhase : y.prog.phase = .inSession) : ResultInv (y.sessionLoop timedOut sent) := by
  have hCancel : ResultInv ⟨y.prog.cancelOnTimeout timedOut, y.hist⟩ := by
    unfold Scheduler.cancelOnTimeout
    split
    · exact .of_idle h.kept rfl
    · exact h
  have hCancelPhase : (y.prog.cancelOnTimeout timedOut).phase = .inSession := by
    unfold Scheduler.cancelOnTimeout
    split <;> exact hPhase
  unfold sessionLoop Scheduler.sessionLoop
  dsimp only
  split
  · rename_i hMust
    simp only [Scheduler.mustSendResult, Bool.and_eq_true, decide_eq_true_eq] at hMust
    exact resultInv_sendResult hCancel sent hMust.1 hCancelPhase hMust.2
  · exact hCancel

theorem resultInv_acsAnswersResult {y : System} (h : ResultInv y) : ResultInv y.acsAnswersResult := by
  obtain ⟨⟨hResults, hDownloads⟩, hOpened, hOne, hFirst, hReported, hRes, hDl⟩ := h
  refine ⟨⟨?_, ?_⟩, hOpened, hOne, hFirst, hReported, ?_, ?_⟩
  · intro i hMem
    exact hResults i (List.mem_filter.mp hMem).1
  · dsimp only [acsAnswersResult]
    split
    · exact (List.tail_suffix _).trans hDownloads
    · exact hDownloads
  · intro _ _ hMem
    simp [acsAnswersResult] at hMem
  · intro hSending _
    have hTransfer : y.prog.transferIdSending = 0 := by
      rcases hOne with hZero | hNot
      · exact hZero
      · exact absurd (hNot.symm.trans hSending) (by simp)
    dsimp only [acsAnswersResult]
    split
    · rename_i hWhole
      rw [hDownloads.eq_of_length hWhole.2]
    · rename_i hAnswered
      obtain ⟨answered, hSplit⟩ := hDownloads
      cases answered with
      | nil => exact absurd ⟨hTransfer, congrArg List.length hSplit⟩ hAnswered
      | cons dr answered => exact ⟨answered, by rw [← hSplit]; rfl⟩

theorem resultInv_confirmOpening {y : System} (h : ResultInv y) (openingOK : Bool) :
    ResultInv { y with prog := y.prog.confirmOpening openingOK } := by
  unfold Scheduler.confirmOpening
  split
  · rename_i hOpening
    exact .of_idle h.kept (h.idle_of_not_opened (by simp [hOpening.1]))
  · exact h

/-- What is in flight is dropped by a test of the session; the ACS has answered it. -/
theorem resultInv_dropInFlight {y : System} (h : ResultInv y) (openingOK : Bool)
    (hGuard : ResultGuard y (.isSessionOpened openingOK)) :
    ResultInv { y with prog := y.prog.dropInFlight openingOK } := by
  unfold Scheduler.dropInFlight
  split
  · rename_i hOpened
    split
    · rename_i hSending
      have hAnswered : y.hist.resultAnswered = true :=
        hGuard ⟨hOpened.1, hOpened.2, by simp [Scheduler.nothingInFlight, hSending]⟩
      have hNotOwed := h.transfer hSending hAnswered
      refine .of_idle ⟨fun i hMem => ?_, h.kept.2⟩ ?_
      · exact mem_completedIds_remove (h.kept.1 i hMem) fun hEq => hNotOwed (hEq ▸ hMem)
      · simpa [Scheduler.nothingInFlight] using h.oneAtATime.resolve_left hSending
    · rename_i hZero
      have hZero : y.prog.transferIdSending = 0 := by simpa using hZero
      split
      · rename_i hSending
        have hAnswered : y.hist.resultAnswered = true :=
          hGuard ⟨hOpened.1, hOpened.2, by simp [Scheduler.nothingInFlight, hSending]⟩
        exact .of_idle ⟨h.kept.1, h.download hSending hAnswered⟩ (by simp [Scheduler.nothingInFlight, hZero])
      · exact h
  · exact h

theorem resultInv_isSessionOpened {y : System} (h : ResultInv y) (openingOK : Bool)
    (hGuard : ResultGuard y (.isSessionOpened openingOK)) :
    ResultInv { y with prog := y.prog.isSessionOpened openingOK } := by
  refine resultInv_dropInFlight (resultInv_confirmOpening h openingOK) openingOK ?_
  rintro ⟨hOpened, hOk, hFlight⟩
  dsimp only [Scheduler.confirmOpening] at hOpened hFlight
  split at hFlight
  · rename_i hOpening
    have hIdle : y.prog.nothingInFlight = true := h.idle_of_not_opened (by simp [hOpening.1])
    exact absurd (hIdle.symm.trans hFlight) (by simp)
  · rename_i hNot
    rw [if_neg hNot] at hOpened
    exact hGuard ⟨hOpened, hOk, hFlight⟩

theorem resultInv_requestDownload {y : System} (h : ResultInv y) (dr : DownloadRequest) :
    ResultInv (y.requestDownload dr) := by
  obtain ⟨⟨hResults, hDownloads⟩, hOpened, hOne, hFirst, hReported, hRes, hDl⟩ := h
  refine ⟨⟨hResults, ?_⟩, hOpened, hOne, ?_, hReported, hRes, ?_⟩
  · obtain ⟨answered, hSplit⟩ := hDownloads
    exact ⟨answered, (List.append_assoc _ _ _).symm.trans (congrArg (· ++ [dr]) hSplit)⟩
  · simp [requestDownload, Scheduler.addDownloadRequest]
  · intro hSending hAnswered
    obtain ⟨answered, hSplit⟩ := hDl hSending hAnswered
    refine ⟨answered, ?_⟩
    simp only [requestDownload, Scheduler.addDownloadRequest]
    rw [List.tail_append_of_ne_nil (hFirst hSending), ← hSplit, List.append_assoc]

theorem step_resultInv (y : System) (a : Action) (y' : System) (h : ResultInv y)
    (hGuard : ResultGuard y a) (hStep : step y a = some y') : ResultInv y' := by
  obtain ⟨hEnabled, rfl⟩ := step_eq_some hStep
  cases a with
  | addEvent es => exact h.congr rfl rfl rfl rfl id rfl rfl rfl
  | manageEvents due => exact resultInv_manageEvents h due (by simpa [enabled] using hEnabled)
  | waitEvents eventAdded =>
    have hPhase : y.prog.phase = .managed := by
      simp only [enabled, Bool.and_eq_true, decide_eq_true_eq] at hEnabled
      exact hEnabled.1
    exact .of_idle h.kept (h.idle (by simp [hPhase]))
  | wakeUp =>
    have hPhase : y.prog.phase = .waiting := by simpa [enabled] using hEnabled
    exact .of_idle h.kept (h.idle (by simp [hPhase]))
  | sendMessage ready valueChanged outcome =>
    have hPhase : y.prog.phase = .managed := by
      simp only [enabled, Bool.and_eq_true, decide_eq_true_eq] at hEnabled
      exact hEnabled.1
    exact resultInv_sendMessage h ready valueChanged outcome hPhase
  | sessionLoop timedOut sent =>
    exact resultInv_sessionLoop h timedOut sent (by simpa [enabled] using hEnabled)
  | endOfSession =>
    have hWhere : y.prog.phase = .done ∨ y.prog.phase = .inSession ∧ y.prog.sessionRunning = false := by
      simpa [enabled] using hEnabled
    have hIdle : y.prog.nothingInFlight = true := by
      rcases hWhere with hDone | ⟨-, hRunning⟩
      · exact h.idle (by simp [hDone])
      · refine h.idle_of_not_opened fun hOpened => ?_
        simp [Scheduler.sessionRunning, hOpened] at hRunning
    refine .of_idle ?_ ?_ <;> unfold apply Scheduler.endOfSession <;> dsimp only <;> split
    · exact h.kept
    · exact h.kept
    · exact hIdle
    · exact hIdle
  | acsAnswersInform => exact h.congr rfl rfl rfl rfl id rfl rfl rfl
  | acsAnswersResult => exact resultInv_acsAnswersResult h
  | isSessionOpened openingOK => exact resultInv_isSessionOpened h openingOK hGuard
  | sessionClosed success => exact .of_idle h.kept rfl
  | insertTransferRequest tr => exact h.queue fun i => mem_completedIds_insert _
  | transferComplete transferId code start comp =>
    exact h.queue fun i => mem_completedIds_update transferId code start comp
  | requestDownload dr => exact resultInv_requestDownload h dr

/-- In every run whose steps meet the condition no result and no download request is lost in any
state reached. -/
theorem results_kept_of_guard (actions : List Action) (h : Along step ResultGuard init actions) :
    Throughout step ResultsKept init actions :=
  (throughout_of_along step_resultInv resultInv_init h).mono fun _ hInv => hInv.kept

def download : TransferRequest where
  isDownload := true
  state := .inProgress
  transferTime := 0
  fileType := none
  url := none
  username := none
  password := none
  fileSize := 0
  targetFileName := none
  successURL := none
  failureURL := none
  commandKey := some []
  announceURL := none
  faultCode := 0
  startTime := 0
  completeTime := 0
  transferId := 0

/-- A download completes, and in the session that reports it the result is about to be sent. -/
def downloadCompleted : List Action :=
  [.insertTransferRequest download, .transferComplete 1 0 0 0, .addEvent ⟨.transferComplete, none⟩,
    .wakeUp, .manageEvents ⟨0, false, [], fun _ => 0⟩, .sendMessage true false .sessionOpening,
    .acsAnswersInform, .isSessionOpened true]

theorem results_kept_downloadCompleted :
    Throughout step ResultsKept init (downloadCompleted ++
      [.sessionLoop false true, .acsAnswersResult, .isSessionOpened true]) :=
  results_kept_of_guard _ (by decide)

/-- The message could not be handed over, and the next call drops the result all the same. -/
theorem result_lost_after_failed_handover :
    ¬ Throughout step ResultsKept init (downloadCompleted ++
      [.sessionLoop false false, .isSessionOpened true]) := by decide

end System

end Tr069Agent.Engine
