import Tr069Agent.Engine.SchedulerRun

/-! # No event is lost

An event that was added stays in one of the two lists until an Inform that contains it has been
acknowledged. The lists are cleared in two places, and both are reached by calls that are not
answers of the ACS; the condition says that they are not reached so too early.
-/

namespace Tr069Agent.Engine

open Library Library.Transition

set_option autoImplicit false

/-- The events the scheduler adds and removes by itself. -/
def EventStruct.temporary (evt : EventStruct) : Bool :=
  evt.eventCode = .valueChange || evt.eventCode = .mDownload || evt.eventCode = .mUpload

namespace Scheduler

theorem mem_addIfAbsent {events : List EventStruct} {evt : EventStruct} (evCode : EventCode)
    (h : evt ∈ events) : evt ∈ addIfAbsent events evCode := by
  unfold addIfAbsent
  split
  · exact h
  · exact EventList.mem_add.mpr (.inl h)

theorem mem_scheduledEvents {events : List EventStruct} {evt : EventStruct}
    (scheduled : List (Option Text)) (h : evt ∈ events) : evt ∈ scheduledEvents events scheduled := by
  induction scheduled generalizing events with
  | nil => exact h
  | cons ck scheduled ih => exact ih (EventList.mem_add.mpr (.inl (mem_addIfAbsent _ h)))

theorem mem_transferEvents {events : List EventStruct} {evt : EventStruct}
    (queue : List TransferRequest) (h : evt ∈ events) : evt ∈ transferEvents events queue := by
  induction queue generalizing events with
  | nil => exact h
  | cons tr queue ih =>
    refine ih ?_
    dsimp only
    split
    · exact mem_addIfAbsent _ h
    · exact h

/-- `manageEvents` only moves events to the persistent list. -/
theorem mem_manageEvents {s : Scheduler} {evt : EventStruct} (due : Due)
    (h : evt ∈ s.pendingEvents ∨ evt ∈ s.events) : evt ∈ (s.manageEvents due).events := by
  have hMoved : evt ∈ EventList.addAll s.events s.pendingEvents := EventList.mem_addAll.mpr h.symm
  have hPeriodic : evt ∈ (if due.periodic then
      addIfAbsent (EventList.addAll s.events s.pendingEvents) .periodic
      else EventList.addAll s.events s.pendingEvents) := by
    split
    · exact mem_addIfAbsent _ hMoved
    · exact hMoved
  have hTransfers := mem_transferEvents
    (s.transferRequests.map (applyTransferRequest due.now due.device))
    (mem_scheduledEvents due.scheduled hPeriodic)
  unfold manageEvents
  dsimp only
  split
  · exact hTransfers
  · exact mem_addIfAbsent _ hTransfers

variable {evt : EventStruct}

theorem mem_deleteEvent_of_ne {events : List EventStruct} {evCode : EventCode}
    (h : evt.eventCode ≠ evCode) : evt ∈ EventList.deleteEvent events evCode ↔ evt ∈ events := by
  rw [EventList.mem_deleteEvent]
  exact and_iff_left fun hCode => h hCode.2

theorem mem_add_of_ne {events : List EventStruct} {es : EventStruct}
    (h : evt.eventCode ≠ es.eventCode) : evt ∈ EventList.add events es ↔ evt ∈ events := by
  rw [EventList.mem_add]
  exact or_iff_left fun hEq => h (congrArg EventStruct.eventCode hEq)

theorem ne_of_not_temporary (h : evt.temporary = false) :
    evt.eventCode ≠ .valueChange ∧ evt.eventCode ≠ .mDownload ∧ evt.eventCode ≠ .mUpload := by
  simpa [EventStruct.temporary, and_assoc] using h

theorem mem_updateValueChangeEvent (h : evt.temporary = false) (valueChanged : Bool)
    (events : List EventStruct) : evt ∈ updateValueChangeEvent valueChanged events ↔ evt ∈ events := by
  obtain ⟨hCode, -, -⟩ := ne_of_not_temporary h
  unfold updateValueChangeEvent
  split
  · split
    · rfl
    · exact mem_deleteEvent_of_ne hCode
  · split
    · exact mem_add_of_ne hCode
    · rfl

theorem mem_addMTransferEvents (h : evt.temporary = false) (queue : List TransferRequest)
    (events : List EventStruct) : evt ∈ addMTransferEvents queue events ↔ evt ∈ events := by
  obtain ⟨-, hDownload, hUpload⟩ := ne_of_not_temporary h
  induction queue generalizing events with
  | nil => rfl
  | cons tr queue ih =>
    refine (ih _).trans ?_
    dsimp only
    split
    · apply mem_add_of_ne
      dsimp only
      split
      · exact hDownload
      · exact hUpload
    · rfl

theorem mem_deleteMTransferEvents (h : evt.temporary = false) (events : List EventStruct) :
    evt ∈ deleteMTransferEvents events ↔ evt ∈ events := by
  obtain ⟨-, hDownload, hUpload⟩ := ne_of_not_temporary h
  rw [deleteMTransferEvents, mem_deleteEvent_of_ne hUpload, mem_deleteEvent_of_ne hDownload]

/-- Sending an Inform changes temporary events only. -/
theorem mem_sendMessage_events (h : evt.temporary = false) (ready valueChanged : Bool)
    (outcome : NotificationStatus) (s : Scheduler) :
    evt ∈ (s.sendMessage ready valueChanged outcome).events ↔ evt ∈ s.events := by
  unfold sendMessage
  split
  · rfl
  · dsimp only
    split
    · exact mem_updateValueChangeEvent h valueChanged s.events
    · exact (mem_deleteMTransferEvents h _).trans
        ((mem_addMTransferEvents h _ _).trans (mem_updateValueChangeEvent h valueChanged s.events))

theorem mem_informEvents (h : evt.temporary = false) {ready valueChanged : Bool} {s : Scheduler}
    {events : List EventStruct} (hInform : s.informEvents ready valueChanged = some events) :
    evt ∈ events ↔ evt ∈ s.events := by
  unfold informEvents at hInform
  dsimp only at hInform
  split at hInform
  · cases hInform
  · obtain rfl := Option.some.inj hInform
    exact (mem_addMTransferEvents h _ _).trans (mem_updateValueChangeEvent h valueChanged s.events)

/-- The state after `sendMessage`: without an Inform the session is cancelled at once; with one, the
session runs exactly when the Inform is on its way. -/
theorem sendMessage_status (ready valueChanged : Bool) (outcome : NotificationStatus) (s : Scheduler) :
    let s' := s.sendMessage ready valueChanged outcome
    s'.pendingEvents = s.pendingEvents ∧
    match s.informEvents ready valueChanged with
    | none => s'.phase = .done ∧ s'.sendMessageStatus = .cancelled
    | some _ => s'.sendMessageStatus = outcome ∧ (s'.phase = .inSession ↔ s'.sessionRunning = true) := by
  unfold sendMessage informEvents
  cases ready with
  | false => exact ⟨rfl, rfl, rfl⟩
  | true =>
    dsimp only
    by_cases hEmpty : updateValueChangeEvent valueChanged s.events = []
    · simp [hEmpty]
    · cases outcome <;> simp [hEmpty, sessionRunning]

theorem sendResult_events (sent : Bool) (s : Scheduler) :
    let s' := s.sendResult sent
    s'.pendingEvents = s.pendingEvents ∧ s'.events = s.events ∧ s'.phase = s.phase ∧
    s'.sendMessageStatus = s.sendMessageStatus := by
  unfold sendResult
  split
  · exact ⟨rfl, rfl, rfl, rfl⟩
  · split <;> exact ⟨rfl, rfl, rfl, rfl⟩

/-- The session loop leaves the events alone; it may only cancel the session. -/
theorem sessionLoop_events (timedOut sent : Bool) (s : Scheduler) :
    let s' := s.sessionLoop timedOut sent
    s'.pendingEvents = s.pendingEvents ∧ s'.events = s.events ∧ s'.phase = s.phase ∧
    (s'.sendMessageStatus = s.sendMessageStatus ∨ s'.sendMessageStatus = .cancelled) := by
  have hCancel : (s.cancelOnTimeout timedOut).pendingEvents = s.pendingEvents ∧
      (s.cancelOnTimeout timedOut).events = s.events ∧ (s.cancelOnTimeout timedOut).phase = s.phase ∧
      ((s.cancelOnTimeout timedOut).sendMessageStatus = s.sendMessageStatus ∨
        (s.cancelOnTimeout timedOut).sendMessageStatus = .cancelled) := by
    unfold cancelOnTimeout
    split
    · exact ⟨rfl, rfl, rfl, .inr rfl⟩
    · exact ⟨rfl, rfl, rfl, .inl rfl⟩
  unfold sessionLoop
  dsimp only
  split
  · obtain ⟨hPending, hEvents, hPhase, hStatus⟩ := sendResult_events sent (s.cancelOnTimeout timedOut)
    rw [hPending, hEvents, hPhase, hStatus]
    exact hCancel
  · exact hCancel

theorem dropInFlight_events (openingOK : Bool) (s : Scheduler) :
    let s' := s.dropInFlight openingOK
    s'.pendingEvents = s.pendingEvents ∧ s'.phase = s.phase ∧ s'.events = s.events ∧
    s'.sendMessageStatus = s.sendMessageStatus := by
  unfold dropInFlight
  split
  · split
    · exact ⟨rfl, rfl, rfl, rfl⟩
    · split <;> exact ⟨rfl, rfl, rfl, rfl⟩
  · exact ⟨rfl, rfl, rfl, rfl⟩

/-- A test of the session clears the events only while the session is opening. -/
theorem isSessionOpened_events (openingOK : Bool) (s : Scheduler) :
    let s' := s.isSessionOpened openingOK
    s'.pendingEvents = s.pendingEvents ∧ s'.phase = s.phase ∧
    if s.sendMessageStatus = .sessionOpening ∧ openingOK = true then
      s'.events = [] ∧ s'.sendMessageStatus = .sessionOpened
    else s'.events = s.events ∧ s'.sendMessageStatus = s.sendMessageStatus := by
  obtain ⟨hPending, hPhase, hEvents, hStatus⟩ :=
    dropInFlight_events openingOK (s.confirmOpening openingOK)
  unfold isSessionOpened
  dsimp only
  rw [hPending, hPhase, hEvents, hStatus, confirmOpening]
  split
  · exact ⟨rfl, rfl, rfl, rfl⟩
  · exact ⟨rfl, rfl, rfl, rfl⟩

end Scheduler

namespace System

/-- Every event still to be acknowledged is in one of the two lists. -/
def EventsKept (y : System) : Prop :=
  ∀ evt ∈ y.hist.owedEvents, evt.temporary = false →
    evt ∈ y.prog.pendingEvents ∨ evt ∈ y.prog.events

instance (y : System) : Decidable (EventsKept y) :=
  inferInstanceAs (Decidable (∀ evt ∈ y.hist.owedEvents, evt.temporary = false →
    evt ∈ y.prog.pendingEvents ∨ evt ∈ y.prog.events))

/-- The condition on a step: a call tests the session with success while it is opening, and a
session under way is closed with success, only after the ACS has answered its Inform. -/
def EventGuard (y : System) : Action → Prop
  | .isSessionOpened openingOK =>
    y.prog.sendMessageStatus = .sessionOpening ∧ openingOK = true → y.hist.informAnswered = true
  | .sessionClosed success =>
    success = true ∧ y.prog.phase = .inSession → y.hist.informAnswered = true
  | _ => True

instance (y : System) (a : Action) : Decidable (EventGuard y a) :=
  match a with
  | .isSessionOpened openingOK =>
    inferInstanceAs (Decidable (y.prog.sendMessageStatus = .sessionOpening ∧ openingOK = true →
      y.hist.informAnswered = true))
  | .sessionClosed success =>
    inferInstanceAs (Decidable (success = true ∧ y.prog.phase = .inSession →
      y.hist.informAnswered = true))
  | .addEvent _ | .manageEvents _ | .waitEvents _ | .wakeUp | .sendMessage _ _ _ | .sessionLoop _ _
  | .endOfSession | .acsAnswersInform | .acsAnswersResult | .insertTransferRequest _
  | .transferComplete _ _ _ _ | .requestDownload _ => isTrue trivial

/-- What ties the session status to the events the last Inform carried. -/
structure EventInv (y : System) : Prop where
  kept : EventsKept y
  running : y.prog.sessionRunning = true → y.prog.phase = .inSession
  flight : y.prog.phase = .inSession → y.hist.informAnswered = false →
    ∀ evt ∈ y.prog.events, evt.temporary = false →
      evt ∈ y.hist.carried ∨ evt ∈ y.prog.pendingEvents
  answered : y.prog.phase = .inSession ∨ y.prog.phase = .done → y.hist.informAnswered = true →
    ∀ evt ∈ y.hist.owedEvents, evt.temporary = false → evt ∈ y.prog.pendingEvents
  completed : y.prog.phase = .inSession ∨ y.prog.phase = .done →
    y.prog.sendMessageStatus = .completed → y.hist.informAnswered = true

theorem eventInv_init : EventInv init where
  kept := by simp [EventsKept, init]
  running := by decide
  flight := by simp [init, Scheduler.init]
  answered := by simp [init]
  completed := by simp [init, Scheduler.init]

/-- A step that touches neither the events nor the session status. -/
theorem EventInv.congr {y y' : System} (h : EventInv y)
    (hPending : y'.prog.pendingEvents = y.prog.pendingEvents) (hEvents : y'.prog.events = y.prog.events)
    (hPhase : y'.prog.phase = y.prog.phase)
    (hStatus : y'.prog.sendMessageStatus = y.prog.sendMessageStatus ∨
      y'.prog.sendMessageStatus = .cancelled)
    (hOwed : y'.hist.owedEvents = y.hist.owedEvents) (hCarried : y'.hist.carried = y.hist.carried)
    (hAnswered : y'.hist.informAnswered = y.hist.informAnswered) : EventInv y' := by
  constructor
  · unfold EventsKept
    rw [hOwed, hPending, hEvents]
    exact h.kept
  · rw [hPhase]
    intro hRunning
    rcases hStatus with hSame | hCancelled
    · exact h.running (by simpa [Scheduler.sessionRunning, hSame] using hRunning)
    · simp [Scheduler.sessionRunning, hCancelled] at hRunning
  · rw [hPhase, hAnswered, hEvents, hCarried, hPending]
    exact h.flight
  · rw [hPhase, hAnswered, hOwed, hPending]
    exact h.answered
  · rw [hPhase, hAnswered]
    intro hWhere hCompleted
    rcases hStatus with hSame | hCancelled
    · exact h.completed hWhere (hSame ▸ hCompleted)
    · simp [hCancelled] at hCompleted

theorem EventInv.of_idle {y : System} (hKept : EventsKept y) (hRunning : y.prog.sessionRunning = false)
    (hPhase : y.prog.phase ≠ .inSession ∧ y.prog.phase ≠ .done) : EventInv y where
  kept := hKept
  running := by simp [hRunning]
  flight := fun hWhere => absurd hWhere hPhase.1
  answered := fun hWhere => (hWhere.elim hPhase.1 hPhase.2).elim
  completed := fun hWhere => (hWhere.elim hPhase.1 hPhase.2).elim

theorem EventInv.notRunning {y : System} (h : EventInv y) (hPhase : y.prog.phase ≠ .inSession) :
    y.prog.sessionRunning = false := by
  cases hRunning : y.prog.sessionRunning with
  | false => rfl
  | true => exact absurd (h.running hRunning) hPhase

theorem eventInv_addEvent {y : System} (h : EventInv y) (es : EventStruct) :
    EventInv (y.addEvent es) := by
  constructor
  · intro evt hOwed hKept
    rcases List.mem_cons.mp hOwed with rfl | hOwed
    · exact .inl (EventList.mem_add.mpr (.inr rfl))
    · exact (h.kept evt hOwed hKept).imp_left fun hMem => EventList.mem_add.mpr (.inl hMem)
  · exact h.running
  · intro hPhase hAnswered evt hMem hKept
    rcases h.flight hPhase hAnswered evt hMem hKept with hCarried | hPending
    · rcases eq_or_ne evt es with rfl | hNe
      · exact .inr (EventList.mem_add.mpr (.inr rfl))
      · exact .inl (List.mem_filter.mpr ⟨hCarried, by simpa using hNe⟩)
    · exact .inr (EventList.mem_add.mpr (.inl hPending))
  · intro hPhase hAnswered evt hOwed hKept
    rcases List.mem_cons.mp hOwed with rfl | hOwed
    · exact EventList.mem_add.mpr (.inr rfl)
    · exact EventList.mem_add.mpr (.inl (h.answered hPhase hAnswered evt hOwed hKept))
  · exact h.completed

theorem eventInv_manageEvents {y : System} (h : EventInv y) (due : Scheduler.Due)
    (hPhase : y.prog.phase = .top) : EventInv (y.manageEvents due) := by
  refine .of_idle ?_ (h.notRunning (by simp [hPhase])) (by simp [manageEvents])
  intro evt hOwed hKept
  rcases List.mem_append.mp hOwed with hOwed | hNew
  · exact .inr (Scheduler.mem_manageEvents due (h.kept evt hOwed hKept))
  · exact .inr (List.mem_filter.mp hNew).1

theorem eventInv_sendMessage {y : System} (h : EventInv y) (ready valueChanged : Bool)
    (outcome : NotificationStatus) :
    EventInv (y.sendMessage ready valueChanged outcome) := by
  obtain ⟨hPending, hStatus⟩ := Scheduler.sendMessage_status ready valueChanged outcome y.prog
  have hEvents : ∀ evt : EventStruct, evt.temporary = false →
      (evt ∈ (y.prog.sendMessage ready valueChanged outcome).events ↔ evt ∈ y.prog.events) :=
    fun evt hKept => Scheduler.mem_sendMessage_events hKept ready valueChanged outcome y.prog
  have hKeptAll : ∀ evt ∈ y.hist.owedEvents, evt.temporary = false →
      evt ∈ (y.prog.sendMessage ready valueChanged outcome).pendingEvents ∨
        evt ∈ (y.prog.sendMessage ready valueChanged outcome).events := by
    intro evt hOwed hKept
    rw [hPending, hEvents evt hKept]
    exact h.kept evt hOwed hKept
  cases hInform : y.prog.informEvents ready valueChanged with
  | none =>
    rw [hInform] at hStatus
    obtain ⟨hDone, hCancelled⟩ := hStatus
    unfold sendMessage
    rw [hInform]
    refine ⟨hKeptAll, ?_, ?_, ?_, ?_⟩
    · intro hRunning
      simp [Scheduler.sessionRunning, hCancelled] at hRunning
    · intro hPhase
      simp [hDone] at hPhase
    · intro _ hAnswered
      cases hAnswered
    · intro _ hCompleted
      simp [hCancelled] at hCompleted
  | some events =>
    rw [hInform] at hStatus
    obtain ⟨hOutcome, hRunning⟩ := hStatus
    have hCarried : ∀ evt : EventStruct, evt.temporary = false → (evt ∈ events ↔ evt ∈ y.prog.events) :=
      fun evt hKept => Scheduler.mem_informEvents hKept hInform
    unfold sendMessage
    rw [hInform]
    dsimp only
    split
    · -- the Inform completed at once: what it carried is acknowledged
      rename_i hCompleted
      have hRest : ∀ evt ∈ y.hist.owedEvents.filter (fun evt => evt ∉ events), evt.temporary = false →
          evt ∈ (y.prog.sendMessage ready valueChanged outcome).pendingEvents := by
        intro evt hOwed hKept
        obtain ⟨hOwed, hNotCarried⟩ := List.mem_filter.mp hOwed
        rcases h.kept evt hOwed hKept with hMem | hMem
        · exact hPending ▸ hMem
        · exact absurd ((hCarried evt hKept).mpr hMem) (by simpa using hNotCarried)
      refine ⟨fun evt hOwed hKept => .inl (hRest evt hOwed hKept), ?_, ?_, ?_, ?_⟩
      · exact hRunning.mpr
      · intro _ hAnswered
        cases hAnswered
      · exact fun _ _ => hRest
      · exact fun _ _ => rfl
    · rename_i hNotCompleted
      refine ⟨hKeptAll, hRunning.mpr, ?_, ?_, ?_⟩
      · intro _ _ evt hMem hKept
        exact .inl ((hCarried evt hKept).mpr ((hEvents evt hKept).mp hMem))
      · intro _ hAnswered
        cases hAnswered
      · intro _ hCompleted
        exact absurd (hOutcome.symm.trans hCompleted) hNotCompleted

/-- The events are cleared at the end of a completed session, whose Inform was answered. -/
theorem eventInv_endOfSession {y : System} (h : EventInv y)
    (hPhase : y.prog.phase = .done ∨ y.prog.phase = .inSession ∧ y.prog.sessionRunning = false) :
    EventInv { y with prog := y.prog.endOfSession } := by
  have hRunning : y.prog.sessionRunning = false := by
    rcases hPhase with hDone | ⟨-, hRunning⟩
    · exact h.notRunning (by simp [hDone])
    · exact hRunning
  have hWhere : y.prog.phase = .inSession ∨ y.prog.phase = .done := hPhase.symm.imp_left And.left
  cases hCompleted : decide (y.prog.sendMessageStatus = .completed) with
  | true =>
    have hStatus := of_decide_eq_true hCompleted
    have hAnswered := h.answered hWhere (h.completed hWhere hStatus)
    unfold Scheduler.endOfSession
    rw [if_pos hStatus]
    exact .of_idle (fun evt hOwed hKept => .inl (hAnswered evt hOwed hKept)) hRunning (by simp)
  | false =>
    unfold Scheduler.endOfSession
    rw [if_neg (of_decide_eq_false hCompleted)]
    exact .of_idle h.kept hRunning (by simp)

theorem eventInv_acsAnswersInform {y : System} (h : EventInv y) (hPhase : y.prog.phase = .inSession)
    (hAnswered : y.hist.informAnswered = false) : EventInv y.acsAnswersInform := by
  have hRest : ∀ evt ∈ y.hist.owedEvents.filter (fun evt => evt ∉ y.hist.carried),
      evt.temporary = false → evt ∈ y.prog.pendingEvents := by
    intro evt hOwed hKept
    obtain ⟨hOwed, hNotCarried⟩ := List.mem_filter.mp hOwed
    rcases h.kept evt hOwed hKept with hMem | hMem
    · exact hMem
    · exact (h.flight hPhase hAnswered evt hMem hKept).resolve_left (by simpa using hNotCarried)
  refine ⟨fun evt hOwed hKept => .inl (hRest evt hOwed hKept), h.running, ?_, ?_, ?_⟩
  · intro _ hNot
    cases hNot
  · exact fun _ _ => hRest
  · exact fun _ _ => rfl

theorem eventInv_isSessionOpened {y : System} (h : EventInv y) (openingOK : Bool)
    (hGuard : EventGuard y (.isSessionOpened openingOK)) :
    EventInv { y with prog := y.prog.isSessionOpened openingOK } := by
  obtain ⟨hPending, hPhase, hEvents⟩ := Scheduler.isSessionOpened_events openingOK y.prog
  split at hEvents
  · -- the events are cleared: the Inform has been answered
    rename_i hOpening
    obtain ⟨hCleared, hOpened⟩ := hEvents
    have hAnswered := hGuard hOpening
    have hWhere := h.running (by simp [Scheduler.sessionRunning, hOpening.1])
    have hRest := h.answered (.inl hWhere) hAnswered
    refine ⟨?_, ?_, ?_, ?_, ?_⟩
    · intro evt hOwed hKept
      exact .inl (hPending ▸ hRest evt hOwed hKept)
    · exact fun _ => hPhase.trans hWhere
    · intro _ _ evt hMem
      simp [hCleared] at hMem
    · intro _ _ evt hOwed hKept
      exact hPending ▸ hRest evt hOwed hKept
    · intro _ hCompleted
      simp [hOpened] at hCompleted
  · obtain ⟨hSame, hStatus⟩ := hEvents
    exact h.congr hPending hSame hPhase (.inl hStatus) rfl rfl rfl

theorem eventInv_sessionClosed {y : System} (h : EventInv y) (success : Bool)
    (hFree : y.prog.mutexFree = true) (hGuard : EventGuard y (.sessionClosed success)) :
    EventInv { y with prog := y.prog.sessionClosed success } := by
  refine ⟨h.kept, ?_, h.flight, h.answered, ?_⟩
  · cases success <;> simp [Scheduler.sessionClosed, Scheduler.sessionRunning]
  · intro hWhere hCompleted
    have hSuccess : success = true := by
      cases success <;> simp_all [Scheduler.sessionClosed]
    rcases hWhere with hIn | hDone
    · exact hGuard ⟨hSuccess, hIn⟩
    · have hPhase : y.prog.phase = .done := hDone
      simp [Scheduler.mutexFree, hPhase] at hFree

theorem step_eventInv (y : System) (a : Action) (y' : System) (h : EventInv y) (hGuard : EventGuard y a)
    (hStep : step y a = some y') : EventInv y' := by
  obtain ⟨hEnabled, rfl⟩ := step_eq_some hStep
  cases a with
  | addEvent es => exact eventInv_addEvent h es
  | manageEvents due => exact eventInv_manageEvents h due (by simpa [enabled] using hEnabled)
  | waitEvents eventAdded =>
    have hPhase : y.prog.phase = .managed := by
      have := hEnabled
      simp only [enabled, Bool.and_eq_true, decide_eq_true_eq] at this
      exact this.1
    exact .of_idle h.kept (h.notRunning (by simp [hPhase])) (by simp [apply, Scheduler.waitEvents])
  | wakeUp =>
    have hPhase : y.prog.phase = .waiting := by simpa [enabled] using hEnabled
    exact .of_idle h.kept (h.notRunning (by simp [hPhase])) (by simp [apply])
  | sendMessage ready valueChanged outcome => exact eventInv_sendMessage h ready valueChanged outcome
  | sessionLoop timedOut sent =>
    obtain ⟨hPending, hEvents, hPhase, hStatus⟩ := Scheduler.sessionLoop_events timedOut sent y.prog
    refine h.congr hPending hEvents hPhase hStatus ?_ ?_ ?_ <;>
      · simp only [apply, System.sessionLoop]
        split <;> rfl
  | endOfSession => exact eventInv_endOfSession h (by simpa [enabled] using hEnabled)
  | acsAnswersInform =>
    have hBoth : y.prog.phase = .inSession ∧ y.hist.informAnswered = false := by
      simpa [enabled] using hEnabled
    exact eventInv_acsAnswersInform h hBoth.1 hBoth.2
  | acsAnswersResult => exact h.congr rfl rfl rfl (.inl rfl) rfl rfl rfl
  | isSessionOpened openingOK => exact eventInv_isSessionOpened h openingOK hGuard
  | sessionClosed success => exact eventInv_sessionClosed h success hEnabled hGuard
  | insertTransferRequest tr => exact h.congr rfl rfl rfl (.inl rfl) rfl rfl rfl
  | transferComplete transferId code start comp => exact h.congr rfl rfl rfl (.inl rfl) rfl rfl rfl
  | requestDownload dr => exact h.congr rfl rfl rfl (.inl rfl) rfl rfl rfl

/-- In every run whose steps meet the condition no event is lost in any state reached. -/
theorem events_kept_of_guard (actions : List Action) (h : Along step EventGuard init actions) :
    Throughout step EventsKept init actions :=
  (throughout_of_along step_eventInv eventInv_init h).mono fun _ hInv => hInv.kept

/-- The boot event is sent, answered, and then reported as delivered. -/
def bootAnswered : List Action :=
  [.addEvent ⟨.boot, none⟩, .wakeUp, .manageEvents ⟨0, false, [], fun _ => 0⟩,
    .sendMessage true false .sessionOpening, .acsAnswersInform, .isSessionOpened true,
    .sessionClosed true, .endOfSession]

theorem events_kept_bootAnswered : Throughout step EventsKept init bootAnswered :=
  events_kept_of_guard bootAnswered (by decide)

/-- The Inform with the boot event is on its way when a connection request tests the session. -/
def connectionRequestWhileOpening : List Action :=
  [.addEvent ⟨.boot, none⟩, .wakeUp, .manageEvents ⟨0, false, [], fun _ => 0⟩,
    .sendMessage true false .sessionOpening, .isSessionOpened true]

theorem boot_event_lost_by_connectionRequest :
    ¬ Throughout step EventsKept init connectionRequestWhileOpening := by decide

end System

end Tr069Agent.Engine
