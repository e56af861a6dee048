import Tr069Agent.Engine.InformMessageScheduler

/-! # Events are not duplicated

The persistent list looks a code up by its address, and a vendor specific code is copied whenever an
event is created; so the list tells the standard events apart by their texts and takes every vendor
specific event for a new one.
-/

namespace Tr069Agent.Engine

open Library Library.Transition

set_option autoImplicit false

namespace EventCode

theorem intern_of_isIntern {code : EventCode} (h : code.isIntern = true) :
    EventCode.intern code.text = code := by
  cases code with
  | vendorSpecific text => cases h
  | _ => decide +kernel

theorem intern_text_intern (ec : Text) : EventCode.intern (EventCode.intern ec).text = EventCode.intern ec :=
  congrArg EventCode.intern (EventCode.text_intern ec)

end EventCode

namespace EventStruct

/-- `DM_ENG_newEventStruct`; a code that is no constant is a text somewhere else in memory. -/
def newEventStruct (ec : EventCode) (ck : Option Text) : EventStruct := ⟨EventCode.intern ec.text, ck⟩

/-- One code text and one command key. -/
def SameText (es evt : EventStruct) : Prop :=
  evt.eventCode.text = es.eventCode.text ∧ evt.commandKey = es.commandKey

instance (es evt : EventStruct) : Decidable (es.SameText evt) :=
  inferInstanceAs (Decidable (evt.eventCode.text = es.eventCode.text ∧ evt.commandKey = es.commandKey))

def Interned (es : EventStruct) : Prop := EventCode.intern es.eventCode.text = es.eventCode

theorem SameText.symm {es evt : EventStruct} (h : es.SameText evt) : evt.SameText es :=
  ⟨h.1.symm, h.2.symm⟩

theorem interned_newEventStruct (ec : EventCode) (ck : Option Text) : (newEventStruct ec ck).Interned :=
  EventCode.intern_text_intern ec.text

theorem sameText_newEventStruct {es : EventStruct} {ec : EventCode} {ck : Option Text} :
    es.SameText (newEventStruct ec ck) ↔ es.SameText ⟨ec, ck⟩ := by
  simp only [SameText, newEventStruct, EventCode.text_intern]

/-- A constant is found by its address where its text and key are. -/
theorem same_iff_sameText {es evt : EventStruct} (hEvt : evt.Interned) (hConstant : es.eventCode.isIntern = true) :
    es.same evt = true ↔ es.SameText evt := by
  simp only [same, SameText, Bool.and_eq_true, decide_eq_true_eq]
  constructor
  · rintro ⟨⟨-, hCode⟩, hKey⟩
    exact ⟨congrArg EventCode.text hCode, hKey⟩
  · rintro ⟨hText, hKey⟩
    have hCode : evt.eventCode = es.eventCode := by
      rw [← hEvt, hText, EventCode.intern_of_isIntern hConstant]
    exact ⟨⟨hCode ▸ hConstant, hCode⟩, hKey⟩

theorem same_of_not_isIntern {es evt : EventStruct} (h : es.eventCode.isIntern = false) :
    es.same evt = false := by
  refine Bool.eq_false_iff.mpr fun hSame => ?_
  have hEq := EventStruct.eq_of_same hSame
  simp only [same, hEq, h, Bool.false_and, Bool.false_eq_true] at hSame

end EventStruct

/-- The persistent list: each code is the constant with its text, or a copy where there is none. -/
structure PersistentEvents where
  entries : List EventStruct
  interned : ∀ evt ∈ entries, evt.Interned

namespace PersistentEvents

def empty : PersistentEvents := ⟨[], by simp⟩

def isInEvents (events : PersistentEvents) (evCode : EventCode) : Bool :=
  events.entries.any fun evt => evt.eventCode.text = evCode.text

def addEvent (ec : EventCode) (ck : Option Text) (events : PersistentEvents) : PersistentEvents :=
  if EventList.contains events.entries ⟨ec, ck⟩ then events
  else
    { entries := events.entries ++ [EventStruct.newEventStruct ec ck]
      interned := by
        intro evt hMem
        rcases List.mem_append.mp hMem with hOld | hNew
        · exact events.interned evt hOld
        · rw [List.mem_singleton.mp hNew]
          exact EventStruct.interned_newEventStruct ec ck }

def deleteEvent (evCode : EventCode) (events : PersistentEvents) : PersistentEvents where
  entries := EventList.deleteEvent events.entries evCode
  interned evt hMem := events.interned evt (EventList.mem_deleteEvent.mp hMem).1

def addIfAbsent (evCode : EventCode) (events : PersistentEvents) : PersistentEvents :=
  if events.isInEvents evCode then events else events.addEvent evCode none

def addAll (pendingEvt : List EventStruct) (events : PersistentEvents) : PersistentEvents :=
  pendingEvt.foldl (fun evts evt => evts.addEvent evt.eventCode evt.commandKey) events

def addScheduled (scheduled : List (Option Text)) (events : PersistentEvents) : PersistentEvents :=
  scheduled.foldl (fun evts ck => (evts.addIfAbsent .scheduled).addEvent .mScheduleInform ck) events

def addTransfers (queue : List TransferRequest) (events : PersistentEvents) : PersistentEvents :=
  queue.foldl
    (fun evts tr =>
      if tr.state = .completed then evts.addIfAbsent (Scheduler.transferEvent tr) else evts) events

/-- `manageEvents`: the pending events, then those that the clock and the device call for. -/
def manageEvents (pendingEvt : List EventStruct) (due : Scheduler.Due) (queue : List TransferRequest)
    (downloadRequests : List DownloadRequest) (events : PersistentEvents) : PersistentEvents :=
  let moved := events.addAll pendingEvt
  let periodic := if due.periodic then moved.addIfAbsent .periodic else moved
  let withTransfers := (periodic.addScheduled due.scheduled).addTransfers
    (queue.map (Scheduler.applyTransferRequest due.now due.device))
  if downloadRequests = [] then withTransfers else withTransfers.addIfAbsent .requestDownload

def updateValueChangeEvent (valueChanged : Bool) (events : PersistentEvents) : PersistentEvents :=
  if events.isInEvents .valueChange then
    if valueChanged then events else events.deleteEvent .valueChange
  else if valueChanged then events.addEvent .valueChange none
  else events

/-- No two entries have one code text and one command key. -/
def Distinct (events : PersistentEvents) : Prop :=
  events.entries.Pairwise fun es evt => ¬ es.SameText evt

instance : DecidablePred Distinct := fun events =>
  inferInstanceAs (Decidable (events.entries.Pairwise fun es evt => ¬ es.SameText evt))

/-- The events of a list that are no constants are not in the persistent list yet, and they come
after no event with their text and key. -/
def Fresh (pendingEvt : List EventStruct) (events : PersistentEvents) : Prop :=
  (∀ es ∈ pendingEvt, es.eventCode.isIntern = true ∨ ∀ evt ∈ events.entries, ¬ es.SameText evt) ∧
  pendingEvt.Pairwise fun earlier es => es.eventCode.isIntern = true ∨ ¬ es.SameText earlier

section Adding

variable {events : PersistentEvents} {ec : EventCode} {ck : Option Text}

theorem contains_iff (h : ec.isIntern = true) :
    EventList.contains events.entries ⟨ec, ck⟩ = true ↔ ∃ evt ∈ events.entries, EventStruct.SameText ⟨ec, ck⟩ evt := by
  rw [EventList.contains, List.any_eq_true]
  constructor
  · rintro ⟨evt, hMem, hSame⟩
    exact ⟨evt, hMem, (EventStruct.same_iff_sameText (events.interned evt hMem) h).mp hSame⟩
  · rintro ⟨evt, hMem, hSame⟩
    exact ⟨evt, hMem, (EventStruct.same_iff_sameText (events.interned evt hMem) h).mpr hSame⟩

theorem not_contains_of_not_isIntern (h : ec.isIntern = false) :
    EventList.contains events.entries ⟨ec, ck⟩ = false := by
  apply List.any_eq_false.mpr
  intro evt _
  simp [@EventStruct.same_of_not_isIntern ⟨ec, ck⟩ evt h]

theorem prefix_addEvent : events.entries <+: (events.addEvent ec ck).entries := by
  unfold addEvent
  split
  · exact List.prefix_refl _
  · exact List.prefix_append _ _

/-- The text and key added are found afterwards, and nothing else is new. -/
theorem exists_sameText_addEvent {es : EventStruct} :
    (∃ evt ∈ (events.addEvent ec ck).entries, es.SameText evt) ↔
      (∃ evt ∈ events.entries, es.SameText evt) ∨ es.SameText ⟨ec, ck⟩ := by
  unfold addEvent
  split
  · rename_i hContains
    refine (or_iff_left_of_imp fun hSame => ?_).symm
    obtain ⟨evt, hMem, hEq⟩ := List.any_eq_true.mp hContains
    rw [← EventStruct.eq_of_same hEq] at hSame
    exact ⟨evt, hMem, hSame⟩
  · simp only [List.mem_append, List.mem_singleton, or_and_right, exists_or, exists_eq_left,
      EventStruct.sameText_newEventStruct]

theorem distinct_append {es : EventStruct} :
    (events.entries ++ [es]).Pairwise (fun es evt => ¬ es.SameText evt) ↔
      events.Distinct ∧ ∀ evt ∈ events.entries, ¬ es.SameText evt := by
  rw [List.pairwise_append]
  constructor
  · rintro ⟨hOld, -, hNew⟩
    exact ⟨hOld, fun evt hMem hSame => hNew evt hMem es (List.mem_singleton_self es) hSame.symm⟩
  · rintro ⟨hOld, hNew⟩
    refine ⟨hOld, List.pairwise_singleton _ es, fun evt hMem es' hMem' hSame => ?_⟩
    rw [List.mem_singleton.mp hMem'] at hSame
    exact hNew evt hMem hSame.symm

/-- One addition keeps the entries distinct unless it adds a text that is no constant and there
already. -/
theorem distinct_addEvent (hDistinct : events.Distinct) :
    (events.addEvent ec ck).Distinct ↔
      (ec.isIntern = true ∨ ∀ evt ∈ events.entries, ¬ EventStruct.SameText ⟨ec, ck⟩ evt) := by
  have hText : ∀ evt : EventStruct,
      (EventStruct.newEventStruct ec ck).SameText evt ↔ EventStruct.SameText ⟨ec, ck⟩ evt := by
    intro evt
    constructor
    · exact fun h => (EventStruct.sameText_newEventStruct.mp h.symm).symm
    · exact fun h => (EventStruct.sameText_newEventStruct.mpr h.symm).symm
  cases hIntern : ec.isIntern with
  | true =>
    refine iff_of_true ?_ (.inl rfl)
    unfold addEvent
    split
    · exact hDistinct
    · rename_i hNot
      refine distinct_append.mpr ⟨hDistinct, fun evt hMem hSame => hNot ?_⟩
      exact (contains_iff hIntern).mpr ⟨evt, hMem, (hText evt).mp hSame⟩
  | false =>
    unfold addEvent
    rw [if_neg (Bool.eq_false_iff.mp (not_contains_of_not_isIntern hIntern))]
    refine distinct_append.trans ?_
    simp only [hText, and_iff_right hDistinct, Bool.false_eq_true, false_or]

end Adding

theorem Distinct.of_prefix {events other : PersistentEvents} (h : other.Distinct)
    (hPrefix : events.entries <+: other.entries) : events.Distinct :=
  List.Pairwise.sublist hPrefix.sublist h

theorem prefix_addAll {pendingEvt : List EventStruct} {events : PersistentEvents} :
    events.entries <+: (events.addAll pendingEvt).entries := by
  induction pendingEvt generalizing events with
  | nil => exact List.prefix_refl _
  | cons es pendingEvt ih => exact prefix_addEvent.trans ih

theorem distinct_addAll {pendingEvt : List EventStruct} {events : PersistentEvents} (hDistinct : events.Distinct) :
    (events.addAll pendingEvt).Distinct ↔ events.Fresh pendingEvt := by
  induction pendingEvt generalizing events with
  | nil => exact iff_of_true hDistinct ⟨by simp, .nil⟩
  | cons es pendingEvt ih =>
    have hOne := @distinct_addEvent events es.eventCode es.commandKey hDistinct
    by_cases hFresh : es.eventCode.isIntern = true ∨ ∀ evt ∈ events.entries, ¬ es.SameText evt
    · refine (ih (hOne.mpr hFresh)).trans ?_
      have hNext : ∀ later : EventStruct,
          (∀ evt ∈ (events.addEvent es.eventCode es.commandKey).entries, ¬ later.SameText evt) ↔
            (∀ evt ∈ events.entries, ¬ later.SameText evt) ∧ ¬ later.SameText es := by
        intro later
        have h := @exists_sameText_addEvent events es.eventCode es.commandKey later
        simpa only [not_exists, not_and, not_or] using not_congr h
      simp only [Fresh, hNext, List.forall_mem_cons, List.pairwise_cons, and_iff_right hFresh,
        or_and_left, imp_and, forall_and, and_assoc]
    · refine iff_of_false (fun h => hFresh (hOne.mp ?_)) (fun h => hFresh (h.1 es List.mem_cons_self))
      exact h.of_prefix prefix_addAll

section Standard

/-! A step that adds standard events only neither makes nor removes a duplicate. -/

variable {events : PersistentEvents} {evCode : EventCode}

theorem distinct_addEvent_iff (h : evCode.isIntern = true) (ck : Option Text) :
    (events.addEvent evCode ck).Distinct ↔ events.Distinct := by
  constructor
  · exact fun hAfter => hAfter.of_prefix prefix_addEvent
  · exact fun hBefore => (distinct_addEvent hBefore).mpr (.inl h)

theorem distinct_addIfAbsent (h : evCode.isIntern = true) :
    (events.addIfAbsent evCode).Distinct ↔ events.Distinct := by
  unfold addIfAbsent
  split
  · rfl
  · exact distinct_addEvent_iff h none

theorem distinct_addScheduled (scheduled : List (Option Text)) :
    (events.addScheduled scheduled).Distinct ↔ events.Distinct := by
  induction scheduled generalizing events with
  | nil => rfl
  | cons ck scheduled ih =>
    calc
      (events.addScheduled (ck :: scheduled)).Distinct ↔
          ((events.addIfAbsent .scheduled).addEvent .mScheduleInform ck).Distinct := ih
      _ ↔ (events.addIfAbsent .scheduled).Distinct := distinct_addEvent_iff rfl ck
      _ ↔ events.Distinct := distinct_addIfAbsent rfl

theorem isIntern_transferEvent (tr : TransferRequest) : (Scheduler.transferEvent tr).isIntern = true := by
  unfold Scheduler.transferEvent
  split <;> rfl

theorem distinct_addTransfers (queue : List TransferRequest) :
    (events.addTransfers queue).Distinct ↔ events.Distinct := by
  induction queue generalizing events with
  | nil => rfl
  | cons tr queue ih =>
    refine Iff.trans ih ?_
    dsimp only
    split
    · exact distinct_addIfAbsent (isIntern_transferEvent tr)
    · rfl

end Standard

variable {events : PersistentEvents}

theorem distinct_manageEvents (hDistinct : events.Distinct) (pendingEvt : List EventStruct)
    (due : Scheduler.Due) (queue : List TransferRequest) (downloadRequests : List DownloadRequest) :
    (events.manageEvents pendingEvt due queue downloadRequests).Distinct ↔ events.Fresh pendingEvt := by
  have hPeriodic : (if due.periodic then (events.addAll pendingEvt).addIfAbsent .periodic
      else events.addAll pendingEvt).Distinct ↔ events.Fresh pendingEvt := by
    split
    · exact (distinct_addIfAbsent rfl).trans (distinct_addAll hDistinct)
    · exact distinct_addAll hDistinct
  have hTransfers := (distinct_addTransfers (queue.map (Scheduler.applyTransferRequest due.now due.device))).trans
    ((distinct_addScheduled due.scheduled).trans hPeriodic)
  unfold manageEvents
  dsimp only
  split
  · exact hTransfers
  · exact (distinct_addIfAbsent rfl).trans hTransfers

theorem distinct_deleteEvent (hDistinct : events.Distinct) (evCode : EventCode) :
    (events.deleteEvent evCode).Distinct :=
  List.Pairwise.sublist List.filter_sublist hDistinct

theorem distinct_updateValueChangeEvent (hDistinct : events.Distinct) (valueChanged : Bool) :
    (events.updateValueChangeEvent valueChanged).Distinct := by
  unfold updateValueChangeEvent
  split
  · split
    · exact hDistinct
    · exact distinct_deleteEvent hDistinct .valueChange
  · split
    · exact (distinct_addEvent_iff rfl none).mpr hDistinct
    · exact hDistinct

inductive Operation where
  | addEvent (ec : EventCode) (ck : Option Text)
  | manageEvents (pendingEvt : List EventStruct) (due : Scheduler.Due) (queue : List TransferRequest)
      (downloadRequests : List DownloadRequest)
  | deleteEvent (evCode : EventCode)
  | updateValueChangeEvent (valueChanged : Bool)

def apply (events : PersistentEvents) : Operation → PersistentEvents
  | .addEvent ec ck => events.addEvent ec ck
  | .manageEvents pendingEvt due queue downloadRequests =>
    events.manageEvents pendingEvt due queue downloadRequests
  | .deleteEvent evCode => events.deleteEvent evCode
  | .updateValueChangeEvent valueChanged => events.updateValueChangeEvent valueChanged

def step (events : PersistentEvents) (op : Operation) : Option PersistentEvents := some (events.apply op)

/-- What an operation adds that is no constant, it adds for the first time. -/
def AddsOnce (events : PersistentEvents) : Operation → Prop
  | .addEvent ec ck => events.Fresh [⟨ec, ck⟩]
  | .manageEvents pendingEvt _ _ _ => events.Fresh pendingEvt
  | .deleteEvent _ => True
  | .updateValueChangeEvent _ => True

theorem distinct_apply (hDistinct : events.Distinct) (op : Operation) :
    (events.apply op).Distinct ↔ events.AddsOnce op := by
  cases op with
  | addEvent ec ck => exact @distinct_addAll [⟨ec, ck⟩] events hDistinct
  | manageEvents pendingEvt due queue downloadRequests =>
    exact distinct_manageEvents hDistinct pendingEvt due queue downloadRequests
  | deleteEvent evCode => exact iff_of_true (distinct_deleteEvent hDistinct evCode) trivial
  | updateValueChangeEvent valueChanged =>
    exact iff_of_true (distinct_updateValueChangeEvent hDistinct valueChanged) trivial

/-- The entries stay distinct throughout a run exactly when they are distinct at its start and each
of its operations adds its vendor specific events for the first time. -/
theorem distinct_throughout_iff (start : PersistentEvents) (run : List Operation) :
    Throughout step Distinct start run ↔ start.Distinct ∧ Along step AddsOnce start run := by
  constructor
  · intro h
    have hStart := h.head
    refine ⟨hStart, (throughout_iff_along (fun _ => id) ?_ ?_ hStart).mp h⟩
    · rintro s op s' hs hGuard hStep
      obtain rfl := Option.some.inj hStep
      exact (distinct_apply hs op).mpr hGuard
    · intro s op hs hNot
      exact ⟨s.apply op, rfl, fun hAfter => hNot ((distinct_apply hs op).mp hAfter)⟩
  · rintro ⟨hStart, hAlong⟩
    refine throughout_of_along ?_ hStart hAlong
    rintro s op s' hs hGuard hStep
    obtain rfl := Option.some.inj hStep
    exact (distinct_apply hs op).mpr hGuard

/-- Two pending events with one vendor specific code both end in the list. -/
theorem vendorSpecific_duplicated :
    ¬ Throughout step Distinct empty
      [.manageEvents (List.replicate 2 ⟨.vendorSpecific "X 001349 ALARM".toList, none⟩)
        ⟨0, false, [], fun _ => 0⟩ [] []] := by
  decide +kernel

section Scheduler

/-! The list of the scheduler is this list. -/

theorem isInEvents_eq (evCode : EventCode) (h : evCode.isIntern = true) :
    events.isInEvents evCode = EventList.isInEvents events.entries evCode := by
  rw [Bool.eq_iff_iff]
  simp only [isInEvents, EventList.isInEvents, List.any_eq_true, decide_eq_true_eq]
  refine exists_congr fun evt => and_congr_right fun hMem => ?_
  constructor
  · intro hText
    rw [← events.interned evt hMem, hText, EventCode.intern_of_isIntern h]
  · exact congrArg EventCode.text

theorem addEvent_entries {es : EventStruct} (h : es.Interned) :
    (events.addEvent es.eventCode es.commandKey).entries = EventList.add events.entries es := by
  have hNew : EventStruct.newEventStruct es.eventCode es.commandKey = es := by
    unfold EventStruct.newEventStruct
    rw [h]
  unfold addEvent EventList.add
  split
  · rfl
  · simp only [hNew]

theorem addIfAbsent_entries (evCode : EventCode) (h : evCode.isIntern = true) :
    (events.addIfAbsent evCode).entries = Scheduler.addIfAbsent events.entries evCode := by
  unfold addIfAbsent Scheduler.addIfAbsent
  rw [isInEvents_eq evCode h]
  split
  · rfl
  · exact @addEvent_entries events ⟨evCode, none⟩ (EventCode.intern_of_isIntern h)

theorem addAll_entries {pendingEvt : List EventStruct} (h : ∀ es ∈ pendingEvt, es.Interned) :
    (events.addAll pendingEvt).entries = EventList.addAll events.entries pendingEvt := by
  induction pendingEvt generalizing events with
  | nil => rfl
  | cons es pendingEvt ih =>
    obtain ⟨hHead, hTail⟩ := List.forall_mem_cons.mp h
    calc
      (events.addAll (es :: pendingEvt)).entries =
          EventList.addAll (events.addEvent es.eventCode es.commandKey).entries pendingEvt := ih hTail
      _ = EventList.addAll (EventList.add events.entries es) pendingEvt := by rw [addEvent_entries hHead]

theorem addScheduled_entries (scheduled : List (Option Text)) :
    (events.addScheduled scheduled).entries = Scheduler.scheduledEvents events.entries scheduled := by
  induction scheduled generalizing events with
  | nil => rfl
  | cons ck scheduled ih =>
    refine ih.trans (congrArg (Scheduler.scheduledEvents · scheduled) ?_)
    dsimp only
    rw [← addIfAbsent_entries .scheduled rfl]
    exact @addEvent_entries (events.addIfAbsent .scheduled) ⟨.mScheduleInform, ck⟩
      (EventCode.intern_of_isIntern rfl)

theorem addTransfers_entries (queue : List TransferRequest) :
    (events.addTransfers queue).entries = Scheduler.transferEvents events.entries queue := by
  induction queue generalizing events with
  | nil => rfl
  | cons tr queue ih =>
    refine ih.trans (congrArg (Scheduler.transferEvents · queue) ?_)
    dsimp only
    split
    · exact addIfAbsent_entries _ (isIntern_transferEvent tr)
    · rfl

/-- `manageEvents` of the scheduler, on pending events that were built by `newEventStruct`. -/
theorem manageEvents_entries {s : Scheduler} (due : Scheduler.Due) (hEvents : s.events = events.entries)
    (hPending : ∀ es ∈ s.pendingEvents, es.Interned) :
    (s.manageEvents due).events =
      (events.manageEvents s.pendingEvents due s.transferRequests s.downloadRequests).entries := by
  have hMoved := @addAll_entries events s.pendingEvents hPending
  have hPeriodic : (if due.periodic then (events.addAll s.pendingEvents).addIfAbsent .periodic
      else events.addAll s.pendingEvents).entries =
        if due.periodic then Scheduler.addIfAbsent (EventList.addAll s.events s.pendingEvents) .periodic
        else EventList.addAll s.events s.pendingEvents := by
    rw [hEvents]
    split
    · rw [addIfAbsent_entries .periodic rfl, hMoved]
    · exact hMoved
  unfold Scheduler.manageEvents manageEvents
  dsimp only
  split
  · rw [addTransfers_entries, addScheduled_entries, hPeriodic]
  · rw [addIfAbsent_entries .requestDownload rfl, addTransfers_entries, addScheduled_entries, hPeriodic]

end Scheduler

end PersistentEvents

end Tr069Agent.Engine
