import Mathlib.Data.List.Basic
import Tr069Agent.Library.Text

/-! # Events and event lists

The standard event codes are compared as pointers, so two events of one vendor specific code are
always told apart and every one of them is kept.
-/

namespace Tr069Agent.Engine

open Library

set_option autoImplicit false

inductive EventCode where
  | bootstrap
  | boot
  | periodic
  | scheduled
  | valueChange
  | kicked
  | connectionRequest
  | transferComplete
  | diagnosticsComplete
  | requestDownload
  | autonomousTransferComplete
  | mReboot
  | mScheduleInform
  | mDownload
  | mUpload
  | vendorSpecific (text : Text)
  deriving DecidableEq

def EventCode.text : EventCode → Text
  | .bootstrap => "0 BOOTSTRAP".toList
  | .boot => "1 BOOT".toList
  | .periodic => "2 PERIODIC".toList
  | .scheduled => "3 SCHEDULED".toList
  | .valueChange => "4 VALUE CHANGE".toList
  | .kicked => "5 KICKED".toList
  | .connectionRequest => "6 CONNECTION REQUEST".toList
  | .transferComplete => "7 TRANSFER COMPLETE".toList
  | .diagnosticsComplete => "8 DIAGNOSTICS COMPLETE".toList
  | .requestDownload => "9 REQUEST DOWNLOAD".toList
  | .autonomousTransferComplete => "10 AUTONOMOUS TRANSFER COMPLETE".toList
  | .mReboot => "M Reboot".toList
  | .mScheduleInform => "M ScheduleInform".toList
  | .mDownload => "M Download".toList
  | .mUpload => "M Upload".toList
  | .vendorSpecific text => text

def EventCode.constants : List EventCode :=
  [.bootstrap, .boot, .periodic, .scheduled, .valueChange, .kicked, .connectionRequest,
    .transferComplete, .diagnosticsComplete, .requestDownload, .autonomousTransferComplete,
    .mReboot, .mScheduleInform, .mDownload, .mUpload]

/-- `_internEventCode`: the constant with this text, if there is one. -/
def EventCode.intern (ec : Text) : EventCode :=
  (EventCode.constants.find? fun code => code.text = ec).getD (.vendorSpecific ec)

theorem EventCode.text_intern (ec : Text) : (EventCode.intern ec).text = ec := by
  unfold EventCode.intern
  cases hFind : EventCode.constants.find? fun code => code.text = ec with
  | none => rfl
  | some code => simpa using List.find?_some hFind

/-- `_isInternEventCode`: the code is one of the constants of the module. -/
def EventCode.isIntern : EventCode → Bool
  | .vendorSpecific _ => false
  | _ => true

structure EventStruct where
  eventCode : EventCode
  commandKey : Option Text
  deriving DecidableEq

/-- The comparison of the event lists: one code constant and one command key. -/
def EventStruct.same (es evt : EventStruct) : Bool :=
  evt.eventCode.isIntern && evt.eventCode = es.eventCode && evt.commandKey = es.commandKey

theorem EventStruct.eq_of_same {es evt : EventStruct} (h : es.same evt = true) : evt = es := by
  obtain ⟨code, key⟩ := es
  obtain ⟨code', key'⟩ := evt
  simp only [EventStruct.same, Bool.and_eq_true, decide_eq_true_eq] at h
  obtain ⟨⟨-, rfl⟩, rfl⟩ := h
  rfl

namespace EventList

/-- `containsEvent` and the loop of `DM_ENG_ParameterData_addEvent`. -/
def contains (events : List EventStruct) (es : EventStruct) : Bool := events.any es.same

def isInEvents (events : List EventStruct) (evCode : EventCode) : Bool :=
  events.any fun evt => evt.eventCode = evCode

/-- An event is added at the end unless it is already there. -/
def add (events : List EventStruct) (es : EventStruct) : List EventStruct :=
  if contains events es then events else events ++ [es]

def deleteEvent (events : List EventStruct) (evCode : EventCode) : List EventStruct :=
  events.filter fun evt => !(evt.eventCode.isIntern && evt.eventCode = evCode)

def addAll (events news : List EventStruct) : List EventStruct := news.foldl add events

@[simp]
theorem mem_add {events : List EventStruct} {es evt : EventStruct} :
    evt ∈ add events es ↔ evt ∈ events ∨ evt = es := by
  unfold add
  split
  · rename_i hContains
    constructor
    · exact .inl
    · rintro (hMem | rfl)
      · exact hMem
      · obtain ⟨other, hOther, hSame⟩ := List.any_eq_true.mp hContains
        exact EventStruct.eq_of_same hSame ▸ hOther
  · simp

@[simp]
theorem mem_addAll {events news : List EventStruct} {evt : EventStruct} :
    evt ∈ addAll events news ↔ evt ∈ events ∨ evt ∈ news := by
  induction news generalizing events with
  | nil => simp [addAll]
  | cons es news ih =>
    calc
      evt ∈ addAll events (es :: news) ↔ evt ∈ add events es ∨ evt ∈ news := ih
      _ ↔ evt ∈ events ∨ evt ∈ es :: news := by rw [mem_add, List.mem_cons, or_assoc]

theorem mem_deleteEvent {events : List EventStruct} {evCode : EventCode} {evt : EventStruct} :
    evt ∈ deleteEvent events evCode ↔
      evt ∈ events ∧ ¬ (evt.eventCode.isIntern = true ∧ evt.eventCode = evCode) := by
  cases hIntern : evt.eventCode.isIntern <;> simp [deleteEvent, hIntern]

end EventList

end Tr069Agent.Engine
