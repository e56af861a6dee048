import Tr069Agent.Library.Allocation
import Tr069Agent.Library.Transition

/-! # The pending notifications of the system

What the device reports while the data are locked is put in a queue, and the owner of the lock processes the
queue before it unlocks them. An initialization at the level of a factory reset discards what is left of the queue.
-/

namespace Tr069Agent.Engine.SystemNotifications

open Library.Allocation Library.Transition

set_option autoImplicit false

abbrev Address := Nat

/-- The blocks that the allocator has handed out. -/
abbrev Memory := Finset Address

structure ParameterValueStruct where
  address : Address
  parameterName : Address
  value : Option Address

/-- An array that a null pointer ends. -/
structure TabParameterValueStruct where
  address : Address
  entries : List ParameterValueStruct

structure TransferRequest where
  address : Address
  fileType : Option Address
  url : Option Address
  username : Option Address
  password : Option Address
  targetFileName : Option Address
  successURL : Option Address
  failureURL : Option Address
  commandKey : Option Address
  announceURL : Option Address
  transferId : Nat

structure ArgStruct where
  address : Address
  name : Address
  value : Option Address

structure TabArgStruct where
  address : Address
  entries : List ArgStruct

structure DownloadRequest where
  address : Address
  fileType : Address
  args : Option TabArgStruct

structure SampleDataStruct where
  address : Address
  statObject : Address
  parameterList : Option TabParameterValueStruct

/-- The type of a notification with the payload that goes with it. -/
inductive Notification where
  | none
  | pathChange (name : Address)
  | dataValueChange (pvs : ParameterValueStruct)
  | valuesUpdated (parameterList : TabParameterValueStruct)
  | transferComplete (result : TransferRequest)
  | requestDownload (dr : DownloadRequest)
  | vendorSpecificEvent (eventCode : Address)
  | sampleData (sd : SampleDataStruct)

/-- An element of the queue; the element it points to is the next one of the list. -/
structure SystemNotificationStruct where
  address : Address
  notification : Notification

section Blocks

def ParameterValueStruct.blocks (pvs : ParameterValueStruct) : List Address :=
  pvs.parameterName :: (pvs.value.toList ++ [pvs.address])

def TabParameterValueStruct.blocks (tPvs : TabParameterValueStruct) : List Address :=
  tPvs.entries.flatMap ParameterValueStruct.blocks ++ [tPvs.address]

def TransferRequest.texts (dr : TransferRequest) : List (Option Address) :=
  [dr.fileType, dr.url, dr.username, dr.password, dr.targetFileName, dr.successURL, dr.failureURL, dr.commandKey,
    dr.announceURL]

def TransferRequest.blocks (dr : TransferRequest) : List Address := dr.texts.flatMap Option.toList ++ [dr.address]

def ArgStruct.blocks (as : ArgStruct) : List Address := as.name :: (as.value.toList ++ [as.address])

def TabArgStruct.blocks (tAs : TabArgStruct) : List Address := tAs.entries.flatMap ArgStruct.blocks ++ [tAs.address]

def DownloadRequest.blocks (dr : DownloadRequest) : List Address :=
  dr.fileType :: (dr.args.toList.flatMap TabArgStruct.blocks ++ [dr.address])

def SampleDataStruct.blocks (sd : SampleDataStruct) : List Address :=
  sd.statObject :: (sd.parameterList.toList.flatMap TabParameterValueStruct.blocks ++ [sd.address])

/-- All that a payload of the type is made of. -/
def Notification.blocks : Notification → List Address
  | none => []
  | pathChange name => [name]
  | dataValueChange pvs => pvs.blocks
  | valuesUpdated parameterList => parameterList.blocks
  | transferComplete result => result.blocks
  | requestDownload dr => dr.blocks
  | vendorSpecificEvent eventCode => [eventCode]
  | sampleData sd => sd.blocks

def SystemNotificationStruct.blocks (nt : SystemNotificationStruct) : List Address :=
  nt.address :: nt.notification.blocks

end Blocks

section Release

def freeUnlessNull (p : Option Address) (memory : Memory) : Option Memory :=
  match p with
  | none => some memory
  | some block => free memory block

def deleteParameterValueStruct (pvs : ParameterValueStruct) (memory : Memory) : Option Memory := do
  let memory ← free memory pvs.parameterName
  let memory ← freeUnlessNull pvs.value memory
  free memory pvs.address

def deleteTabParameterValueStruct (tPvs : TabParameterValueStruct) (memory : Memory) : Option Memory := do
  let memory ← releaseEach deleteParameterValueStruct tPvs.entries memory
  free memory tPvs.address

def deleteTransferRequest (dr : TransferRequest) (memory : Memory) : Option Memory := do
  let memory ← releaseEach freeUnlessNull dr.texts memory
  free memory dr.address

def deleteSampleDataStruct (sd : SampleDataStruct) (memory : Memory) : Option Memory := do
  let memory ← free memory sd.statObject
  let memory ← releaseEach deleteTabParameterValueStruct sd.parameterList.toList memory
  free memory sd.address

def deleteAllTransferRequest (dr : List TransferRequest) (memory : Memory) : Option Memory :=
  releaseEach deleteTransferRequest dr memory

/-- The `switch` on the type, which has no case for a download request or a vendor specific event. -/
def deleteNotification : Notification → Memory → Option Memory
  | .pathChange name, memory => free memory name
  | .dataValueChange pvs, memory => deleteParameterValueStruct pvs memory
  | .valuesUpdated parameterList, memory => deleteTabParameterValueStruct parameterList memory
  | .transferComplete result, memory => deleteTransferRequest result memory
  | .sampleData sd, memory => deleteSampleDataStruct sd memory
  | _, memory => some memory

/-- Both cursors as the loop moves them: `notif` is already the next element when its type is read. -/
def deleteAllSystemNotificationStruct : List SystemNotificationStruct → Memory → Option Memory
  | [], memory => some memory
  | nt :: notif, memory => do
    let next ← notif.head?
    let memory ← deleteNotification next.notification memory
    let memory ← free memory nt.address
    deleteAllSystemNotificationStruct notif memory

end Release

section Routines

/-- What the `switch` releases of a payload. -/
def Notification.released : Notification → List Address
  | requestDownload _ => []
  | vendorSpecificEvent _ => []
  | notif => notif.blocks

theorem freeUnlessNull_eq_freeAll (p : Option Address) (memory : Memory) :
    freeUnlessNull p memory = freeAll memory p.toList := by
  cases p with
  | none => rfl
  | some block => exact (freeAll_singleton memory block).symm

theorem deleteParameterValueStruct_eq_freeAll (pvs : ParameterValueStruct) (memory : Memory) :
    deleteParameterValueStruct pvs memory = freeAll memory pvs.blocks := by
  rw [ParameterValueStruct.blocks, freeAll_cons]
  refine congrArg _ (funext fun memory => ?_)
  rw [freeAll_append, ← freeUnlessNull_eq_freeAll]
  simp only [freeAll_singleton]
  rfl

theorem deleteTabParameterValueStruct_eq_freeAll (tPvs : TabParameterValueStruct) (memory : Memory) :
    deleteTabParameterValueStruct tPvs memory = freeAll memory tPvs.blocks := by
  rw [TabParameterValueStruct.blocks, freeAll_append,
    ← releaseEach_eq_freeAll deleteParameterValueStruct_eq_freeAll]
  simp only [freeAll_singleton]
  rfl

theorem deleteTransferRequest_eq_freeAll (dr : TransferRequest) (memory : Memory) :
    deleteTransferRequest dr memory = freeAll memory dr.blocks := by
  rw [TransferRequest.blocks, freeAll_append, ← releaseEach_eq_freeAll freeUnlessNull_eq_freeAll]
  simp only [freeAll_singleton]
  rfl

theorem deleteSampleDataStruct_eq_freeAll (sd : SampleDataStruct) (memory : Memory) :
    deleteSampleDataStruct sd memory = freeAll memory sd.blocks := by
  rw [SampleDataStruct.blocks, freeAll_cons]
  refine congrArg _ (funext fun memory => ?_)
  rw [freeAll_append, ← releaseEach_eq_freeAll deleteTabParameterValueStruct_eq_freeAll]
  simp only [freeAll_singleton]
  rfl

/-- Every routine releases the blocks of a payload of its own type, each of them once. -/
theorem deleteNotification_eq_freeAll (notif : Notification) (memory : Memory) :
    deleteNotification notif memory = freeAll memory notif.released := by
  cases notif with
  | pathChange name => exact (freeAll_singleton memory name).symm
  | dataValueChange pvs => exact deleteParameterValueStruct_eq_freeAll pvs memory
  | valuesUpdated parameterList => exact deleteTabParameterValueStruct_eq_freeAll parameterList memory
  | transferComplete result => exact deleteTransferRequest_eq_freeAll result memory
  | sampleData sd => exact deleteSampleDataStruct_eq_freeAll sd memory
  | _ => rfl

/-- The loop over the transfer requests, which deletes the element behind its cursor. -/
theorem deleteAllTransferRequest_eq {dr : List TransferRequest} {memory : Memory}
    (h : Allocated memory (dr.flatMap TransferRequest.blocks)) :
    deleteAllTransferRequest dr memory = some (memory \ (dr.flatMap TransferRequest.blocks).toFinset) := by
  rw [deleteAllTransferRequest, releaseEach_eq_freeAll deleteTransferRequest_eq_freeAll]
  exact h.freeAll

end Routines

section Discarding

def blocks (queue : List SystemNotificationStruct) : List Address := queue.flatMap SystemNotificationStruct.blocks

/-- A round releases an element with the payload of the element after it. -/
theorem deleteAllSystemNotificationStruct_cons_cons (nt notif : SystemNotificationStruct)
    (queue : List SystemNotificationStruct) (memory : Memory) :
    deleteAllSystemNotificationStruct (nt :: notif :: queue) memory =
      (freeAll memory (notif.notification.released ++ [nt.address])).bind
        (deleteAllSystemNotificationStruct (notif :: queue)) := by
  rw [freeAll_append, ← deleteNotification_eq_freeAll, Option.bind_assoc]
  simp only [freeAll_singleton]
  rfl

/-- The loop cannot end: a round reads the type of the element it moves to, which is a null pointer when there
is none. -/
theorem deleteAllSystemNotificationStruct_cons (nt : SystemNotificationStruct)
    (queue : List SystemNotificationStruct) (memory : Memory) :
    deleteAllSystemNotificationStruct (nt :: queue) memory = none := by
  induction queue generalizing nt memory with
  | nil => rfl
  | cons notif queue ih =>
    rw [deleteAllSystemNotificationStruct_cons_cons]
    cases freeAll memory (notif.notification.released ++ [nt.address]) with
    | none => rfl
    | some left => exact ih notif left

/-- The elements and their payloads are released once each, and nothing else is. A second release of a block, or
a look beyond the last element, is undefined. -/
def DiscardsOnce (queue : List SystemNotificationStruct) (memory : Memory) : Prop :=
  deleteAllSystemNotificationStruct queue memory = some (memory \ (blocks queue).toFinset)

instance (queue : List SystemNotificationStruct) (memory : Memory) : Decidable (DiscardsOnce queue memory) :=
  inferInstanceAs (Decidable (deleteAllSystemNotificationStruct queue memory = _))

theorem discardsOnce_iff (queue : List SystemNotificationStruct) (memory : Memory) :
    DiscardsOnce queue memory ↔ queue = [] := by
  cases queue with
  | nil => simp [DiscardsOnce, deleteAllSystemNotificationStruct, blocks]
  | cons nt queue =>
    rw [DiscardsOnce, deleteAllSystemNotificationStruct_cons]
    simp

theorem changed_path_not_discarded :
    Allocated {1, 2} (blocks [⟨1, .pathChange 2⟩]) ∧ ¬ DiscardsOnce [⟨1, .pathChange 2⟩] {1, 2} :=
  ⟨⟨by decide, by decide⟩, by decide⟩

end Discarding

inductive InitLevel where
  | factoryReset
  | reboot
  | resume
  deriving DecidableEq

/-- The queue, with the memory that it shares with the rest of the engine. -/
structure PendingChanges where
  queue : List SystemNotificationStruct
  memory : Memory

inductive Action where
  | notify (newNotifStruct : SystemNotificationStruct)
  | process
  | init (level : InitLevel)

namespace PendingChanges

def addSystemNotificationStruct (newNotifStruct : SystemNotificationStruct) :
    List SystemNotificationStruct → List SystemNotificationStruct
  | [] => [newNotifStruct]
  | notif :: next => notif :: addSystemNotificationStruct newNotifStruct next

/-- What is released when a notification has been processed. A report of a transfer without a number is kept in
the queue of the transfers, the download requests and the samples are kept as well. -/
def afterProcessing : Notification → Memory → Option Memory
  | .pathChange name, memory => free memory name
  | .dataValueChange pvs, memory => deleteParameterValueStruct pvs memory
  | .valuesUpdated parameterList, memory => deleteTabParameterValueStruct parameterList memory
  | .transferComplete result, memory =>
    if result.transferId = 0 then some memory else deleteTransferRequest result memory
  | .vendorSpecificEvent eventCode, memory => free memory eventCode
  | _, memory => some memory

/-- The new element and its payload are newly allocated. -/
def Fresh (s : PendingChanges) (nt : SystemNotificationStruct) : Prop :=
  nt.blocks.Nodup ∧ ∀ block ∈ nt.blocks, block ∉ s.memory

instance (s : PendingChanges) (nt : SystemNotificationStruct) : Decidable (s.Fresh nt) :=
  inferInstanceAs (Decidable (_ ∧ _))

def step (s : PendingChanges) : Action → Option PendingChanges
  | .notify nt =>
    if s.Fresh nt then
      some { queue := addSystemNotificationStruct nt s.queue, memory := s.memory ∪ nt.blocks.toFinset }
    else none
  | .process =>
    match s.queue with
    | [] => some s
    | nt :: next => do
      let memory ← free s.memory nt.address
      let memory ← afterProcessing nt.notification memory
      some { queue := next, memory }
  | .init level =>
    if level = .factoryReset then do
      let memory ← deleteAllSystemNotificationStruct s.queue s.memory
      some { queue := [], memory }
    else some s

/-- The elements and payloads of the queue are different blocks and allocated. -/
def Inv (s : PendingChanges) : Prop := Allocated s.memory (blocks s.queue)

/-- New elements are allocated for it, and at a factory reset nothing is pending. -/
def Admitted (s : PendingChanges) : Action → Prop
  | .notify nt => s.Fresh nt
  | .process => True
  | .init level => level = .factoryReset → s.queue = []

theorem addSystemNotificationStruct_eq (nt : SystemNotificationStruct) (queue : List SystemNotificationStruct) :
    addSystemNotificationStruct nt queue = queue ++ [nt] := by
  induction queue with
  | nil => rfl
  | cons notif queue ih => rw [addSystemNotificationStruct, ih, List.cons_append]

/-- A processed payload is released whole or not at all. -/
theorem afterProcessing_eq_freeAll (notif : Notification) (memory : Memory) :
    afterProcessing notif memory = freeAll memory notif.blocks ∨ afterProcessing notif memory = some memory := by
  cases notif with
  | pathChange name => exact .inl (freeAll_singleton memory name).symm
  | dataValueChange pvs => exact .inl (deleteParameterValueStruct_eq_freeAll pvs memory)
  | valuesUpdated parameterList => exact .inl (deleteTabParameterValueStruct_eq_freeAll parameterList memory)
  | transferComplete result =>
    by_cases hNumber : result.transferId = 0
    · exact .inr (if_pos hNumber)
    · exact .inl ((if_neg hNumber).trans (deleteTransferRequest_eq_freeAll result memory))
  | vendorSpecificEvent eventCode => exact .inl (freeAll_singleton memory eventCode).symm
  | _ => exact .inr rfl

theorem inv_process {s : PendingChanges} (hInv : s.Inv) : ∃ s', s.step .process = some s' ∧ s'.Inv := by
  obtain ⟨queue, memory⟩ := s
  cases queue with
  | nil => exact ⟨⟨[], memory⟩, rfl, hInv⟩
  | cons nt next =>
    have hBlocks : Allocated memory (nt.address :: (nt.notification.blocks ++ blocks next)) := hInv
    obtain ⟨hElement, hRest⟩ := allocated_cons_iff.mp hBlocks
    obtain ⟨hPayload, hNext⟩ := allocated_append_iff.mp hRest
    have hFree : free memory nt.address = some (memory.erase nt.address) := if_pos hElement
    obtain hFreed | hKept := afterProcessing_eq_freeAll nt.notification (memory.erase nt.address)
    · refine ⟨⟨next, _⟩, ?_, hNext⟩
      simp [step, hFree, hFreed, hPayload.freeAll]
    · refine ⟨⟨next, memory.erase nt.address⟩, ?_, hRest.of_append_right⟩
      simp [step, hFree, hKept]

theorem inv_notify {s : PendingChanges} {nt : SystemNotificationStruct} (hInv : s.Inv) (hFresh : s.Fresh nt) :
    ∃ s', s.step (.notify nt) = some s' ∧ s'.Inv := by
  refine ⟨_, if_pos hFresh, ?_⟩
  have hBlocks : blocks (addSystemNotificationStruct nt s.queue) = blocks s.queue ++ nt.blocks := by
    simp [addSystemNotificationStruct_eq, blocks]
  rw [Inv, hBlocks]
  exact hInv.append_new hFresh.1 hFresh.2

/-- Discarding an empty queue changes nothing, and discarding another one is undefined. -/
theorem step_init (s : PendingChanges) (level : InitLevel) :
    s.step (.init level) = if level = .factoryReset ∧ s.queue ≠ [] then none else some s := by
  obtain ⟨queue, memory⟩ := s
  cases level with
  | factoryReset =>
    cases queue with
    | nil => rfl
    | cons nt queue => simp [step, deleteAllSystemNotificationStruct_cons]
  | reboot | resume => rfl

theorem inv_step {s s' : PendingChanges} {a : Action} (hInv : s.Inv) (h : s.step a = some s') : s'.Inv := by
  cases a with
  | notify nt =>
    by_cases hFresh : s.Fresh nt
    · obtain ⟨left, hLeft, hNext⟩ := inv_notify hInv hFresh
      obtain rfl := Option.some.inj (hLeft.symm.trans h)
      exact hNext
    · simp [step, hFresh] at h
  | process =>
    obtain ⟨left, hLeft, hNext⟩ := inv_process hInv
    obtain rfl := Option.some.inj (hLeft.symm.trans h)
    exact hNext
  | init level =>
    rw [step_init] at h
    split at h
    · cases h
    · obtain rfl := Option.some.inj h
      exact hInv

theorem step_isSome_iff {s : PendingChanges} {a : Action} (hInv : s.Inv) :
    (s.step a).isSome = true ↔ s.Admitted a := by
  cases a with
  | notify nt => by_cases hFresh : s.Fresh nt <;> simp [step, Admitted, hFresh]
  | process =>
    obtain ⟨s', hStep, -⟩ := inv_process hInv
    simp [hStep, Admitted]
  | init level =>
    rw [step_init, Admitted]
    split <;> simp_all

/-- A run from the empty queue is defined exactly when no factory reset finds notifications pending. -/
theorem exec_isSome_iff {memory : Memory} {actions : List Action} :
    (exec step ⟨[], memory⟩ actions).isSome = true ↔ Along step Admitted ⟨[], memory⟩ actions :=
  exec_isSome_iff_along (fun _ _ _ hInv hStep => inv_step hInv hStep) (fun _ _ => step_isSome_iff)
    ⟨List.nodup_nil, nofun⟩

end PendingChanges

end Tr069Agent.Engine.SystemNotifications
