import Mathlib.Data.List.MinMax
import Mathlib.Data.List.Nodup
import Mathlib.Logic.Function.Basic
import Tr069Agent.Data.TransferReading
import Tr069Agent.Library.Transition

/-! # The order of the transfer queue

The queue is kept by transfer time, and requests with one time in the order in which they came. The next
timeout looks at the first request that has not started, so it rests on this order.
-/

namespace Tr069Agent.Data

open Library Library.Transition Engine

set_option autoImplicit false

/-- The control data in memory with, for each number, the insertion that gave it last. -/
structure TransferData extends DmControl where
  insertions : Nat
  arrival : Nat → Nat

def TransferData.init : TransferData where
  toDmControl := .empty
  insertions := 0
  arrival := fun _ => 0

inductive TransferOperation where
  | insertTransferRequest (tr : TransferRequest)
  | updateTransferRequest (transferId : Nat) (state : TransferRequestState) (code : Nat) (start comp : Int)
  | removeTransferRequest (transferId : Nat)
  | removeAllTransferResults
  | setOthers (others : ControlData)
  | reload (restarted : Bool)
  deriving DecidableEq

namespace TransferData

def insertTransferRequest (tr : TransferRequest) (s : TransferData) : TransferData :=
  let transferId := (s.lastTransferId + 1) % 2 ^ 32
  { s with
    transferRequests := TransferQueue.insert { tr with transferId } s.transferRequests
    lastTransferId := transferId
    insertions := s.insertions + 1
    arrival := Function.update s.arrival transferId s.insertions }

/-- What else is done to the control data leaves the transfer requests. -/
def setOthers (others : ControlData) (s : TransferData) : TransferData :=
  { s with toControlData := { others with transferRequests := s.transferRequests } }

/-- The file that is written is read back, over the data in memory or by a new process. -/
def reload (restarted : Bool) (s : TransferData) : Option TransferData :=
  (readDmControl (if restarted then .empty else s.toDmControl) (writeDmControl s.toControlData)).map fun control =>
    { s with toDmControl := control }

def step (s : TransferData) : TransferOperation → Option TransferData
  | .insertTransferRequest tr => some (s.insertTransferRequest tr)
  | .updateTransferRequest transferId state code start comp =>
    some { s with
      transferRequests := TransferQueue.update transferId state code start comp s.transferRequests }
  | .removeTransferRequest transferId =>
    some { s with transferRequests := TransferQueue.remove s.transferRequests transferId }
  | .removeAllTransferResults =>
    some { s with transferRequests := TransferQueue.removeAllTransferResults s.transferRequests }
  | .setOthers others => some (s.setOthers others)
  | .reload restarted => s.reload restarted

end TransferData

section Timeout

/-- An instant that is set and comes before the other one, where that is set. -/
def sooner (time timeout : Int) : Int := if time ≠ 0 ∧ (timeout = 0 ∨ time < timeout) then time else timeout

def notYetStarted (queue : List TransferRequest) : List TransferRequest :=
  queue.filter fun tr => tr.state = .notYetStarted

/-- `DM_ENG_ParameterManager_getNextTimeout` on the times of the periodic and the first scheduled inform. -/
def getNextTimeout (periodicInformTime scheduledInformTime : Int) (queue : List TransferRequest) : Int :=
  let timeout := sooner scheduledInformTime periodicInformTime
  let transferTime := ((queue.find? fun tr => tr.state = .notYetStarted).map TransferRequest.transferTime).getD 0
  sooner transferTime timeout

/-- The smallest time that is not zero, zero if there is none. -/
def smallestNonZero (times : List Int) : Int := ((times.filter (· ≠ 0)).min?).getD 0

def TimeoutExact (queue : List TransferRequest) : Prop :=
  ∀ periodicInformTime scheduledInformTime,
    getNextTimeout periodicInformTime scheduledInformTime queue =
      smallestNonZero (periodicInformTime :: scheduledInformTime ::
        (notYetStarted queue).map TransferRequest.transferTime)

/-- A request that waits for its start has a time. -/
def Timed (queue : List TransferRequest) : Prop := ∀ tr ∈ queue, tr.state = .notYetStarted → tr.transferTime ≠ 0

theorem sooner_comm (time timeout : Int) : sooner time timeout = sooner timeout time := by
  unfold sooner
  split_ifs <;> omega

theorem sooner_assoc (a b c : Int) : sooner (sooner a b) c = sooner a (sooner b c) := by
  unfold sooner
  split_ifs <;> omega

theorem smallestNonZero_cons (time : Int) (times : List Int) :
    smallestNonZero (time :: times) = sooner time (smallestNonZero times) := by
  have hNonZero : ∀ m ∈ (times.filter (· ≠ 0)).min?, m ≠ 0 := by
    intro m hMem
    have := List.min?_mem hMem
    simpa using (List.mem_filter.mp this).2
  unfold smallestNonZero sooner
  by_cases hTime : time = 0
  · simp [hTime]
  · rw [List.filter_cons_of_pos (by simpa using hTime), List.min?_cons]
    cases hMin : (times.filter (· ≠ 0)).min? with
    | none => simp [hTime]
    | some m =>
      have hM := hNonZero m hMin
      simp only [Option.elim_some, Option.getD_some, ne_eq, hTime, not_false_eq_true, true_and, hM, false_or]
      split <;> omega

theorem smallestNonZero_mem (times : List Int) : smallestNonZero times = 0 ∨ smallestNonZero times ∈ times := by
  unfold smallestNonZero
  cases hMin : (times.filter (· ≠ 0)).min? with
  | none => exact .inl rfl
  | some m => exact .inr (List.mem_of_mem_filter (List.min?_mem hMin))

theorem smallestNonZero_of_le {time : Int} {times : List Int} (h : ∀ t ∈ times, time ≤ t) (hTime : time ≠ 0) :
    smallestNonZero (time :: times) = time := by
  rw [smallestNonZero_cons, sooner]
  obtain hNone | hMem := smallestNonZero_mem times
  · rw [if_pos ⟨hTime, .inl hNone⟩]
  · have := h _ hMem
    split <;> omega

/-- Where the queue is kept by time, the first request not yet started is the one that is due first. -/
theorem timeoutExact_of_byTime {queue : List TransferRequest} (h : ByTime queue) (hTimed : Timed queue) :
    TimeoutExact queue := by
  intro periodicInformTime scheduledInformTime
  have hFirst : ((queue.find? fun tr => tr.state = .notYetStarted).map TransferRequest.transferTime).getD 0 =
      smallestNonZero ((notYetStarted queue).map TransferRequest.transferTime) := by
    have hSorted : (notYetStarted queue).Pairwise fun dr next => dr.transferTime ≤ next.transferTime :=
      h.sublist List.filter_sublist
    rw [← List.head?_filter]
    change ((notYetStarted queue).head?.map _).getD 0 = _
    cases hPending : notYetStarted queue with
    | nil => rfl
    | cons tr pending =>
      have hFirst : tr ∈ notYetStarted queue := by
        rw [hPending]
        exact List.mem_cons_self
      obtain ⟨hMem, hState⟩ := List.mem_filter.mp hFirst
      rw [hPending] at hSorted
      refine (smallestNonZero_of_le (fun t hMem => ?_) (hTimed tr hMem (by simpa using hState))).symm
      obtain ⟨next, hNext, rfl⟩ := List.mem_map.mp hMem
      exact (List.pairwise_cons.mp hSorted).1 next hNext
  unfold getNextTimeout
  simp only [hFirst, smallestNonZero_cons]
  rw [sooner_comm, sooner_comm scheduledInformTime, sooner_assoc]

end Timeout

section Queue

open TransferQueue

/-- The place of a request: its time, and its number. -/
def place (tr : TransferRequest) : Int × Nat := (tr.transferTime, tr.transferId)

/-- Due earlier, or at the same time and inserted earlier. -/
def Before (arrival : Nat → Nat) (a b : Int × Nat) : Prop :=
  a.1 < b.1 ∨ a.1 = b.1 ∧ arrival a.2 < arrival b.2

theorem places_insert_before {arrival : Nat → Nat} {tr : TransferRequest} {queue : List TransferRequest}
    (h : (queue.map place).Pairwise (Before arrival))
    (hLast : ∀ curr ∈ queue, arrival curr.transferId < arrival tr.transferId) :
    ((TransferQueue.insert tr queue).map place).Pairwise (Before arrival) := by
  induction queue with
  | nil => exact List.pairwise_singleton _ _
  | cons curr queue ih =>
    obtain ⟨hCurr, hQueue⟩ := List.pairwise_cons.mp h
    obtain ⟨hHead, hTail⟩ := List.forall_mem_cons.mp hLast
    unfold TransferQueue.insert
    split
    · rename_i hTime
      refine List.pairwise_cons.mpr ⟨fun other hOther => ?_, ih hQueue hTail⟩
      rw [((perm_insert tr queue).map place).mem_iff, List.map_cons, List.mem_cons] at hOther
      obtain rfl | hOther := hOther
      · change curr.transferTime < tr.transferTime ∨ curr.transferTime = tr.transferTime ∧ _
        obtain hLess | hEq := lt_or_eq_of_le hTime
        · exact .inl hLess
        · exact .inr ⟨hEq, hHead⟩
      · exact hCurr other hOther
    · rename_i hTime
      refine List.pairwise_cons.mpr ⟨fun other hOther => .inl ?_, h⟩
      have hSooner : tr.transferTime < curr.transferTime := by omega
      obtain rfl | hOther := List.mem_cons.mp hOther
      · exact hSooner
      · obtain hLess | ⟨hEq, -⟩ := hCurr other hOther
        · exact hSooner.trans hLess
        · exact hEq ▸ hSooner

theorem places_update (transferId : Nat) (state : TransferRequestState) (code : Nat) (start comp : Int)
    (queue : List TransferRequest) :
    (update transferId state code start comp queue).map place = queue.map place := by
  induction queue with
  | nil => rfl
  | cons curr queue ih =>
    unfold update
    split
    · rfl
    · rw [List.map_cons, ih, List.map_cons]

theorem remove_sublist (queue : List TransferRequest) (transferId : Nat) : (remove queue transferId).Sublist queue :=
  List.eraseP_sublist

theorem removeAllTransferResults_sublist (queue : List TransferRequest) :
    (removeAllTransferResults queue).Sublist queue := by
  have hLoop : ∀ (seen left : List TransferRequest),
      (seen.foldl (fun left tr => if tr.state = .completed then remove left tr.transferId else left) left).Sublist
        left := by
    intro seen
    induction seen with
    | nil => exact fun left => List.Sublist.refl left
    | cons tr seen ih =>
      intro left
      refine (ih _).trans ?_
      dsimp only
      split
      · exact remove_sublist left tr.transferId
      · exact List.Sublist.refl left
  exact hLoop queue queue

theorem foldl_addTransferRequest {front queue : List TransferRequest} (h : ByTime (front ++ queue)) :
    queue.foldl addTransferRequest front = front ++ queue := by
  induction queue generalizing front with
  | nil => exact (List.append_nil front).symm
  | cons dr queue ih =>
    have hBefore : ∀ other ∈ front, other.transferTime ≤ dr.transferTime := fun other hMem =>
      (List.pairwise_append.mp h).2.2 other hMem dr List.mem_cons_self
    rw [List.foldl_cons, addTransferRequest_of_le hBefore, ih (by simpa using h), List.append_assoc]
    rfl

end Queue

section Runs

open TransferQueue

/-- The queue is ordered, the numbers are different and not zero, and the timeout is exact. -/
structure WellOrdered (s : TransferData) : Prop where
  byTime : (s.transferRequests.map place).Pairwise (Before s.arrival)
  distinct : (ids s.transferRequests).Nodup
  nonzero : 0 ∉ ids s.transferRequests
  timeout : TimeoutExact s.transferRequests

/-- There are fewer than 2 ^ 32 insertions, a request that waits for its start has a time, and the data that are
read back are readable. -/
def Kept (s : TransferData) : TransferOperation → Prop
  | .insertTransferRequest tr => s.insertions + 1 < 2 ^ 32 ∧ (tr.state = .notYetStarted → tr.transferTime ≠ 0)
  | .updateTransferRequest transferId state _ _ _ =>
    state = .notYetStarted → ∀ tr ∈ s.transferRequests, tr.transferId = transferId → tr.transferTime ≠ 0
  | .reload _ => ReadableData s.toControlData
  | _ => True

/-- What is known of the places of the queue. -/
structure PlacesInv (arrival : Nat → Nat) (lastTransferId insertions : Nat) (places : List (Int × Nat)) : Prop where
  byTime : places.Pairwise (Before arrival)
  distinct : (places.map Prod.snd).Nodup
  nonzero : ∀ p ∈ places, p.2 ≠ 0
  given : ∀ p ∈ places, p.2 ≤ lastTransferId
  arrived : ∀ p ∈ places, arrival p.2 < insertions
  counted : lastTransferId ≤ insertions
  few : insertions < 2 ^ 32

structure TransferData.Inv (s : TransferData) : Prop where
  places : PlacesInv s.arrival s.lastTransferId s.insertions (s.transferRequests.map place)
  timed : Timed s.transferRequests

theorem PlacesInv.sublist {arrival : Nat → Nat} {lastTransferId insertions : Nat} {places left : List (Int × Nat)}
    (h : PlacesInv arrival lastTransferId insertions places) (hLeft : left.Sublist places) :
    PlacesInv arrival lastTransferId insertions left where
  byTime := h.byTime.sublist hLeft
  distinct := h.distinct.sublist (hLeft.map Prod.snd)
  nonzero p hMem := h.nonzero p (hLeft.subset hMem)
  given p hMem := h.given p (hLeft.subset hMem)
  arrived p hMem := h.arrived p (hLeft.subset hMem)
  counted := h.counted
  few := h.few

theorem Timed.sublist {queue left : List TransferRequest} (h : Timed queue) (hLeft : left.Sublist queue) :
    Timed left := fun tr hMem => h tr (hLeft.subset hMem)

theorem timed_update {transferId : Nat} {state : TransferRequestState} (code : Nat) (start comp : Int)
    {queue : List TransferRequest} (h : Timed queue)
    (hState : state = .notYetStarted → ∀ tr ∈ queue, tr.transferId = transferId → tr.transferTime ≠ 0) :
    Timed (update transferId state code start comp queue) := by
  induction queue with
  | nil => exact h
  | cons curr queue ih =>
    obtain ⟨hCurr, hQueue⟩ := List.forall_mem_cons.mp h
    unfold update
    split
    · rename_i hId
      exact List.forall_mem_cons.mpr ⟨fun hStart => hState hStart curr List.mem_cons_self hId, hQueue⟩
    · exact List.forall_mem_cons.mpr
        ⟨hCurr, ih hQueue fun hStart tr hMem => hState hStart tr (List.mem_cons_of_mem curr hMem)⟩

variable {s s' : TransferData}

theorem ids_eq_map_place (queue : List TransferRequest) : ids queue = (queue.map place).map Prod.snd := by
  rw [List.map_map]
  rfl

theorem TransferData.Inv.sorted (h : s.Inv) : ByTime s.transferRequests := by
  refine (List.pairwise_map.mp h.places.byTime).imp ?_
  rintro dr next (hLess | ⟨hEq, -⟩)
  · exact le_of_lt hLess
  · exact le_of_eq hEq

theorem TransferData.Inv.wellOrdered (h : s.Inv) : WellOrdered s where
  byTime := h.places.byTime
  distinct := ids_eq_map_place _ ▸ h.places.distinct
  nonzero := by
    rw [ids_eq_map_place]
    intro hMem
    obtain ⟨p, hPlace, hZero⟩ := List.mem_map.mp hMem
    exact h.places.nonzero p hPlace hZero
  timeout := timeoutExact_of_byTime h.sorted h.timed

theorem TransferData.places_insert
    (h : PlacesInv s.arrival s.lastTransferId s.insertions (s.transferRequests.map place))
    (hFew : s.insertions + 1 < 2 ^ 32) (tr : TransferRequest) :
    PlacesInv (s.insertTransferRequest tr).arrival (s.insertTransferRequest tr).lastTransferId
      (s.insertTransferRequest tr).insertions ((s.insertTransferRequest tr).transferRequests.map place) := by
  have hNext : (s.lastTransferId + 1) % 2 ^ 32 = s.lastTransferId + 1 := by
    have := h.counted
    omega
  have hOther : ∀ p ∈ s.transferRequests.map place, p.2 ≠ s.lastTransferId + 1 := fun p hMem => by
    have := h.given p hMem
    omega
  have hArrival : ∀ p ∈ s.transferRequests.map place,
      Function.update s.arrival (s.lastTransferId + 1) s.insertions p.2 = s.arrival p.2 := fun p hMem =>
    Function.update_of_ne (hOther p hMem) _ _
  have hNew : Function.update s.arrival (s.lastTransferId + 1) s.insertions (s.lastTransferId + 1) =
      s.insertions := Function.update_self _ _ _
  have hPerm : ((TransferQueue.insert { tr with transferId := s.lastTransferId + 1 } s.transferRequests).map
      place).Perm ((tr.transferTime, s.lastTransferId + 1) :: s.transferRequests.map place) :=
    (perm_insert _ _).map place
  unfold TransferData.insertTransferRequest
  simp only [hNext]
  refine ⟨places_insert_before ?_ fun curr hMem => ?_, ?_, fun p hMem => ?_, fun p hMem => ?_, fun p hMem => ?_, ?_,
    hFew⟩
  · refine h.byTime.imp_of_mem fun {a b} hA hB hBefore => ?_
    simpa only [Before, hArrival a hA, hArrival b hB] using hBefore
  · have hPlace : place curr ∈ s.transferRequests.map place := List.mem_map_of_mem hMem
    rw [hNew, show curr.transferId = (place curr).2 from rfl, hArrival _ hPlace]
    exact h.arrived _ hPlace
  · refine ((hPerm.map Prod.snd).nodup_iff).mpr (List.nodup_cons.mpr ⟨fun hMem => ?_, h.distinct⟩)
    obtain ⟨p, hPlace, hId⟩ := List.mem_map.mp hMem
    exact hOther p hPlace hId
  · obtain rfl | hOld := List.mem_cons.mp (hPerm.mem_iff.mp hMem)
    · exact Nat.succ_ne_zero _
    · exact h.nonzero p hOld
  · obtain rfl | hOld := List.mem_cons.mp (hPerm.mem_iff.mp hMem)
    · exact le_rfl
    · exact (h.given p hOld).trans (Nat.le_succ _)
  · obtain rfl | hOld := List.mem_cons.mp (hPerm.mem_iff.mp hMem)
    · rw [hNew]
      exact Nat.lt_succ_self _
    · rw [hArrival p hOld]
      exact (h.arrived p hOld).trans (Nat.lt_succ_self _)
  · exact Nat.succ_le_succ h.counted

theorem TransferData.inv_insert (h : s.Inv) (hFew : s.insertions + 1 < 2 ^ 32) {tr : TransferRequest}
    (hTime : tr.state = .notYetStarted → tr.transferTime ≠ 0) : (s.insertTransferRequest tr).Inv where
  places := places_insert h.places hFew tr
  timed other hMem := by
    rcases List.mem_cons.mp ((perm_insert _ _).mem_iff.mp hMem) with rfl | hOld
    · exact hTime
    · exact h.timed other hOld

theorem le_foldl_max (queue : List TransferRequest) (id : Nat) :
    id ≤ queue.foldl (fun id dr => max id dr.transferId) id ∧
      ∀ tr ∈ queue, tr.transferId ≤ queue.foldl (fun id dr => max id dr.transferId) id := by
  induction queue generalizing id with
  | nil => exact ⟨le_rfl, by simp⟩
  | cons dr queue ih =>
    obtain ⟨hStart, hQueue⟩ := ih (max id dr.transferId)
    refine ⟨(le_max_left _ _).trans hStart, fun tr hMem => ?_⟩
    obtain rfl | hMem := List.mem_cons.mp hMem
    · exact (le_max_right _ _).trans hStart
    · exact hQueue tr hMem

theorem foldl_max_le {queue : List TransferRequest} {id bound : Nat} (hStart : id ≤ bound)
    (h : ∀ tr ∈ queue, tr.transferId ≤ bound) :
    queue.foldl (fun id dr => max id dr.transferId) id ≤ bound := by
  induction queue generalizing id with
  | nil => exact hStart
  | cons dr queue ih =>
    obtain ⟨hHead, hTail⟩ := List.forall_mem_cons.mp h
    exact ih (max_le hStart hHead) hTail

theorem place_readBack {tr : TransferRequest} (h : tr.transferId < 2 ^ 32) : place (readBack tr) = place tr :=
  congrArg (Prod.mk tr.transferTime) (toUnsigned_natCast h)

theorem TransferData.exists_reload (h : s.Inv) (hRead : ReadableData s.toControlData) (restarted : Bool) :
    ∃ s', s.reload restarted = some s' ∧ s'.Inv := by
  obtain ⟨read, hFile, hQueue, hLast, -⟩ :=
    exists_readDmControl hRead (if restarted then .empty else s.toDmControl)
  have hNumbers : ∀ tr ∈ s.transferRequests, tr.transferId < 2 ^ 32 := fun tr hMem =>
    ((h.places.given (place tr) (List.mem_map_of_mem hMem)).trans h.places.counted).trans_lt h.places.few
  have hPlaces : (s.transferRequests.map readBack).map place = s.transferRequests.map place := by
    rw [List.map_map]
    exact List.map_congr_left fun tr hMem => place_readBack (hNumbers tr hMem)
  have hSorted : ByTime (s.transferRequests.map readBack) := List.pairwise_map.mpr h.sorted
  have hBack := @foldl_addTransferRequest [] _ hSorted
  rw [hBack, List.nil_append] at hQueue
  refine ⟨_, congrArg (Option.map _) hFile, ⟨?_, ?_⟩⟩
  · dsimp only
    rw [hQueue, hPlaces, hLast]
    refine ⟨h.places.byTime, h.places.distinct, h.places.nonzero, fun p hMem => ?_, h.places.arrived, ?_, h.places.few⟩
    · rw [← hPlaces] at hMem
      obtain ⟨tr, hTr, rfl⟩ := List.mem_map.mp hMem
      exact (le_foldl_max _ _).2 tr hTr
    · refine (foldl_max_le ?_ fun tr hMem => ?_).trans h.places.counted
      · cases restarted
        · exact le_rfl
        · exact Nat.zero_le _
      · have hPlace : place tr ∈ (s.transferRequests.map readBack).map place := List.mem_map_of_mem hMem
        rw [hPlaces] at hPlace
        exact h.places.given (place tr) hPlace
  · dsimp only
    rw [hQueue]
    intro tr hMem
    obtain ⟨other, hOther, rfl⟩ := List.mem_map.mp hMem
    exact h.timed other hOther

/-- Every operation of a run that keeps to the condition can be done. -/
theorem TransferData.exists_step (h : s.Inv) {op : TransferOperation} (hKept : Kept s op) :
    ∃ s', s.step op = some s' ∧ s'.Inv := by
  cases op with
  | insertTransferRequest tr => exact ⟨_, rfl, inv_insert h hKept.1 hKept.2⟩
  | updateTransferRequest transferId state code start comp =>
    refine ⟨_, rfl, ?_, timed_update code start comp h.timed hKept⟩
    dsimp only
    rw [places_update]
    exact h.places
  | removeTransferRequest transferId =>
    exact ⟨_, rfl, h.places.sublist ((remove_sublist _ transferId).map place), h.timed.sublist (remove_sublist _ _)⟩
  | removeAllTransferResults =>
    exact ⟨_, rfl, h.places.sublist ((removeAllTransferResults_sublist _).map place),
      h.timed.sublist (removeAllTransferResults_sublist _)⟩
  | setOthers others => exact ⟨_, rfl, h.places, h.timed⟩
  | reload restarted => exact exists_reload h hKept restarted

/-- As long as the numbers do not run out, the requests have times and what is read back is readable, the queue stays
ordered and the next timeout exact, and no reading fails. -/
theorem queue_wellOrdered (operations : List TransferOperation)
    (hKept : Along TransferData.step Kept TransferData.init operations) :
    (exec TransferData.step TransferData.init operations).isSome = true ∧
      Throughout TransferData.step WellOrdered TransferData.init operations := by
  have hInit : TransferData.init.Inv :=
    ⟨⟨List.Pairwise.nil, List.nodup_nil, by simp [TransferData.init, DmControl.empty],
      by simp [TransferData.init, DmControl.empty], by simp [TransferData.init, DmControl.empty], le_rfl, by decide⟩,
      by simp [TransferData.init, DmControl.empty, Timed]⟩
  obtain ⟨hExec, hRun⟩ := runs_of_along (fun _ _ h hGuard => TransferData.exists_step h hGuard) hInit hKept
  exact ⟨hExec, hRun.mono fun _ h => h.wellOrdered⟩

end Runs

section Samples

def sampleTransfer (state : TransferRequestState) (transferTime : Int) : TransferRequest where
  isDownload := true
  state
  transferTime
  fileType := none
  url := none
  username := none
  password := none
  fileSize := 0
  targetFileName := none
  successURL := none
  failureURL := none
  commandKey := none
  announceURL := none
  faultCode := 0
  startTime := 0
  completeTime := 0
  transferId := 0

/-- A request whose address holds a semicolon. -/
def splitTransfer : TransferRequest :=
  { sampleTransfer .inProgress 0 with announceURL := some "http://host/a;b".toList }

instance (s : TransferData) (op : TransferOperation) : Decidable (Kept s op) :=
  match op with
  | .insertTransferRequest tr =>
    inferInstanceAs (Decidable (s.insertions + 1 < 2 ^ 32 ∧ (tr.state = .notYetStarted → tr.transferTime ≠ 0)))
  | .updateTransferRequest transferId state _ _ _ =>
    inferInstanceAs (Decidable (state = .notYetStarted →
      ∀ tr ∈ s.transferRequests, tr.transferId = transferId → tr.transferTime ≠ 0))
  | .reload _ => inferInstanceAs (Decidable (ReadableData s.toControlData))
  | .removeTransferRequest _ | .removeAllTransferResults | .setOthers _ => isTrue trivial

theorem queue_wellOrdered_reload :
    (exec TransferData.step TransferData.init
        [.insertTransferRequest (sampleTransfer .notYetStarted 200),
          .insertTransferRequest (sampleTransfer .notYetStarted 100), .setOthers sampleControl, .reload true]).isSome =
        true ∧
      Throughout TransferData.step WellOrdered TransferData.init
        [.insertTransferRequest (sampleTransfer .notYetStarted 200),
          .insertTransferRequest (sampleTransfer .notYetStarted 100), .setOthers sampleControl, .reload true] :=
  queue_wellOrdered _ (by decide +kernel)

/-- The semicolon moves the times and the numbers of both requests by a field, so that both have the number zero; and
a request that has not started and has no time hides the one that is due next. -/
theorem split_requests_misnumbered :
    (¬ Throughout TransferData.step WellOrdered TransferData.init
        [.insertTransferRequest splitTransfer, .insertTransferRequest splitTransfer, .reload true]) ∧
      ¬ Throughout TransferData.step WellOrdered TransferData.init
        [.insertTransferRequest (sampleTransfer .notYetStarted 0),
          .insertTransferRequest (sampleTransfer .notYetStarted 100)] := by
  constructor
  · intro hAll
    have hRead : (exec TransferData.step TransferData.init
        [.insertTransferRequest splitTransfer, .insertTransferRequest splitTransfer, .reload true]).map
          (fun s => TransferQueue.ids s.transferRequests) = some [0, 0] := by
      decide +kernel
    obtain ⟨s, hExec, hIds⟩ := Option.map_eq_some_iff.mp hRead
    have hZero := (throughout_iff_exec.mp hAll _ (List.prefix_refl _) s hExec).nonzero
    rw [hIds] at hZero
    exact hZero List.mem_cons_self
  · intro hAll
    have hTimeout := ((hAll.2 _ rfl).2 _ rfl).timeout 0 0
    exact absurd hTimeout (by decide +kernel)

end Samples

end Tr069Agent.Data
