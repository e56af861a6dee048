import Mathlib.Data.List.Basic
import Mathlib.Tactic.Common
import Tr069Agent.Data.ControlData

/-! # Saving and reloading the control data

The strings are written without any escape. The control data come back exactly when no string holds a
semicolon or begins with an underscore and no line looks like the checksum line.
-/

namespace Tr069Agent.Data

open Library Library.Lines Library.Decimal Library.Scanner Engine

set_option autoImplicit false

section Tokens

/-- What `nextToken` can give back. -/
def IsToken (text : Text) : Prop := (∀ c ∈ text, endsToken c = false) ∧ text.head? ≠ some '_'

instance (text : Text) : Decidable (IsToken text) :=
  have := List.decidableBAll (fun c => endsToken c = false) text
  inferInstanceAs (Decidable (_ ∧ _))

def IsTokenOrNull (text : Option Text) : Prop := ∀ t ∈ text, IsToken t

instance (text : Option Text) : Decidable (IsTokenOrNull text) :=
  match text with
  | none => isTrue fun _ h => nomatch h
  | some t => decidable_of_iff (IsToken t) (by simp [IsTokenOrNull])

theorem isTokenOrNull_nextToken (it : Text) : IsTokenOrNull (nextToken it).1 := by
  intro t hToken
  simp only [nextToken] at hToken
  split at hToken
  · simp at hToken
  · rename_i hMarker
    obtain rfl := Option.mem_some.mp hToken
    exact ⟨fun c hMem => not_stop_of_mem_cut hMem, hMarker⟩

theorem yields_token : Yields token IsTokenOrNull := by
  rintro it t rest ⟨⟩
  exact isTokenOrNull_nextToken it

theorem yields_text : Yields text IsToken := by
  refine yields_token.bind fun t hToken => ?_
  cases t with
  | none => rintro it t rest ⟨⟩
  | some t => exact yields_pure (hToken t rfl)

theorem nextToken_join {field : Text} (hField : ∀ c ∈ field, endsToken c = false)
    (fields : List Text) :
    nextToken (join ';' (field :: fields)) =
      (if field.head? = some '_' then none else some field, join ';' fields) := by
  cases fields with
  | nil => rw [join_singleton, nextToken, cut_last hField]; rfl
  | cons other fields =>
    rw [join_cons (List.cons_ne_nil other fields), nextToken, cut_append hField (by decide)]

theorem nextToken_orNullCode {t : Option Text} (h : IsTokenOrNull t) (fields : List Text) :
    nextToken (join ';' (orNullCode t :: fields)) = (t, join ';' fields) := by
  cases t with
  | none => exact nextToken_join (List.forall_mem_singleton.mpr (by decide)) fields
  | some t =>
    obtain ⟨hField, hMarker⟩ := h t rfl
    rw [orNullCode, Option.getD_some, nextToken_join hField, if_neg hMarker]

theorem reads_token {t : Option Text} (h : IsTokenOrNull t) (fields : List Text) :
    Reads token (join ';' (orNullCode t :: fields)) t (join ';' fields) := by
  rw [Reads, ← nextToken_orNullCode h]
  rfl

theorem reads_text {t : Text} (h : IsToken t) (fields : List Text) :
    Reads text (join ';' (t :: fields)) t (join ';' fields) :=
  (reads_token (t := some t) (by rintro _ ⟨⟩; exact h) fields).bind (reads_pure _ t)

theorem isToken_showInt (n : Int) : IsToken (showInt n) := by
  constructor
  · intro c hMem
    rcases mem_showInt hMem with hDigit | rfl
    · simp only [Char.isDigit, Bool.and_eq_true, decide_eq_true_eq, UInt32.le_iff_toNat_le] at hDigit
      have hSemicolon : c ≠ ';' := by
        rintro rfl
        revert hDigit
        decide
      have hBelow : belowSpace c = false := by
        simp only [belowSpace, Bool.or_eq_false_iff, decide_eq_false_iff_not, Char.lt_def,
          UInt32.lt_iff_toNat_lt]
        exact ⟨Nat.not_lt.mpr (Nat.le_trans (by decide) hDigit.1),
          Nat.not_le.mpr (Nat.lt_of_le_of_lt hDigit.2 (by decide))⟩
      simp [endsToken, hSemicolon, hBelow]
    · decide
  · intro hHead
    exact not_mem_showInt (by decide) (by decide) n (List.mem_of_mem_head? hHead)

theorem reads_number (n : Int) (fields : List Text) :
    Reads number (join ';' (showInt n :: fields)) n (join ';' fields) := by
  have hToken : IsTokenOrNull (some (showInt n)) := by
    rintro _ ⟨⟩
    exact isToken_showInt n
  refine (reads_token hToken fields).bind ?_
  simp only [atol_showInt]
  exact reads_pure _ n

end Tokens

section Plain

/-- The texts that `_writeDmControl` prints of a transfer request. -/
def texts (dr : TransferRequest) : List (Option Text) :=
  [dr.fileType, dr.url, dr.username, dr.password, dr.targetFileName, dr.successURL, dr.failureURL,
    dr.commandKey, dr.announceURL]

def PlainEvent (evt : EventStruct) : Prop :=
  IsToken evt.eventCode.text ∧ evt.eventCode.text ≠ [] ∧ IsTokenOrNull evt.commandKey

def PlainTransfer (dr : TransferRequest) : Prop := ∀ t ∈ texts dr, IsTokenOrNull t

instance (dr : TransferRequest) : Decidable (PlainTransfer dr) :=
  inferInstanceAs (Decidable (∀ t ∈ texts dr, _))

def PlainArg (arg : ArgStruct) : Prop := IsToken arg.name ∧ IsTokenOrNull arg.value

instance (arg : ArgStruct) : Decidable (PlainArg arg) := inferInstanceAs (Decidable (_ ∧ _))

def PlainDownload (dr : DownloadRequest) : Prop :=
  IsToken dr.fileType ∧ ∃ args, dr.args = some args ∧ ∀ arg ∈ args, PlainArg arg

/-- No string holds a semicolon or begins with an underscore, no event code is empty and every download
request has an array of arguments. -/
structure Plain (data : ControlData) : Prop where
  events : ∀ evt ∈ data.events, PlainEvent evt
  scheduledTime : IsTokenOrNull data.sScheduledInformTime
  scheduledKey : IsTokenOrNull data.sScheduledInformCommandKey
  rebootKey : IsTokenOrNull data.sRebootCommandKey
  transfers : ∀ dr ∈ data.transferRequests, PlainTransfer dr
  downloads : ∀ dr ∈ data.downloadRequests, PlainDownload dr

theorem plain_empty : Plain DmControl.empty.toControlData := by
  constructor <;> simp [DmControl.empty, IsTokenOrNull]

theorem plainEvent_of_mem_readEvents {fuel : Nat} {it : Text} {evt : EventStruct}
    (h : evt ∈ readEvents fuel it) : PlainEvent evt := by
  induction fuel generalizing it with
  | zero => cases h
  | succ fuel ih =>
    have hToken := isTokenOrNull_nextToken it
    rw [readEvents] at h
    split at h
    · cases h
    · cases h
    · rename_i code rest hNonempty hNext
      rw [hNext] at hToken
      rcases List.mem_cons.mp h with rfl | hRest
      · refine ⟨?_, ?_, isTokenOrNull_nextToken rest⟩
        · rw [EventCode.text_intern]
          exact hToken code rfl
        · rw [EventCode.text_intern]
          rintro rfl
          exact hNonempty rfl
      · exact ih hRest

theorem plain_setEvents {data : DmControl} (h : Plain data.toControlData) (line : Option Text) :
    Plain (setEvents line data).toControlData := by
  cases line with
  | none => exact h
  | some line =>
    refine { h with events := fun evt hMem => ?_ }
    rcases List.mem_append.mp hMem with hOld | hNew
    · exact h.events evt hOld
    · exact plainEvent_of_mem_readEvents hNew

theorem yields_scanOthers {data : DmControl} (h : Plain data.toControlData) :
    Yields (scanOthers data) fun read => Plain read.toControlData := by
  refine yields_true.bind fun time _ => yields_token.bind fun scheduled hScheduled => ?_
  refine yields_token.bind fun key hKey => yields_token.bind fun reboot hReboot => ?_
  refine yields_token.bind fun next _ => yields_pure ?_
  exact { h with scheduledTime := hScheduled, scheduledKey := hKey, rebootKey := hReboot }

theorem yields_scanTransferRequest : Yields scanTransferRequest PlainTransfer := by
  refine yields_true.bind fun d _ => yields_true.bind fun s _ => yields_true.bind fun time _ => ?_
  refine yields_token.bind fun fileType hFileType => yields_token.bind fun url hUrl => ?_
  refine yields_token.bind fun username hUsername => yields_token.bind fun password hPassword => ?_
  refine yields_true.bind fun fs _ => yields_token.bind fun fileName hFileName => ?_
  refine yields_token.bind fun success hSuccess => yields_token.bind fun failed hFailed => ?_
  refine yields_token.bind fun key hKey => yields_token.bind fun announce hAnnounce => ?_
  refine yields_true.bind fun code _ => yields_true.bind fun start _ => ?_
  refine yields_true.bind fun comp _ => yields_true.bind fun id _ => ?_
  refine yields_true.bind fun state _ => yields_pure ?_
  simp only [PlainTransfer, texts, List.forall_mem_cons]
  exact ⟨hFileType, hUrl, hUsername, hPassword, hFileName, hSuccess, hFailed, hKey, hAnnounce, by simp⟩

theorem yields_scanArg : Yields scanArg PlainArg := by
  refine yields_text.bind fun name hName => yields_token.bind fun value hValue => yields_pure ?_
  exact ⟨hName, hValue⟩

theorem yields_scanDownloadRequest : Yields scanDownloadRequest PlainDownload := by
  refine yields_text.bind fun fileType hFileType => yields_true.bind fun nbArgs _ => ?_
  refine yields_true.bind fun _ _ => (yields_scanArg.times _).bind fun args hArgs => yields_pure ?_
  exact ⟨hFileType, args, rfl, hArgs⟩

theorem mem_addTransferRequest {queue : List TransferRequest} {newDR dr : TransferRequest} :
    dr ∈ addTransferRequest queue newDR ↔ dr = newDR ∨ dr ∈ queue := by
  have hInsert : ∀ next, dr ∈ TransferQueue.insert newDR next ↔ dr = newDR ∨ dr ∈ next := by
    intro next
    induction next with
    | nil => simp [TransferQueue.insert]
    | cons curr next ih =>
      rw [TransferQueue.insert]
      split
      · rw [List.mem_cons, ih, List.mem_cons]
        tauto
      · rw [List.mem_cons]
  cases queue with
  | nil => simp [addTransferRequest]
  | cons first next =>
    rw [addTransferRequest, List.mem_cons, hInsert, List.mem_cons]
    tauto

theorem Yields.run' {α : Type} {m : Scanner Text α} {P : α → Prop} (h : Yields m P) {line : Text}
    {value : α} (hRun : m.run' line = some value) : P value := by
  obtain ⟨⟨other, rest⟩, hReads, rfl⟩ := Option.map_eq_some_iff.mp hRun
  exact h line other rest hReads

theorem plain_setOthersData {data read : DmControl} (h : Plain data.toControlData) {line : Option Text}
    (hRead : setOthersData line data = some read) : Plain read.toControlData := by
  cases line with
  | none =>
    obtain rfl := Option.some.inj hRead
    exact h
  | some line => exact Yields.run' (yields_scanOthers h) hRead

theorem plain_readDownloads {lines : List Text} {data read : DmControl} (h : Plain data.toControlData)
    (hRead : readDownloads lines data = some read) : Plain read.toControlData := by
  induction lines generalizing data with
  | nil =>
    obtain rfl := Option.some.inj hRead
    exact h
  | cons line lines ih =>
    obtain ⟨next, hNext, hRest⟩ := Option.bind_eq_some_iff.mp hRead
    obtain ⟨dr, hDr, hData⟩ := Option.bind_eq_some_iff.mp hNext
    obtain rfl := Option.some.inj hData
    refine ih ?_ hRest
    refine { h with downloads := fun other hMem => ?_ }
    rcases List.mem_append.mp hMem with hOld | hNew
    · exact h.downloads other hOld
    · rw [List.mem_singleton.mp hNew]
      exact Yields.run' yields_scanDownloadRequest hDr

theorem plain_readTransfers {lines : List Text} {data read : DmControl} (h : Plain data.toControlData)
    (hRead : readTransfers lines data = some read) : Plain read.toControlData := by
  induction lines generalizing data with
  | nil =>
    obtain rfl := Option.some.inj hRead
    exact h
  | cons line lines ih =>
    rw [readTransfers] at hRead
    split at hRead
    · exact plain_readDownloads h hRead
    · obtain ⟨next, hNext, hRest⟩ := Option.bind_eq_some_iff.mp hRead
      obtain ⟨dr, hDr, hData⟩ := Option.bind_eq_some_iff.mp hNext
      obtain rfl := Option.some.inj hData
      refine ih ?_ hRest
      refine { h with transfers := fun other hMem => ?_ }
      rcases mem_addTransferRequest.mp hMem with rfl | hOld
      · exact Yields.run' yields_scanTransferRequest hDr
      · exact h.transfers other hOld

/-- Whatever the file holds, only plain data are read from it. -/
theorem plain_readDmControl {file : Text} {read : DmControl}
    (hRead : readDmControl .empty file = some read) : Plain read.toControlData := by
  have hEmpty : Plain (releaseCtrl .empty).toControlData := plain_empty
  simp only [readDmControl] at hRead
  split at hRead
  · obtain ⟨data, hData, hRest⟩ := Option.bind_eq_some_iff.mp hRead
    exact plain_readTransfers (plain_setOthersData (plain_setEvents hEmpty _) hData) hRest
  · obtain rfl := Option.some.inj hRead
    exact hEmpty

end Plain

section Reload

/-- The fields of the events in the order in which they are written. -/
def eventFields (evt : EventStruct) : List Text := [evt.eventCode.text, orNullCode evt.commandKey]

theorem eventsLine_eq_join (events : List EventStruct) :
    eventsLine events = join ';' (events.flatMap eventFields) := by
  fun_induction eventsLine events with
  | case1 => rfl
  | case2 evt => simp [eventFields, join_cons, join_singleton]
  | case3 evt next hNext ih =>
    obtain ⟨other, events, rfl⟩ := List.exists_cons_of_ne_nil hNext
    rw [ih]
    simp [eventFields, join_cons]

theorem readEvents_join {events : List EventStruct} (hPlain : ∀ evt ∈ events, PlainEvent evt)
    (hIntern : ∀ evt ∈ events, EventCode.intern evt.eventCode.text = evt.eventCode) {fuel : Nat}
    (hFuel : events.length < fuel) : readEvents fuel (join ';' (events.flatMap eventFields)) = events := by
  induction events generalizing fuel with
  | nil =>
    obtain ⟨fuel, rfl⟩ := Nat.exists_eq_add_one_of_ne_zero (Nat.ne_zero_of_lt hFuel)
    rfl
  | cons evt events ih =>
    obtain ⟨fuel, rfl⟩ := Nat.exists_eq_add_one_of_ne_zero (Nat.ne_zero_of_lt hFuel)
    obtain ⟨⟨hCode, hNonempty, hKey⟩, hPlain⟩ := List.forall_mem_cons.mp hPlain
    obtain ⟨hIntern, hInterns⟩ := List.forall_mem_cons.mp hIntern
    have hRest := ih hPlain hInterns (Nat.lt_of_succ_lt_succ hFuel)
    have hFields : (evt :: events).flatMap eventFields =
        evt.eventCode.text :: orNullCode evt.commandKey :: events.flatMap eventFields := rfl
    rw [hFields, readEvents, nextToken_join hCode.1, if_neg hCode.2]
    split
    · rename_i hNone
      cases hNone
    · rename_i hEmpty
      exact absurd (Option.some.inj (Prod.mk.inj hEmpty).1) hNonempty
    · rename_i code rest _ hNext
      obtain ⟨hSame, rfl⟩ := Prod.mk.inj hNext
      obtain rfl := Option.some.inj hSame
      simp only [nextToken_orNullCode hKey, hRest, hIntern]

theorem setEvents_eventsLine {data : ControlData} (hPlain : Plain data)
    (hIntern : ∀ evt ∈ data.events, EventCode.intern evt.eventCode.text = evt.eventCode)
    (control : DmControl) :
    setEvents (some (eventsLine data.events)) control =
      { control with events := control.events ++ data.events } := by
  have hLength : _ ≤ (join ';' (data.events.flatMap eventFields)).length + 1 :=
    length_le_length_join (data.events.flatMap eventFields)
  have hTwo : (data.events.flatMap eventFields).length = 2 * data.events.length := by
    simp [List.length_flatMap, eventFields, Nat.mul_comm]
  rw [setEvents, eventsLine_eq_join, readEvents_join hPlain.events hIntern]
  omega

theorem reads_scanOthers {data : ControlData} (hPlain : Plain data) (control : DmControl) :
    Reads (scanOthers control) (othersLine data)
      { control with
        periodicInformTime := data.periodicInformTime
        sScheduledInformTime := data.sScheduledInformTime
        sScheduledInformCommandKey := data.sScheduledInformCommandKey
        sRebootCommandKey := data.sRebootCommandKey
        retryCount := data.retryCount } (join ';' []) := by
  have hRetry : IsTokenOrNull (some (showInt data.retryCount)) := by
    rintro _ ⟨⟩
    exact isToken_showInt data.retryCount
  refine (reads_number _ _).bind <| (reads_token hPlain.scheduledTime _).bind ?_
  refine (reads_token hPlain.scheduledKey _).bind <| (reads_token hPlain.rebootKey _).bind ?_
  refine (reads_token hRetry _).bind ?_
  simp only [atol_showInt]
  exact reads_pure _ _

theorem setOthersData_othersLine {data : ControlData} (hPlain : Plain data) (control : DmControl) :
    setOthersData (some (othersLine data)) control = some
      { control with
        periodicInformTime := data.periodicInformTime
        sScheduledInformTime := data.sScheduledInformTime
        sScheduledInformCommandKey := data.sScheduledInformCommandKey
        sRebootCommandKey := data.sRebootCommandKey
        retryCount := data.retryCount } := by
  have hReads := reads_scanOthers hPlain control
  exact congrArg (Option.map Prod.fst) hReads

/-- The numbers of an `unsigned int`. -/
def InUnsigned (dr : TransferRequest) : Prop :=
  dr.fileSize < 2 ^ 32 ∧ dr.faultCode < 2 ^ 32 ∧ dr.transferId < 2 ^ 32

theorem toUnsigned_natCast {n : Nat} (h : n < 2 ^ 32) : toUnsigned n = n := by
  rw [toUnsigned]
  omega

theorem reads_ofInt (state : TransferRequestState) (it : Text) :
    Reads (TransferRequestState.ofInt (TransferRequestState.toInt state)) it state it := by
  cases state <;> rfl

theorem reads_scanTransferRequest {dr : TransferRequest} (hPlain : PlainTransfer dr)
    (hRange : InUnsigned dr) : Reads scanTransferRequest (transferLine dr) dr (join ';' []) := by
  simp only [PlainTransfer, texts, List.forall_mem_cons] at hPlain
  obtain ⟨hFileType, hUrl, hUsername, hPassword, hFileName, hSuccess, hFailed, hKey, hAnnounce, -⟩ :=
    hPlain
  obtain ⟨hSize, hCode, hId⟩ := hRange
  refine (reads_number _ _).bind <| (reads_number _ _).bind <| (reads_number _ _).bind ?_
  refine (reads_token hFileType _).bind <| (reads_token hUrl _).bind ?_
  refine (reads_token hUsername _).bind <| (reads_token hPassword _).bind ?_
  refine (reads_number _ _).bind <| (reads_token hFileName _).bind ?_
  refine (reads_token hSuccess _).bind <| (reads_token hFailed _).bind ?_
  refine (reads_token hKey _).bind <| (reads_token hAnnounce _).bind ?_
  refine (reads_number _ _).bind <| (reads_number _ _).bind <| (reads_number _ _).bind ?_
  refine (reads_number _ _).bind <| (reads_ofInt dr.state _).bind ?_
  rw [toUnsigned_natCast hSize, toUnsigned_natCast hCode, toUnsigned_natCast hId]
  obtain ⟨isDownload⟩ := dr
  cases isDownload <;> exact reads_pure _ _

theorem insert_of_le {queue : List TransferRequest} {newDR : TransferRequest}
    (h : ∀ dr ∈ queue, dr.transferTime ≤ newDR.transferTime) :
    TransferQueue.insert newDR queue = queue ++ [newDR] := by
  induction queue with
  | nil => rfl
  | cons dr queue ih =>
    obtain ⟨hHead, hTail⟩ := List.forall_mem_cons.mp h
    rw [TransferQueue.insert, if_pos hHead, ih hTail, List.cons_append]

theorem addTransferRequest_of_le {queue : List TransferRequest} {newDR : TransferRequest}
    (h : ∀ dr ∈ queue, dr.transferTime ≤ newDR.transferTime) :
    addTransferRequest queue newDR = queue ++ [newDR] := by
  cases queue with
  | nil => rfl
  | cons dr queue =>
    rw [addTransferRequest, insert_of_le fun other hMem => h other (List.mem_cons_of_mem dr hMem),
      List.cons_append]

theorem head_transferLine (dr : TransferRequest) : (transferLine dr).head? ≠ some '#' := by
  rw [transferLine, join_cons (List.cons_ne_nil _ _)]
  cases dr.isDownload with
  | false => exact (by decide : some '0' ≠ some '#')
  | true => exact (by decide : some '1' ≠ some '#')

def ByTime (queue : List TransferRequest) : Prop :=
  queue.Pairwise fun dr next => dr.transferTime ≤ next.transferTime

theorem readTransfers_map {requests : List TransferRequest} (hPlain : ∀ dr ∈ requests, PlainTransfer dr)
    (hRange : ∀ dr ∈ requests, InUnsigned dr) {control : DmControl}
    (hSorted : ByTime (control.transferRequests ++ requests)) (lines : List Text) :
    readTransfers (requests.map transferLine ++ lines) control = readTransfers lines
      { control with
        transferRequests := control.transferRequests ++ requests
        lastTransferId := requests.foldl (fun id dr => max id dr.transferId) control.lastTransferId } := by
  induction requests generalizing control with
  | nil => simp
  | cons dr requests ih =>
    obtain ⟨hDr, hPlain⟩ := List.forall_mem_cons.mp hPlain
    obtain ⟨hDrRange, hRange⟩ := List.forall_mem_cons.mp hRange
    have hBefore : ∀ other ∈ control.transferRequests, other.transferTime ≤ dr.transferTime :=
      fun other hMem => (List.pairwise_append.mp hSorted).2.2 other hMem dr List.mem_cons_self
    have hLine : scanTransferRequest.run' (transferLine dr) = some dr :=
      congrArg (Option.map Prod.fst) (reads_scanTransferRequest hDr hDrRange)
    have hNext : addNewTransferRequest (transferLine dr) control = some
        { control with
          transferRequests := control.transferRequests ++ [dr]
          lastTransferId := max control.lastTransferId dr.transferId } := by
      rw [addNewTransferRequest, hLine, ← addTransferRequest_of_le hBefore]
      rfl
    rw [List.map_cons, List.cons_append, readTransfers, if_neg (head_transferLine dr), hNext]
    refine (ih hPlain hRange ?_).trans ?_
    · simpa using hSorted
    · simp

def argFields (arg : ArgStruct) : List Text := [arg.name, orNullCode arg.value]

theorem downloadLine_eq_join (dr : DownloadRequest) :
    downloadLine dr =
      join ';' (dr.fileType :: showInt (tablen dr.args) :: (dr.args.getD []).flatMap argFields) := by
  have hArgs : (dr.args.getD []).flatMap argText =
      ((dr.args.getD []).flatMap argFields).flatMap fun field => ';' :: field := by
    rw [List.flatMap_assoc]
    congr 1
    funext arg
    simp [argText, argFields]
  rw [downloadLine, hArgs, append_flatMap_sep, join_cons (List.cons_ne_nil _ _)]

theorem reads_times_scanArg {args : List ArgStruct} (hPlain : ∀ arg ∈ args, PlainArg arg) :
    Reads (scanArg.times args.length) (join ';' (args.flatMap argFields)) args (join ';' []) := by
  induction args with
  | nil => exact reads_pure _ _
  | cons arg args ih =>
    obtain ⟨⟨hName, hValue⟩, hPlain⟩ := List.forall_mem_cons.mp hPlain
    have hArg : Reads scanArg (join ';' ((arg :: args).flatMap argFields)) arg
        (join ';' (args.flatMap argFields)) :=
      (reads_text hName _).bind <| (reads_token hValue _).bind (reads_pure _ _)
    exact hArg.bind <| (ih hPlain).bind (reads_pure _ _)

theorem reads_scanDownloadRequest {dr : DownloadRequest} (hPlain : PlainDownload dr) :
    Reads scanDownloadRequest (downloadLine dr) dr (join ';' []) := by
  obtain ⟨fileType, args⟩ := dr
  obtain ⟨hFileType, args, rfl, hArgs⟩ := hPlain
  have hSize (it : Text) : Reads (arraySize args.length) it args.length it := by
    rw [arraySize, if_neg (by omega)]
    exact reads_pure _ _
  rw [downloadLine_eq_join]
  refine (reads_text hFileType _).bind <| (reads_number _ _).bind <| (hSize _).bind ?_
  exact (reads_times_scanArg hArgs).bind (reads_pure _ _)

theorem readDownloads_map {requests : List DownloadRequest}
    (hPlain : ∀ dr ∈ requests, PlainDownload dr) (control : DmControl) :
    readDownloads (requests.map downloadLine) control =
      some { control with downloadRequests := control.downloadRequests ++ requests } := by
  induction requests generalizing control with
  | nil => simp [readDownloads]
  | cons dr requests ih =>
    obtain ⟨hDr, hPlain⟩ := List.forall_mem_cons.mp hPlain
    have hLine : scanDownloadRequest.run' (downloadLine dr) = some dr :=
      congrArg (Option.map Prod.fst) (reads_scanDownloadRequest hDr)
    have hNext : addNewDownloadRequest (downloadLine dr) control =
        some { control with downloadRequests := control.downloadRequests ++ [dr] } := by
      rw [addNewDownloadRequest, hLine]
      rfl
    rw [List.map_cons, readDownloads, hNext]
    refine (ih hPlain _).trans ?_
    simp

theorem readTransfers_downloadLines {requests : List DownloadRequest}
    (hPlain : ∀ dr ∈ requests, PlainDownload dr) (control : DmControl) :
    readTransfers (downloadLines requests) control =
      some { control with downloadRequests := control.downloadRequests ++ requests } := by
  rw [downloadLines]
  split
  · rename_i hNone
    simp [readTransfers, hNone]
  · rw [readTransfers, if_pos (by decide), readDownloads_map hPlain]

/-- The reading of a file whose first two lines do not look like a checksum line. -/
theorem readDmControl_writeFile {first second : Text} {lines : List Text}
    (hFits : ∀ line ∈ first :: second :: lines, Fits line) (hFirst : isCrcLine first = false)
    (hSecond : isCrcLine second = false) (control : DmControl) :
    readDmControl control (writeFile (first :: second :: lines)) =
      if (readLines (.open (writeFile (first :: second :: lines)))).2.crcOK then
        (setOthersData (some second) (setEvents (some first) (releaseCtrl control))).bind
          (readTransfers (lines.takeWhile fun line => !isCrcLine line))
      else some (releaseCtrl control) := by
  obtain ⟨⟨-, -, hFirstLine⟩, hRest⟩ := List.forall_mem_cons.mp hFits
  obtain ⟨⟨-, -, hSecondLine⟩, -⟩ := List.forall_mem_cons.mp hRest
  have hLines : ∀ line ∈ lines ++ [crcLine (first :: second :: lines)], EndsPlain line :=
    fun line hMem => (fits_writeFile hFits line (by simp_all)).2.2
  have hTake : (lines ++ [crcLine (first :: second :: lines)]).takeWhile (fun line => !isCrcLine line) =
      lines.takeWhile fun line => !isCrcLine line := by
    apply takeWhile_concat_of_neg
    simp [isCrcLine_crcLine]
  simp only [readDmControl]
  refine if_congr Iff.rfl ?_ rfl
  rw [LineReader.open, fgets_writeFile hFits]
  simp only [List.cons_append, List.map_cons, readln_line hFirstLine, readln_line hSecondLine, hFirst,
    hSecond, Bool.false_eq_true, if_false, readLines, readLinesFrom_lines hLines, hTake]
  rfl

end Reload

section Kept

theorem kept_setOthersData {line : Option Text} {data read : DmControl}
    (hRead : setOthersData line data = some read) :
    read.events = data.events ∧ read.downloadRequests = data.downloadRequests := by
  cases line with
  | none =>
    obtain rfl := Option.some.inj hRead
    exact ⟨rfl, rfl⟩
  | some line =>
    have hKeeps : Yields (scanOthers data) fun read =>
        read.events = data.events ∧ read.downloadRequests = data.downloadRequests :=
      yields_true.bind fun _ _ => yields_true.bind fun _ _ => yields_true.bind fun _ _ =>
        yields_true.bind fun _ _ => yields_true.bind fun _ _ => yields_pure ⟨rfl, rfl⟩
    exact Yields.run' hKeeps hRead

theorem readDownloads_effect {lines : List Text} {data read : DmControl}
    (hRead : readDownloads lines data = some read) :
    read.events = data.events ∧
      read.downloadRequests.length = data.downloadRequests.length + lines.length := by
  induction lines generalizing data with
  | nil =>
    obtain rfl := Option.some.inj hRead
    simp
  | cons line lines ih =>
    obtain ⟨next, hNext, hRest⟩ := Option.bind_eq_some_iff.mp hRead
    obtain ⟨dr, -, hData⟩ := Option.bind_eq_some_iff.mp hNext
    obtain rfl := Option.some.inj hData
    obtain ⟨hEvents, hLength⟩ := ih hRest
    refine ⟨hEvents, ?_⟩
    simp only [List.length_append, List.length_cons, List.length_nil] at hLength ⊢
    omega

theorem events_readTransfers {lines : List Text} {data read : DmControl}
    (hRead : readTransfers lines data = some read) : read.events = data.events := by
  induction lines generalizing data with
  | nil =>
    obtain rfl := Option.some.inj hRead
    rfl
  | cons line lines ih =>
    rw [readTransfers] at hRead
    split at hRead
    · exact (readDownloads_effect hRead).1
    · obtain ⟨next, hNext, hRest⟩ := Option.bind_eq_some_iff.mp hRead
      obtain ⟨dr, -, hData⟩ := Option.bind_eq_some_iff.mp hNext
      obtain rfl := Option.some.inj hData
      have hSame := ih hRest
      exact hSame

theorem length_downloads_readTransfers {transfers lines : List Text} {data read : DmControl}
    (hTransfers : ∀ line ∈ transfers, line.head? ≠ some '#')
    (hRead : readTransfers (transfers ++ "#".toList :: lines) data = some read) :
    read.downloadRequests.length = data.downloadRequests.length + lines.length := by
  induction transfers generalizing data with
  | nil =>
    rw [List.nil_append, readTransfers, if_pos (by decide)] at hRead
    exact (readDownloads_effect hRead).2
  | cons line transfers ih =>
    obtain ⟨hLine, hTransfers⟩ := List.forall_mem_cons.mp hTransfers
    rw [List.cons_append, readTransfers, if_neg hLine] at hRead
    obtain ⟨next, hNext, hRest⟩ := Option.bind_eq_some_iff.mp hRead
    obtain ⟨dr, -, hData⟩ := Option.bind_eq_some_iff.mp hNext
    obtain rfl := Option.some.inj hData
    have hLength := ih hTransfers hRest
    exact hLength

theorem events_of_firstLine_crc {first : Text} {lines : List Text} {read : DmControl}
    (hFits : ∀ line ∈ first :: lines, Fits line) (hFirst : isCrcLine first = true)
    (hRead : readDmControl .empty (writeFile (first :: lines)) = some read) : read.events = [] := by
  obtain ⟨⟨-, -, hFirstLine⟩, -⟩ := List.forall_mem_cons.mp hFits
  simp only [readDmControl] at hRead
  split at hRead
  · rw [LineReader.open, fgets_writeFile hFits] at hRead
    simp only [List.cons_append, List.map_cons, readln_line hFirstLine, hFirst, if_true] at hRead
    obtain ⟨data, hData, hRest⟩ := Option.bind_eq_some_iff.mp hRead
    rw [events_readTransfers hRest, (kept_setOthersData hData).1]
    rfl
  · obtain rfl := Option.some.inj hRead
    rfl

end Kept

section RoundTrip

/-- What the program keeps of the control data: the queue is ordered by transfer time, the numbers are
those of their types, the event codes are interned and the lines fit the line buffer. -/
structure WellFormed (data : ControlData) : Prop where
  sorted : ByTime data.transferRequests
  unsigned : ∀ dr ∈ data.transferRequests, InUnsigned dr
  interned : ∀ evt ∈ data.events, EventCode.intern evt.eventCode.text = evt.eventCode
  fits : ∀ line ∈ controlLines data, Fits line

/-- The control data that come back: they are plain, and neither the first event code nor a file type
makes its line look like the checksum line. -/
structure Storable (data : ControlData) : Prop extends Plain data where
  firstEvent : ∀ evt ∈ data.events.head?, evt.eventCode.text.head? ≠ some '*'
  fileTypes : ∀ dr ∈ data.downloadRequests, dr.fileType.head? ≠ some '*'

theorem isCrcLine_join_showInt (n : Int) {fields : List Text} (h : fields ≠ []) :
    isCrcLine (join ';' (showInt n :: fields)) = false := by
  rw [join_cons h, isCrcLine_append_eq_false_iff]
  exact fun hHead => not_mem_showInt (by decide) (by decide) n (List.mem_of_mem_head? hHead)

theorem isCrcLine_transferLine (dr : TransferRequest) : isCrcLine (transferLine dr) = false :=
  isCrcLine_join_showInt _ (List.cons_ne_nil _ _)

theorem isCrcLine_eventsLine_iff (events : List EventStruct) :
    isCrcLine (eventsLine events) = false ↔
      ∀ evt ∈ events.head?, evt.eventCode.text.head? ≠ some '*' := by
  cases events with
  | nil => simp [eventsLine, isCrcLine]
  | cons evt events =>
    have hLine : eventsLine (evt :: events) = join ';' (evt.eventCode.text :: _ :: _) :=
      eventsLine_eq_join (evt :: events)
    rw [hLine, join_cons (List.cons_ne_nil _ _), isCrcLine_append_eq_false_iff]
    simp

theorem isCrcLine_downloadLines_iff (requests : List DownloadRequest) :
    (∀ line ∈ downloadLines requests, isCrcLine line = false) ↔
      ∀ dr ∈ requests, dr.fileType.head? ≠ some '*' := by
  have hHash : isCrcLine "#".toList = false := by decide
  have hLine (dr : DownloadRequest) :
      isCrcLine (downloadLine dr) = false ↔ dr.fileType.head? ≠ some '*' :=
    isCrcLine_append_eq_false_iff _ _
  rw [downloadLines]
  split
  · simp_all
  · rw [List.forall_mem_cons, and_iff_right hHash, List.forall_mem_map]
    simp only [hLine]

/-- No line but the last one looks like the checksum line. -/
theorem noCrcLine_iff (data : ControlData) :
    (∀ line ∈ controlLines data, isCrcLine line = false) ↔
      (∀ evt ∈ data.events.head?, evt.eventCode.text.head? ≠ some '*') ∧
        ∀ dr ∈ data.downloadRequests, dr.fileType.head? ≠ some '*' := by
  have hOthers : isCrcLine (othersLine data) = false := isCrcLine_join_showInt _ (List.cons_ne_nil _ _)
  have hTransfers : ∀ dr ∈ data.transferRequests, isCrcLine (transferLine dr) = false :=
    fun dr _ => isCrcLine_transferLine dr
  rw [controlLines, List.forall_mem_cons, List.forall_mem_cons, List.forall_mem_append,
    List.forall_mem_map, isCrcLine_eventsLine_iff, isCrcLine_downloadLines_iff, and_iff_right hOthers,
    and_iff_right hTransfers]

theorem readDmControl_writeDmControl {data : ControlData} (hForm : WellFormed data)
    (hStorable : Storable data) :
    readDmControl .empty (writeDmControl data) = some
      { data with lastTransferId := data.transferRequests.foldl (fun id dr => max id dr.transferId) 0 } := by
  have hNone := (noCrcLine_iff data).mpr ⟨hStorable.firstEvent, hStorable.fileTypes⟩
  obtain ⟨hFirst, hRest⟩ := List.forall_mem_cons.mp hNone
  obtain ⟨hSecond, hLines⟩ := List.forall_mem_cons.mp hRest
  have hCrc := readLines_crcOK_writeFile hForm.fits hNone
  have hTake : (data.transferRequests.map transferLine ++ downloadLines data.downloadRequests).takeWhile
      (fun line => !isCrcLine line) = _ :=
    List.takeWhile_eq_self_iff.mpr fun line hMem => by simp [hLines line hMem]
  rw [controlLines] at hCrc
  rw [writeDmControl, controlLines, readDmControl_writeFile hForm.fits hFirst hSecond, if_pos hCrc, hTake,
    setEvents_eventsLine hStorable.toPlain hForm.interned, setOthersData_othersLine hStorable.toPlain,
    Option.bind_some]
  refine (readTransfers_map hStorable.transfers hForm.unsigned ?_ _).trans ?_
  · exact hForm.sorted
  · rw [readTransfers_downloadLines hStorable.downloads]
    rfl

/-- When every download request has come back, no line of them has ended the reading. -/
theorem noCrcLine_downloads {transfers : List Text} {requests : List DownloadRequest}
    {control read : DmControl} (hTransfers : ∀ line ∈ transfers, isCrcLine line = false ∧ line.head? ≠ some '#')
    (hRead : readTransfers ((transfers ++ downloadLines requests).takeWhile fun line => !isCrcLine line)
      control = some read)
    (hLength : read.downloadRequests.length = control.downloadRequests.length + requests.length) :
    ∀ line ∈ downloadLines requests, isCrcLine line = false := by
  rw [downloadLines] at hRead ⊢
  split at hRead
  · simp_all
  · have hKeep : ∀ line ∈ transfers, (!isCrcLine line) = true := fun line hMem => by
      simp [(hTransfers line hMem).1]
    have hHash : isCrcLine "#".toList = false := by decide
    rw [List.takeWhile_append_of_pos hKeep, List.takeWhile_cons_of_pos (by rw [hHash]; rfl)] at hRead
    have hCount := length_downloads_readTransfers (fun line hMem => (hTransfers line hMem).2) hRead
    have hAll : (requests.map downloadLine).takeWhile (fun line => !isCrcLine line) =
        requests.map downloadLine := by
      refine (List.takeWhile_prefix _).eq_of_length ?_
      rw [List.length_map]
      omega
    rename_i hSome
    rw [if_neg hSome]
    refine List.forall_mem_cons.mpr ⟨hHash, fun line hMem => ?_⟩
    simpa using List.takeWhile_eq_self_iff.mp hAll line hMem

theorem noCrcLine_of_reload {data : ControlData} (hForm : WellFormed data) {read : DmControl}
    (hRead : readDmControl .empty (writeDmControl data) = some read)
    (hSame : read.toControlData = data) : ∀ line ∈ controlLines data, isCrcLine line = false := by
  have hFirst : isCrcLine (eventsLine data.events) = false := by
    refine Bool.eq_false_iff.mpr fun hCrc => ?_
    have hNone := events_of_firstLine_crc hForm.fits hCrc hRead
    rw [hSame] at hNone
    rw [hNone] at hCrc
    exact absurd hCrc (by decide)
  have hSecond : isCrcLine (othersLine data) = false := isCrcLine_join_showInt _ (List.cons_ne_nil _ _)
  have hTransfers : ∀ line ∈ data.transferRequests.map transferLine,
      isCrcLine line = false ∧ line.head? ≠ some '#' := by
    intro line hMem
    obtain ⟨dr, -, rfl⟩ := List.mem_map.mp hMem
    exact ⟨isCrcLine_transferLine dr, head_transferLine dr⟩
  have hDownloads : ∀ line ∈ downloadLines data.downloadRequests, isCrcLine line = false := by
    rw [writeDmControl, controlLines, readDmControl_writeFile hForm.fits hFirst hSecond] at hRead
    split at hRead
    · obtain ⟨control, hControl, hRest⟩ := Option.bind_eq_some_iff.mp hRead
      refine noCrcLine_downloads hTransfers hRest ?_
      rw [hSame, (kept_setOthersData hControl).2]
      simp [setEvents, releaseCtrl, DmControl.empty]
    · obtain rfl := Option.some.inj hRead
      have hNone : data.downloadRequests = [] := by
        rw [← hSame]
        rfl
      simp [hNone, downloadLines]
  refine List.forall_mem_cons.mpr ⟨hFirst, List.forall_mem_cons.mpr ⟨hSecond, fun line hMem => ?_⟩⟩
  rcases List.mem_append.mp hMem with hTransfer | hDownload
  · exact (hTransfers line hTransfer).1
  · exact hDownloads line hDownload

/-- Reloading gives back exactly what was saved if and only if the control data are storable. -/
theorem reload_eq_some_iff_storable (data : ControlData) (hForm : WellFormed data) :
    (readDmControl .empty (writeDmControl data)).map DmControl.toControlData = some data ↔
      Storable data := by
  constructor
  · intro hReload
    obtain ⟨read, hRead, hSame⟩ := Option.map_eq_some_iff.mp hReload
    have hPlain : Plain data := hSame ▸ plain_readDmControl hRead
    obtain ⟨hFirst, hTypes⟩ := (noCrcLine_iff data).mp (noCrcLine_of_reload hForm hRead hSame)
    exact { hPlain with firstEvent := hFirst, fileTypes := hTypes }
  · intro hStorable
    rw [readDmControl_writeDmControl hForm hStorable]
    rfl

def sampleControl : ControlData where
  events := [⟨.mReboot, some "key".toList⟩, ⟨.vendorSpecific "X HIBERNATE".toList, none⟩]
  periodicInformTime := -60
  sScheduledInformTime := none
  sScheduledInformCommandKey := some []
  sRebootCommandKey := some "key".toList
  retryCount := 2
  transferRequests :=
    [{ isDownload := true
       state := .notYetStarted
       transferTime := 1700000000
       fileType := some "1 Firmware".toList
       url := some "http://host/image".toList
       username := none
       password := some []
       fileSize := 4096
       targetFileName := none
       successURL := none
       failureURL := none
       commandKey := some "dl".toList
       announceURL := none
       faultCode := 0
       startTime := 0
       completeTime := 0
       transferId := 7 }]
  downloadRequests := [⟨"2 Web Content".toList, some [⟨"Version".toList, none⟩]⟩]

theorem wellFormed_sampleControl : WellFormed sampleControl where
  sorted := List.pairwise_singleton _ _
  unsigned := by
    rintro dr hMem
    obtain rfl := List.mem_singleton.mp hMem
    exact ⟨by decide, by decide, by decide⟩
  interned := by decide
  fits := by decide

theorem reload_sampleControl :
    (readDmControl .empty (writeDmControl sampleControl)).map DmControl.toControlData =
      some sampleControl := by
  refine (reload_eq_some_iff_storable sampleControl wellFormed_sampleControl).mpr
    ⟨?_, by decide, by decide⟩
  refine ⟨?_, by decide, by decide, by decide, ?_, ?_⟩
  · intro evt hMem
    rcases List.mem_pair.mp hMem with rfl | rfl <;> exact ⟨by decide, by decide, by decide⟩
  · intro dr hMem
    obtain rfl := List.mem_singleton.mp hMem
    decide
  · intro dr hMem
    obtain rfl := List.mem_singleton.mp hMem
    exact ⟨by decide, _, rfl, by decide⟩

/-- The reboot event whose command key holds a semicolon. -/
def keyWithSemicolon : ControlData :=
  { DmControl.empty.toControlData with events := [⟨.mReboot, some "a;b".toList⟩] }

theorem wellFormed_keyWithSemicolon : WellFormed keyWithSemicolon where
  sorted := List.Pairwise.nil
  unsigned := fun dr hMem => nomatch hMem
  interned := by decide
  fits := by decide

theorem keyWithSemicolon_not_reloaded :
    WellFormed keyWithSemicolon ∧
      (readDmControl .empty (writeDmControl keyWithSemicolon)).map DmControl.toControlData =
        some { keyWithSemicolon with
          events := [⟨.mReboot, some "a".toList⟩, ⟨.vendorSpecific "b".toList, some []⟩] } ∧
      (readDmControl .empty (writeDmControl keyWithSemicolon)).map DmControl.toControlData ≠
        some keyWithSemicolon :=
  ⟨wellFormed_keyWithSemicolon, by decide +kernel, by decide +kernel⟩

end RoundTrip

end Tr069Agent.Data
