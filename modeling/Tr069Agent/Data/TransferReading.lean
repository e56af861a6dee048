import Tr069Agent.Data.ControlReload

/-! # Transfer requests read back

The fields of a request are written one behind the other with semicolons between them, and none is quoted. As
long as no text holds what ends a field, every number comes back in its place, whatever the texts become.
-/

namespace Tr069Agent.Data

open Library Library.Lines Library.Decimal Library.Scanner Engine

set_option autoImplicit false

def Unsplit (t : Option Text) : Prop := ∀ text ∈ t, ∀ c ∈ text, endsToken c = false

instance (t : Option Text) : Decidable (Unsplit t) :=
  inferInstanceAs (Decidable (∀ text ∈ t, ∀ c ∈ text, endsToken c = false))

/-- A text that begins with an underscore is taken for a missing one. -/
def rereadText (t : Option Text) : Option Text := if (orNullCode t).head? = some '_' then none else t

def readBack (dr : TransferRequest) : TransferRequest :=
  { dr with
    fileType := rereadText dr.fileType
    url := rereadText dr.url
    username := rereadText dr.username
    password := rereadText dr.password
    fileSize := toUnsigned dr.fileSize
    targetFileName := rereadText dr.targetFileName
    successURL := rereadText dr.successURL
    failureURL := rereadText dr.failureURL
    commandKey := rereadText dr.commandKey
    announceURL := rereadText dr.announceURL
    faultCode := toUnsigned dr.faultCode
    transferId := toUnsigned dr.transferId }

/-- The file of these data can be read: every line fits and none is taken for the checksum line, no text of a
transfer request ends a field, and every download request has what its line needs. -/
structure ReadableData (data : ControlData) : Prop where
  fits : ∀ line ∈ controlLines data, Fits line
  noCrcLine : ∀ line ∈ controlLines data, isCrcLine line = false
  unsplit : ∀ dr ∈ data.transferRequests, ∀ t ∈ texts dr, Unsplit t
  downloads : ∀ dr ∈ data.downloadRequests, (scanDownloadRequest.run' (downloadLine dr)).isSome = true

instance (data : ControlData) : Decidable (ReadableData data) :=
  decidable_of_iff ((∀ line ∈ controlLines data, Fits line) ∧ (∀ line ∈ controlLines data, isCrcLine line = false) ∧
      (∀ dr ∈ data.transferRequests, ∀ t ∈ texts dr, Unsplit t) ∧
      ∀ dr ∈ data.downloadRequests, (scanDownloadRequest.run' (downloadLine dr)).isSome = true)
    ⟨fun h => ⟨h.1, h.2.1, h.2.2.1, h.2.2.2⟩, fun h => ⟨h.fits, h.noCrcLine, h.unsplit, h.downloads⟩⟩

section Lines

theorem reads_reread {t : Option Text} (h : Unsplit t) (fields : List Text) :
    Reads token (join ';' (orNullCode t :: fields)) (rereadText t) (join ';' fields) := by
  have hField : ∀ c ∈ orNullCode t, endsToken c = false := by
    cases t with
    | none => exact List.forall_mem_singleton.mpr (by decide)
    | some text => exact h text rfl
  have hToken := nextToken_join hField fields
  have hRead : (if (orNullCode t).head? = some '_' then none else some (orNullCode t)) = rereadText t := by
    rw [rereadText]
    cases t with
    | none => rfl
    | some text => rfl
  rw [hRead] at hToken
  exact congrArg some hToken

theorem reads_readBack {dr : TransferRequest} (h : ∀ t ∈ texts dr, Unsplit t) :
    Reads scanTransferRequest (transferLine dr) (readBack dr) (join ';' []) := by
  simp only [texts, List.forall_mem_cons] at h
  obtain ⟨hFileType, hUrl, hUsername, hPassword, hFileName, hSuccess, hFailed, hKey, hAnnounce, -⟩ := h
  refine (reads_number _ _).bind <| (reads_number _ _).bind <| (reads_number _ _).bind ?_
  refine (reads_reread hFileType _).bind <| (reads_reread hUrl _).bind ?_
  refine (reads_reread hUsername _).bind <| (reads_reread hPassword _).bind ?_
  refine (reads_number _ _).bind <| (reads_reread hFileName _).bind ?_
  refine (reads_reread hSuccess _).bind <| (reads_reread hFailed _).bind ?_
  refine (reads_reread hKey _).bind <| (reads_reread hAnnounce _).bind ?_
  refine (reads_number _ _).bind <| (reads_number _ _).bind <| (reads_number _ _).bind ?_
  refine (reads_number _ _).bind <| (reads_ofInt dr.state _).bind ?_
  obtain ⟨isDownload⟩ := dr
  cases isDownload <;> exact reads_pure _ _

theorem mapM_transferLines {requests : List TransferRequest} (h : ∀ dr ∈ requests, ∀ t ∈ texts dr, Unsplit t) :
    (requests.map transferLine).mapM scanTransferRequest.run' = some (requests.map readBack) := by
  rw [mapM_eq_some_iff, List.forall₂_map_left_iff, List.forall₂_map_right_iff, List.forall₂_same]
  exact fun dr hMem => congrArg (Option.map Prod.fst) (reads_readBack (h dr hMem))

theorem transferPart_lines (requests : List TransferRequest) (downloads : List DownloadRequest) :
    transferPart (requests.map transferLine ++ downloadLines downloads) = requests.map transferLine := by
  have hTransfers : ∀ line ∈ requests.map transferLine, decide (line.head? ≠ some '#') = true := by
    rw [List.forall_mem_map]
    exact fun dr _ => decide_eq_true (head_transferLine dr)
  rw [transferPart, List.takeWhile_append_of_pos hTransfers, downloadLines]
  split
  · rw [List.takeWhile_nil, List.append_nil]
  · rw [List.takeWhile_cons_of_neg (by decide), List.append_nil]

theorem downloadPart_lines (requests : List TransferRequest) (downloads : List DownloadRequest) :
    downloadPart (requests.map transferLine ++ downloadLines downloads) = downloads.map downloadLine := by
  have hTransfers : ∀ line ∈ requests.map transferLine, decide (line.head? ≠ some '#') = true := by
    rw [List.forall_mem_map]
    exact fun dr _ => decide_eq_true (head_transferLine dr)
  rw [downloadPart, List.dropWhile_append_of_pos hTransfers, downloadLines]
  split
  · rename_i hNone
    rw [hNone]
    rfl
  · rw [List.dropWhile_cons_of_neg (by decide), List.tail_cons]

theorem isSome_othersOf (data : ControlData) : (othersOf (some (othersLine data))).isSome = true := by
  have hReads (rest : List Text) := reads_number data.periodicInformTime rest
  have hScan : Reads scanScheduled (othersLine data) _ _ :=
    (hReads _).bind <| (reads_nextToken _).bind <| (reads_nextToken _).bind <| (reads_nextToken _).bind <|
      reads_pure _ _
  rw [othersOf, StateT.run'_eq, hScan]
  rfl

theorem othersOf_readable {data : ControlData} (hTime : Unsplit data.sScheduledInformTime)
    (hKey : Unsplit data.sScheduledInformCommandKey) (hReboot : Unsplit data.sRebootCommandKey) :
    othersOf (some (othersLine data)) = some (rereadText data.sScheduledInformTime,
      rereadText data.sScheduledInformCommandKey, rereadText data.sRebootCommandKey) := by
  have hScan : Reads scanScheduled (othersLine data) _ _ :=
    (reads_number _ _).bind <| (reads_reread hTime _).bind <| (reads_reread hKey _).bind <|
      (reads_reread hReboot _).bind <| reads_pure _ _
  rw [othersOf, StateT.run'_eq, hScan]
  rfl

theorem exists_fileContents {data : ControlData} (h : ReadableData data) :
    ∃ contents, fileContents (writeDmControl data) = some contents ∧
      contents.transfers = data.transferRequests.map readBack ∧
      othersOf (some (othersLine data)) = some (contents.scheduledTime, contents.scheduledKey, contents.rebootKey) := by
  have hFits := h.fits
  have hNone := h.noCrcLine
  rw [controlLines] at hFits hNone
  obtain ⟨hFirst, hRest⟩ := List.forall_mem_cons.mp hNone
  obtain ⟨hSecond, hLines⟩ := List.forall_mem_cons.mp hRest
  have hPlain := fits_writeFile hFits
  obtain ⟨⟨-, -, hFirstLine⟩, hFitsRest⟩ := List.forall_mem_cons.mp hFits
  obtain ⟨⟨-, -, hSecondLine⟩, -⟩ := List.forall_mem_cons.mp hFitsRest
  have hTake : ((data.transferRequests.map transferLine ++ downloadLines data.downloadRequests) ++
      [crcLine (controlLines data)]).takeWhile (fun line => !isCrcLine line) =
        data.transferRequests.map transferLine ++ downloadLines data.downloadRequests := by
    rw [List.takeWhile_append_of_pos fun line hMem => by simp [hLines line hMem], List.takeWhile_cons_of_neg,
      List.append_nil]
    rw [isCrcLine_crcLine]
    exact Bool.false_ne_true
  obtain ⟨others, hOthers⟩ := Option.isSome_iff_exists.mp (isSome_othersOf data)
  obtain ⟨downloads, hDownloads⟩ : ∃ downloads,
      (data.downloadRequests.map downloadLine).mapM scanDownloadRequest.run' = some downloads := by
    refine Option.ne_none_iff_exists'.mp fun hFails => ?_
    obtain ⟨line, hMem, hLine⟩ := mapM_eq_none_iff.mp hFails
    obtain ⟨dr, hDr, rfl⟩ := List.mem_map.mp hMem
    have hSome := h.downloads dr hDr
    rw [hLine] at hSome
    cases hSome
  have hLinesEnd : ∀ line ∈ (data.transferRequests.map transferLine ++ downloadLines data.downloadRequests) ++
      [crcLine (controlLines data)], EndsPlain line := fun line hMem =>
    (hPlain line (List.mem_cons_of_mem _ (List.mem_cons_of_mem _ hMem))).2.2
  refine ⟨⟨readEvents ((eventsLine data.events).length + 1) (eventsLine data.events), others.1, others.2.1,
    others.2.2, data.transferRequests.map readBack, downloads⟩, ?_, rfl, hOthers⟩
  rw [fileContents, writeDmControl, LineReader.open, controlLines, fgets_writeFile hFits]
  simp only [List.cons_append, List.map_cons, readln_line hFirstLine, readln_line hSecondLine, hFirst, hSecond,
    Bool.false_eq_true, if_false, readLines]
  rw [controlLines] at hTake hLinesEnd
  rw [readLinesFrom_lines hLinesEnd, hTake, hOthers, transferPart_lines, downloadPart_lines,
    mapM_transferLines h.unsplit, hDownloads]
  rfl

end Lines

/-- What the reading of readable data leaves of the transfer requests and the keys, in a new process or over what
is in memory. -/
theorem exists_readDmControl {data : ControlData} (h : ReadableData data) (control : DmControl) :
    ∃ read, readDmControl control (writeDmControl data) = some read ∧
      read.transferRequests = (data.transferRequests.map readBack).foldl addTransferRequest [] ∧
      read.lastTransferId =
        (data.transferRequests.map readBack).foldl (fun id dr => max id dr.transferId) control.lastTransferId ∧
      othersOf (some (othersLine data)) =
        some (read.sScheduledInformTime, read.sScheduledInformCommandKey, read.sRebootCommandKey) := by
  obtain ⟨contents, hContents, hTransfers, hOthers⟩ := exists_fileContents h
  have hCrc := readLines_crcOK_writeFile h.fits h.noCrcLine
  obtain ⟨time, retryCount, hRead⟩ := readDmControl_eq control hCrc
  rw [← writeDmControl, hContents, Option.map_some] at hRead
  exact ⟨_, hRead, by rw [hTransfers], by rw [hTransfers], hOthers⟩

end Tr069Agent.Data
