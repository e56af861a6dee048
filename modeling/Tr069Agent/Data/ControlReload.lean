import Tr069Agent.Data.ControlRoundTrip

/-! # Reloading over control data in memory

The lines of a control file say by themselves what it holds. The reader releases what is in memory before it
reads them, but for the download requests, to which those of the file are appended.
-/

namespace Tr069Agent.Data

open Library Library.Lines Library.Decimal Library.Scanner Engine

set_option autoImplicit false

section Lines

/-- The lines before the hash sign. -/
def transferPart (lines : List Text) : List Text := lines.takeWhile (·.head? ≠ some '#')

/-- The lines behind the hash sign. -/
def downloadPart (lines : List Text) : List Text := (lines.dropWhile (·.head? ≠ some '#')).tail

theorem readDownloads_eq (lines : List Text) (data : DmControl) :
    readDownloads lines data = (lines.mapM scanDownloadRequest.run').map fun downloads =>
      { data with downloadRequests := data.downloadRequests ++ downloads } := by
  induction lines generalizing data with
  | nil => simp [readDownloads]
  | cons line lines ih =>
    rw [readDownloads, addNewDownloadRequest, List.mapM_cons]
    cases scanDownloadRequest.run' line with
    | none => rfl
    | some dr =>
      simp only [Option.bind_eq_bind, Option.bind_some, Option.pure_def, ih]
      cases lines.mapM scanDownloadRequest.run' with
      | none => rfl
      | some downloads => simp

theorem readTransfers_eq (lines : List Text) (data : DmControl) :
    readTransfers lines data = do
      let transfers ← (transferPart lines).mapM scanTransferRequest.run'
      let downloads ← (downloadPart lines).mapM scanDownloadRequest.run'
      return { data with
        transferRequests := transfers.foldl addTransferRequest data.transferRequests
        lastTransferId := transfers.foldl (fun id dr => max id dr.transferId) data.lastTransferId
        downloadRequests := data.downloadRequests ++ downloads } := by
  induction lines generalizing data with
  | nil => simp [readTransfers, transferPart, downloadPart]
  | cons line lines ih =>
    rw [readTransfers]
    by_cases hHash : line.head? = some '#'
    · have hFront : transferPart (line :: lines) = [] := List.takeWhile_cons_of_neg (by simp [hHash])
      have hBack : downloadPart (line :: lines) = lines := by
        rw [downloadPart, List.dropWhile_cons_of_neg (by simp [hHash]), List.tail_cons]
      rw [if_pos hHash, hFront, hBack, readDownloads_eq]
      simp only [List.mapM_nil, Option.bind_eq_bind, Option.pure_def, Option.bind_some, List.foldl_nil]
      cases lines.mapM scanDownloadRequest.run' <;> rfl
    · have hFront : transferPart (line :: lines) = line :: transferPart lines :=
        List.takeWhile_cons_of_pos (by simp [hHash])
      have hBack : downloadPart (line :: lines) = downloadPart lines := by
        rw [downloadPart, List.dropWhile_cons_of_pos (by simp [hHash]), downloadPart]
      rw [if_neg hHash, hFront, hBack, addNewTransferRequest, List.mapM_cons]
      cases scanTransferRequest.run' line with
      | none => rfl
      | some dr =>
        simp only [Option.bind_eq_bind, Option.bind_some, Option.pure_def, ih]
        cases (transferPart lines).mapM scanTransferRequest.run' with
        | none => rfl
        | some transfers => simp

end Lines

/-- The parts of the control data that the program acts on. -/
structure FileContents where
  events : List EventStruct
  scheduledTime : Option Text
  scheduledKey : Option Text
  rebootKey : Option Text
  transfers : List TransferRequest
  downloads : List DownloadRequest
  deriving DecidableEq

def scanScheduled : Scanner Text (Option Text × Option Text × Option Text) := do
  let _ ← number
  let time ← token
  let key ← token
  let rebootKey ← token
  return (time, key, rebootKey)

def othersOf : Option Text → Option (Option Text × Option Text × Option Text)
  | none => some (none, none, none)
  | some line => scanScheduled.run' line

/-- What a file holds; none where a number or a name is missing that is needed. -/
def fileContents (file : Text) : Option FileContents := do
  let (first, fp) := readln { LineReader.open file with crcOK := true }
  let (second, fp) := readln fp
  let lines := (readLines fp).1
  let (scheduledTime, scheduledKey, rebootKey) ← othersOf second
  let transfers ← (transferPart lines).mapM scanTransferRequest.run'
  let downloads ← (downloadPart lines).mapM scanDownloadRequest.run'
  return { events := first.elim [] fun line => readEvents (line.length + 1) line
           scheduledTime, scheduledKey, rebootKey, transfers, downloads }

/-- Exactly these contents, the transfer requests in the order of the queue. -/
structure HasContents (data : ControlData) (contents : FileContents) : Prop where
  events : data.events = contents.events
  scheduledTime : data.sScheduledInformTime = contents.scheduledTime
  scheduledKey : data.sScheduledInformCommandKey = contents.scheduledKey
  rebootKey : data.sRebootCommandKey = contents.rebootKey
  transfers : data.transferRequests.Perm contents.transfers
  downloads : data.downloadRequests = contents.downloads

/-- The reading succeeds and leaves the contents of the file. -/
def Replaces (data : DmControl) (file : Text) : Prop :=
  ∃ contents read, fileContents file = some contents ∧ readDmControl data file = some read ∧
    HasContents read.toControlData contents

section Queue

theorem perm_insert (tr : TransferRequest) (queue : List TransferRequest) :
    (TransferQueue.insert tr queue).Perm (tr :: queue) := by
  induction queue with
  | nil => exact List.Perm.refl _
  | cons curr queue ih =>
    unfold TransferQueue.insert
    split
    · exact (ih.cons curr).trans (List.Perm.swap tr curr queue)
    · exact List.Perm.refl _

theorem perm_foldl_addTransferRequest (front queue : List TransferRequest) :
    (queue.foldl addTransferRequest front).Perm (front ++ queue) := by
  have hAdd : ∀ (front : List TransferRequest) (dr : TransferRequest),
      (addTransferRequest front dr).Perm (front ++ [dr]) := by
    rintro (_ | ⟨first, front⟩) dr
    · exact List.Perm.refl _
    · exact ((perm_insert dr front).trans (List.perm_append_singleton dr front).symm).cons first
  induction queue generalizing front with
  | nil => simp
  | cons dr queue ih =>
    refine (ih _).trans ?_
    simpa using (hAdd front dr).append_right queue

end Queue

section Reading

theorem reads_nextToken (it : Text) : Reads token it (nextToken it).1 (nextToken it).2 := rfl

/-- Into data that hold no scheduled inform the second line brings those of the file. -/
theorem setOthersData_eq (line : Option Text) {data : DmControl} (hTime : data.sScheduledInformTime = none)
    (hKey : data.sScheduledInformCommandKey = none) (hReboot : data.sRebootCommandKey = none) :
    ∃ periodicInformTime retryCount, setOthersData line data = (othersOf line).map fun others =>
      { data with periodicInformTime, sScheduledInformTime := others.1
                  sScheduledInformCommandKey := others.2.1, sRebootCommandKey := others.2.2, retryCount } := by
  cases line with
  | none =>
    refine ⟨data.periodicInformTime, data.retryCount, ?_⟩
    obtain ⟨⟨⟩⟩ := data
    simp only at hTime hKey hReboot
    subst hTime hKey hReboot
    rfl
  | some line =>
    cases hNumber : number.run line with
    | none =>
      have hScan : scanScheduled.run line = none := by rw [scanScheduled, StateT.run_bind, hNumber]; rfl
      have hOthers : (scanOthers data).run line = none := by rw [scanOthers, StateT.run_bind, hNumber]; rfl
      refine ⟨0, 0, ?_⟩
      rw [setOthersData, othersOf, StateT.run'_eq, StateT.run'_eq, hScan, hOthers]
      rfl
    | some read =>
      obtain ⟨time, rest⟩ := read
      have hScan : Reads scanScheduled line ((nextToken rest).1, (nextToken (nextToken rest).2).1,
          (nextToken (nextToken (nextToken rest).2).2).1) (nextToken (nextToken (nextToken rest).2).2).2 :=
        Reads.bind hNumber (.bind (reads_nextToken _) (.bind (reads_nextToken _)
          (.bind (reads_nextToken _) (reads_pure _ _))))
      obtain ⟨retryCount, last, hOthers⟩ : ∃ retryCount last, Reads (scanOthers data) line
          { data with
            periodicInformTime := time
            sScheduledInformTime := (nextToken rest).1
            sScheduledInformCommandKey := (nextToken (nextToken rest).2).1
            sRebootCommandKey := (nextToken (nextToken (nextToken rest).2).2).1
            retryCount } last :=
        ⟨_, _, Reads.bind hNumber (.bind (reads_nextToken _) (.bind (reads_nextToken _)
          (.bind (reads_nextToken _) (.bind (reads_nextToken _) (reads_pure _ _)))))⟩
      refine ⟨time, retryCount, ?_⟩
      rw [setOthersData, othersOf, StateT.run'_eq, StateT.run'_eq, hScan, hOthers]
      rfl

/-- The reading of a file that can be trusted: the download requests in memory stay in front. -/
theorem readDmControl_eq (data : DmControl) {file : Text} (hCrc : (readLines (.open file)).2.crcOK = true) :
    ∃ periodicInformTime retryCount, readDmControl data file = (fileContents file).map fun contents =>
      { events := contents.events
        periodicInformTime
        sScheduledInformTime := contents.scheduledTime
        sScheduledInformCommandKey := contents.scheduledKey
        sRebootCommandKey := contents.rebootKey
        retryCount
        transferRequests := contents.transfers.foldl addTransferRequest []
        downloadRequests := data.downloadRequests ++ contents.downloads
        lastTransferId := contents.transfers.foldl (fun id dr => max id dr.transferId) data.lastTransferId } := by
  simp only [readDmControl, fileContents, hCrc, if_true]
  generalize readln { LineReader.open file with crcOK := true } = first
  generalize readln first.2 = second
  have hEvents : setEvents first.1 (releaseCtrl data) = { releaseCtrl data with
      events := first.1.elim [] fun line => readEvents (line.length + 1) line } := by
    cases first.1 <;> rfl
  obtain ⟨time, retryCount, hOthers⟩ :=
    @setOthersData_eq second.1 (setEvents first.1 (releaseCtrl data)) (by rw [hEvents]; rfl)
      (by rw [hEvents]; rfl) (by rw [hEvents]; rfl)
  refine ⟨time, retryCount, ?_⟩
  rw [hOthers, hEvents]
  cases othersOf second.1 with
  | none => rfl
  | some others =>
    simp only [Option.map_some, Option.bind_eq_bind, Option.bind_some, readTransfers_eq, Option.pure_def]
    cases (transferPart (readLines second.2).1).mapM scanTransferRequest.run' with
    | none => rfl
    | some transfers =>
      cases (downloadPart (readLines second.2).1).mapM scanDownloadRequest.run' with
      | none => rfl
      | some downloads => rfl

end Reading

/-- After the reading the control data are those of the file if and only if no download request was in memory and
the file can be read. -/
theorem replaces_iff (data : DmControl) (file : Text) (hCrc : (readLines (.open file)).2.crcOK = true) :
    Replaces data file ↔ data.downloadRequests = [] ∧ (fileContents file).isSome = true := by
  obtain ⟨time, retryCount, hRead⟩ := readDmControl_eq data hCrc
  constructor
  · rintro ⟨contents, read, hContents, hSome, hSame⟩
    rw [hContents, Option.map_some, hSome] at hRead
    have hDownloads := hSame.downloads
    rw [Option.some.inj hRead] at hDownloads
    exact ⟨List.append_left_eq_self.mp hDownloads, by rw [hContents]; rfl⟩
  · rintro ⟨hNone, hSome⟩
    obtain ⟨contents, hContents⟩ := Option.isSome_iff_exists.mp hSome
    rw [hContents, Option.map_some, hNone] at hRead
    refine ⟨contents, _, hContents, hRead, rfl, rfl, rfl, rfl, ?_, rfl⟩
    exact perm_foldl_addTransferRequest [] contents.transfers

def oneDownload : DmControl := { DmControl.empty with downloadRequests := [⟨"1 Firmware".toList, some []⟩] }

theorem replaces_without_downloads : Replaces .empty (writeDmControl oneDownload.toControlData) :=
  (replaces_iff .empty _ (by decide +kernel)).mpr ⟨rfl, by decide +kernel⟩

/-- The saved file of these very data is read again. -/
theorem download_request_doubled :
    (readLines (.open (writeDmControl oneDownload.toControlData))).2.crcOK = true ∧
      (readDmControl oneDownload (writeDmControl oneDownload.toControlData)).map (·.downloadRequests.length) = some 2 ∧
      ¬ Replaces oneDownload (writeDmControl oneDownload.toControlData) := by
  have hRead : (readDmControl oneDownload (writeDmControl oneDownload.toControlData)).map
      (·.downloadRequests.length) = some 2 := by decide +kernel
  have hFile : (fileContents (writeDmControl oneDownload.toControlData)).map (·.downloads.length) = some 1 := by
    decide +kernel
  refine ⟨by decide +kernel, hRead, ?_⟩
  rintro ⟨contents, read, hContents, hSome, hSame⟩
  rw [hSome, Option.map_some, hSame.downloads] at hRead
  rw [hContents, Option.map_some, Option.some.inj hRead] at hFile
  cases hFile

end Tr069Agent.Data
