import Tr069Agent.Data.CutFile
import Tr069Agent.Data.ParameterRoundTrip
import Tr069Agent.Data.ParameterStorage

/-! # The parameters survive a power cut

The two files are a register of two versions, in which a save is atomic. A data file that was not
written to its end fails its check, and the backup it was renamed from is still there.
-/

namespace Tr069Agent.Data

open Library Library.Lines Library.Decimal Library.Simulation Engine

set_option autoImplicit false

variable {dmPrefix : Text}

section Reload

/-- The parameters that a restart keeps: what comes back from the file comes back again unchanged. -/
structure Persistent (dmPrefix : Text) (param : Parameter) : Prop where
  wellFormed : ParameterWellFormed dmPrefix param
  readable : ReadableParameter dmPrefix param
  rereadWellFormed : ParameterWellFormed dmPrefix (reread param)
  rereadStorable : StorableParameter dmPrefix (reread param)

variable {parameters : List Parameter}

theorem fits_of_persistent (h : ∀ param ∈ parameters, Persistent dmPrefix param) :
    ∀ line ∈ parameters.map (parameterLine dmPrefix), Fits line := by
  intro line hMem
  obtain ⟨param, hParam, rfl⟩ := List.mem_map.mp hMem
  exact fits_parameterLine (h param hParam).wellFormed (h param hParam).readable.toHasFields

theorem noCrcLine_of_persistent (h : ∀ param ∈ parameters, Persistent dmPrefix param) :
    ∀ line ∈ parameters.map (parameterLine dmPrefix), isCrcLine line = false := by
  intro line hMem
  obtain ⟨param, hParam, rfl⟩ := List.mem_map.mp hMem
  exact (isCrcLine_parameterLine_iff param).mpr (h param hParam).readable.noCrcLine

theorem writeParameters_eq (h : ∀ param ∈ parameters, Persistent dmPrefix param) :
    writeParameters dmPrefix parameters = writeFile (parameters.map (parameterLine dmPrefix)) := by
  rw [writeParameters, parameterLines_eq_map fun param hMem => (h param hMem).wellFormed]

theorem readObj_writeParameters (h : ∀ param ∈ parameters, Persistent dmPrefix param) :
    readObj dmPrefix (some (writeParameters dmPrefix parameters)) = some (some (parameters.map reread)) := by
  have hReload := reload_readableParameters (fun param hMem => (h param hMem).wellFormed)
    fun param hMem => (h param hMem).readable
  rw [readObj, hReload]
  rfl

/-- A data file that was not written to its end counts for nothing or for the whole file. -/
theorem readObj_cut (h : ∀ param ∈ parameters, Persistent dmPrefix param) {cut : Text}
    (hCut : cut <+: writeParameters dmPrefix parameters) :
    readObj dmPrefix (some cut) =
      some (if (writeParameters dmPrefix parameters).length ≤ cut.length + 1 then some (parameters.map reread)
        else none) := by
  have hFits := fits_of_persistent h
  have hNone := noCrcLine_of_persistent h
  have hFile := writeParameters_eq h
  have hCrc := readLines_crcOK_cut_iff hFits hNone (hFile ▸ hCut)
  rw [← hFile] at hCrc
  split
  · rename_i hLong
    have hSame : readObj dmPrefix (some cut) = readObj dmPrefix (some (writeParameters dmPrefix parameters)) := by
      have hStripped := stripped_open_of_long hFits hNone (hFile ▸ hCut) (hFile ▸ hLong)
      rw [← hFile] at hStripped
      obtain ⟨hLines, hCheck⟩ := readLines_congr hStripped
      simp only [readObj, readFileParameters, hLines, hCheck]
    rw [hSame, readObj_writeParameters h]
  · rename_i hShort
    obtain ⟨read, hRead⟩ := exists_readFileParameters dmPrefix false cut
    rw [readObj, hRead, Bool.eq_false_iff.mpr (mt hCrc.mp hShort)]
    rfl

/-- Parameters that the file gives back as they are. -/
def Settled (dmPrefix : Text) (parameters : List Parameter) : Prop :=
  (∀ param ∈ parameters, Persistent dmPrefix param) ∧ parameters.map reread = parameters

theorem reread_of_storable {param : Parameter} (hForm : ParameterWellFormed dmPrefix param)
    (hStorable : StorableParameter dmPrefix param) : reread param = blanked param :=
  (reread_eq_blanked_iff hForm hStorable.toHasFields).mpr hStorable.toValuesCarried

theorem settled_reread (h : ∀ param ∈ parameters, Persistent dmPrefix param) :
    Settled dmPrefix (parameters.map reread) := by
  have hSame : ∀ param ∈ parameters, reread (reread param) = reread param := fun param hMem => by
    rw [reread_of_storable (h param hMem).rereadWellFormed (h param hMem).rereadStorable, blanked_reread]
  constructor
  · intro param hMem
    obtain ⟨saved, hSaved, rfl⟩ := List.mem_map.mp hMem
    obtain ⟨hForm, hReadable, hRereadForm, hStorable⟩ := h saved hSaved
    refine ⟨hRereadForm, ⟨hStorable.toHasFields, hStorable.noComment, hStorable.noCrcLine⟩, ?_, ?_⟩
    · rwa [hSame saved hSaved]
    · rwa [hSame saved hSaved]
  · rw [List.map_map]
    exact List.map_congr_left hSame

theorem getD_emptyAsNull (text : Option Text) : (emptyAsNull (text.getD [])).getD [] = text.getD [] := by
  simp only [emptyAsNull]
  split <;> simp_all

theorem encoded_emptyAsNull (text : Option Text) : encoded (emptyAsNull (text.getD [])) = encoded text := by
  cases text with
  | none => rfl
  | some text => cases text <;> rfl

theorem parameterLine_blanked (param : Parameter) :
    parameterLine dmPrefix (blanked param) = parameterLine dmPrefix param := by
  simp [parameterLine, attributes, blanked, encoded_emptyAsNull]

theorem wellFormed_blanked {param : Parameter} (h : ParameterWellFormed dmPrefix param) :
    ParameterWellFormed dmPrefix (blanked param) where
  name := h.name
  ascii := by
    have hAscii := h.ascii
    simp only [freeTexts, List.forall_mem_cons] at hAscii ⊢
    simpa [blanked, getD_emptyAsNull] using hAscii
  minValue := h.minValue
  maxValue := h.maxValue
  length := by
    rw [parameterLine_blanked]
    exact h.length

/-- What the file carries is kept by a restart. -/
theorem persistent_of_storable {param : Parameter} (hForm : ParameterWellFormed dmPrefix param)
    (hStorable : StorableParameter dmPrefix param) : Persistent dmPrefix param := by
  have hSame := reread_of_storable hForm hStorable
  refine ⟨hForm, ⟨hStorable.toHasFields, hStorable.noComment, hStorable.noCrcLine⟩, ?_, ?_⟩
  · rw [hSame]
    exact wellFormed_blanked hForm
  · rw [hSame]
    obtain ⟨⟨hName, hList⟩, ⟨hBounds, hStorage, hImmediate, hCarried, hNotification, hLoading, hState⟩, hComment,
      hCrc⟩ := hStorable
    exact ⟨⟨hName, hList⟩, ⟨hBounds, hStorage, hImmediate, hCarried, hNotification, hLoading, hState⟩, hComment,
      hCrc⟩

end Reload

section Refinement

/-- The file gives this list, and a list that is given is settled. -/
structure Carries (dmPrefix : Text) (file : Option Text) (version : Option (List Parameter)) : Prop where
  read : readObj dmPrefix file = some version
  settled : ∀ parameters ∈ version, Settled dmPrefix parameters

variable {parameters : List Parameter}

theorem carries_none : Carries dmPrefix none none := ⟨rfl, by simp⟩

theorem carries_cut (h : ∀ param ∈ parameters, Persistent dmPrefix param) {cut : Text}
    (hCut : cut <+: writeParameters dmPrefix parameters) :
    Carries dmPrefix (some cut) none ∨ Carries dmPrefix (some cut) (some (parameters.map reread)) := by
  have hRead := readObj_cut h hCut
  split at hRead
  · right
    refine ⟨hRead, fun loaded hLoaded => ?_⟩
    obtain rfl := Option.some.inj hLoaded
    exact settled_reread h
  · exact .inl ⟨hRead, by simp⟩

theorem carries_writeParameters (h : ∀ param ∈ parameters, Persistent dmPrefix param) :
    Carries dmPrefix (some (writeParameters dmPrefix parameters)) (some (parameters.map reread)) := by
  refine ⟨readObj_writeParameters h, fun loaded hLoaded => ?_⟩
  obtain rfl := Option.some.inj hLoaded
  exact settled_reread h

theorem perform_writeActions (parameters : List Parameter) (disk : Disk) :
    disk.perform (writeActions dmPrefix parameters) =
      ⟨some (writeParameters dmPrefix parameters), disk.obj.or disk.backup⟩ := by
  obtain ⟨obj, backup⟩ := disk
  cases obj <;> simp [writeActions, Disk.act, Disk.perform_put]

/-- A write that is cut has left the files, or has put a beginning of the file in place of the data file. -/
theorem perform_take_writeActions (parameters : List Parameter) (disk : Disk) (count : Nat) :
    disk.perform ((writeActions dmPrefix parameters).take count) = disk ∨
      ∃ file, (file = none ∨ ∃ cut, cut <+: writeParameters dmPrefix parameters ∧ file = some cut) ∧
        disk.perform ((writeActions dmPrefix parameters).take count) = ⟨file, disk.obj.or disk.backup⟩ := by
  obtain ⟨obj, backup⟩ := disk
  have hRename : (Disk.mk obj backup).act .renameObj = ⟨none, obj.or backup⟩ := by cases obj <;> rfl
  match count with
  | 0 => exact .inl rfl
  | 1 => exact .inr ⟨none, .inl rfl, by simp [writeActions, hRename]⟩
  | count + 2 =>
    refine .inr ⟨some ((writeParameters dmPrefix parameters).take count), .inr ⟨_, List.take_prefix _ _, rfl⟩, ?_⟩
    have hCreate : (Disk.mk none (obj.or backup)).act .createObj = ⟨some [], obj.or backup⟩ := rfl
    rw [writeActions, List.take_succ_cons, List.take_succ_cons, Disk.perform_cons, Disk.perform_cons, hRename, hCreate,
      ← List.map_take, Disk.perform_put, List.nil_append]

/-- A write that is cut where there is no data file leaves the backup, and the whole list or nothing
beside it. -/
theorem carries_take_writeActions (h : ∀ param ∈ parameters, Persistent dmPrefix param) (disk : Disk) (count : Nat) :
    disk.perform ((writeActions dmPrefix parameters).take count) = disk ∨
      ∃ file, (Carries dmPrefix file none ∨ Carries dmPrefix file (some (parameters.map reread))) ∧
        disk.perform ((writeActions dmPrefix parameters).take count) = ⟨file, disk.obj.or disk.backup⟩ := by
  rcases perform_take_writeActions parameters disk count with hSame | ⟨file, hFile, hDisk⟩
  · exact .inl hSame
  · refine .inr ⟨file, ?_, hDisk⟩
    rcases hFile with rfl | ⟨cut, hCut, rfl⟩
    · exact .inl carries_none
    · exact carries_cut h hCut

/-- The files hold what the versions say, and the data file is in order while the program runs. -/
inductive Represents (dmPrefix : Text) : Storage → Versions → Prop
  | intro {file backup : Option Text} {obj previous memory : Option (List Parameter)}
      (hObj : Carries dmPrefix file obj) (hBackup : Carries dmPrefix backup previous)
      (hRunning : memory.isSome = true → obj.isSome = true) :
      Represents dmPrefix ⟨⟨file, backup⟩, memory⟩ ⟨obj.or previous, previous, memory⟩

variable {s s' : Storage} {a : Versions} {ini : List Parameter}

theorem represents_write (h : ∀ param ∈ parameters, Persistent dmPrefix param) {file backup : Option Text}
    {obj previous : Option (List Parameter)} (hObj : Carries dmPrefix file obj)
    (hBackup : Carries dmPrefix backup previous)
    (hKept : file.isSome = obj.isSome) (memory : Option (List Parameter)) :
    Represents dmPrefix ⟨(Disk.mk file backup).perform (writeActions dmPrefix parameters), memory⟩
      ⟨some (parameters.map reread), obj.or previous, memory⟩ := by
  rw [perform_writeActions]
  refine .intro (carries_writeParameters h) ?_ fun _ => rfl
  cases file <;> cases obj <;> first | exact hBackup | exact hObj | cases hKept

/-- A write that is cut where the data file is in order or missing. -/
theorem represents_writeCut (h : ∀ param ∈ parameters, Persistent dmPrefix param) {file backup : Option Text}
    {obj previous : Option (List Parameter)} (hObj : Carries dmPrefix file obj)
    (hBackup : Carries dmPrefix backup previous)
    (hKept : file.isSome = obj.isSome) (count : Nat) :
    ∃ value older,
      Represents dmPrefix ⟨(Disk.mk file backup).perform ((writeActions dmPrefix parameters).take count), none⟩
        ⟨value, older, none⟩ ∧
      ((value = obj.or previous ∧ (older = previous ∨ older = obj.or previous)) ∨
        value = some (parameters.map reread) ∧ older = obj.or previous) := by
  have hBehind : Carries dmPrefix (file.or backup) (obj.or previous) := by
    cases file <;> cases obj <;> first | exact hBackup | exact hObj | cases hKept
  have hStopped {version : Option (List Parameter)} :
      (none : Option (List Parameter)).isSome = true → version.isSome = true :=
    fun hRuns => by cases hRuns
  rcases carries_take_writeActions h ⟨file, backup⟩ count with hSame | ⟨left, hLeft | hLeft, hDisk⟩
  · rw [hSame]
    exact ⟨_, _, .intro hObj hBackup hStopped, .inl ⟨rfl, .inl rfl⟩⟩
  · rw [hDisk]
    exact ⟨_, _, .intro hLeft hBehind hStopped, .inl ⟨rfl, .inr rfl⟩⟩
  · rw [hDisk]
    exact ⟨_, _, .intro hLeft hBehind hStopped, .inr ⟨rfl, rfl⟩⟩

theorem Represents.memory_eq (h : Represents dmPrefix s a) : s.memory = a.memory := by
  cases h
  rfl

theorem isSome_eq_of_carries_some {file : Option Text} {version : List Parameter}
    (h : Carries dmPrefix file (some version)) : file.isSome = (some version).isSome := by
  cases file with
  | none => cases h.read
  | some text => rfl

/-- What `_readParameters` does when the files give these lists. -/
def foundParameters (dmPrefix : Text) : Option (List Parameter) → Option (List Parameter) →
    List DiskAction × Option (List Parameter)
  | some v, _ => ([], some v)
  | none, some v => (.removeObj :: writeActions dmPrefix v, some v)
  | none, none => ([.removeObj], none)

theorem readParameters_of_holds {file backup : Option Text} {obj previous : Option (List Parameter)}
    (hObj : Carries dmPrefix file obj) (hBackup : Carries dmPrefix backup previous) :
    readParameters dmPrefix ⟨file, backup⟩ = some (foundParameters dmPrefix obj previous) := by
  rw [readParameters, hObj.read]
  cases obj with
  | some v => rfl
  | none =>
    rw [Option.bind_eq_bind, Option.bind_some, hBackup.read]
    cases previous <;> rfl

/-- The saved lists are persistent. -/
def StorageLabel.Saves (dmPrefix : Text) (label : StorageLabel) : Prop :=
  match label.event with
  | .sync parameters => ∀ param ∈ parameters, Persistent dmPrefix param
  | _ => True

abbrev VersionStep (ini : List Parameter) : Versions → StorageLabel → Versions → Prop :=
  Versions.Step (List.map reread) ini

section Steps

variable {file backup : Option Text} {obj previous : Option (List Parameter)}

/-- An operation that does nothing with the files is cut. -/
theorem represents_cutNothing (hObj : Carries dmPrefix file obj) (hBackup : Carries dmPrefix backup previous)
    (count : Nat) :
    Represents dmPrefix ⟨(Disk.mk file backup).perform (([] : List DiskAction).take count), none⟩
      ⟨obj.or previous, previous, none⟩ := by
  rw [List.take_nil]
  exact .intro hObj hBackup fun hRuns => by cases hRuns

/-- The factory reset, done or cut, from any files. -/
theorem represents_factoryReset (hIni : ∀ param ∈ ini, Persistent dmPrefix param)
    (hBackup : Carries dmPrefix backup previous) :
    Represents dmPrefix ⟨(Disk.mk file backup).perform (factoryReset dmPrefix ini), some ini⟩
      ⟨some (ini.map reread), previous, some ini⟩ := by
  have hWrite := represents_write hIni carries_none hBackup rfl (some ini)
  rwa [Option.none_or] at hWrite

theorem represents_factoryResetCut (hIni : ∀ param ∈ ini, Persistent dmPrefix param)
    (hObj : Carries dmPrefix file obj) (hBackup : Carries dmPrefix backup previous) (count : Nat) :
    ∃ value, Represents dmPrefix ⟨(Disk.mk file backup).perform ((factoryReset dmPrefix ini).take count), none⟩
        ⟨value, previous, none⟩ ∧
      (value = obj.or previous ∨ value = previous ∨ value = some (ini.map reread)) := by
  cases count with
  | zero => exact ⟨_, .intro hObj hBackup (fun hRuns => by cases hRuns), .inl rfl⟩
  | succ count =>
    obtain ⟨value, older, hRepresents, hValue⟩ := represents_writeCut hIni carries_none hBackup rfl count
    rw [Option.none_or] at hValue
    have hOlder : older = previous := by
      rcases hValue with ⟨-, rfl | rfl⟩ | ⟨-, rfl⟩ <;> rfl
    subst hOlder
    refine ⟨value, hRepresents, .inr ?_⟩
    exact hValue.imp And.left And.left

/-- The backup is written back as the data file, in full or in part. -/
theorem represents_writeBack {v : List Parameter} (hBackup : Carries dmPrefix backup (some v))
    (memory : Option (List Parameter)) :
    Represents dmPrefix ⟨(Disk.mk none backup).perform (writeActions dmPrefix v), memory⟩ ⟨some v, some v, memory⟩ := by
  obtain ⟨hPersistent, hSame⟩ := hBackup.settled v rfl
  have hWrite := represents_write hPersistent carries_none hBackup rfl memory
  rwa [hSame] at hWrite

theorem represents_writeBackCut {v : List Parameter} (hBackup : Carries dmPrefix backup (some v)) (count : Nat) :
    Represents dmPrefix ⟨(Disk.mk none backup).perform ((writeActions dmPrefix v).take count), none⟩
      ⟨some v, some v, none⟩ := by
  obtain ⟨hPersistent, hSame⟩ := hBackup.settled v rfl
  obtain ⟨value, older, hRepresents, hValue⟩ := represents_writeCut hPersistent carries_none hBackup rfl count
  rw [hSame, Option.none_or] at hValue
  rcases hValue with ⟨rfl, rfl | rfl⟩ | ⟨rfl, rfl⟩ <;> exact hRepresents

end Steps

theorem simulates_sync (hRel : Represents dmPrefix s a) (hPersistent : ∀ param ∈ parameters, Persistent dmPrefix param)
    {label : StorageLabel} (hEvent : label.event = .sync parameters) (hStep : s.step dmPrefix ini label = some s') :
    ∃ a', VersionStep ini a label a' ∧ Represents dmPrefix s' a' := by
  obtain @⟨file, backup, obj, previous, memory, hObj, hBackup, hRunning⟩ := hRel
  rw [Storage.step, hEvent] at hStep
  cases memory with
  | none => cases hStep
  | some m =>
    obtain ⟨v, rfl⟩ := Option.isSome_iff_exists.mp (hRunning rfl)
    have hKept := isSome_eq_of_carries_some hObj
    cases label with
    | done event =>
      obtain rfl : event = .sync parameters := hEvent
      obtain rfl := Option.some.inj hStep
      exact ⟨_, .sync _ _ _ _, represents_write hPersistent hObj hBackup hKept (some parameters)⟩
    | cut event count =>
      obtain rfl : event = .sync parameters := hEvent
      obtain rfl := Option.some.inj hStep
      obtain ⟨value, older, hRepresents, hValue⟩ := represents_writeCut hPersistent hObj hBackup hKept count
      refine ⟨_, ?_, hRepresents⟩
      rcases hValue with ⟨rfl, rfl | rfl⟩ | ⟨rfl, rfl⟩
      · exact .syncKept _ _ _ _ _
      · exact .syncBackedUp _ _ _ _ _
      · exact .syncDone _ _ _ _ _

theorem simulates_restore (hRel : Represents dmPrefix s a) {label : StorageLabel} (hEvent : label.event = .restore)
    (hStep : s.step dmPrefix ini label = some s') : ∃ a', VersionStep ini a label a' ∧ Represents dmPrefix s' a' := by
  obtain @⟨file, backup, obj, previous, memory, hObj, hBackup, hRunning⟩ := hRel
  rw [Storage.step, hEvent] at hStep
  cases memory with
  | none => cases hStep
  | some m =>
    obtain ⟨v, rfl⟩ := Option.isSome_iff_exists.mp (hRunning rfl)
    rw [Storage.outcome, readParameters_of_holds hObj hBackup] at hStep
    cases label with
    | done event =>
      obtain rfl : event = .restore := hEvent
      obtain rfl := Option.some.inj hStep
      exact ⟨_, .restore _ _ _, .intro hObj hBackup fun _ => rfl⟩
    | cut event count =>
      obtain rfl : event = .restore := hEvent
      obtain rfl := Option.some.inj hStep
      exact ⟨_, .restoreCut _ _ _ _, represents_cutNothing hObj hBackup count⟩

theorem simulates_boot (hIni : ∀ param ∈ ini, Persistent dmPrefix param) (hRel : Represents dmPrefix s a)
    {label : StorageLabel} (hEvent : label.event = .boot) (hStep : s.step dmPrefix ini label = some s') :
    ∃ a', VersionStep ini a label a' ∧ Represents dmPrefix s' a' := by
  obtain @⟨file, backup, obj, previous, memory, hObj, hBackup, hRunning⟩ := hRel
  rw [Storage.step, hEvent] at hStep
  cases memory with
  | some m => cases hStep
  | none =>
    rw [Storage.outcome, initParameters, readParameters_of_holds hObj hBackup] at hStep
    cases label with
    | done event =>
      obtain rfl : event = .boot := hEvent
      match obj, previous with
      | some v, _ =>
        obtain rfl := Option.some.inj hStep
        exact ⟨_, .boot _ _, .intro hObj hBackup fun _ => rfl⟩
      | none, some v =>
        obtain rfl := Option.some.inj hStep
        exact ⟨_, .boot _ _, represents_writeBack hBackup _⟩
      | none, none =>
        obtain rfl := Option.some.inj hStep
        exact ⟨_, .bootFresh, represents_factoryReset hIni hBackup⟩
    | cut event count =>
      obtain rfl : event = .boot := hEvent
      match obj, previous with
      | some v, _ =>
        obtain rfl := Option.some.inj hStep
        exact ⟨_, .bootCut _ _ _, represents_cutNothing hObj hBackup count⟩
      | none, some v =>
        obtain rfl := Option.some.inj hStep
        refine ⟨_, .bootCut _ _ _, ?_⟩
        cases count with
        | zero => exact .intro hObj hBackup hRunning
        | succ count => exact represents_writeBackCut hBackup count
      | none, none =>
        obtain rfl := Option.some.inj hStep
        cases count with
        | zero => exact ⟨_, .bootCut _ _ _, .intro hObj hBackup hRunning⟩
        | succ count =>
          obtain ⟨value, hRepresents, hValue⟩ := represents_factoryResetCut hIni carries_none hBackup count
          refine ⟨_, ?_, hRepresents⟩
          rcases hValue with rfl | rfl | rfl
          · exact .bootCut _ _ _
          · exact .bootCut _ _ _
          · exact .bootFreshDone _

theorem simulates_bootFactoryReset (hIni : ∀ param ∈ ini, Persistent dmPrefix param) (hRel : Represents dmPrefix s a)
    {label : StorageLabel} (hEvent : label.event = .bootFactoryReset) (hStep : s.step dmPrefix ini label = some s') :
    ∃ a', VersionStep ini a label a' ∧ Represents dmPrefix s' a' := by
  obtain @⟨file, backup, obj, previous, memory, hObj, hBackup, hRunning⟩ := hRel
  rw [Storage.step, hEvent] at hStep
  cases memory with
  | some m => cases hStep
  | none =>
    cases label with
    | done event =>
      obtain rfl : event = .bootFactoryReset := hEvent
      obtain rfl := Option.some.inj hStep
      exact ⟨_, .reset _ _, represents_factoryReset hIni hBackup⟩
    | cut event count =>
      obtain rfl : event = .bootFactoryReset := hEvent
      obtain rfl := Option.some.inj hStep
      obtain ⟨value, hRepresents, hValue⟩ := represents_factoryResetCut hIni hObj hBackup count
      refine ⟨_, ?_, hRepresents⟩
      rcases hValue with rfl | rfl | rfl
      · exact .resetKept _ _ _
      · exact .resetBack _ _ _
      · exact .resetDone _ _ _

theorem simulates_stop (hRel : Represents dmPrefix s a) {label : StorageLabel} (hEvent : label.event = .stop)
    (hStep : s.step dmPrefix ini label = some s') : ∃ a', VersionStep ini a label a' ∧ Represents dmPrefix s' a' := by
  obtain @⟨file, backup, obj, previous, memory, hObj, hBackup, hRunning⟩ := hRel
  rw [Storage.step, hEvent] at hStep
  cases memory with
  | none => cases hStep
  | some m =>
    cases label with
    | done event =>
      obtain rfl : event = .stop := hEvent
      obtain rfl := Option.some.inj hStep
      exact ⟨_, .stop _ _ _, .intro hObj hBackup fun hRuns => by cases hRuns⟩
    | cut event count =>
      obtain rfl : event = .stop := hEvent
      obtain rfl := Option.some.inj hStep
      exact ⟨_, .stopCut _ _ _ _, represents_cutNothing hObj hBackup count⟩

theorem simulates_versions (hIni : ∀ param ∈ ini, Persistent dmPrefix param) :
    Simulates (Storage.step dmPrefix ini) (VersionStep ini) (StorageLabel.Saves dmPrefix) (Represents dmPrefix) := by
  intro s a label s' hRel hSaves hStep
  cases hEvent : label.event with
  | sync parameters =>
    rw [StorageLabel.Saves, hEvent] at hSaves
    exact simulates_sync hRel hSaves hEvent hStep
  | restore => exact simulates_restore hRel hEvent hStep
  | boot => exact simulates_boot hIni hRel hEvent hStep
  | bootFactoryReset => exact simulates_bootFactoryReset hIni hRel hEvent hStep
  | stop => exact simulates_stop hRel hEvent hStep

/-- The operations of the running program; the others start it. -/
def StorageEvent.whileRunning : StorageEvent → Bool
  | .sync _ | .restore | .stop => true
  | .boot | .bootFactoryReset => false

theorem step_isSome_iff (hRel : Represents dmPrefix s a) (label : StorageLabel) :
    (s.step dmPrefix ini label).isSome = true ↔ label.event.whileRunning = s.memory.isSome := by
  obtain @⟨file, backup, obj, previous, memory, hObj, hBackup, hRunning⟩ := hRel
  rw [Storage.step, Option.isSome_map]
  cases memory with
  | none =>
    cases label.event with
    | sync _ | restore | stop => simp [Storage.outcome, StorageEvent.whileRunning]
    | bootFactoryReset => simp [Storage.outcome, StorageEvent.whileRunning]
    | boot =>
      refine iff_of_true ?_ rfl
      rw [Storage.outcome, initParameters, readParameters_of_holds hObj hBackup]
      cases obj <;> cases previous <;> rfl
  | some m =>
    cases label.event with
    | sync _ | stop => simp [Storage.outcome, StorageEvent.whileRunning]
    | boot | bootFactoryReset => simp [Storage.outcome, StorageEvent.whileRunning]
    | restore =>
      refine iff_of_true ?_ rfl
      obtain ⟨v, rfl⟩ := Option.isSome_iff_exists.mp (hRunning rfl)
      rw [Storage.outcome, readParameters_of_holds hObj hBackup]
      rfl

/-- The two files, with power cuts behind any operation on them, are a register of two versions that
is saved in full or not at all, and every operation stays possible. -/
theorem storage_refines_versions (hIni : ∀ param ∈ ini, Persistent dmPrefix param)
    (hRel : Represents dmPrefix s a) {labels : List StorageLabel} (hSaves : ∀ label ∈ labels, label.Saves dmPrefix)
    (hExec : Transition.exec (Storage.step dmPrefix ini) s labels = some s') :
    (∃ a', Run (VersionStep ini) a labels a' ∧ Represents dmPrefix s' a') ∧
      ∀ label : StorageLabel, (s'.step dmPrefix ini label).isSome = true ↔
        label.event.whileRunning = s'.memory.isSome := by
  obtain ⟨a', hRun, hLast⟩ := run_of_exec (simulates_versions hIni) hRel hSaves hExec
  exact ⟨⟨a', hRun, hLast⟩, step_isSome_iff hLast⟩

theorem storable_sampleParameter : StorableParameter devicePrefix sampleParameter := by
  refine ⟨⟨by decide, ?_⟩, ⟨⟨by decide, rfl⟩, by decide, by decide, ?_, by decide, by decide,
    by decide⟩, by decide, by decide⟩
  · intro items hItems
    obtain rfl := Option.some.inj hItems
    decide
  · intro items hItems
    obtain rfl := Option.some.inj hItems
    decide

section Sample

/-- The first start, and a save that is cut behind eleven characters of the file. -/
def sampleLabels : List StorageLabel := [.done .boot, .cut (.sync [sampleParameter, sampleParameter]) 13]

theorem persistent_sampleParameter : ∀ param ∈ [sampleParameter], Persistent devicePrefix param :=
  List.forall_mem_singleton.mpr (persistent_of_storable wellFormed_sampleParameter storable_sampleParameter)

theorem saves_sampleLabels : ∀ label ∈ sampleLabels, label.Saves devicePrefix := by
  simpa [sampleLabels, StorageLabel.Saves, StorageLabel.event] using persistent_sampleParameter

theorem represents_empty : Represents dmPrefix ⟨⟨none, none⟩, none⟩ ⟨none, none, none⟩ :=
  .intro carries_none carries_none fun hRuns => hRuns

theorem storage_refines_versions_sample : ∃ s' a',
    Transition.exec (Storage.step devicePrefix [sampleParameter]) ⟨⟨none, none⟩, none⟩ sampleLabels = some s' ∧
      Run (VersionStep [sampleParameter]) ⟨none, none, none⟩ sampleLabels a' ∧ Represents devicePrefix s' a' := by
  have hSome : (Transition.exec (Storage.step devicePrefix [sampleParameter]) ⟨⟨none, none⟩, none⟩
      sampleLabels).isSome = true := by decide +kernel
  obtain ⟨s', hExec⟩ := Option.isSome_iff_exists.mp hSome
  obtain ⟨⟨a', hRun, hLast⟩, -⟩ :=
    storage_refines_versions persistent_sampleParameter represents_empty saves_sampleLabels hExec
  exact ⟨s', a', hExec, hRun, hLast⟩

end Sample

/-- The lists that the next start may find: the one saved last and those whose saving was cut after it. -/
def mayHold (ini : List Parameter) (candidates : List (Option (List Parameter))) :
    StorageLabel → List (Option (List Parameter))
  | .done (.sync parameters) => [some (parameters.map reread)]
  | .cut (.sync parameters) _ => some (parameters.map reread) :: candidates
  | .done .bootFactoryReset => [some (ini.map reread)]
  -- the first start saves the parameters of the initial file
  | .done .boot => candidates.map fun version => version.or (some (ini.map reread))
  | .cut .boot _ => candidates ++ candidates.map fun version => version.or (some (ini.map reread))
  | _ => candidates

def StorageLabel.IsResetCut : StorageLabel → Prop
  | .cut .bootFactoryReset _ => True
  | _ => False

theorem value_mem_mayHold {candidates : List (Option (List Parameter))} {a' : Versions} {label : StorageLabel}
    (hMem : a.value ∈ candidates) (hLabel : ¬ label.IsResetCut) (hStep : VersionStep ini a label a') :
    a'.value ∈ mayHold ini candidates label := by
  cases hStep with
  | sync | syncDone | reset => exact List.mem_cons_self
  | syncKept | syncBackedUp => exact List.mem_cons_of_mem _ hMem
  | restore | restoreCut | stop | stopCut => exact hMem
  | boot | bootFresh => exact List.mem_map.mpr ⟨_, hMem, rfl⟩
  | bootCut => exact List.mem_append_left _ hMem
  | bootFreshDone => exact List.mem_append_right _ (List.mem_map.mpr ⟨_, hMem, rfl⟩)
  | resetKept | resetBack | resetDone => exact absurd trivial hLabel

/-- While no factory reset is cut, every start loads the list that was saved last in full, or one whose
saving was cut after it, and the initial parameters where there is none. -/
theorem start_loads_last_saved (hIni : ∀ param ∈ ini, Persistent dmPrefix param) (hRel : Represents dmPrefix s a)
    {labels : List StorageLabel} (hSaves : ∀ label ∈ labels, label.Saves dmPrefix)
    (hReset : ∀ label ∈ labels, ¬ label.IsResetCut)
    (hExec : Transition.exec (Storage.step dmPrefix ini) s labels = some s') {started : Storage}
    (hBoot : s'.step dmPrefix ini (.done .boot) = some started) :
    ∃ version ∈ labels.foldl (mayHold ini) [a.value],
      started.memory = some (version.elim ini fun parameters => parameters.map clearSystemValue) := by
  obtain ⟨a', hRun, hLast⟩ := run_of_exec (simulates_versions hIni) hRel hSaves hExec
  have hKeep : ∀ (candidates : List (Option (List Parameter))) (versions : Versions) (label : StorageLabel)
      (next : Versions), versions.value ∈ candidates → ¬ label.IsResetCut → VersionStep ini versions label next →
      next.value ∈ mayHold ini candidates label :=
    fun _ _ _ _ hMem hLabel hStep => value_mem_mayHold hMem hLabel hStep
  have hValue : a'.value ∈ labels.foldl (mayHold ini) [a.value] := hRun.invariant hKeep hReset List.mem_cons_self
  refine ⟨a'.value, hValue, ?_⟩
  obtain ⟨last, hStep, hStarted⟩ := simulates_boot hIni hLast rfl hBoot
  rw [hStarted.memory_eq]
  cases hStep <;> rfl

theorem start_loads_last_saved_sample : ∃ s' started,
    Transition.exec (Storage.step devicePrefix [sampleParameter]) ⟨⟨none, none⟩, none⟩ sampleLabels = some s' ∧
      s'.step devicePrefix [sampleParameter] (.done .boot) = some started ∧
      ∃ version ∈ sampleLabels.foldl (mayHold [sampleParameter]) [none],
        started.memory =
          some (version.elim [sampleParameter] fun parameters => parameters.map clearSystemValue) := by
  have hSome : ((Transition.exec (Storage.step devicePrefix [sampleParameter]) ⟨⟨none, none⟩, none⟩
      sampleLabels).bind fun s' => s'.step devicePrefix [sampleParameter] (.done .boot)).isSome = true := by
    decide +kernel
  obtain ⟨started, hBoth⟩ := Option.isSome_iff_exists.mp hSome
  obtain ⟨s', hExec, hBoot⟩ := Option.bind_eq_some_iff.mp hBoth
  have hReset : ∀ label ∈ sampleLabels, ¬ label.IsResetCut := by
    simp [sampleLabels, StorageLabel.IsResetCut]
  exact ⟨s', started, hExec, hBoot, start_loads_last_saved persistent_sampleParameter represents_empty
    saves_sampleLabels hReset hExec hBoot⟩

end Refinement

end Tr069Agent.Data
