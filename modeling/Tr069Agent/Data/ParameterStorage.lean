import Tr069Agent.Data.ParameterFile
import Tr069Agent.Library.Simulation

/-! # The parameter file and its backup

The parameters are kept in two files. Before the data file is written the old one becomes the backup,
and a start that finds the data file missing or broken goes back to the backup. The power can be cut
between two operations on the files and behind every character of a file.
-/

namespace Tr069Agent.Data

open Library Engine

set_option autoImplicit false

section Disk

structure Disk where
  obj : Option Text
  backup : Option Text

inductive DiskAction where
  | removeObj
  | renameObj
  | createObj
  | put (c : Char)

/-- A file that is missing cannot be renamed, and nothing is put into it. -/
def Disk.act (disk : Disk) : DiskAction → Disk
  | .removeObj => { disk with obj := none }
  | .renameObj =>
    match disk.obj with
    | none => disk
    | some file => ⟨none, some file⟩
  | .createObj => { disk with obj := some [] }
  | .put c => { disk with obj := disk.obj.map fun file => file ++ [c] }

def Disk.perform (disk : Disk) (actions : List DiskAction) : Disk := actions.foldl Disk.act disk

@[simp] theorem Disk.perform_nil (disk : Disk) : disk.perform [] = disk := rfl

@[simp] theorem Disk.perform_cons (disk : Disk) (action : DiskAction) (actions : List DiskAction) :
    disk.perform (action :: actions) = (disk.act action).perform actions := rfl

theorem Disk.perform_put (file text : Text) (backup : Option Text) :
    (Disk.mk (some file) backup).perform (text.map .put) = ⟨some (file ++ text), backup⟩ := by
  induction text generalizing file with
  | nil => simp
  | cons c text ih =>
    have hNext : (Disk.mk (some file) backup).act (.put c) = ⟨some (file ++ [c]), backup⟩ := rfl
    rw [List.map_cons, Disk.perform_cons, hNext, ih, List.append_assoc, List.singleton_append]

end Disk

variable (dmPrefix : Text)

section Operations

def writeActions (parameters : List Parameter) : List DiskAction :=
  .renameObj :: .createObj :: (writeParameters dmPrefix parameters).map .put

/-- `_readFileParameters` on data that was not read yet: the list, unless its code is not zero. -/
def readObj (file : Option Text) : Option (Option (List Parameter)) :=
  match file with
  | none => some none
  | some text =>
    (readFileParameters dmPrefix false text).map fun (res, parameters) => if res = 0 then some parameters else none

/-- `_readParameters`, and `DM_ENG_ParameterData_init` without the factory reset. -/
def readParameters (disk : Disk) : Option (List DiskAction × Option (List Parameter)) := do
  match ← readObj dmPrefix disk.obj with
  | some parameters => return ([], some parameters)
  | none =>
    match ← readObj dmPrefix disk.backup with
    | some parameters => return (.removeObj :: writeActions dmPrefix parameters, some parameters)
    | none => return ([.removeObj], none)

def clearSystemValue (param : Parameter) : Parameter :=
  if param.storageMode = .dmOnly then param else { param with value := none }

variable (ini : List Parameter)

/-- `DM_ENG_ParameterData_init` with the factory reset, where `ini` are the parameters of the initial file. -/
def factoryReset : List DiskAction := .removeObj :: writeActions dmPrefix ini

/-- The files as `DM_ENG_ParameterManager_init` uses them: without any parameters it falls back to the
factory reset. -/
def initParameters (disk : Disk) : Option (List DiskAction × List Parameter) := do
  let (actions, loaded) ← readParameters dmPrefix disk
  match loaded with
  | some parameters => return (actions, parameters.map clearSystemValue)
  | none => return (actions ++ factoryReset dmPrefix ini, ini)

end Operations

section Device

structure Storage where
  disk : Disk
  memory : Option (List Parameter)

inductive StorageEvent where
  | sync (parameters : List Parameter)
  | restore
  | boot
  | bootFactoryReset
  | stop

variable (ini : List Parameter)

/-- The operations on the files and the memory afterwards; none where the operation is not possible. -/
def Storage.outcome (s : Storage) : StorageEvent → Option (List DiskAction × Option (List Parameter))
  | .sync parameters => if s.memory.isSome then some (writeActions dmPrefix parameters, some parameters) else none
  | .restore =>
    if s.memory.isSome then
      (readParameters dmPrefix s.disk).bind fun (actions, loaded) => loaded.map fun parameters =>
        (actions, some parameters)
    else none
  | .boot =>
    if s.memory.isSome then none
    else (initParameters dmPrefix ini s.disk).map fun (actions, parameters) => (actions, some parameters)
  | .bootFactoryReset => if s.memory.isSome then none else some (factoryReset dmPrefix ini, some ini)
  | .stop => if s.memory.isSome then some ([], none) else none

/-- An operation is completed, or the power is cut after some of its operations on the files. -/
inductive StorageLabel where
  | done (event : StorageEvent)
  | cut (event : StorageEvent) (count : Nat)

def StorageLabel.event : StorageLabel → StorageEvent
  | .done event => event
  | .cut event _ => event

def Storage.step (s : Storage) (label : StorageLabel) : Option Storage :=
  (s.outcome dmPrefix ini label.event).map fun (actions, memory) =>
    match label with
    | .done _ => ⟨s.disk.perform actions, memory⟩
    | .cut _ count => ⟨s.disk.perform (actions.take count), none⟩

end Device

section Versions

/-- What the two files stand for: the saved list, and the list to which a factory reset that is cut off
goes back. -/
structure Versions where
  value : Option (List Parameter)
  previous : Option (List Parameter)
  memory : Option (List Parameter)

/-- The specification. A list is saved in full or not at all; only a factory reset that is cut off can
leave the list before the last one. -/
inductive Versions.Step (reread : List Parameter → List Parameter) (ini : List Parameter) :
    Versions → StorageLabel → Versions → Prop
  | sync (v p m parameters) :
    Step reread ini ⟨v, p, some m⟩ (.done (.sync parameters)) ⟨some (reread parameters), v, some parameters⟩
  | syncKept (v p m parameters count) : Step reread ini ⟨v, p, some m⟩ (.cut (.sync parameters) count) ⟨v, p, none⟩
  | syncBackedUp (v p m parameters count) :
    Step reread ini ⟨v, p, some m⟩ (.cut (.sync parameters) count) ⟨v, v, none⟩
  | syncDone (v p m parameters count) :
    Step reread ini ⟨v, p, some m⟩ (.cut (.sync parameters) count) ⟨some (reread parameters), v, none⟩
  | restore (v p m) : Step reread ini ⟨some v, p, some m⟩ (.done .restore) ⟨some v, p, some v⟩
  | restoreCut (v p m count) : Step reread ini ⟨some v, p, some m⟩ (.cut .restore count) ⟨some v, p, none⟩
  | boot (v p) : Step reread ini ⟨some v, p, none⟩ (.done .boot) ⟨some v, p, some (v.map clearSystemValue)⟩
  | bootCut (v p count) : Step reread ini ⟨v, p, none⟩ (.cut .boot count) ⟨v, p, none⟩
  | bootFresh : Step reread ini ⟨none, none, none⟩ (.done .boot) ⟨some (reread ini), none, some ini⟩
  | bootFreshDone (count) : Step reread ini ⟨none, none, none⟩ (.cut .boot count) ⟨some (reread ini), none, none⟩
  | reset (v p) : Step reread ini ⟨v, p, none⟩ (.done .bootFactoryReset) ⟨some (reread ini), p, some ini⟩
  | resetKept (v p count) : Step reread ini ⟨v, p, none⟩ (.cut .bootFactoryReset count) ⟨v, p, none⟩
  | resetBack (v p count) : Step reread ini ⟨v, p, none⟩ (.cut .bootFactoryReset count) ⟨p, p, none⟩
  | resetDone (v p count) : Step reread ini ⟨v, p, none⟩ (.cut .bootFactoryReset count) ⟨some (reread ini), p, none⟩
  | stop (v p m) : Step reread ini ⟨v, p, some m⟩ (.done .stop) ⟨v, p, none⟩
  | stopCut (v p m count) : Step reread ini ⟨v, p, some m⟩ (.cut .stop count) ⟨v, p, none⟩

end Versions

end Tr069Agent.Data
