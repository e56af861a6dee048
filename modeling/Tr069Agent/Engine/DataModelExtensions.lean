import Tr069Agent.Engine.DataModelConfiguration
import Tr069Agent.Engine.InstanceNumbers

/-! # What an extension leaves of the store

A configuration that fails is undone by reading the saved parameters again. One that succeeds has come
through each of its own commands without an error, but not through those of its patterns, since the
result of a pattern file is not looked at.
-/

namespace Tr069Agent.Engine.DataModelConfiguration

open Library Data

set_option autoImplicit false

variable (dmPrefix : Text) (files : Files) (limit : Nat)

section Relations

/-- The result to which a processing comes, where the error of a pattern file is dropped. -/
inductive Runs : {α : Type} → Lookup PatternCall DataModel (Option α) → α → Prop
  | done {α : Type} (r : α) : Runs (.done (some r)) r
  | missing {α : Type} {call : PatternCall} {next : DataModel → Lookup PatternCall DataModel (Option α)}
      {r : α} (hFile : files (patternFileName call.pattern) = none) (hNext : Runs (next call.store) r) :
      Runs (.ask call next) r
  | pattern {α : Type} {call : PatternCall} {next : DataModel → Lookup PatternCall DataModel (Option α)}
      {r : α} {cmdNode : XmlNode} {code : Nat} {dm : DataModel}
      (hFile : files (patternFileName call.pattern) = some cmdNode)
      (hCommand : Runs (patternCommand dmPrefix limit call cmdNode).run (code, dm))
      (hNext : Runs (next dm) r) : Runs (.ask call next) r

/-- The result to which a processing comes without an error in the file of any pattern. The recursive
pattern is known without a file. -/
inductive Applied : {α : Type} → Lookup PatternCall DataModel (Option α) → α → Prop
  | done {α : Type} (r : α) : Applied (.done (some r)) r
  | builtin {α : Type} {call : PatternCall} {next : DataModel → Lookup PatternCall DataModel (Option α)}
      {r : α} (hName : call.pattern = recursivePattern)
      (hFile : files (patternFileName call.pattern) = none) (hNext : Applied (next call.store) r) :
      Applied (.ask call next) r
  | pattern {α : Type} {call : PatternCall} {next : DataModel → Lookup PatternCall DataModel (Option α)}
      {r : α} {cmdNode : XmlNode} {dm : DataModel}
      (hFile : files (patternFileName call.pattern) = some cmdNode)
      (hCommand : Applied (patternCommand dmPrefix limit call cmdNode).run (0, dm))
      (hNext : Applied (next dm) r) : Applied (.ask call next) r

/-- The pattern files to which a processing comes. -/
inductive Comes : {α : Type} → Lookup PatternCall DataModel (Option α) → PatternCall → Prop
  | here {α : Type} {call : PatternCall} {next : DataModel → Lookup PatternCall DataModel (Option α)} :
      Comes (.ask call next) call
  | inside {α : Type} {call other : PatternCall}
      {next : DataModel → Lookup PatternCall DataModel (Option α)} {cmdNode : XmlNode}
      (hFile : files (patternFileName call.pattern) = some cmdNode)
      (hCommand : Comes (patternCommand dmPrefix limit call cmdNode).run other) :
      Comes (.ask call next) other
  | afterMissing {α : Type} {call other : PatternCall}
      {next : DataModel → Lookup PatternCall DataModel (Option α)}
      (hFile : files (patternFileName call.pattern) = none) (hNext : Comes (next call.store) other) :
      Comes (.ask call next) other
  | afterPattern {α : Type} {call other : PatternCall}
      {next : DataModel → Lookup PatternCall DataModel (Option α)} {cmdNode : XmlNode} {code : Nat}
      {dm : DataModel} (hFile : files (patternFileName call.pattern) = some cmdNode)
      (hCommand : Runs dmPrefix files limit (patternCommand dmPrefix limit call cmdNode).run (code, dm))
      (hNext : Comes (next dm) other) : Comes (.ask call next) other

/-- The file of a pattern is missing, or its command ends with an error in the store that it finds. -/
def Fails (call : PatternCall) : Prop :=
  match files (patternFileName call.pattern) with
  | none => call.pattern ≠ recursivePattern
  | some cmdNode =>
    ∃ code dm, Runs dmPrefix files limit (patternCommand dmPrefix limit call cmdNode).run (code, dm) ∧ code ≠ 0

/-- Each of the nodes is processed without an error. -/
inductive AppliedAll (process : XmlNode → DataModel → Processing (Nat × DataModel)) :
    List XmlNode → DataModel → DataModel → Prop
  | nil (dm : DataModel) : AppliedAll process [] dm dm
  | cons {node : XmlNode} {nodes : List XmlNode} {dm dm' dm'' : DataModel}
      (hNode : Applied dmPrefix files limit (process node dm).run (0, dm'))
      (hNodes : AppliedAll process nodes dm' dm'') : AppliedAll process (node :: nodes) dm dm''

end Relations

variable {dmPrefix files limit} {α β : Type}

section Results

theorem Runs.unique {p : Lookup PatternCall DataModel (Option α)} {r r' : α}
    (h : Runs dmPrefix files limit p r) (h' : Runs dmPrefix files limit p r') : r = r' := by
  induction h with
  | done r =>
    cases h'
    rfl
  | missing hFile hNext ih =>
    cases h' with
    | missing hFile' hNext' => exact ih hNext'
    | pattern hFile' hCommand' hNext' =>
      rw [hFile] at hFile'
      cases hFile'
  | pattern hFile hCommand hNext ihCommand ihNext =>
    cases h' with
    | missing hFile' hNext' =>
      rw [hFile] at hFile'
      cases hFile'
    | pattern hFile' hCommand' hNext' =>
      obtain rfl := Option.some.inj (hFile.symm.trans hFile')
      obtain ⟨-, rfl⟩ := Prod.mk.inj (ihCommand hCommand')
      exact ihNext hNext'

theorem Applied.runs {p : Lookup PatternCall DataModel (Option α)} {r : α}
    (h : Applied dmPrefix files limit p r) : Runs dmPrefix files limit p r := by
  induction h with
  | done r => exact .done r
  | builtin hName hFile hNext ih => exact .missing hFile ih
  | pattern hFile hCommand hNext ihCommand ihNext => exact .pattern hFile ihCommand ihNext

theorem Applied.not_fails {p : Lookup PatternCall DataModel (Option α)} {r : α}
    (h : Applied dmPrefix files limit p r) {call : PatternCall} (hCome : Comes dmPrefix files limit p call) :
    ¬ Fails dmPrefix files limit call := by
  induction h with
  | done r => cases hCome
  | builtin hName hFile hNext ih =>
    cases hCome with
    | here =>
      rw [Fails, hFile]
      exact fun hNot => hNot hName
    | inside hFile' hCommand' =>
      rw [hFile] at hFile'
      cases hFile'
    | afterMissing hFile' hNext' => exact ih hNext'
    | afterPattern hFile' hCommand' hNext' =>
      rw [hFile] at hFile'
      cases hFile'
  | pattern hFile hCommand hNext ihCommand ihNext =>
    cases hCome with
    | here =>
      rw [Fails, hFile]
      rintro ⟨code, dm, hRun, hCode⟩
      obtain ⟨rfl, -⟩ := Prod.mk.inj (hRun.unique hCommand.runs)
      exact hCode rfl
    | inside hFile' hCommand' =>
      obtain rfl := Option.some.inj (hFile.symm.trans hFile')
      exact ihCommand hCommand'
    | afterMissing hFile' hNext' =>
      rw [hFile] at hFile'
      cases hFile'
    | afterPattern hFile' hCommand' hNext' =>
      obtain rfl := Option.some.inj (hFile.symm.trans hFile')
      obtain ⟨-, rfl⟩ := Prod.mk.inj (hCommand'.unique hCommand.runs)
      exact ihNext hNext'

/-- A processing is without an error in a pattern where none of those it comes to fails. -/
theorem Runs.applied {p : Lookup PatternCall DataModel (Option α)} {r : α}
    (h : Runs dmPrefix files limit p r)
    (hSound : ∀ call, Comes dmPrefix files limit p call → ¬ Fails dmPrefix files limit call) :
    Applied dmPrefix files limit p r := by
  induction h with
  | done r => exact .done r
  | missing hFile hNext ih =>
    have hHere := hSound _ .here
    rw [Fails, hFile, not_not] at hHere
    exact .builtin hHere hFile (ih fun call hCome => hSound call (.afterMissing hFile hCome))
  | pattern hFile hCommand hNext ihCommand ihNext =>
    rename_i call next r cmdNode code dm
    have hHere := hSound _ .here
    rw [Fails, hFile] at hHere
    obtain rfl : code = 0 := by
      by_contra hCode
      exact hHere ⟨code, dm, hCommand, hCode⟩
    exact .pattern hFile (ihCommand fun call hCome => hSound call (.inside hFile hCome))
      (ihNext fun call hCome => hSound call (.afterPattern hFile hCommand hCome))

theorem applied_iff {p : Lookup PatternCall DataModel (Option α)} {r : α}
    (h : Runs dmPrefix files limit p r) :
    Applied dmPrefix files limit p r ↔
      ∀ call, Comes dmPrefix files limit p call → ¬ Fails dmPrefix files limit call :=
  ⟨fun hApplied _ hCome => hApplied.not_fails hCome, h.applied⟩

theorem runs_of_runM {depth : Nat} {p : Lookup PatternCall DataModel (Option α)} {r : α}
    (h : (p.runM (processPattern dmPrefix files limit depth)).join = some r) :
    Runs dmPrefix files limit p r := by
  induction depth generalizing α p r with
  | zero =>
    cases p with
    | done result =>
      obtain rfl : result = some r := h
      exact .done r
    | ask call next => cases h
  | succ depth ihDepth =>
    induction p with
    | done result =>
      obtain rfl : result = some r := h
      exact .done r
    | ask call next ih =>
      rw [Lookup.runM] at h
      cases hPattern : processPattern dmPrefix files limit (depth + 1) call with
      | none =>
        rw [hPattern] at h
        cases h
      | some dm =>
        rw [hPattern] at h
        have hNext := ih dm h
        rw [processPattern] at hPattern
        split at hPattern
        · rename_i hFile
          obtain rfl := Option.some.inj hPattern
          exact .missing hFile hNext
        · rename_i hFile
          obtain rfl := Option.some.inj hPattern
          exact .pattern hFile (.done (syntaxError, call.store)) hNext
        · rename_i cmdNode _ hFile
          obtain ⟨⟨code, store⟩, hCommand, rfl⟩ := Option.map_eq_some_iff.mp hPattern
          exact .pattern hFile (ihDepth hCommand) hNext

end Results

def firstCall : Lookup PatternCall DataModel (Option α) → Option PatternCall
  | .done _ => none
  | .ask call _ => some call

theorem comes_of_firstCall {p : Lookup PatternCall DataModel (Option α)} {call : PatternCall}
    (h : firstCall p = some call) : Comes dmPrefix files limit p call := by
  cases p with
  | done result => cases h
  | ask first next =>
    obtain rfl := Option.some.inj h
    exact .here

section Lists

theorem applied_bind {p : Processing α} {f : α → Processing β} {r : β} :
    Applied dmPrefix files limit (p >>= f).run r ↔
      ∃ a, Applied dmPrefix files limit p.run a ∧ Applied dmPrefix files limit (f a).run r := by
  have hTree (q : Lookup PatternCall DataModel (Option α)) :
      Applied dmPrefix files limit (q.bind fun
        | some a => (f a).run
        | none => .done none) r ↔
      ∃ a, Applied dmPrefix files limit q a ∧ Applied dmPrefix files limit (f a).run r := by
    induction q with
    | done result =>
      cases result with
      | none =>
        constructor
        · intro h
          cases h
        · rintro ⟨a, h, -⟩
          cases h
      | some a =>
        constructor
        · exact fun h => ⟨a, .done a, h⟩
        · rintro ⟨a', h, hNext⟩
          cases h
          exact hNext
    | ask call next ih =>
      constructor
      · intro h
        cases h with
        | builtin hName hFile hNext =>
          obtain ⟨a, hFirst, hRest⟩ := (ih _).mp hNext
          exact ⟨a, .builtin hName hFile hFirst, hRest⟩
        | pattern hFile hCommand hNext =>
          obtain ⟨a, hFirst, hRest⟩ := (ih _).mp hNext
          exact ⟨a, .pattern hFile hCommand hFirst, hRest⟩
      · rintro ⟨a, h, hRest⟩
        cases h with
        | builtin hName hFile hNext => exact .builtin hName hFile ((ih _).mpr ⟨a, hNext, hRest⟩)
        | pattern hFile hCommand hNext => exact .pattern hFile hCommand ((ih _).mpr ⟨a, hNext, hRest⟩)
  have hBind : (p >>= f).run = p.run.bind fun
      | some a => (f a).run
      | none => .done none := by
    refine congrArg p.run.bind (funext fun a => ?_)
    cases a with
    | none => rfl
    | some a => rfl
  rw [hBind, hTree]

theorem applied_pure {a r : α} :
    Applied dmPrefix files limit (pure a : Processing α).run r ↔ r = a := by
  constructor
  · intro h
    cases h
    rfl
  · rintro rfl
    exact .done r

theorem applied_untilError_iff {process : XmlNode → DataModel → Processing (Nat × DataModel)}
    {nodes : List XmlNode} {res : Nat} {dm dm' : DataModel} :
    Applied dmPrefix files limit (untilError process nodes res dm).run (0, dm') ↔
      AppliedAll dmPrefix files limit process nodes dm dm' ∧ (nodes = [] → res = 0) := by
  induction nodes generalizing res dm with
  | nil =>
    rw [untilError, applied_pure]
    constructor
    · intro h
      obtain ⟨hRes, rfl⟩ := Prod.mk.inj h
      exact ⟨.nil dm', fun _ => hRes.symm⟩
    · rintro ⟨h, hRes⟩
      cases h
      rw [hRes rfl]
  | cons node nodes ih =>
    rw [untilError, applied_bind]
    constructor
    · rintro ⟨⟨code, next⟩, hNode, hRest⟩
      dsimp only at hRest
      obtain rfl | hCode := Nat.eq_zero_or_pos code
      · rw [if_neg (by simp)] at hRest
        exact ⟨.cons hNode (ih.mp hRest).1, by simp⟩
      · rw [if_pos hCode.ne', applied_pure] at hRest
        obtain ⟨rfl, -⟩ := Prod.mk.inj hRest
        exact absurd hCode (lt_irrefl 0)
    · rintro ⟨h, -⟩
      cases h with
      | cons hNode hNodes =>
        refine ⟨_, hNode, ?_⟩
        dsimp only
        rw [if_neg (by simp)]
        exact ih.mpr ⟨hNodes, fun _ => rfl⟩

theorem appliedAll_definitions {rootName key : Option Text} {value : Option Text} {list : List XmlNode}
    {dm dm' : DataModel}
    (h : Applied dmPrefix files limit
      (processCommand dmPrefix limit rootName key (.node "DefineParameters".toList value (some list)) dm).run
      (0, dm')) :
    ∃ overwrite configKey listDef,
      list.foldl (Command.readNode "ParameterList".toList) ⟨false, key, none⟩ =
          ⟨overwrite, some configKey, some listDef⟩ ∧
        AppliedAll dmPrefix files limit (processDefinition dmPrefix limit rootName overwrite configKey)
          listDef dm dm' := by
  rw [processCommand, if_pos rfl] at h
  split at h
  · obtain ⟨hCode, -⟩ := Prod.mk.inj (applied_pure.mp h)
    exact absurd hCode (by decide)
  · obtain ⟨hCode, -⟩ := Prod.mk.inj (applied_pure.mp h)
    exact absurd hCode (by decide)
  · rename_i overwrite configKey listDef hRead
    exact ⟨overwrite, configKey, listDef, hRead, (applied_untilError_iff.mp h).1⟩

end Lists

section Documents

variable (dmPrefix files limit)

/-- Every command of the document, and of every pattern file that it names, has been applied to the
store without an error, and these are the changes of the store. -/
def AppliedConfig (fileName : Text) (dm dm' : DataModel) : Prop :=
  ∃ value commands,
    files fileName = some (.node "DataModelConfiguration".toList value (some commands)) ∧
      commands ≠ [] ∧
        AppliedAll dmPrefix files limit (processCommand dmPrefix limit none none) commands dm dm'

/-- The document is there, and one of its own commands fails. -/
def DocumentFails (fileName : Text) (dm : DataModel) : Prop :=
  ∃ root ∈ files fileName, ∃ code dm',
    Runs dmPrefix files limit (processDocument dmPrefix limit root dm).run (code, dm') ∧ code ≠ 0

/-- No pattern file to which the document comes is missing or fails. -/
def PatternsApply (fileName : Text) (dm : DataModel) : Prop :=
  ∀ root ∈ files fileName, ∀ call,
    Comes dmPrefix files limit (processDocument dmPrefix limit root dm).run call →
      ¬ Fails dmPrefix files limit call

/-- A failed extension leaves no trace and a successful one is complete. -/
def LeavesNoTrace (fileName : Text) (dm : DataModel) (res : Nat) (dm' : DataModel) : Prop :=
  (res ≠ 0 → dm' = dm) ∧ (res = 0 → AppliedConfig dmPrefix files limit fileName dm dm')

variable {dmPrefix files limit}

theorem appliedConfig_iff {fileName : Text} {dm dm' : DataModel} :
    AppliedConfig dmPrefix files limit fileName dm dm' ↔
      ∃ root, files fileName = some root ∧
        Applied dmPrefix files limit (processDocument dmPrefix limit root dm).run (0, dm') := by
  constructor
  · rintro ⟨value, commands, hFile, hSome, hAll⟩
    refine ⟨_, hFile, ?_⟩
    rw [processDocument, if_pos rfl]
    exact applied_untilError_iff.mpr ⟨hAll, fun hNil => absurd hNil hSome⟩
  · rintro ⟨root, hFile, h⟩
    have hError {dm : DataModel} (h : Applied dmPrefix files limit
        (pure (syntaxError, dm) : Processing (Nat × DataModel)).run (0, dm')) : False :=
      absurd (Prod.mk.inj (applied_pure.mp h)).1 (by decide)
    dsimp only [processDocument] at h
    split at h
    · rename_i rootName value commands
      split at h
      · rename_i hName
        obtain ⟨hAll, hNil⟩ := applied_untilError_iff.mp h
        refine ⟨value, commands, hName ▸ hFile, ?_, hAll⟩
        rintro rfl
        exact absurd (hNil rfl) (by decide)
      · exact (hError h).elim
    · exact (hError h).elim

theorem processConfig_cases {depth : Nat} {fileName : Text} {disk : Disk} {dm dm' : DataModel} {res : Nat}
    (h : processConfig dmPrefix files limit depth fileName disk dm = some (res, dm')) :
    (files fileName = none ∧ res = syntaxError ∧ dm' = dm) ∨
      ∃ root store, files fileName = some root ∧
        Runs dmPrefix files limit (processDocument dmPrefix limit root dm).run (res, store) ∧
          (res = 0 ∧ dm' = store ∨ res ≠ 0 ∧ restore dmPrefix disk store = some dm') := by
  rw [processConfig] at h
  split at h
  · rename_i hFile
    obtain ⟨rfl, rfl⟩ := Prod.mk.inj (Option.some.inj h)
    exact .inl ⟨hFile, rfl, rfl⟩
  · rename_i root hFile
    obtain ⟨⟨code, store⟩, hRun, hRest⟩ := Option.bind_eq_some_iff.mp h
    have hRuns := runs_of_runM hRun
    refine .inr ⟨root, store, hFile, ?_⟩
    dsimp only at hRest
    split at hRest
    · rename_i hCode
      obtain ⟨rfl, rfl⟩ := Prod.mk.inj (Option.some.inj hRest)
      exact ⟨hCode ▸ hRuns, .inl ⟨rfl, rfl⟩⟩
    · rename_i hCode
      obtain ⟨restored, hRestore, hRest⟩ := Option.bind_eq_some_iff.mp hRest
      obtain ⟨rfl, rfl⟩ := Prod.mk.inj (Option.some.inj hRest)
      exact ⟨hRuns, .inr ⟨hCode, hRestore⟩⟩

/-- The saved store is given back where its file carries every parameter as it is. -/
theorem restore_eq_some_iff {disk : Disk} {dm store : DataModel}
    (hForm : ∀ param ∈ dm, ParameterWellFormed dmPrefix param)
    (hSaved : disk.obj = some (writeParameters dmPrefix dm)) :
    restore dmPrefix disk store = some dm ↔ ∀ param ∈ dm, RestorableParameter dmPrefix param := by
  have hFields {loaded : DataModel} {file : Text} {code : Nat}
      (hRead : readFileParameters dmPrefix false file = some (code, loaded)) :
      ∀ param ∈ loaded, HasFields dmPrefix param := fun param hMem =>
    (readable_of_mem_readFileParameters hRead param hMem).toHasFields
  obtain ⟨loaded, hFile⟩ := exists_readFileParameters dmPrefix false (writeParameters dmPrefix dm)
  generalize (if !false && !(readLines (.open (writeParameters dmPrefix dm))).2.crcOK then 2 else 0) = res at hFile
  have hRestore : restore dmPrefix disk store =
      if res = 0 then some loaded else (readStore dmPrefix disk.backup loaded).map Prod.snd := by
    rw [restore, hSaved, readStore, hFile]
    rfl
  constructor
  · intro hSame
    rw [hRestore] at hSame
    split at hSame
    · obtain rfl := Option.some.inj hSame
      exact restorable_of_reload hForm (hFields hFile) hFile
    · rename_i hFailed
      obtain ⟨⟨code, dm⟩, hBackup, rfl⟩ := Option.map_eq_some_iff.mp hSame
      cases hText : disk.backup with
      | none =>
        rw [hText] at hBackup
        obtain ⟨-, rfl⟩ := Prod.mk.inj (Option.some.inj hBackup)
        exact restorable_of_reload hForm (hFields hFile) hFile
      | some text =>
        -- the lines of parameters that came from a file pass the check of the other one
        rw [hText] at hBackup
        have hReload := reload_readableParameters hForm (readable_of_mem_readFileParameters hBackup)
        exact absurd (Prod.mk.inj (Option.some.inj (hFile.symm.trans hReload))).1 hFailed
  · intro hRestorable
    obtain ⟨hCode, rfl⟩ := Prod.mk.inj (Option.some.inj
      (hFile.symm.trans (reload_restorableParameters hForm hRestorable)))
    rw [hRestore, if_pos hCode]

/-- A failed extension leaves a trace where the file does not carry the store, and a successful one hides the
errors of pattern files. -/
theorem leavesNoTrace_iff {depth : Nat} {fileName : Text} {disk : Disk} {dm dm' : DataModel} {res : Nat}
    (hForm : ∀ param ∈ dm, ParameterWellFormed dmPrefix param)
    (hSaved : disk.obj = some (writeParameters dmPrefix dm))
    (hReturn : processConfig dmPrefix files limit depth fileName disk dm = some (res, dm')) :
    LeavesNoTrace dmPrefix files limit fileName dm res dm' ↔
      (DocumentFails dmPrefix files limit fileName dm → ∀ param ∈ dm, RestorableParameter dmPrefix param) ∧
        (¬ DocumentFails dmPrefix files limit fileName dm → PatternsApply dmPrefix files limit fileName dm) := by
  obtain ⟨hNone, rfl, rfl⟩ | ⟨root, store, hFile, hRuns, hEnd⟩ := processConfig_cases hReturn
  · have hMissing {root : XmlNode} (hMem : root ∈ files fileName) : False := by
      rw [hNone] at hMem
      cases hMem
    refine iff_of_true ⟨fun _ => rfl, fun hCode => absurd hCode (by decide)⟩ ⟨?_, ?_⟩
    · rintro ⟨root, hMem, -⟩
      exact (hMissing hMem).elim
    · exact fun _ root hMem => (hMissing hMem).elim
  · have hOwn : DocumentFails dmPrefix files limit fileName dm ↔ res ≠ 0 := by
      constructor
      · rintro ⟨other, hOther, code, dm'', hRuns', hCode⟩
        obtain rfl := Option.some.inj (hFile.symm.trans hOther)
        rwa [← (Prod.mk.inj (hRuns'.unique hRuns)).1]
      · exact fun hCode => ⟨root, hFile, res, store, hRuns, hCode⟩
    have hPatterns : PatternsApply dmPrefix files limit fileName dm ↔
        Applied dmPrefix files limit (processDocument dmPrefix limit root dm).run (res, store) := by
      rw [applied_iff hRuns]
      constructor
      · exact fun h => h root hFile
      · intro h other hOther
        obtain rfl := Option.some.inj (hFile.symm.trans hOther)
        exact h
    rw [hOwn, hPatterns, LeavesNoTrace, appliedConfig_iff]
    obtain ⟨rfl, rfl⟩ | ⟨hCode, hRestore⟩ := hEnd
    · simp only [ne_eq, not_true_eq_false, false_implies, true_and, not_false_eq_true, true_implies]
      constructor
      · rintro ⟨other, hOther, hApplied⟩
        obtain rfl := Option.some.inj (hFile.symm.trans hOther)
        exact hApplied
      · exact fun h => ⟨root, hFile, h⟩
    · simp only [ne_eq, hCode, not_false_eq_true, true_implies, false_implies, not_true_eq_false, and_true]
      rw [← restore_eq_some_iff hForm hSaved, hRestore, Option.some.injEq]

section Samples

def leaf (name value : String) : XmlNode := .node name.toList (some value.toList) none

def branch (name : String) (children : List XmlNode) : XmlNode := .node name.toList none (some children)

/-- A command that defines one parameter. -/
def defineCommand (attributes : List XmlNode) : XmlNode :=
  branch "DefineParameters" [leaf "ConfigKey" "key",
    branch "ParameterList" [branch "ParameterDefinitionStruct" attributes]]

/-- One document defines a parameter, another one names a pattern with it, and the third one defines a parameter
that is defined already. So does the pattern. -/
def sampleFiles : Files := fun fileName =>
  if fileName = "plain.xml".toList then
    some (branch "DataModelConfiguration" [defineCommand [leaf "Name" "Device.Port"]])
  else if fileName = "pattern.xml".toList then
    some (branch "DataModelConfiguration"
      [defineCommand [leaf "Name" "Device.Port", leaf "Pattern" "Link"]])
  else if fileName = "fails.xml".toList then
    some (branch "DataModelConfiguration" [defineCommand [leaf "Name" "Device."]])
  else if fileName = "DMConfLink.xml".toList then some (defineCommand [leaf "Name" "Device."])
  else none

def rootModel : DataModel := [ObjectCall.sampleNode "Device.".toList false]

def rootDisk : Disk := ⟨some (writeParameters "Device.".toList rootModel), none⟩

theorem wellFormed_rootModel : ∀ param ∈ rootModel, ParameterWellFormed "Device.".toList param := by
  have hReload : ∀ param ∈ rootModel, Reloadable "Device.".toList param := by decide +kernel
  exact fun param hMem => (hReload param hMem).form

def portModel : DataModel :=
  rootModel ++ [{ newDefinedParameter "Device.Port".toList .undefined none false with
    maxValue := 0, configKey := some "key".toList }]

theorem leavesNoTrace_plain :
    LeavesNoTrace "Device.".toList sampleFiles 1 "plain.xml".toList rootModel 0 portModel ↔
      (DocumentFails "Device.".toList sampleFiles 1 "plain.xml".toList rootModel →
          ∀ param ∈ rootModel, RestorableParameter "Device.".toList param) ∧
        (¬ DocumentFails "Device.".toList sampleFiles 1 "plain.xml".toList rootModel →
          PatternsApply "Device.".toList sampleFiles 1 "plain.xml".toList rootModel) :=
  leavesNoTrace_iff wellFormed_rootModel rfl
    (show processConfig _ sampleFiles 1 1 _ rootDisk rootModel = _ by decide +kernel)

def linkCall : PatternCall := ⟨"Device.Port".toList, "Link".toList, "key".toList, portModel⟩

/-- The root was changed and pushed, and its state is saved with two digits. -/
def pushedModel : DataModel :=
  rootModel.map fun param => { param with state := ⟨true, false, false, false, true⟩ }

def changedModel : DataModel :=
  rootModel.map fun param => { param with state := ⟨true, false, false, false, false⟩ }

/-- The file of the pattern holds a definition that fails, and the extension returns zero. The other document
fails, and the state of the root is not given back. -/
theorem pattern_error_hidden :
    (processConfig "Device.".toList sampleFiles 1 2 "pattern.xml".toList rootDisk rootModel =
        some (0, portModel) ∧
      ¬ LeavesNoTrace "Device.".toList sampleFiles 1 "pattern.xml".toList rootModel 0 portModel) ∧
    processConfig "Device.".toList sampleFiles 1 1 "fails.xml".toList
        ⟨some (writeParameters "Device.".toList pushedModel), none⟩ pushedModel =
        some (alreadyDefined, changedModel) ∧
      ¬ LeavesNoTrace "Device.".toList sampleFiles 1 "fails.xml".toList pushedModel alreadyDefined changedModel := by
  refine ⟨⟨by decide +kernel, fun hTrace => ?_⟩, by decide +kernel, fun hTrace => ?_⟩
  · obtain ⟨root, hFile, hApplied⟩ := appliedConfig_iff.mp (hTrace.2 rfl)
    obtain rfl : root = branch "DataModelConfiguration"
        [defineCommand [leaf "Name" "Device.Port", leaf "Pattern" "Link"]] := (Option.some.inj hFile).symm
    have hFirst : firstCall (processDocument "Device.".toList 1 (branch "DataModelConfiguration"
        [defineCommand [leaf "Name" "Device.Port", leaf "Pattern" "Link"]]) rootModel).run =
          some linkCall := by decide +kernel
    have hRun : ((patternCommand "Device.".toList 1 linkCall (defineCommand [leaf "Name" "Device."])).run.runM
        (processPattern "Device.".toList sampleFiles 1 0)).join = some (alreadyDefined, portModel) := by
      decide +kernel
    exact hApplied.not_fails (comes_of_firstCall hFirst)
      ⟨alreadyDefined, portModel, runs_of_runM hRun, by decide⟩
  · exact absurd (hTrace.1 (by decide)) (by decide)

end Samples

end Documents

end Tr069Agent.Engine.DataModelConfiguration
