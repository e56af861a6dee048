import Tr069Agent.Engine.DataModelConfiguration

/-! # What every definition preserves

A property of the store that each single definition and each deletion preserves is preserved by whole
documents, with the files of the patterns that they name.
-/

namespace Tr069Agent.Engine.DataModelConfiguration

open Library

set_option autoImplicit false

section Single

variable {d : Definition} {param param' : Parameter} {dm : DataModel}

theorem configKey_addConfigKey (param : Parameter) (configKey : Text) :
    (param.addConfigKey configKey).configKey =
      param.configKey.bind fun csl => addToCommaSeparatedList (some csl) configKey := by
  rw [Parameter.addConfigKey]
  split
  · rename_i hSome
    obtain ⟨csl, hKey⟩ := Option.isSome_iff_exists.mp hSome
    rw [hKey, Option.bind_some]
  · rename_i hNone
    rw [Option.not_isSome_iff_eq_none.mp hNone, Option.bind_none]

@[simp]
theorem name_addConfigKey (param : Parameter) (configKey : Text) :
    (param.addConfigKey configKey).name = param.name := by
  rw [Parameter.addConfigKey]
  split <;> rfl

theorem name_setDefinition {longName configKey : Text} {definition : Option Text} {prm : Option Parameter}
    (h : ∀ p ∈ prm, p.name = longName) : (d.setDefinition longName configKey definition prm).name = longName := by
  cases prm with
  | none => rfl
  | some p =>
    rw [Definition.setDefinition, name_addConfigKey]
    have hName := h p rfl
    split <;> split <;> exact hName

theorem configKey_setDefinition {longName configKey : Text} {definition : Option Text} {prm : Option Parameter} :
    (d.setDefinition longName configKey definition prm).configKey =
      match prm with
      | none => some configKey
      | some p => (p.addConfigKey configKey).configKey := by
  cases prm with
  | none => rfl
  | some p =>
    rw [Definition.setDefinition]
    simp only [configKey_addConfigKey]
    split <;> split <;> rfl

theorem setStorage_keeps :
    (d.setStorage param).name = param.name ∧ (d.setStorage param).configKey = param.configKey := by
  unfold Definition.setStorage
  grind

theorem setAttributes_keeps :
    (d.setAttributes param).name = param.name ∧ (d.setAttributes param).configKey = param.configKey := by
  unfold Definition.setAttributes
  grind

theorem setPattern_keeps (pattern : Option Text) :
    (d.setPattern param pattern).1.name = param.name ∧
      (d.setPattern param pattern).1.configKey = param.configKey := by
  unfold Definition.setPattern
  grind

theorem defineParameter_eq {dmPrefix longName configKey : Text} {definition pattern left : Option Text}
    {dm' : DataModel} (h : defineParameter dmPrefix d longName configKey definition pattern dm = some (dm', left)) :
    ∃ param, param.name = longName ∧
      (dm.getParameter longName = none ∧ param.configKey = some configKey ∧
          dm' = (parentNames dmPrefix longName).foldl (ensureNode configKey) dm ++ [param] ∨
        ∃ prm, dm.getParameter longName = some prm ∧ param.configKey = (prm.addConfigKey configKey).configKey ∧
          dm' = (parentNames dmPrefix longName).foldl (ensureNode configKey) (dm.modify longName fun _ => param)) := by
  unfold defineParameter at h
  split at h
  · cases h
  have hFound : ∀ p ∈ dm.getParameter longName, p.name = longName := fun p hMem => DataModel.name_of_getParameter hMem
  generalize dm.getParameter longName = prm at h hFound ⊢
  extract_lets _ param at h
  obtain ⟨hStoredName, hStoredKey⟩ : param.name = _ ∧ param.configKey = _ := setStorage_keeps
  obtain ⟨hGivenName, hGivenKey⟩ : (d.setAttributes param).name = _ ∧ _ := setAttributes_keeps
  obtain ⟨hName, hKey⟩ : (d.setPattern (d.setAttributes param) pattern).1.name = _ ∧ _ := setPattern_keeps pattern
  obtain ⟨rfl, -⟩ := Prod.mk.inj (Option.some.inj h)
  rw [configKey_setDefinition] at hStoredKey
  refine ⟨(d.setPattern (d.setAttributes param) pattern).1, ?_, ?_⟩
  · rw [hName, hGivenName, hStoredName]
    exact name_setDefinition hFound
  · cases prm with
    | none => exact .inl ⟨rfl, (hKey.trans hGivenKey).trans hStoredKey, rfl⟩
    | some prm => exact .inr ⟨prm, rfl, (hKey.trans hGivenKey).trans hStoredKey, rfl⟩

theorem mem_names_ensureNode {configKey name x : Text} :
    x ∈ (ensureNode configKey dm name).names ↔ x ∈ dm.names ∨ x = name := by
  unfold ensureNode
  split
  · rename_i hFound
    rw [DataModel.names_modify fun p hName => by rw [name_addConfigKey, hName], or_iff_left_of_imp]
    rintro rfl
    obtain ⟨prm, hPrm⟩ := Option.isSome_iff_exists.mp hFound
    exact DataModel.mem_names_of_getParameter hPrm
  · simp [DataModel.names, newDefinedParameter]

theorem mem_names_ensureNodes {configKey x : Text} {nodes : List Text} :
    x ∈ DataModel.names (nodes.foldl (ensureNode configKey) dm) ↔ x ∈ dm.names ∨ x ∈ nodes := by
  induction nodes generalizing dm with
  | nil => simp
  | cons name nodes ih => rw [List.foldl_cons, ih, mem_names_ensureNode, List.mem_cons, or_assoc]

theorem length_lt_of_mem_parentNames {dmPrefix longName name : Text} (h : name ∈ parentNames dmPrefix longName) :
    name.length < longName.length := by
  obtain ⟨k, hK, rfl⟩ := List.mem_map.mp h
  have := List.mem_range.mp (List.mem_filter.mp hK).1
  rw [List.length_take]
  omega

theorem withoutConfigKey_cases {configKey : Option Text} {isNode : Bool} {kept : Option Parameter}
    (h : param.withoutConfigKey configKey isNode = some kept) :
    ∃ csl, param.configKey = some csl ∧
      (kept = none ∨ ∃ left, kept = some { param with configKey := some left }) := by
  unfold Parameter.withoutConfigKey at h
  split at h
  · cases h
  · rename_i csl hKey
    obtain rfl := Option.some.inj h
    exact ⟨csl, hKey, .inl rfl⟩
  · rename_i csl key hKey
    refine ⟨csl, hKey, ?_⟩
    dsimp only at h
    split at h
    · split at h
      · exact .inl (Option.some.inj h).symm
      · exact .inr ⟨_, (Option.some.inj h).symm⟩
    · cases h

/-- The name of a node selects what lies below it. -/
def Selects (name prmName : Text) : Prop :=
  name ≠ [] ∧ if isNodeName name then name <+: prmName else prmName = name

theorem deleteParameters_cases (prm : Parameter) (rest : DataModel) (name : Text) (configKey : Option Text) :
    (Selects name prm.name → prm.withoutConfigKey (configKey.map decoded) (isNodeName name) = none) ∧
        (DataModel.deleteParameters name configKey (prm :: rest)).1 = prm :: (rest.deleteParameters name configKey).1 ∨
      Selects name prm.name ∧
        ∃ kept, prm.withoutConfigKey (configKey.map decoded) (isNodeName name) = some kept ∧
          (DataModel.deleteParameters name configKey (prm :: rest)).1 = kept.toList ++
            (if isNodeName name then (rest.deleteParameters name configKey).1 else rest) := by
  have hSelects : Selects name prm.name ↔
      name ≠ [] ∧ (if isNodeName name then name.isPrefixOf prm.name else decide (prm.name = name)) = true := by
    rw [Selects]
    split <;> simp
  rw [DataModel.deleteParameters]
  dsimp only
  split
  · rename_i kept hKept
    obtain ⟨hSelected, hWithout⟩ := Option.ite_none_right_eq_some.mp hKept
    refine .inr ⟨hSelects.mpr hSelected, kept, hWithout, ?_⟩
    split <;> rfl
  · rename_i hNone
    refine .inl ⟨fun hSelected => ?_, rfl⟩
    rwa [if_pos (hSelects.mp hSelected)] at hNone

end Single

/-- What defining one parameter and deleting parameters keep. -/
structure Stable (dmPrefix : Text) (keep : DataModel → Prop) : Prop where
  define {d : Definition} {longName configKey : Text} {definition pattern left : Option Text} {dm dm' : DataModel} :
    keep dm → defineParameter dmPrefix d longName configKey definition pattern dm = some (dm', left) → keep dm'
  delete {dm : DataModel} (name : Text) (configKey : Option Text) :
    keep dm → keep (dm.deleteParameters name configKey).1

/-- The processing leaves what is kept, if the patterns do. -/
def Keeps {α : Type} (keep : DataModel → Prop) (store : α → DataModel) (p : Processing α) : Prop :=
  p.run.Ensures (fun call dm => keep call.store → keep dm) fun result => ∀ r ∈ result, keep (store r)

section Rules

variable {α β : Type} {keep : DataModel → Prop} {store : α → DataModel} {storeToo : β → DataModel}

theorem keeps_pure {r : α} (h : keep (store r)) : Keeps keep store (pure r) := by
  rintro r' hMem
  obtain rfl := Option.some.inj hMem
  exact h

theorem keeps_failure : Keeps keep store (failure : Processing α) := by
  rintro r hMem
  cases hMem

theorem Keeps.bind {p : Processing α} {f : α → Processing β} (h : Keeps keep store p)
    (hNext : ∀ r, keep (store r) → Keeps keep storeToo (f r)) : Keeps keep storeToo (p >>= f) := by
  refine Lookup.Ensures.bind h fun result hResult => ?_
  cases result with
  | none => exact fun r hMem => nomatch hMem
  | some r => exact hNext r (hResult r rfl)

theorem keeps_pattern {call : PatternCall} (h : keep call.store) :
    Keeps keep id (OptionT.lift (Lookup.get call) : Processing DataModel) := by
  rintro answer hAnswer r hMem
  obtain rfl := Option.some.inj hMem
  exact hAnswer h

end Rules

section Processing

variable {dmPrefix : Text} {keep : DataModel → Prop} (hStable : Stable dmPrefix keep) {dm : DataModel}
include hStable

theorem keeps_processParameter (h : keep dm) (d : Definition) (overwrite : Bool) (configKey longName : Text)
    (definition pattern : Option Text) :
    Keeps keep (fun r => r.2.1)
      (processParameter dmPrefix d overwrite configKey longName definition pattern dm) := by
  unfold processParameter
  split
  · exact keeps_pure h
  · split
    · exact keeps_failure
    · rename_i dm' hDefine
      exact keeps_pure (hStable.define h hDefine)
    · rename_i dm' left hDefine
      refine (keeps_pattern ?_).bind fun r hR => keeps_pure hR
      exact hStable.define h hDefine

theorem keeps_processEach (d : Definition) (overwrite : Bool) (configKey paramName : Text)
    (definition : Option Text) (target : Target) (limit : Nat) (foundParamName pattern : Option Text)
    (h : keep dm) :
    Keeps keep Prod.snd
      (processEach dmPrefix d overwrite configKey paramName definition target limit foundParamName pattern dm) := by
  induction limit generalizing foundParamName pattern dm with
  | zero => exact keeps_failure
  | succ limit ih =>
    unfold processEach
    split
    · exact keeps_pure h
    · refine (keeps_processParameter hStable h _ _ _ _ _ _).bind ?_
      rintro ⟨res, dm', left⟩ hKept
      dsimp only
      split
      · exact keeps_pure hKept
      · exact ih _ _ hKept

theorem keeps_processDefinition (limit : Nat) (rootName : Option Text) (overwrite : Bool) (configKey : Text)
    (nodeDef : XmlNode) (h : keep dm) :
    Keeps keep Prod.snd (processDefinition dmPrefix limit rootName overwrite configKey nodeDef dm) := by
  unfold processDefinition
  split
  · split
    · split
      · exact keeps_failure
      · split
        · exact keeps_pure h
        · dsimp only
          split
          · refine (keeps_processParameter hStable h _ _ _ _ _ _).bind ?_
            rintro ⟨res, dm', left⟩ hKept
            exact keeps_pure hKept
          · exact keeps_processEach hStable _ _ _ _ _ _ _ _ _ h
    · exact keeps_pure h
  · exact keeps_pure h

theorem keep_processUndef (rootName configKey : Option Text) (nodeName : XmlNode) (h : keep dm) :
    keep (processUndef rootName configKey nodeName dm).2 := by
  unfold processUndef
  split
  · rename_i nodeTag paramName children
    have hDelete := hStable.delete (rootName.getD [] ++ paramName) configKey h
    split
    · split
      · rename_i dm' hResult
        rw [hResult] at hDelete
        exact hDelete
      · rename_i dm' hResult
        rw [hResult] at hDelete
        exact hDelete
    · exact h
  · exact h

omit hStable in
theorem keeps_untilError {process : XmlNode → DataModel → Processing (Nat × DataModel)}
    (hProcess : ∀ node dm, keep dm → Keeps keep Prod.snd (process node dm)) (nodes : List XmlNode) (res : Nat)
    (h : keep dm) : Keeps keep Prod.snd (untilError process nodes res dm) := by
  induction nodes generalizing res dm with
  | nil => exact keeps_pure h
  | cons node nodes ih =>
    refine (hProcess node dm h).bind ?_
    rintro ⟨code, dm'⟩ hKept
    dsimp only
    split
    · exact keeps_pure hKept
    · exact ih _ hKept

theorem keeps_processCommand (limit : Nat) (rootName configKey : Option Text) (cmdNode : XmlNode) (h : keep dm) :
    Keeps keep Prod.snd (processCommand dmPrefix limit rootName configKey cmdNode dm) := by
  unfold processCommand
  split
  · split
    · split
      · exact keeps_pure h
      · exact keeps_pure h
      · exact keeps_untilError (fun node dm h => keeps_processDefinition hStable _ _ _ _ node h) _ _ h
    · split
      · split
        · exact keeps_pure h
        · refine keeps_untilError (fun node dm h => ?_) _ _ h
          exact keeps_pure (keep_processUndef hStable rootName _ node h)
      · exact keeps_pure h
  · exact keeps_pure h

theorem keeps_processDocument (limit : Nat) (root : XmlNode) (h : keep dm) :
    Keeps keep Prod.snd (processDocument dmPrefix limit root dm) := by
  unfold processDocument
  split
  · split
    · exact keeps_untilError (fun node dm h => keeps_processCommand hStable _ _ _ node h) _ _ h
    · exact keeps_pure h
  · exact keeps_pure h

variable {files : Files} {limit : Nat}

theorem keep_processPattern {depth : Nat} {call : PatternCall} (h : keep call.store)
    (hPattern : processPattern dmPrefix files limit depth call = some dm) : keep dm := by
  induction depth generalizing call dm with
  | zero => cases hPattern
  | succ depth ih =>
    unfold processPattern at hPattern
    split at hPattern
    · obtain rfl := Option.some.inj hPattern
      exact h
    · obtain rfl := Option.some.inj hPattern
      exact h
    · obtain ⟨⟨code, dm'⟩, hJoin, rfl⟩ := Option.map_eq_some_iff.mp hPattern
      have hRun := Option.join_eq_some_iff.mp hJoin
      have hKept := (keeps_processCommand hStable limit (some call.rootName) (some call.configKey) _ h).runM
        (fun other value hValue hOther => ih hOther hValue) hRun
      exact hKept _ rfl

/-- What the processing leaves with the patterns of the files is kept. -/
theorem keep_of_run {p : Processing (Nat × DataModel)} {depth res : Nat} (h : Keeps keep Prod.snd p)
    (hRun : (p.run.runM (processPattern dmPrefix files limit depth)).join = some (res, dm)) : keep dm := by
  have hResult := Option.join_eq_some_iff.mp hRun
  exact h.runM (fun call value hValue hStore => keep_processPattern hStable hStore hValue) hResult _ rfl

end Processing

end Tr069Agent.Engine.DataModelConfiguration
