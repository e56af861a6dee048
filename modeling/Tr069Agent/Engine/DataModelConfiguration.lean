import Tr069Agent.Data.ParameterStorage
import Tr069Agent.Engine.DataModel
import Tr069Agent.Engine.StatisticsModule
import Tr069Agent.Library.Lookup

/-! # Extensions of the data model

A configuration document defines parameters and undefines them again. A definition may name a pattern,
whose file holds a command that is processed below the parameter defined.
-/

namespace Tr069Agent.Engine

open Library Library.Lines Data

set_option autoImplicit false

section ConfigKeys

def belongsToCommaSeparatedList (csl : Option Text) (ch : Text) : Bool :=
  csl.any fun csl => (splitCommaSeparatedList csl).contains ch

def addToCommaSeparatedList (csl : Option Text) (ch : Text) : Option Text :=
  if belongsToCommaSeparatedList csl ch then csl else some (csl.getD [] ++ ',' :: ch)

/-- Parameters that are not an extension have no key and get none. -/
def Parameter.addConfigKey (param : Parameter) (configKey : Text) : Parameter :=
  if param.configKey.isSome then
    { param with configKey := addToCommaSeparatedList param.configKey configKey }
  else param

def newDefinedParameter (name : Text) (type : ParameterType) (definition : Option Text) (hidden : Bool) :
    Parameter where
  name
  type
  minValue := 0
  maxValue := ofUint uintMax
  storageMode := .dmOnly
  writable := false
  immediateChanges := 0
  accessList := some (if hidden then [Parameter.hiddenName] else defaultAccessList)
  notification := .off
  mandatoryNotification := false
  activeNotificationDenied := false
  loadingMode := 0
  state := .initial
  backValue := none
  value := none
  configKey := none
  definition

/-- The keys that are left: for one parameter the first key of that name is removed, and below a node,
where a parameter is looked at until the key is not there any more, all of them. -/
def keysWithout (configKey : Text) (isNode : Bool) (keys : List Text) : List Text :=
  if isNode then keys.filter (· ≠ configKey) else keys.erase configKey

/-- What `DM_ENG_ParameterData_deleteParameters` makes of one parameter that it selects by its name: none
when it does not have the key, and otherwise the parameter that stays. -/
def Parameter.withoutConfigKey (configKey : Option Text) (isNode : Bool) (prm : Parameter) :
    Option (Option Parameter) :=
  match prm.configKey, configKey with
  | none, _ => none
  | some _, none => some none
  | some csl, some configKey =>
    let keys := splitCommaSeparatedList csl
    if configKey ∈ keys then
      match buildCommaSeparatedList (some (keysWithout configKey isNode keys)) with
      | none => some none
      | some csl => some (some { prm with configKey := some csl })
    else none

/-- `DM_ENG_ParameterData_deleteParameters`, and whether a parameter was found. -/
def DataModel.deleteParameters (name : Text) (configKey : Option Text) : DataModel → DataModel × Bool
  | [] => ([], false)
  | prm :: rest =>
    let isNode := isNodeName name
    let selected := name ≠ [] ∧ if isNode then name.isPrefixOf prm.name else prm.name = name
    match if selected then prm.withoutConfigKey (configKey.map decoded) isNode else none with
    | some kept =>
      if isNode then (kept.toList ++ (deleteParameters name configKey rest).1, true)
      else (kept.toList ++ rest, true)
    | none =>
      let (rest, found) := deleteParameters name configKey rest
      (prm :: rest, found)

end ConfigKeys

/-- A node of a document as the parser gives it; `absent` is a missing node. -/
inductive XmlNode where
  | absent
  | node (name : Text) (value : Option Text) (children : Option (List XmlNode))

namespace DataModelConfiguration

def syntaxError : Nat := 9040
def alreadyDefined : Nat := 9041
def undefinedParameter : Nat := 9042
def configKeyMissing : Nat := 9043

def statVarPattern : Text := "StatVar".toList
def cumulStatVarPattern : Text := "CumulativeStatVar".toList
def triggerPattern : Text := "Trigger".toList
def recursivePattern : Text := "Recursive".toList

section Definitions

/-- What is read of a definition. -/
structure Definition where
  paramName : Option Text := none
  pattern : Option Text := none
  type : ParameterType := .undefined
  minValue : Int := 0
  maxValue : Int := 0
  writable : Bool := false
  writableDefined : Bool := false
  persistence : Nat := uintMax
  groupedData : Bool := false
  groupedDataDefined : Bool := false
  definition : Option Text := none
  definitionSpecified : Bool := false
  defaultValue : Option Text := none
  notification : Nat := NotificationMode.undefined.number
  accessList : Option Text := none

namespace Definition

/-- `DM_ENG_stringToType` leaves the bounds that its type does not use. -/
def setType (d : Definition) (type : ParameterType) (minValue maxValue : Int) : Definition :=
  match type with
  | .int | .uint | .any | .statistics => { d with type, minValue, maxValue }
  | .string => { d with type, minValue }
  | .long | .boolean | .date | .undefined | .other => { d with type }

/-- One attribute of a definition: none for a type without a text. -/
def readAttr (d : Definition) : XmlNode → Option Definition
  | .absent => some d
  | .node name value _ =>
    if name = "Name".toList then some { d with paramName := value }
    else if name = "Pattern".toList then some { d with pattern := value }
    else if name = "Type".toList then
      (value.bind ParameterType.stringToType).map fun (type, minValue, maxValue) =>
        d.setType type minValue maxValue
    else if name = "Writable".toList then
      some { d with writable := (value.bind writtenBool).getD d.writable, writableDefined := true }
    else if name = "Persistence".toList then some { d with persistence := uintOr d.persistence value }
    else if name = "GroupedData".toList then
      some { d with groupedData := (value.bind writtenBool).getD d.groupedData, groupedDataDefined := true }
    else if name = "Source".toList then some { d with definition := value }
    else if name = "Definition".toList then some { d with definition := value, definitionSpecified := true }
    else if name = "Default".toList then some { d with defaultValue := value }
    else if name = "Notification".toList then some { d with notification := uintOr d.notification value }
    else if name = "AccessList".toList then some { d with accessList := value }
    else some d

/-- The fields of a new parameter, or those of an old one that are specified. -/
def setDefinition (d : Definition) (longName configKey : Text) (definition : Option Text) :
    Option Parameter → Parameter
  | none =>
    { newDefinedParameter longName d.type definition false with
      minValue := d.minValue
      maxValue := d.maxValue
      configKey := some configKey }
  | some prm =>
    let prm :=
      if d.type = .undefined then prm
      else { prm with type := d.type, minValue := d.minValue, maxValue := d.maxValue }
    let prm := if definition.isSome then { prm with definition } else prm
    prm.addConfigKey configKey

/-- The numbers above 3 are those of the modes of the system whose instances are loaded. -/
def setStorage (d : Definition) (prm : Parameter) : Parameter :=
  let prm := if d.groupedDataDefined then { prm with loadingMode := d.groupedData.toNat } else prm
  if d.persistence = uintMax then
    if d.definitionSpecified then { prm with storageMode := .computed } else prm
  else if d.persistence ≤ 3 then { prm with storageMode := .ofNumber d.persistence }
  else
    { prm with
      loadingMode := if prm.loadingMode / 2 % 2 = 1 then prm.loadingMode else prm.loadingMode + 2
      storageMode := .ofNumber (d.persistence - 3) }

def setAttributes (d : Definition) (prm : Parameter) : Parameter :=
  let prm :=
    if d.writableDefined then
      { prm with
        writable := d.writable
        immediateChanges := if d.writable then 1 else prm.immediateChanges }
    else prm
  let prm := if d.defaultValue.isSome then { prm with value := d.defaultValue.map decoded } else prm
  let prm :=
    if d.accessList.isSome then { prm with accessList := d.accessList.map splitCommaSeparatedList } else prm
  if d.notification = NotificationMode.undefined.number then prm
  else { prm with notification := .ofNumber d.notification }

/-- The patterns that need no file, and the pattern that is left. -/
def setPattern (d : Definition) (prm : Parameter) : Option Text → Parameter × Option Text
  | none => (prm, none)
  | some pattern =>
    let sign (immediateChanges : Int) := if prm.writable then prm else { prm with immediateChanges }
    if pattern = statVarPattern then (sign 1, none)
    else if pattern = cumulStatVarPattern then (sign 2, none)
    else if pattern = triggerPattern then
      -- "Default/Trigger": the value begins with the default
      (if !prm.writable && d.defaultValue.isSome then
        { sign 3 with backValue := prm.value, value := prm.value.map (·.takeWhile (· ≠ '/')) }
      else sign 3, none)
    else (prm, some pattern)

end Definition

/-- The nodes above a parameter, from the top. -/
def parentNames (dmPrefix longName : Text) : List Text :=
  ((List.range (longName.length - 1)).filter fun k => dmPrefix.length ≤ k && longName[k]? = some '.').map
    fun k => longName.take (k + 1)

def ensureNode (configKey : Text) (dm : DataModel) (name : Text) : DataModel :=
  if (dm.getParameter name).isSome then dm.modify name (·.addConfigKey configKey)
  else dm ++ [{ newDefinedParameter name .any none false with configKey := some configKey }]

/-- The parameter is defined under its name, and the nodes above it; none for an empty name, which is
read beyond its end. -/
def defineParameter (dmPrefix : Text) (d : Definition) (longName configKey : Text)
    (definition pattern : Option Text) (dm : DataModel) : Option (DataModel × Option Text) :=
  if longName = [] then none
  else
    let prm := dm.getParameter longName
    let param := d.setStorage (d.setDefinition longName configKey (definition.map decoded) prm)
    let (param, pattern) := d.setPattern (d.setAttributes param) pattern
    let dm := if prm.isSome then dm.modify longName fun _ => param else dm
    let dm := (parentNames dmPrefix longName).foldl (ensureNode configKey) dm
    some (if prm.isSome then dm else dm ++ [param], pattern)

end Definitions

section Names

/-- The names that a definition is for: one, those at a node and below it, or one for each statistic
variable below the root. -/
inductive Target where
  | plain (longName : Text)
  | recursive (nodeName : Text)
  | variables (rootName : Text)

/-- The end of the name of the root, which is a dot for a node. -/
def shortRootName (rootName : Text) : Text :=
  if '.' ∈ rootName then
    if isNodeName rootName then ['.'] else (rootName.reverse.takeWhile (· ≠ '.')).reverse
  else rootName

def replaceFirst (pattern replacement : Text) : Text → Text
  | [] => []
  | c :: text =>
    if pattern.isPrefixOf (c :: text) then replacement ++ (c :: text).drop pattern.length
    else c :: replaceFirst pattern replacement text

/-- A name up to its first wildcard, and the name from there on. -/
def splitWildcard (paramName : Text) : Text × Text :=
  (paramName.takeWhile (· ≠ '$'), paramName.dropWhile (· ≠ '$'))

def target (dmPrefix : Text) (rootName : Option Text) (paramName : Text) (pattern : Option Text) : Target :=
  let (before, wildcard) := splitWildcard paramName
  let named (longName : Text) :=
    if pattern = some recursivePattern ∧ isNodeName longName then Target.recursive longName
    else .plain longName
  match rootName with
  | none => named paramName
  | some rootName =>
    if "$0".toList.isPrefixOf wildcard then named (before ++ (rootName ++ wildcard.drop 2))
    else if "$1".toList.isPrefixOf wildcard then .variables rootName
    else named (getLongName dmPrefix paramName rootName)

namespace Target

def selects (target : Target) (prm : Parameter) : Bool :=
  match target with
  | .plain _ => false
  | .recursive nodeName => nodeName.isPrefixOf prm.name && !prm.name.contains '!'
  | .variables rootName =>
    rootName.isPrefixOf prm.name && !prm.name.contains '!' &&
      (!prm.writable && (prm.immediateChanges = 1 || prm.immediateChanges = 2))

/-- The next parameter for which the definition is made, after the last one found. -/
def next (target : Target) (foundParamName : Option Text) (dm : DataModel) : Option Text :=
  let rest : List Parameter :=
    match foundParamName with
    | none => dm
    | some foundParamName => (dm.dropWhile fun prm => prm.name ≠ foundParamName).tail
  (rest.find? fun prm => target.selects prm).map fun prm => prm.name

/-- The name that is defined for a parameter found, and the definition with the end of that name. -/
def instantiate (paramName : Text) (definition : Option Text) (foundParamName : Text) :
    Target → Text × Option Text
  | .variables rootName =>
    let (before, wildcard) := splitWildcard paramName
    let ending := foundParamName.drop rootName.length
    (rootName ++ (before ++ (ending ++ wildcard.drop 2)), definition.map (replaceFirst "$1".toList ending))
  | .plain _ | .recursive _ => (foundParamName, definition)

end Target

end Names

section Processing

/-- A pattern file is processed below `rootName`, in this store. -/
structure PatternCall where
  rootName : Text
  pattern : Text
  configKey : Text
  store : DataModel
  deriving DecidableEq

/-- The processing asks for the store that a pattern leaves; it comes to nothing where the source
leaves what is defined, or goes beyond a limit in a loop. -/
abbrev Processing := OptionT (Lookup PatternCall DataModel)

/-- A loop that ends at the first error. -/
def untilError (process : XmlNode → DataModel → Processing (Nat × DataModel)) :
    List XmlNode → Nat → DataModel → Processing (Nat × DataModel)
  | [], res, dm => pure (res, dm)
  | node :: nodes, _, dm => do
    let (res, dm) ← process node dm
    if res ≠ 0 then return (res, dm)
    untilError process nodes res dm

variable (dmPrefix : Text)

/-- One round of the loop of `_processDefinition`. -/
def processParameter (d : Definition) (overwrite : Bool) (configKey longName : Text)
    (definition pattern : Option Text) (dm : DataModel) : Processing (Nat × DataModel × Option Text) :=
  if (dm.getParameter longName).isSome && !overwrite then pure (alreadyDefined, dm, pattern)
  else
    match defineParameter dmPrefix d longName (decoded configKey) definition pattern dm with
    | none => failure
    | some (dm, none) => pure (0, dm, none)
    | some (dm, some pattern) => do
      let dm ← OptionT.lift (Lookup.get ⟨longName, pattern, configKey, dm⟩)
      return (0, dm, some pattern)

/-- The loop of `_processDefinition` over the parameters found. A pattern that needs no file is done
with in the first round. -/
def processEach (d : Definition) (overwrite : Bool) (configKey paramName : Text) (definition : Option Text)
    (target : Target) : Nat → Option Text → Option Text → DataModel → Processing (Nat × DataModel)
  | 0, _, _, _ => failure
  | limit + 1, foundParamName, pattern, dm =>
    match target.next foundParamName dm with
    | none => pure (0, dm)
    | some foundParamName => do
      let (longName, definition') := target.instantiate paramName definition foundParamName
      let (res, dm, pattern) ← processParameter dmPrefix d overwrite configKey longName definition' pattern dm
      if res ≠ 0 then return (res, dm)
      processEach d overwrite configKey paramName definition target limit (some foundParamName) pattern dm

def processDefinition (limit : Nat) (rootName : Option Text) (overwrite : Bool) (configKey : Text)
    (nodeDef : XmlNode) (dm : DataModel) : Processing (Nat × DataModel) :=
  match nodeDef with
  | .node name _ (some listAttr) =>
    if name = "ParameterDefinitionStruct".toList then
      match listAttr.foldlM Definition.readAttr {} with
      | none => failure
      | some d =>
        match d.paramName with
        | none => pure (syntaxError, dm)
        | some paramName =>
          let definition :=
            match rootName with
            | none => d.definition
            | some rootName => d.definition.map (replaceFirst "$0".toList (shortRootName rootName))
          match target dmPrefix rootName paramName d.pattern with
          | .plain longName => do
            let (res, dm, _) ←
              processParameter dmPrefix d overwrite configKey longName definition d.pattern dm
            return (res, dm)
          | target => processEach dmPrefix d overwrite configKey paramName definition target limit none d.pattern dm
    else pure (syntaxError, dm)
  | _ => pure (syntaxError, dm)

def processUndef (rootName configKey : Option Text) (nodeName : XmlNode) (dm : DataModel) : Nat × DataModel :=
  match nodeName with
  | .node nameTag (some paramName) _ =>
    if nameTag = "Name".toList then
      match dm.deleteParameters (rootName.getD [] ++ paramName) configKey with
      | (dm, true) => (0, dm)
      | (dm, false) => (undefinedParameter, dm)
    else (syntaxError, dm)
  | _ => (syntaxError, dm)

/-- What is read of a command. -/
structure Command where
  overwrite : Bool
  configKey : Option Text
  list : Option (List XmlNode)

def Command.readNode (listTag : Text) (cmd : Command) : XmlNode → Command
  | .absent => cmd
  | .node name value children =>
    if name = "Overwrite".toList then { cmd with overwrite := (value.bind writtenBool).getD cmd.overwrite }
    else if name = "ConfigKey".toList then { cmd with configKey := value }
    else if name = listTag then { cmd with list := children }
    else cmd

def processCommand (limit : Nat) (rootName configKey : Option Text) (cmdNode : XmlNode) (dm : DataModel) :
    Processing (Nat × DataModel) :=
  match cmdNode with
  | .node cmdName _ (some list) =>
    if cmdName = "DefineParameters".toList then
      match list.foldl (Command.readNode "ParameterList".toList) ⟨false, configKey, none⟩ with
      | ⟨_, none, _⟩ => pure (configKeyMissing, dm)
      | ⟨_, some _, none⟩ => pure (syntaxError, dm)
      | ⟨overwrite, some configKey, some listDef⟩ =>
        untilError (processDefinition dmPrefix limit rootName overwrite configKey) listDef syntaxError dm
    else if cmdName = "UndefineParameters".toList then
      match list.foldl (Command.readNode "ParameterNames".toList) ⟨false, configKey, none⟩ with
      | ⟨_, _, none⟩ => pure (syntaxError, dm)
      | ⟨overwrite, configKey, some listNames⟩ =>
        untilError (fun nodeName dm =>
          let (res, dm) := processUndef rootName configKey nodeName dm
          pure (if overwrite && res = undefinedParameter then 0 else res, dm)) listNames syntaxError dm
    else pure (syntaxError, dm)
  | _ => pure (syntaxError, dm)

/-- The commands of a document, of which the first node is given. -/
def processDocument (limit : Nat) (root : XmlNode) (dm : DataModel) : Processing (Nat × DataModel) :=
  match root with
  | .node rootName _ (some list) =>
    if rootName = "DataModelConfiguration".toList then
      untilError (processCommand dmPrefix limit none none) list syntaxError dm
    else pure (syntaxError, dm)
  | _ => pure (syntaxError, dm)

end Processing

section Files

/-- The first node of the document in a file, where there is one. -/
abbrev Files := Text → Option XmlNode

def patternFileName (pattern : Text) : Text := "DMConf".toList ++ (pattern ++ ".xml".toList)

variable (dmPrefix : Text) (files : Files) (limit : Nat)

/-- The command of a pattern file, below the root of the call. -/
def patternCommand (call : PatternCall) (cmdNode : XmlNode) : Processing (Nat × DataModel) :=
  processCommand dmPrefix limit (some call.rootName) (some call.configKey) cmdNode call.store

/-- `_processPattern`, with the depth to which patterns name others: the store that is left. -/
def processPattern : Nat → PatternCall → Option DataModel
  | 0, _ => none
  | depth + 1, call =>
    match files (patternFileName call.pattern) with
    | none => some call.store
    | some .absent => some call.store
    | some cmdNode =>
      -- the result of the command is not looked at
      ((patternCommand dmPrefix limit call cmdNode).run.runM (processPattern depth)).join.map Prod.snd

/-- `_readFileParameters` over the store: the code and the store, which is left where there is no file. -/
def readStore (file : Option Text) (dm : DataModel) : Option (Nat × DataModel) :=
  match file with
  | none => some (1, dm)
  | some text => readFileParameters dmPrefix false text

/-- `DM_ENG_ParameterData_restore`: the store that the last file gives that is read, whether or not it
passes its check. -/
def restore (disk : Disk) (dm : DataModel) : Option DataModel := do
  let (res, dm) ← readStore dmPrefix disk.obj dm
  if res = 0 then return dm else (readStore dmPrefix disk.backup dm).map Prod.snd

/-- `DM_ENG_DataModelConfiguration_processConfig`: the result and the store, which is saved when the
result is zero. -/
def processConfig (depth : Nat) (fileName : Text) (disk : Disk) (dm : DataModel) : Option (Nat × DataModel) :=
  match files fileName with
  | none => some (syntaxError, dm)
  | some root => do
    let (res, dm) ← ((processDocument dmPrefix limit root dm).run.runM (processPattern dmPrefix files limit depth)).join
    if res = 0 then return (0, dm) else return (res, ← restore dmPrefix disk dm)

end Files

end DataModelConfiguration

end Tr069Agent.Engine
