import Mathlib.Data.List.Basic
import Tr069Agent.Data.LineFile
import Tr069Agent.Engine.Parameter

/-! # The parameter file

One line of fifteen attributes for each parameter. The free texts are encoded, the name is written
without the prefix of the data model.
-/

namespace Tr069Agent.Data

open Library Library.Lines Library.Decimal Engine

set_option autoImplicit false

def maxNbAttr : Nat := 15

section Writing

def boolDigit (b : Bool) : Text := showInt b.toNat

/-- The attributes of a parameter whose name begins with the prefix. -/
def attributes (dmPrefix : Text) (param : Parameter) : List Text :=
  [param.name.drop dmPrefix.length,
    param.type.typeToString param.minValue param.maxValue,
    showInt (ofUint param.storageMode.number),
    boolDigit param.writable,
    showInt param.immediateChanges,
    showInt (ofUint param.notification.number),
    boolDigit param.mandatoryNotification,
    boolDigit param.activeNotificationDenied,
    (buildCommaSeparatedList param.accessList).getD [],
    encoded param.value,
    showInt param.loadingMode,
    showInt param.state.mask,
    encoded param.backValue,
    encoded param.configKey,
    encoded param.definition]

def parameterLine (dmPrefix : Text) (param : Parameter) : Text := join ';' (attributes dmPrefix param)

/-- The lines of `_writeParameters`; a parameter without the prefix is left out. -/
def parameterLines (dmPrefix : Text) (parameters : List Parameter) : List Text :=
  (parameters.filter fun param => dmPrefix.isPrefixOf param.name).map (parameterLine dmPrefix)

def writeParameters (dmPrefix : Text) (parameters : List Parameter) : Text :=
  writeFile (parameterLines dmPrefix parameters)

end Writing

section Reading

/-- An empty line or a comment. -/
def isSkipped (line : Text) : Bool := line.length ≤ 1 || line.head? = some '#'

/-- The attributes of a line; those that are missing are empty. -/
def splitLine (line : Text) (i : Nat) : Text := ((line.splitOn ';').take maxNbAttr)[i]?.getD []

/-- The attributes 9, 12, 13 and 14 are the encoded ones. -/
def decodeAttr (attr : Nat → Text) (i : Nat) : Text :=
  if i ∈ [9, 12, 13, 14] then decoded (attr i) else attr i

def readParameter (dmPrefix : Text) (isIniFile : Bool) (line : Text) : Option Parameter :=
  newParameter dmPrefix (decodeAttr (splitLine line)) isIniFile

/-- `_readFileParameters` on a file that is newer than the data: the result code and the list. -/
def readFileParameters (dmPrefix : Text) (isIniFile : Bool) (file : Text) :
    Option (Nat × List Parameter) := do
  let (lines, last) := readLines (.open file)
  let parameters ← (lines.filter fun line => !isSkipped line).mapM (readParameter dmPrefix isIniFile)
  return (if !isIniFile && !last.crcOK then 2 else 0, parameters)

end Reading

end Tr069Agent.Data
