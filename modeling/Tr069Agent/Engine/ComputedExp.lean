import Mathlib.Tactic.Common
import Tr069Agent.Library.Lookup
import Tr069Agent.Engine.ParameterValue

/-! # Expressions of computed parameters

An expression is read from the definition of a parameter, evaluated against the values of the parameters
it names, and looked through for the names whose value has changed.
-/

namespace Tr069Agent.Engine

open Library Library.Decimal

set_option autoImplicit false

namespace ComputedExp

inductive BinaryOp where
  | list
  | guard
  | cons
  | concat
  | or
  | and
  | lt
  | le
  | gt
  | ge
  | eq
  | ne
  | plus
  | minus
  | times
  | div
  deriving DecidableEq

inductive UnaryOp where
  | not
  | plus
  | minus
  deriving DecidableEq

end ComputedExp

open ComputedExp in
inductive ComputedExp where
  | binary (op : BinaryOp) (left right : ComputedExp)
  | unary (op : UnaryOp) (operand : ComputedExp)
  | ident (str : Text)
  | quote (str : Text)
  | string (str : Text)
  | num (n : Nat)
  | call (str : Text) (args : ComputedExp)
  | nil
  deriving DecidableEq

namespace ComputedExp

section Tokens

/-- The characters that can be put together to operators. -/
def opChars : Text := "!%*+-/:<=>?^|~".toList

def isWordChar (c : Char) : Bool := c.isAlphanum || c = '.' || c = '_'

def quotes : Text := "\"'".toList

/-- A quoted text from behind its first quote to the quote that ends it, and what follows. -/
def scanQuoted (delim : Char) : Bool → Text → Text × Text
  | _, [] => ([], [])
  | echap, c :: rest =>
    if !echap && c = delim then ([c], rest)
    else
      let (token, rest) := scanQuoted delim (!echap && c = '\\') rest
      (c :: token, rest)

/-- `_getToken` and what follows the token. -/
def getToken (sExp : Text) : Option (Text × Text) :=
  let sExp := sExp.dropWhile isspace
  if sExp.takeWhile isWordChar ≠ [] then some (sExp.span isWordChar)
  else if sExp.takeWhile opChars.contains ≠ [] then some (sExp.span opChars.contains)
  else
    match sExp with
    | [] => none
    | c :: rest =>
      if quotes.contains c then
        let (token, rest) := scanQuoted c false rest
        some (c :: token, rest)
      else some ([c], rest)

/-- The tokens of a text with at most `fuel` characters. -/
def tokensFrom : Nat → Text → List Text
  | 0, _ => []
  | fuel + 1, sExp =>
    match getToken sExp with
    | none => []
    | some (token, rest) => token :: tokensFrom fuel rest

def tokens (sExp : Text) : List Text := tokensFrom sExp.length sExp

/-- The text between the quotes, without the characters that quote others. -/
def unquote (delim : Char) : Text → Text
  | [] => []
  | c :: rest =>
    if c = '\\' ∨ c = delim then
      match rest with
      | [] => []
      | quoted :: rest => quoted :: unquote delim rest
    else c :: unquote delim rest

end Tokens

section Parser

/-- The parser finds no expression, it compares a token where there is none, or it is not at its end
when the fuel is. -/
inductive ParseError where
  | noExpression
  | missingToken
  | unfinished
  deriving DecidableEq

/-- An expression at the beginning of the tokens and the tokens behind it. -/
abbrev Parse : Type := List Text → Except ParseError (ComputedExp × List Text)

/-- `_parsePrim`, where `list` parses what stands in parentheses. -/
def parsePrim (list : Parse) : Parse
  | [] => .ok (.nil, [])
  | tok :: toks =>
    if tok = "(".toList then
      match list toks with
      | .error e => .error e
      | .ok (_, []) => .error .missingToken
      | .ok (res, tok :: toks) =>
        if tok = ")".toList then .ok (res, toks) else .error .noExpression
    else if tok = "!".toList then
      match parsePrim list toks with
      | .error e => .error e
      | .ok (res, toks) => .ok (.unary .not res, toks)
    else if tok = "+".toList ∨ tok = "-".toList then
      match parsePrim list toks with
      | .error e => .error e
      | .ok (res, toks) => .ok (.unary (if tok = "+".toList then .plus else .minus) res, toks)
    else
      match tok with
      | [] => .ok (.nil, tok :: toks)
      | c :: body =>
        if c = '"' then .ok (.string (unquote c body), toks)
        else if quotes.contains c then .ok (.quote (unquote c body), toks)
        else
          match stringToUint tok with
          | some i => .ok (.num i, toks)
          | none =>
            if c.isAlpha ∨ c = '.' ∨ c = '_' then
              match toks with
              | next :: toks =>
                if next = "(".toList then
                  match list toks with
                  | .error e => .error e
                  | .ok (_, []) => .error .missingToken
                  | .ok (args, close :: toks) =>
                    if close = ")".toList then .ok (.call tok args, toks) else .error .noExpression
                else .ok (.ident tok, next :: toks)
              | [] => .ok (.ident tok, [])
            else .ok (.nil, tok :: toks)

/-- One level of operators that group to the left. -/
def parseLeft (ops : List (Text × BinaryOp)) (operand : Parse) :
    Nat → Option (ComputedExp × BinaryOp) → Parse
  | 0, _, _ => .error .unfinished
  | fuel + 1, lExp, toks =>
    match operand toks with
    | .error e => .error e
    | .ok (res, toks) =>
      let res := match lExp with
        | some (lExp, op) => .binary op lExp res
        | none => res
      match toks with
      | [] => .ok (res, [])
      | tok :: rest =>
        match ops.lookup tok with
        | some op => parseLeft ops operand fuel (some (res, op)) rest
        | none => .ok (res, toks)

/-- One operator that groups to the right. -/
def parseRight (op : Text × BinaryOp) (operand : Parse) : Nat → Parse
  | 0, _ => .error .unfinished
  | fuel + 1, toks =>
    match operand toks with
    | .error e => .error e
    | .ok (res, []) => .ok (res, [])
    | .ok (res, tok :: toks) =>
      if tok = op.1 then
        match parseRight op operand fuel toks with
        | .error e => .error e
        | .ok (rExp, toks) => .ok (.binary op.2 res rExp, toks)
      else .ok (res, tok :: toks)

section Levels

variable (list : Parse) (fuel : Nat)

def parseProd : Parse := parseLeft [("*".toList, .times), ("/".toList, .div)] (parsePrim list) fuel none

def parseSum : Parse :=
  parseLeft [("+".toList, .plus), ("-".toList, .minus)] (parseProd list fuel) fuel none

def parseCond : Parse :=
  parseLeft [("<".toList, .lt), ("<=".toList, .le), (">".toList, .gt), (">=".toList, .ge),
    ("==".toList, .eq), ("!=".toList, .ne)] (parseSum list fuel) fuel none

def parseAnd : Parse := parseLeft [("&".toList, .and)] (parseCond list fuel) fuel none

def parseOr : Parse := parseLeft [("|".toList, .or)] (parseAnd list fuel) fuel none

def parseConcat : Parse := parseLeft [("++".toList, .concat)] (parseOr list fuel) fuel none

def parseCons : Parse := parseRight (":".toList, .cons) (parseConcat list fuel) fuel

def parseGuard : Parse := parseRight ("?".toList, .guard) (parseCons list fuel) fuel

end Levels

/-- Each turn of a loop and each parenthesis that is opened takes a token, so that a fuel above their
number is never used up. -/
def parseList : Nat → Parse
  | 0 => fun _ => .error .unfinished
  | fuel + 1 => parseRight (",".toList, .list) (parseGuard (parseList fuel) (fuel + 1)) (fuel + 1)

def parse (sExp : Text) : Except ParseError ComputedExp :=
  let toks := tokens sExp
  match parseList (toks.length + 1) toks with
  | .error e => .error e
  | .ok (res, []) => .ok res
  | .ok (_, _ :: _) => .error .noExpression

example : parse "A + 2 * B".toList =
    .ok (.binary .plus (.ident "A".toList) (.binary .times (.num 2) (.ident "B".toList))) := by
  decide +kernel

end Parser

section Evaluation

/-- A computation that reads the values of parameters. -/
abbrev Read (α : Type) : Type := Lookup Text (Option Text) α

/-- The functions that evaluate an expression: to a number, to a truth value, to a text (with the value
returned and the text written), and as the bounds of the classes among which a number is looked for. -/
structure Evaluators where
  evalUint : Read (Option Nat)
  evalBool : Read (Option Bool)
  eval : Read (Bool × Option Text)
  evalClass : Nat → Nat → Read (Option Nat)

def classFct : Text := "Class".toList

def diffTimeFct : Text := "DiffTime".toList

def isPredefinedFunction (name : Text) : Bool := name = classFct

/-- The internal parameter that a call stands for. -/
def internalName (str : Text) : ComputedExp → Option Text
  | .ident name => some (name ++ '!' :: str)
  | .binary .list (.ident name) _ => some (name ++ '!' :: str)
  | _ => none

namespace BinaryOp

def isArith (op : BinaryOp) : Bool := op = plus || op = minus || op = times || op = div

def isComparison (op : BinaryOp) : Bool := op = lt || op = le || op = gt || op = ge || op = eq || op = ne

def isLogic (op : BinaryOp) : Bool := op = or || op = and || op.isComparison

/-- None for a division by zero. -/
def arith (op : BinaryOp) (left right : Nat) : Option Nat :=
  match op with
  | plus => some (wrap (left + right))
  | minus => some (wrap (left + (2 ^ 32 - right)))
  | times => some (wrap (left * right))
  | div => if right = 0 then none else some (left / right)
  | _ => none

def compare (op : BinaryOp) (order : Ordering) : Bool :=
  match op with
  | lt => order.isLT
  | le => order.isLE
  | gt => order.isGT
  | ge => order.isGE
  | eq => order.isEq
  | ne => order.isNe
  | _ => false

end BinaryOp

def negate (n : Nat) : Nat := wrap (2 ^ 32 - n)

def noText : Bool × Option Text := (false, none)

def showUint : Option Nat → Bool × Option Text
  | some n => (true, some (showInt n))
  | none => noText

def showBool : Option Bool → Bool × Option Text
  | some val => (true, some (if val then trueString else falseString))
  | none => noText

/-- `strcmp`. -/
def compareText : Text → Text → Ordering
  | [], [] => .eq
  | [], _ :: _ => .lt
  | _ :: _, [] => .gt
  | c :: text, d :: other => (Ord.compare c.toNat d.toNat).then (compareText text other)

def uintValue (name : Text) : Read (Option Nat) := do return (← Lookup.get name).bind stringToUint

def boolValue (name : Text) : Read (Option Bool) := do return (← Lookup.get name).bind stringToBool

def textValue (name : Text) : Read (Bool × Option Text) := do
  let sVal ← Lookup.get name
  return (sVal.isSome, sVal)

section Operators

variable (op : BinaryOp) (left right : Evaluators)

/-- The numbers on both sides. -/
def evalNumbers : Read (Option (Nat × Nat)) := do
  let some l ← left.evalUint | return none
  let some r ← right.evalUint | return none
  return some (l, r)

def evalTexts : Read (Option (Text × Text)) := do
  let sLeft ← left.eval
  let sRight ← right.eval
  match sLeft.2, sRight.2 with
  | some l, some r => return some (l, r)
  | _, _ => return none

def evalConnective : Read (Option Bool) := do
  let some l ← left.evalBool | return none
  let some r ← right.evalBool | return none
  return some (if op = .or then l || r else l && r)

/-- Texts are compared where one of the sides is no number. -/
def evalComparison : Read (Option Bool) := do
  match ← evalNumbers left right with
  | some (l, r) => return some (op.compare (Ord.compare l r))
  | none => return (← evalTexts left right).map fun (l, r) => op.compare (compareText l r)

def evalLogic : Read (Option Bool) :=
  if op.isComparison then evalComparison op left right
  else if op.isLogic then evalConnective op left right
  else pure none

def evalGuard : Read (Bool × Option Text) := do
  let some true ← left.evalBool | return noText
  right.eval

def evalConcat : Read (Bool × Option Text) := do
  let sLeft ← left.eval
  let sRight ← if sLeft.1 then right.eval else pure noText
  match sLeft.2, sRight.2 with
  | some l, some r => return (true, some (l ++ (if op = .cons then [':'] else []) ++ r))
  | _, _ => return noText

/-- A division by zero returns false, but writes a text. -/
def evalText : Read (Bool × Option Text) :=
  if op.isArith then do
    let some (l, r) ← evalNumbers left right | return noText
    let val := op.arith l r
    return (val.isSome, some (showInt (val.getD 0)))
  else if op.isLogic then do return showBool (← evalLogic op left right)
  else if op = .guard then evalGuard left right
  else if op = .cons ∨ op = .concat then evalConcat op left right
  else pure noText

/-- `_evalClass` for the last bound. -/
def evalLastClass (bound : Read (Option Nat)) (val c : Nat) : Read (Option Nat) := do
  let some borne ← bound | return none
  return some (if val ≤ borne then c else wrap (c + 1))

/-- `_evalClass` for a bound that others follow; an empty one is the greatest number. -/
def evalClassCons (empty : Bool) (val c : Nat) : Read (Option Nat) := do
  let some borne ← if empty then pure (some uintMax) else left.evalUint | return none
  if val ≤ borne then return some c else right.evalClass val (wrap (c + 1))

end Operators

section Functions

variable (dateStringToTime : Text → Option Int) (now : Int)

def evalTime (arg : Evaluators) : Read (Option Int) := do
  let str ← arg.eval
  return if str.1 then (match str.2 with | some str => dateStringToTime str | none => some 0) else none

/-- Without an argument, the current time is taken. -/
def evalSecondTime : Option Evaluators → Read (Option Int)
  | some arg2 => evalTime dateStringToTime arg2
  | none => pure (some now)

def evalDiffTime (arg2 : Option Evaluators) (arg1 : Evaluators) : Read (Option Nat) := do
  let some t2 ← evalSecondTime dateStringToTime now arg2 | return none
  let some t1 ← evalTime dateStringToTime arg1 | return none
  return if t2 < t1 then none else some (toUint (t2 - t1))

def evalClassCall (val bounds : Evaluators) : Read (Option Nat) := do
  let some left ← val.evalUint | return none
  bounds.evalClass left 0

/-- The evaluation of a call of a function that is built in, if it is one. -/
def evaluateCall (special : Option (Read (Option Nat))) (internal : Option Text) : Evaluators where
  evalUint := match special, internal with
    | some value, _ => value
    | none, some name => uintValue name
    | none, none => pure none
  evalBool := match internal with
    | some name => boolValue name
    | none => pure none
  eval := match special, internal with
    | some value, _ => do return showUint (← value)
    | none, some name => textValue name
    | none, none => pure noText
  evalClass val c := evalLastClass (match special, internal with
    | some value, _ => value
    | none, some name => uintValue name
    | none, none => pure none) val c

/-- `_evalUint`, `_evalBool`, `_eval` and `_evalClass`. -/
def evaluators : ComputedExp → Evaluators
  | .binary op left right =>
    let l := evaluators left
    let r := evaluators right
    let uint : Read (Option Nat) :=
      if op.isArith then do return (← evalNumbers l r).bind fun (l, r) => op.arith l r else pure none
    { evalUint := uint
      evalBool := evalLogic op l r
      eval := evalText op l r
      evalClass := if op = .cons then evalClassCons l r (left = .nil) else evalLastClass uint }
  | .unary .not operand =>
    let bool : Read (Option Bool) := do return (← (evaluators operand).evalBool).map (!·)
    { evalUint := pure none
      evalBool := bool
      eval := do return showBool (← bool)
      evalClass := evalLastClass (pure none) }
  | .unary .plus operand =>
    let uint := (evaluators operand).evalUint
    { evalUint := uint
      evalBool := pure none
      eval := do return showUint (← uint)
      evalClass := evalLastClass uint }
  | .unary .minus operand =>
    let uint : Read (Option Nat) := do return (← (evaluators operand).evalUint).map negate
    { evalUint := uint
      evalBool := pure none
      eval := do return showUint (← uint)
      evalClass := evalLastClass uint }
  | .ident str =>
    { evalUint := uintValue str
      evalBool := boolValue str
      eval := textValue str
      evalClass := evalLastClass (uintValue str) }
  | .quote str =>
    { evalUint := uintValue str
      evalBool := pure none
      eval := textValue str
      evalClass := evalLastClass (uintValue str) }
  | .string str =>
    { evalUint := pure none
      evalBool := pure none
      eval := pure (true, some str)
      evalClass := evalLastClass (pure none) }
  | .num n =>
    { evalUint := pure (some n)
      evalBool := pure none
      eval := pure (showUint (some n))
      evalClass := evalLastClass (pure (some n)) }
  | .call str (.binary .list first second) =>
    let special :=
      if str = classFct then some (evalClassCall (evaluators first) (evaluators second))
      else if str = diffTimeFct then
        some (evalDiffTime dateStringToTime now
          (if first = .nil then none else some (evaluators first)) (evaluators second))
      else none
    evaluateCall special (internalName str (.binary .list first second))
  | .call str args =>
    let special :=
      if str = diffTimeFct then some (evalDiffTime dateStringToTime now none (evaluators args)) else none
    evaluateCall special (internalName str args)
  | .nil =>
    { evalUint := pure none
      evalBool := pure none
      eval := pure noText
      evalClass := fun _ c => pure (some c) }

/-- `DM_ENG_ComputedExp_eval`: what it returns and writes; none where the parser goes wrong. -/
def eval (sExp : Text) (getValue : Text → Option Text) : Option (Bool × Option Text) :=
  match parse sExp with
  | .ok exp => some ((evaluators dateStringToTime now exp).eval.run getValue)
  | .error .noExpression => some noText
  | .error .missingToken | .error .unfinished => none

end Functions

end Evaluation

section Changes

variable (dateStringToTime : Text → Option Int) (now : Int)

/-- What `_isChanged` returns and writes. -/
structure Report where
  result : Bool
  changed : Bool
  pushed : Bool
  deriving DecidableEq

/-- `_isChanged`, where `isValueChanged` tells whether a value has changed and whether it was pushed. -/
def isChangedExp (isValueChanged : Text → Bool × Bool) (getValue : Text → Option Text) :
    ComputedExp → Report
  | .binary .guard left right =>
    if (evaluators dateStringToTime now left).evalBool.run getValue = some true then
      isChangedExp isValueChanged getValue right
    else ⟨false, false, false⟩
  | .binary _ left right =>
    let l := isChangedExp isValueChanged getValue left
    if l.result && !(l.changed && l.pushed) then
      let r := isChangedExp isValueChanged getValue right
      ⟨r.result, l.changed || r.changed, l.pushed || r.pushed⟩
    else l
  | .unary _ operand => isChangedExp isValueChanged getValue operand
  | .ident str => ⟨true, (isValueChanged str).1, (isValueChanged str).2⟩
  | .call str args =>
    if isPredefinedFunction str then isChangedExp isValueChanged getValue args
    else
      match internalName str args with
      | some name => ⟨true, (isValueChanged name).1, (isValueChanged name).2⟩
      | none => ⟨false, false, false⟩
  | _ => ⟨true, false, false⟩

def isChanged (sExp : Text) (isValueChanged : Text → Bool × Bool) (getValue : Text → Option Text) :
    Option Report :=
  match parse sExp with
  | .ok exp => some (isChangedExp dateStringToTime now isValueChanged getValue exp)
  | .error .noExpression => some ⟨false, false, false⟩
  | .error .missingToken | .error .unfinished => none

end Changes

end ComputedExp

end Tr069Agent.Engine
