import Tr069Agent.Engine.ComputedExp

/-! # The two evaluations of an expression

`_evalUint` gives a number and `_eval` a text. They agree on every expression but a division by zero, of
which `_eval` writes a text while it fails.
-/

namespace Tr069Agent.Engine.ComputedExp

open Library Library.Decimal Library.Lookup

set_option autoImplicit false

/-- What an evaluation depends on besides the expression. -/
structure Environment where
  getValue : Text → Option Text
  dateStringToTime : Text → Option Int
  now : Int

namespace Environment

variable (env : Environment)

def evalUint (exp : ComputedExp) : Option Nat :=
  (evaluators env.dateStringToTime env.now exp).evalUint.run env.getValue

def evalBool (exp : ComputedExp) : Option Bool :=
  (evaluators env.dateStringToTime env.now exp).evalBool.run env.getValue

/-- `_eval`: what it returns and writes. -/
def eval (exp : ComputedExp) : Bool × Option Text :=
  (evaluators env.dateStringToTime env.now exp).eval.run env.getValue

end Environment

/-- The calls of `Class` and `DiffTime`, which are no calls of an internal parameter. -/
def isBuiltIn (str : Text) : ComputedExp → Bool
  | .binary .list _ _ => str = classFct || str = diffTimeFct
  | _ => str = diffTimeFct

/-- The number of a literal is an `unsigned int`. -/
def NumsFit : ComputedExp → Prop
  | .binary _ left right => left.NumsFit ∧ right.NumsFit
  | .unary _ operand => operand.NumsFit
  | .num n => n ≤ uintMax
  | .call _ args => args.NumsFit
  | _ => True

section Equations

variable (env : Environment) {op : BinaryOp} {left right operand args : ComputedExp} {str : Text}

theorem evalUint_arith (h : op.isArith = true) :
    env.evalUint (.binary op left right) =
      (env.evalUint left).bind fun l => (env.evalUint right).bind fun r => op.arith l r := by
  simp only [Environment.evalUint, evaluators, h, if_true, evalNumbers]
  cases hLeft : (evaluators env.dateStringToTime env.now left).evalUint.run env.getValue with
  | none => simp [hLeft]
  | some l =>
    cases hRight : (evaluators env.dateStringToTime env.now right).evalUint.run env.getValue with
    | none => simp [hLeft, hRight]
    | some r => simp [hLeft, hRight]

theorem evalUint_other (h : op.isArith = false) : env.evalUint (.binary op left right) = none := by
  simp [Environment.evalUint, evaluators, h]

theorem eval_arith (h : op.isArith = true) :
    env.eval (.binary op left right) =
      match env.evalUint left, env.evalUint right with
      | some l, some r => ((op.arith l r).isSome, some (showInt ((op.arith l r).getD 0)))
      | _, _ => noText := by
  simp only [Environment.eval, Environment.evalUint, evaluators, evalText, h, if_true, evalNumbers]
  cases hLeft : (evaluators env.dateStringToTime env.now left).evalUint.run env.getValue with
  | none => simp [hLeft]
  | some l =>
    cases hRight : (evaluators env.dateStringToTime env.now right).evalUint.run env.getValue with
    | none => simp [hLeft, hRight]
    | some r => simp [hLeft, hRight]

theorem eval_unary_plus : env.eval (.unary .plus operand) = showUint (env.evalUint (.unary .plus operand)) := by
  simp [Environment.eval, Environment.evalUint, evaluators]

theorem eval_unary_minus : env.eval (.unary .minus operand) = showUint (env.evalUint (.unary .minus operand)) := by
  simp [Environment.eval, Environment.evalUint, evaluators]

/-- The text of the internal parameter that a call stands for. -/
def Environment.internalText (str : Text) (args : ComputedExp) : Option Text :=
  (internalName str args).bind env.getValue

theorem exists_evaluateCall (str : Text) (args : ComputedExp) :
    ∃ special, evaluators env.dateStringToTime env.now (.call str args) =
        evaluateCall special (internalName str args) ∧ special.isSome = isBuiltIn str args := by
  obtain ⟨first, second, rfl⟩ | hNot := em (∃ first second, args = .binary .list first second)
  · refine ⟨_, by rw [evaluators], ?_⟩
    rw [isBuiltIn]
    split_ifs <;> simp_all
  · have hArgs : ∀ first second, args ≠ .binary .list first second := fun first second h => hNot ⟨first, second, h⟩
    refine ⟨_, by rw [evaluators]; exact hArgs, ?_⟩
    rw [isBuiltIn]
    · split_ifs <;> simp_all
    · exact hArgs

theorem eval_builtIn (h : isBuiltIn str args = true) :
    env.eval (.call str args) = showUint (env.evalUint (.call str args)) := by
  obtain ⟨special, hEval, hSpecial⟩ := exists_evaluateCall env str args
  rw [h] at hSpecial
  obtain ⟨value, rfl⟩ := Option.isSome_iff_exists.mp hSpecial
  rw [Environment.eval, Environment.evalUint, hEval]
  simp [evaluateCall]

theorem eval_internal (h : isBuiltIn str args = false) :
    env.eval (.call str args) = ((env.internalText str args).isSome, env.internalText str args) ∧
      env.evalUint (.call str args) = (env.internalText str args).bind stringToUint := by
  obtain ⟨special, hEval, hSpecial⟩ := exists_evaluateCall env str args
  rw [h] at hSpecial
  have hNone : special = none := by simpa using hSpecial
  rw [Environment.eval, Environment.evalUint, hEval, hNone, Environment.internalText]
  cases internalName str args with
  | none => exact ⟨rfl, rfl⟩
  | some name => simp [evaluateCall, textValue, uintValue]

theorem evalBool_call : env.evalBool (.call str args) = (env.internalText str args).bind stringToBool := by
  obtain ⟨special, hEval, -⟩ := exists_evaluateCall env str args
  rw [Environment.evalBool, hEval, Environment.internalText]
  cases internalName str args with
  | none => rfl
  | some name => simp [evaluateCall, boolValue]

end Equations

section Bounds

theorem wrap_le_uintMax (n : Nat) : wrap n ≤ uintMax := Nat.le_of_lt_succ (Nat.mod_lt n (by decide))

theorem arith_le {op : BinaryOp} {l r v : Nat} (hLeft : l ≤ uintMax) (h : op.arith l r = some v) : v ≤ uintMax := by
  cases op with
  | plus | minus | times =>
    obtain rfl := Option.some.inj h
    exact wrap_le_uintMax _
  | div =>
    rw [BinaryOp.arith] at h
    split at h
    · cases h
    · obtain rfl := Option.some.inj h
      exact (Nat.div_le_self l r).trans hLeft
  | _ => cases h

/-- The numbers of an evaluation, and the class found among its bounds, are of type `unsigned int`. -/
structure UintBounded (ev : Evaluators) (getValue : Text → Option Text) : Prop where
  evalUint : ∀ v, ev.evalUint.run getValue = some v → v ≤ uintMax
  evalClass : ∀ val c r, c ≤ uintMax → (ev.evalClass val c).run getValue = some r → r ≤ uintMax

variable {getValue : Text → Option Text} {dateStringToTime : Text → Option Int} {now : Int}
  {left right : Evaluators}

theorem evalLastClass_le {bound : Read (Option Nat)} {val c r : Nat} (hClass : c ≤ uintMax)
    (h : (evalLastClass bound val c).run getValue = some r) : r ≤ uintMax := by
  rw [evalLastClass, run_bind] at h
  cases hBound : bound.run getValue with
  | none =>
    rw [hBound] at h
    cases h
  | some borne =>
    rw [hBound] at h
    obtain rfl := Option.some.inj h
    split
    · exact hClass
    · exact wrap_le_uintMax _

theorem none_le {v : Nat} (h : (pure none : Read (Option Nat)).run getValue = some v) : v ≤ uintMax := by
  cases h

theorem UintBounded.last {uint : Read (Option Nat)} (hUint : ∀ v, uint.run getValue = some v → v ≤ uintMax)
    (bool : Read (Option Bool)) (text : Read (Bool × Option Text)) :
    UintBounded ⟨uint, bool, text, evalLastClass uint⟩ getValue where
  evalUint := hUint
  evalClass _ _ _ := evalLastClass_le

theorem evalClassCons_le (hRight : UintBounded right getValue) {empty : Bool} {val c r : Nat} (hClass : c ≤ uintMax)
    (h : (evalClassCons left right empty val c).run getValue = some r) : r ≤ uintMax := by
  have hNext (borne : Nat) (hEnd : (if val ≤ borne then pure (some c)
      else right.evalClass val (wrap (c + 1)) : Read (Option Nat)).run getValue = some r) : r ≤ uintMax := by
    split at hEnd
    · obtain rfl := Option.some.inj hEnd
      exact hClass
    · exact hRight.evalClass val _ r (wrap_le_uintMax _) hEnd
  rw [evalClassCons] at h
  cases empty with
  | true => exact hNext uintMax h
  | false =>
    simp only [Bool.false_eq_true, if_false, run_bind] at h
    cases hBound : left.evalUint.run getValue with
    | none =>
      rw [hBound] at h
      cases h
    | some borne =>
      rw [hBound] at h
      exact hNext borne h

theorem evaluateCall_le {special : Option (Read (Option Nat))} (internal : Option Text)
    (h : ∀ value ∈ special, ∀ v, value.run getValue = some v → v ≤ uintMax) :
    UintBounded (evaluateCall special internal) getValue := by
  have hText (name : Text) (v : Nat) (hRun : (uintValue name).run getValue = some v) : v ≤ uintMax := by
    obtain ⟨text, -, hNumber⟩ := Option.bind_eq_some_iff.mp hRun
    exact stringToUint_le hNumber
  cases special with
  | some value => exact UintBounded.last (h value rfl) _ _
  | none =>
    cases internal with
    | none => exact UintBounded.last (fun _ => none_le) _ _
    | some name => exact UintBounded.last (hText name) _ _

theorem evalDiffTime_le {arg2 : Option Evaluators} {arg1 : Evaluators} {v : Nat}
    (h : (evalDiffTime dateStringToTime now arg2 arg1).run getValue = some v) : v ≤ uintMax := by
  rw [evalDiffTime, run_bind] at h
  cases hSecond : (evalSecondTime dateStringToTime now arg2).run getValue with
  | none =>
    rw [hSecond] at h
    cases h
  | some t2 =>
    simp only [hSecond, run_bind] at h
    cases hFirst : (evalTime dateStringToTime arg1).run getValue with
    | none =>
      rw [hFirst] at h
      cases h
    | some t1 =>
      simp only [hFirst, run_pure] at h
      split at h
      · cases h
      · obtain rfl := Option.some.inj h
        exact toUint_le _

theorem evalClassCall_le (hRight : UintBounded right getValue) {v : Nat}
    (h : (evalClassCall left right).run getValue = some v) : v ≤ uintMax := by
  rw [evalClassCall, run_bind] at h
  cases hLeft : left.evalUint.run getValue with
  | none =>
    rw [hLeft] at h
    cases h
  | some val =>
    rw [hLeft] at h
    exact hRight.evalClass val 0 v (Nat.zero_le _) h

theorem uintBounded_evaluators {exp : ComputedExp} (h : exp.NumsFit) :
    UintBounded (evaluators dateStringToTime now exp) getValue := by
  cases exp with
  | binary op left right =>
    have hLeft : UintBounded (evaluators dateStringToTime now left) getValue := uintBounded_evaluators h.1
    have hRight : UintBounded (evaluators dateStringToTime now right) getValue := uintBounded_evaluators h.2
    have hUint (v : Nat)
        (hRun : Environment.evalUint ⟨getValue, dateStringToTime, now⟩ (.binary op left right) = some v) :
        v ≤ uintMax := by
      cases hArith : op.isArith with
      | false =>
        rw [evalUint_other _ hArith] at hRun
        cases hRun
      | true =>
        rw [evalUint_arith _ hArith] at hRun
        obtain ⟨l, hL, hRun⟩ := Option.bind_eq_some_iff.mp hRun
        obtain ⟨r, -, hRun⟩ := Option.bind_eq_some_iff.mp hRun
        exact arith_le (hLeft.evalUint l hL) hRun
    refine ⟨hUint, fun val c r hClass hRun => ?_⟩
    dsimp only [evaluators] at hRun
    split at hRun
    · exact evalClassCons_le hRight hClass hRun
    · exact evalLastClass_le hClass hRun
  | unary op operand =>
    have hOperand : UintBounded (evaluators dateStringToTime now operand) getValue :=
      @uintBounded_evaluators operand h
    cases op with
    | not => exact UintBounded.last (fun _ => none_le) _ _
    | plus => exact UintBounded.last hOperand.evalUint _ _
    | minus =>
      refine UintBounded.last (fun v hRun => ?_) _ _
      rw [run_bind] at hRun
      obtain ⟨n, -, rfl⟩ := Option.map_eq_some_iff.mp hRun
      exact wrap_le_uintMax _
  | ident str | quote str =>
    refine UintBounded.last (fun v hRun => ?_) _ _
    obtain ⟨text, -, hNumber⟩ := Option.bind_eq_some_iff.mp hRun
    exact stringToUint_le hNumber
  | string str => exact UintBounded.last (fun _ => none_le) _ _
  | num n =>
    refine UintBounded.last (fun v hRun => ?_) _ _
    obtain rfl := Option.some.inj hRun
    exact h
  | nil =>
    refine ⟨fun _ => none_le, fun val c r hClass hRun => ?_⟩
    obtain rfl := Option.some.inj hRun
    exact hClass
  | call str args =>
    obtain ⟨first, second, rfl⟩ | hNot := em (∃ first second, args = .binary .list first second)
    · have hSecond : UintBounded (evaluators dateStringToTime now second) getValue := uintBounded_evaluators h.2
      rw [evaluators]
      refine evaluateCall_le _ fun value hMem v hRun => ?_
      split at hMem
      · obtain rfl := Option.some.inj hMem
        exact evalClassCall_le hSecond hRun
      · split at hMem
        · obtain rfl := Option.some.inj hMem
          exact evalDiffTime_le hRun
        · cases hMem
    · have hArgs : ∀ first second, args ≠ .binary .list first second := fun first second h => hNot ⟨first, second, h⟩
      rw [evaluators]
      · refine evaluateCall_le _ fun value hMem v hRun => ?_
        split at hMem
        · obtain rfl := Option.some.inj hMem
          exact evalDiffTime_le hRun
        · cases hMem
      · exact hArgs

theorem Environment.evalUint_le (env : Environment) {exp : ComputedExp} {v : Nat} (h : exp.NumsFit)
    (hRun : env.evalUint exp = some v) : v ≤ uintMax :=
  (uintBounded_evaluators h).evalUint v hRun

end Bounds

section Agreement

variable {env : Environment} {exp : ComputedExp} {v : Nat} {text : Text}

/-- A division of a number by zero. -/
def DividesByZero (env : Environment) : ComputedExp → Prop
  | .binary .div left right => (env.evalUint left).isSome = true ∧ env.evalUint right = some 0
  | _ => False

/-- The expressions of which `_eval` writes a number by `DM_ENG_uintToString`. -/
def writesNumber : ComputedExp → Bool
  | .binary op _ _ => op.isArith
  | .unary .plus _ | .unary .minus _ | .num _ => true
  | .call str args => isBuiltIn str args
  | _ => false

theorem exists_of_dividesByZero (h : DividesByZero env exp) :
    ∃ left right, exp = .binary .div left right ∧ (env.evalUint left).isSome = true ∧ env.evalUint right = some 0 := by
  cases exp with
  | binary op left right =>
    cases op with
    | div => exact ⟨left, right, rfl, h⟩
    | _ => cases h
  | _ => cases h

theorem arith_eq_none_iff {op : BinaryOp} {l r : Nat} (h : op.isArith = true) :
    op.arith l r = none ↔ op = .div ∧ r = 0 := by
  cases op with
  | plus | minus | times => simp [BinaryOp.arith]
  | div => simp [BinaryOp.arith]
  | _ => cases h

structure EvaluationsAgree (env : Environment) (exp : ComputedExp) : Prop where
  readBack : ∀ v, env.evalUint exp = some v →
    ∃ text, env.eval exp = (true, some text) ∧ stringToUint text = some v
  sameNumber : exp.writesNumber = true → ∀ text, (env.eval exp).2 = some text →
    ∃ n : Nat, text = showInt n ∧ env.evalUint exp = some (wrap n)

theorem eval_of_showUint (hEval : env.eval exp = showUint (env.evalUint exp)) (h : env.evalUint exp = some v) :
    ∃ text, env.eval exp = (true, some text) ∧ (exp.NumsFit → stringToUint text = some v) := by
  refine ⟨showInt v, ?_, fun hFit => stringToUint_showInt (env.evalUint_le hFit h)⟩
  rw [hEval, h]
  rfl

theorem eval_of_text (hEval : env.eval exp = ((env.eval exp).2.isSome, (env.eval exp).2))
    (hUint : env.evalUint exp = (env.eval exp).2.bind stringToUint) (h : env.evalUint exp = some v) :
    ∃ text, env.eval exp = (true, some text) ∧ (exp.NumsFit → stringToUint text = some v) := by
  rw [hUint] at h
  obtain ⟨text, hText, hNumber⟩ := Option.bind_eq_some_iff.mp h
  rw [hText] at hEval
  exact ⟨text, hEval, fun _ => hNumber⟩

theorem eval_of_evalUint (h : env.evalUint exp = some v) :
    ∃ text, env.eval exp = (true, some text) ∧ (exp.NumsFit → stringToUint text = some v) := by
  cases exp with
  | binary op left right =>
    cases hArith : op.isArith with
    | false =>
      rw [evalUint_other _ hArith] at h
      cases h
    | true =>
      refine ⟨showInt v, ?_, fun hFit => stringToUint_showInt (env.evalUint_le hFit h)⟩
      rw [evalUint_arith _ hArith] at h
      obtain ⟨l, hLeft, h⟩ := Option.bind_eq_some_iff.mp h
      obtain ⟨r, hRight, h⟩ := Option.bind_eq_some_iff.mp h
      rw [eval_arith _ hArith, hLeft, hRight]
      simp only [h, Option.isSome_some, Option.getD_some]
  | unary op operand =>
    cases op with
    | not => cases h
    | plus => exact eval_of_showUint (eval_unary_plus env) h
    | minus => exact eval_of_showUint (eval_unary_minus env) h
  | ident str | quote str => exact eval_of_text rfl rfl h
  | string str | nil => cases h
  | num n => exact eval_of_showUint rfl h
  | call str args =>
    cases hCall : isBuiltIn str args with
    | true => exact eval_of_showUint (eval_builtIn env hCall) h
    | false =>
      obtain ⟨hEval, hUint⟩ := eval_internal env hCall
      refine eval_of_text ?_ ?_ h
      · rw [hEval]
      · rw [hEval, hUint]

theorem evalUint_of_showUint (hFit : exp.NumsFit) (hEval : env.eval exp = showUint (env.evalUint exp))
    (h : (env.eval exp).2 = some text) : ∃ n : Nat, text = showInt n ∧ env.evalUint exp = some (wrap n) := by
  rw [hEval] at h
  cases hUint : env.evalUint exp with
  | none =>
    rw [hUint] at h
    cases h
  | some n =>
    rw [hUint] at h
    obtain rfl := Option.some.inj h
    refine ⟨n, rfl, ?_⟩
    rw [wrap, Nat.mod_eq_of_lt]
    exact Nat.lt_succ_of_le (env.evalUint_le hFit hUint)

theorem evalUint_of_text (hFit : exp.NumsFit) (hWrites : exp.writesNumber = true) (hZero : ¬ DividesByZero env exp)
    (h : (env.eval exp).2 = some text) : ∃ n : Nat, text = showInt n ∧ env.evalUint exp = some (wrap n) := by
  cases exp with
  | binary op left right =>
    rw [eval_arith _ hWrites] at h
    cases hLeft : env.evalUint left with
    | none =>
      rw [hLeft] at h
      cases h
    | some l =>
      cases hRight : env.evalUint right with
      | none =>
        rw [hLeft, hRight] at h
        cases h
      | some r =>
        have hSome : op.arith l r ≠ none := by
          intro hNone
          obtain ⟨rfl, rfl⟩ := (arith_eq_none_iff hWrites).mp hNone
          exact hZero ⟨by rw [hLeft]; rfl, hRight⟩
        obtain ⟨n, hArith⟩ := Option.ne_none_iff_exists'.mp hSome
        have hUint : env.evalUint (.binary op left right) = some n := by
          rw [evalUint_arith _ hWrites, hLeft, hRight]
          exact hArith
        rw [hLeft, hRight] at h
        simp only [hArith, Option.getD_some] at h
        obtain rfl := Option.some.inj h
        refine ⟨n, rfl, ?_⟩
        rw [hUint, wrap, Nat.mod_eq_of_lt]
        exact Nat.lt_succ_of_le (env.evalUint_le hFit hUint)
  | unary op operand =>
    cases op with
    | not => cases hWrites
    | plus => exact evalUint_of_showUint hFit (eval_unary_plus env) h
    | minus => exact evalUint_of_showUint hFit (eval_unary_minus env) h
  | num n => exact evalUint_of_showUint hFit rfl h
  | call str args => exact evalUint_of_showUint hFit (eval_builtIn env hWrites) h
  | ident str | quote str | string str | nil => cases hWrites

/-- The two evaluations agree on everything but a division by zero. -/
theorem evaluationsAgree_iff (env : Environment) (exp : ComputedExp) (hFit : exp.NumsFit) :
    EvaluationsAgree env exp ↔ ¬ DividesByZero env exp := by
  constructor
  · intro hAgree hZero
    obtain ⟨left, right, rfl, hLeft, hRight⟩ := exists_of_dividesByZero hZero
    obtain ⟨l, hL⟩ := Option.isSome_iff_exists.mp hLeft
    have hText : (env.eval (.binary .div left right)).2 = some (showInt 0) := by
      rw [eval_arith _ rfl, hL, hRight]
      rfl
    have hUint : env.evalUint (.binary .div left right) = none := by
      rw [evalUint_arith _ rfl, hL, hRight]
      rfl
    obtain ⟨n, -, hNumber⟩ := hAgree.sameNumber rfl _ hText
    rw [hUint] at hNumber
    cases hNumber
  · intro hZero
    refine ⟨fun v hUint => ?_, fun hWrites text => evalUint_of_text hFit hWrites hZero⟩
    obtain ⟨text, hEval, hBack⟩ := eval_of_evalUint hUint
    exact ⟨text, hEval, hBack hFit⟩

theorem evaluationsAgree_wrapped :
    EvaluationsAgree ⟨fun _ => none, fun _ => none, 0⟩ (.binary .plus (.num 4294967295) (.num 2)) :=
  (evaluationsAgree_iff _ (.binary .plus (.num 4294967295) (.num 2))
    ⟨(by decide : 4294967295 ≤ uintMax), (by decide : 2 ≤ uintMax)⟩).mpr id

/-- `_eval` writes a zero, and `_evalUint` gives no number. -/
theorem division_disagrees :
    ¬ EvaluationsAgree ⟨fun _ => none, fun _ => none, 0⟩ (.binary .div (.num 1) (.num 0)) := by
  intro hAgree
  obtain ⟨n, -, hNumber⟩ := hAgree.sameNumber rfl "0".toList rfl
  cases hNumber

end Agreement

section Parser

variable {list operand : Parse}

/-- Every number that the parser puts into an expression fits. -/
def Fits (p : Parse) : Prop := ∀ toks exp rest, p toks = .ok (exp, rest) → exp.NumsFit

theorem fits_num {ch : Text} {n : Nat} (h : stringToUint ch = some n) : NumsFit (.num n) := stringToUint_le h

theorem fits_call {str : Text} {args : ComputedExp} (h : args.NumsFit) : NumsFit (.call str args) := h

theorem fits_unary {op : UnaryOp} {operand : ComputedExp} (h : operand.NumsFit) : NumsFit (.unary op operand) := h

theorem fits_parsePrim (h : Fits list) : Fits (parsePrim list) := by
  intro toks
  fun_induction parsePrim list toks
  case case7 hOperand _ ih | case9 hOperand ih =>
    intro exp rest hParse
    cases hParse
    exact fits_unary (ih _ _ hOperand)
  all_goals
    intro exp rest hParse
    repeat' split at hParse
    all_goals cases hParse
  all_goals first
    | trivial
    | exact fits_num ‹_›
    | exact fits_call (h _ _ _ ‹_›)
    | exact h _ _ _ ‹_›

theorem fits_parseLeft {ops : List (Text × BinaryOp)} (h : Fits operand) {fuel : Nat}
    {lExp : Option (ComputedExp × BinaryOp)} (hLeft : ∀ l ∈ lExp, l.1.NumsFit) :
    Fits (parseLeft ops operand fuel lExp) := by
  intro toks
  fun_induction parseLeft ops operand fuel lExp toks with
  | case1 | case2 => exact fun exp rest hParse => nomatch hParse
  | case3 fuel lExp toks first res hOperand | case5 fuel lExp toks first res tok rest hLookup hOperand =>
    intro exp rest hParse
    cases hParse
    cases lExp with
    | none => exact h _ _ _ hOperand
    | some l => exact ⟨hLeft l rfl, h _ _ _ hOperand⟩
  | case4 fuel lExp toks first res tok rest op hLookup hOperand ih =>
    refine ih fun l hMem => ?_
    cases hMem
    cases lExp with
    | none => exact h _ _ _ hOperand
    | some l => exact ⟨hLeft l rfl, h _ _ _ hOperand⟩

theorem fits_parseRight {op : Text × BinaryOp} (h : Fits operand) {fuel : Nat} : Fits (parseRight op operand fuel) := by
  intro toks
  fun_induction parseRight op operand fuel toks with
  | case1 | case2 | case4 => exact fun exp rest hParse => nomatch hParse
  | case3 fuel toks res hOperand | case6 fuel toks res tok rest hOperand =>
    intro exp rest hParse
    cases hParse
    exact h _ _ _ hOperand
  | case5 fuel toks res rest rExp last hRest hOperand ih =>
    intro exp rest hParse
    cases hParse
    exact ⟨h _ _ _ hOperand, ih _ _ hRest⟩

theorem fits_parseList (fuel : Nat) : Fits (parseList fuel) := by
  induction fuel with
  | zero => exact fun toks exp rest hParse => nomatch hParse
  | succ fuel ih =>
    have hNone : ∀ l ∈ (none : Option (ComputedExp × BinaryOp)), l.1.NumsFit := fun l hMem => nomatch hMem
    have hProd : Fits (parseProd (parseList fuel) (fuel + 1)) := fits_parseLeft (fits_parsePrim ih) hNone
    have hSum : Fits (parseSum (parseList fuel) (fuel + 1)) := fits_parseLeft hProd hNone
    have hCond : Fits (parseCond (parseList fuel) (fuel + 1)) := fits_parseLeft hSum hNone
    have hAnd : Fits (parseAnd (parseList fuel) (fuel + 1)) := fits_parseLeft hCond hNone
    have hOr : Fits (parseOr (parseList fuel) (fuel + 1)) := fits_parseLeft hAnd hNone
    have hConcat : Fits (parseConcat (parseList fuel) (fuel + 1)) := fits_parseLeft hOr hNone
    have hCons : Fits (parseCons (parseList fuel) (fuel + 1)) := fits_parseRight hConcat
    exact fits_parseRight (fits_parseRight hCons)

/-- The expressions that are evaluated come from the parser. -/
theorem numsFit_of_parse {sExp : Text} {exp : ComputedExp} (h : parse sExp = .ok exp) : exp.NumsFit := by
  dsimp only [parse] at h
  split at h
  · cases h
  · rename_i hParse
    cases h
    exact fits_parseList _ _ _ _ hParse
  · cases h

end Parser

end Tr069Agent.Engine.ComputedExp
