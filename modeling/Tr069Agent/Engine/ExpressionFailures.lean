import Tr069Agent.Engine.NumericEvaluation

/-! # Undefined parts of an expression

An evaluation that fails should write no text, so that concatenations, comparisons and truth values with an
undefined part are undefined themselves. A division by zero writes a text all the same, and the truth
value of a call does not depend on whether the function that is called has a value.
-/

namespace Tr069Agent.Engine.ComputedExp

open Library Library.Decimal Library.Lookup

set_option autoImplicit false

/-- The expression itself and its parts inside concatenations, comparisons and truth values. -/
def parts : ComputedExp → List ComputedExp
  | .binary op left right =>
    .binary op left right ::
      if op = .cons || op = .concat || op.isLogic then left.parts ++ right.parts else []
  | .unary .not operand => .unary .not operand :: operand.parts
  | exp => [exp]

/-- With an undefined part, the expression is undefined and no text is written. -/
def Silent (env : Environment) (exp : ComputedExp) : Prop :=
  ∀ part ∈ exp.parts, (env.eval part).1 = false → env.eval exp = noText

/-- A call of `Class` or `DiffTime` without a value has a truth value: that of the internal parameter that the
call would stand for. -/
def CallLapses (env : Environment) : ComputedExp → Prop
  | .call str args =>
    isBuiltIn str args = true ∧ env.evalUint (.call str args) = none ∧
      ((env.internalText str args).bind stringToBool).isSome = true
  | _ => False

/-- An expression that fails and writes a text all the same: a division of a number by zero, also behind
guards that hold. -/
def LeavesText (env : Environment) : ComputedExp → Prop
  | .binary .div left right => DividesByZero env (.binary .div left right)
  | .binary .guard left right => env.evalBool left = some true ∧ LeavesText env right
  | _ => False

mutual

/-- Whether a text is written, from what the expression is made of. -/
def HasText (env : Environment) : ComputedExp → Prop
  | .binary op left right =>
    if op.isArith then (env.evalUint left).isSome = true ∧ (env.evalUint right).isSome = true
    else if op.isComparison then HasText env left ∧ HasText env right
    else if op.isLogic then HasTruth env left ∧ HasTruth env right
    else if op = .guard then env.evalBool left = some true ∧ HasText env right
    else if op = .cons ∨ op = .concat then ¬ LeavesText env left ∧ HasText env left ∧ HasText env right
    else False
  | .unary .not operand => HasTruth env operand
  | .unary _ operand => (env.evalUint operand).isSome = true
  | .ident str | .quote str => (env.getValue str).isSome = true
  | .string _ | .num _ => True
  | .call str args =>
    if isBuiltIn str args then (env.evalUint (.call str args)).isSome = true
    else (env.internalText str args).isSome = true
  | .nil => False

def HasTruth (env : Environment) : ComputedExp → Prop
  | .binary op left right =>
    if op.isComparison then HasText env left ∧ HasText env right
    else if op.isLogic then HasTruth env left ∧ HasTruth env right
    else False
  | .unary .not operand => HasTruth env operand
  | .ident str => ((env.getValue str).bind stringToBool).isSome = true
  | .call str args => ((env.internalText str args).bind stringToBool).isSome = true
  | _ => False

end

/-- An undefined part is not seen: a text that is left behind, or a call that lapses, is taken up by operators
whose operands all have a text, or a truth value. -/
def Hides (env : Environment) : ComputedExp → Prop
  | .binary op left right =>
    if op.isComparison || op = .cons || op = .concat then
      HasText env (.binary op left right) ∧ (Hides env left ∨ Hides env right)
    else if op.isLogic then
      HasTruth env (.binary op left right) ∧
        ((Hides env left ∨ CallLapses env left) ∨ (Hides env right ∨ CallLapses env right))
    else LeavesText env (.binary op left right)
  | .unary .not operand => HasTruth env operand ∧ (Hides env operand ∨ CallLapses env operand)
  | _ => False

section Runs

variable {getValue : Text → Option Text} {op : BinaryOp} {left right : Evaluators}

theorem run_evalGuard :
    (evalGuard left right).run getValue =
      if left.evalBool.run getValue = some true then right.eval.run getValue else noText := by
  rw [evalGuard, run_bind]
  cases left.evalBool.run getValue with
  | none => rfl
  | some guard =>
    cases guard with
    | false => rfl
    | true => rfl

theorem run_evalConcat :
    (evalConcat op left right).run getValue =
      if (left.eval.run getValue).1 = true then
        match (left.eval.run getValue).2, (right.eval.run getValue).2 with
        | some l, some r => (true, some (l ++ (if op = .cons then [':'] else []) ++ r))
        | _, _ => noText
      else noText := by
  rw [evalConcat, run_bind]
  generalize left.eval.run getValue = sLeft
  obtain ⟨ok, text⟩ := sLeft
  cases ok with
  | false =>
    cases text with
    | none => rfl
    | some l => rfl
  | true =>
    simp only [if_true, run_bind]
    generalize right.eval.run getValue = sRight
    obtain ⟨okRight, textRight⟩ := sRight
    cases text with
    | none => rfl
    | some l =>
      cases textRight with
      | none => rfl
      | some r => rfl

theorem run_evalConnective :
    ((evalConnective op left right).run getValue).isSome =
      ((left.evalBool.run getValue).isSome && (right.evalBool.run getValue).isSome) := by
  rw [evalConnective, run_bind]
  cases left.evalBool.run getValue with
  | none => rfl
  | some l =>
    simp only [run_bind]
    cases right.evalBool.run getValue with
    | none => rfl
    | some r => rfl

theorem run_evalTexts :
    ((evalTexts left right).run getValue).isSome =
      ((left.eval.run getValue).2.isSome && (right.eval.run getValue).2.isSome) := by
  rw [evalTexts, run_bind, run_bind]
  cases (left.eval.run getValue).2 with
  | none => rfl
  | some l =>
    cases (right.eval.run getValue).2 with
    | none => rfl
    | some r => rfl

theorem run_evalNumbers {l r : Nat} (h : (evalNumbers left right).run getValue = some (l, r)) :
    left.evalUint.run getValue = some l ∧ right.evalUint.run getValue = some r := by
  rw [evalNumbers, run_bind] at h
  cases hLeft : left.evalUint.run getValue with
  | none =>
    rw [hLeft] at h
    cases h
  | some m =>
    rw [hLeft] at h
    simp only [run_bind] at h
    cases hRight : right.evalUint.run getValue with
    | none =>
      rw [hRight] at h
      cases h
    | some n =>
      rw [hRight] at h
      cases h
      exact ⟨rfl, rfl⟩

/-- A number has a text, so that a comparison of numbers could have been one of texts. -/
theorem run_evalComparison
    (hLeft : ∀ n, left.evalUint.run getValue = some n → (left.eval.run getValue).2.isSome = true)
    (hRight : ∀ n, right.evalUint.run getValue = some n → (right.eval.run getValue).2.isSome = true) :
    ((evalComparison op left right).run getValue).isSome =
      ((left.eval.run getValue).2.isSome && (right.eval.run getValue).2.isSome) := by
  rw [evalComparison, run_bind]
  cases hNumbers : (evalNumbers left right).run getValue with
  | none =>
    simp only [run_bind]
    rw [← run_evalTexts]
    cases (evalTexts left right).run getValue <;> rfl
  | some numbers =>
    obtain ⟨hL, hR⟩ := run_evalNumbers hNumbers
    rw [hLeft _ hL, hRight _ hR]
    rfl

end Runs

section Equations

variable (env : Environment) {op : BinaryOp} {exp left right operand : ComputedExp}

theorem evalUint_of_noText (h : env.eval exp = noText) : env.evalUint exp = none := by
  cases hUint : env.evalUint exp with
  | none => rfl
  | some v =>
    obtain ⟨text, hText, -⟩ := eval_of_evalUint hUint
    rw [h] at hText
    cases hText

theorem eval_logic (hArith : op.isArith = false) (h : op.isLogic = true) :
    env.eval (.binary op left right) = showBool (env.evalBool (.binary op left right)) := by
  simp [Environment.eval, Environment.evalBool, evaluators, evalText, hArith, h]

theorem eval_guard :
    env.eval (.binary .guard left right) = if env.evalBool left = some true then env.eval right else noText :=
  run_evalGuard

theorem eval_concat (h : op = .cons ∨ op = .concat) :
    env.eval (.binary op left right) =
      if (env.eval left).1 = true then
        match (env.eval left).2, (env.eval right).2 with
        | some l, some r => (true, some (l ++ (if op = .cons then [':'] else []) ++ r))
        | _, _ => noText
      else noText := by
  obtain rfl | rfl := h
  · exact run_evalConcat
  · exact run_evalConcat

theorem eval_not : env.eval (.unary .not operand) = showBool (env.evalBool (.unary .not operand)) := by
  simp [Environment.eval, Environment.evalBool, evaluators]

theorem evalBool_not : env.evalBool (.unary .not operand) = (env.evalBool operand).map (!·) := by
  simp [Environment.evalBool, evaluators]

theorem evalBool_connective (h : op = .or ∨ op = .and) :
    (env.evalBool (.binary op left right)).isSome = ((env.evalBool left).isSome && (env.evalBool right).isSome) := by
  obtain rfl | rfl := h
  · exact run_evalConnective
  · exact run_evalConnective

theorem evalBool_comparison (h : op.isComparison = true) :
    (env.evalBool (.binary op left right)).isSome = ((env.eval left).2.isSome && (env.eval right).2.isSome) := by
  have hText (exp : ComputedExp) (n : Nat) (hUint : env.evalUint exp = some n) : (env.eval exp).2.isSome = true := by
    obtain ⟨text, hEval, -⟩ := eval_of_evalUint hUint
    rw [hEval]
    rfl
  simp only [Environment.evalBool, evaluators, evalLogic, h, if_true]
  exact run_evalComparison (hText left) (hText right)

theorem evalBool_other (h : op.isLogic = false) : env.evalBool (.binary op left right) = none := by
  have hComparison : op.isComparison = false := by
    cases op <;> first | rfl | cases h
  simp [Environment.evalBool, evaluators, evalLogic, h, hComparison]

end Equations

section Failures

variable {env : Environment} {exp : ComputedExp}

theorem otherOp_cases {op : BinaryOp} (hArith : op.isArith = false) (hLogic : op.isLogic = false) :
    op = .list ∨ op = .guard ∨ op = .cons ∨ op = .concat := by
  revert hArith hLogic
  cases op <;> decide

theorem logicOp_cases {op : BinaryOp} (h : op.isLogic = true) :
    op.isComparison = true ∨ op = .or ∨ op = .and := by
  revert h
  cases op <;> decide

theorem fst_showUint (n : Option Nat) : (showUint n).1 = (showUint n).2.isSome := by
  cases n <;> rfl

theorem fst_showBool (val : Option Bool) : (showBool val).1 = (showBool val).2.isSome := by
  cases val <;> rfl

theorem eval_div {left right : ComputedExp} {l r : Nat} (hLeft : env.evalUint left = some l)
    (hRight : env.evalUint right = some r) (op : BinaryOp) (hArith : op.isArith = true) :
    (LeavesText env (.binary op left right) ↔ op = .div ∧ r = 0) ∧
      env.eval (.binary op left right) = ((op.arith l r).isSome, some (showInt ((op.arith l r).getD 0))) := by
  constructor
  · cases op with
    | div => simp [LeavesText, DividesByZero, hLeft, hRight]
    | plus | minus | times => simp [LeavesText]
    | _ => cases hArith
  · rw [eval_arith env hArith, hLeft, hRight]

/-- What `_eval` returns tells whether it has written a text, but for a text that is left behind. -/
theorem eval_cases (env : Environment) (exp : ComputedExp) :
    LeavesText env exp ∧ (env.eval exp).1 = false ∧ (env.eval exp).2.isSome = true ∨
      ¬ LeavesText env exp ∧ (env.eval exp).1 = (env.eval exp).2.isSome := by
  induction exp with
  | binary op left right ihLeft ihRight =>
    cases hArith : op.isArith with
    | true =>
      have hFails (hNumber : env.evalUint left = none ∨ env.evalUint right = none) :
          ¬ LeavesText env (.binary op left right) ∧ env.eval (.binary op left right) = noText := by
        constructor
        · intro hLeaves
          cases op with
          | div =>
            obtain ⟨hLeft, hRight⟩ := hLeaves
            rcases hNumber with hNone | hNone
            · rw [hNone] at hLeft
              cases hLeft
            · rw [hNone] at hRight
              cases hRight
          | guard => cases hArith
          | _ => exact hLeaves
        · rw [eval_arith env hArith]
          rcases hNumber with hNone | hNone
          · rw [hNone]
          · rw [hNone]
            cases env.evalUint left <;> rfl
      cases hLeft : env.evalUint left with
      | none =>
        obtain ⟨hNot, hNone⟩ := hFails (.inl hLeft)
        exact .inr ⟨hNot, by rw [hNone]; rfl⟩
      | some l =>
        cases hRight : env.evalUint right with
        | none =>
          obtain ⟨hNot, hNone⟩ := hFails (.inr hRight)
          exact .inr ⟨hNot, by rw [hNone]; rfl⟩
        | some r =>
          obtain ⟨hLeaves, hEval⟩ := eval_div hLeft hRight op hArith
          rw [hLeaves, hEval, ← arith_eq_none_iff hArith]
          cases op.arith l r with
          | none => exact .inl ⟨rfl, rfl, rfl⟩
          | some v => exact .inr ⟨nofun, rfl⟩
    | false =>
      cases hLogic : op.isLogic with
      | true =>
        rw [eval_logic env hArith hLogic]
        refine .inr ⟨?_, fst_showBool _⟩
        revert hArith hLogic
        cases op <;> simp [LeavesText, BinaryOp.isLogic, BinaryOp.isComparison, BinaryOp.isArith]
      | false =>
        obtain rfl | rfl | hConcat := otherOp_cases hArith hLogic
        · exact .inr ⟨not_false, rfl⟩
        · rw [eval_guard, LeavesText]
          split
          · rename_i hGuard
            simpa only [hGuard, true_and] using ihRight
          · rename_i hGuard
            exact .inr ⟨fun h => hGuard h.1, rfl⟩
        · refine .inr ⟨?_, ?_⟩
          · obtain rfl | rfl := hConcat
            · exact not_false
            · exact not_false
          · rw [eval_concat env hConcat]
            split
            · split
              · rfl
              · rfl
            · rfl
  | unary op operand ih =>
    cases op with
    | not => exact .inr ⟨not_false, by rw [eval_not]; exact fst_showBool _⟩
    | plus => exact .inr ⟨not_false, by rw [eval_unary_plus]; exact fst_showUint _⟩
    | minus => exact .inr ⟨not_false, by rw [eval_unary_minus]; exact fst_showUint _⟩
  | ident str | quote str | string str | num n | nil => exact .inr ⟨not_false, rfl⟩
  | call str args ih =>
    refine .inr ⟨not_false, ?_⟩
    cases hCall : isBuiltIn str args with
    | true =>
      rw [eval_builtIn env hCall]
      exact fst_showUint _
    | false => rw [(eval_internal env hCall).1]

theorem leavesText_iff : LeavesText env exp ↔ (env.eval exp).1 = false ∧ (env.eval exp).2.isSome = true := by
  obtain h | ⟨hNot, hFst⟩ := eval_cases env exp
  · exact iff_of_true h.1 h.2
  · refine iff_of_false hNot ?_
    rintro ⟨hFalse, hSome⟩
    rw [hFst, hSome] at hFalse
    cases hFalse

theorem eval_eq_noText_iff : env.eval exp = noText ↔ (env.eval exp).2.isSome = false := by
  constructor
  · intro h
    rw [h]
    rfl
  · intro hNone
    obtain ⟨-, -, hSome⟩ | ⟨-, hFst⟩ := eval_cases env exp
    · rw [hNone] at hSome
      cases hSome
    · rw [hNone] at hFst
      exact Prod.ext hFst (Option.isSome_eq_false_iff.mp hNone |> Option.isNone_iff_eq_none.mp)

/-- The left side of a concatenation is taken where it does not fail. -/
theorem text_concat {op : BinaryOp} {left right : ComputedExp} (h : op = .cons ∨ op = .concat) :
    (env.eval (.binary op left right)).2.isSome = true ↔
      ¬ LeavesText env left ∧ (env.eval left).2.isSome = true ∧ (env.eval right).2.isSome = true := by
  rw [eval_concat env h, leavesText_iff]
  have hLeft := eval_cases env left
  rw [leavesText_iff] at hLeft
  generalize env.eval left = sLeft at hLeft ⊢
  obtain ⟨ok, text⟩ := sLeft
  cases text with
  | none =>
    cases ok <;> simp [noText]
  | some l =>
    cases ok with
    | false => simp [noText]
    | true =>
      cases hRight : (env.eval right).2 with
      | none => simp [noText]
      | some r => simp

theorem hasText_and_hasTruth (env : Environment) (exp : ComputedExp) :
    (HasText env exp ↔ (env.eval exp).2.isSome = true) ∧ (HasTruth env exp ↔ (env.evalBool exp).isSome = true) := by
  have hBool (val : Option Bool) : (showBool val).2.isSome = val.isSome := by
    cases val <;> rfl
  have hUint (n : Option Nat) : (showUint n).2.isSome = n.isSome := by
    cases n <;> rfl
  induction exp with
  | binary op left right ihLeft ihRight =>
    cases hArith : op.isArith with
    | true =>
      have hOther : op.isLogic = false ∧ op.isComparison = false := by
        revert hArith
        cases op <;> decide
      rw [HasText, HasTruth, if_pos hArith, hOther.1, hOther.2, evalBool_other env hOther.1, eval_arith env hArith]
      refine ⟨?_, by simp⟩
      cases env.evalUint left with
      | none => simp [noText]
      | some l =>
        cases env.evalUint right with
        | none => simp [noText]
        | some r => simp
    | false =>
      cases hLogic : op.isLogic with
      | true =>
        have hTruth : HasTruth env (.binary op left right) ↔ (env.evalBool (.binary op left right)).isSome = true := by
          rw [HasTruth]
          cases hComparison : op.isComparison with
          | true => rw [if_pos rfl, evalBool_comparison env hComparison, ihLeft.1, ihRight.1, Bool.and_eq_true]
          | false =>
            have hConnective := (logicOp_cases hLogic).resolve_left (by rw [hComparison]; exact Bool.false_ne_true)
            rw [hLogic, if_neg Bool.false_ne_true, if_pos rfl, evalBool_connective env hConnective, ihLeft.2,
              ihRight.2, Bool.and_eq_true]
        refine ⟨?_, hTruth⟩
        rw [eval_logic env hArith hLogic, hBool, ← hTruth, HasText, HasTruth, hArith, hLogic,
          if_neg Bool.false_ne_true]
        simp only [if_true]
      | false =>
        have hComparison : op.isComparison = false := by
          revert hLogic
          cases op <;> decide
        refine ⟨?_, by rw [HasTruth, hComparison, hLogic, evalBool_other env hLogic]; simp⟩
        rw [HasText, hArith, hComparison, hLogic]
        obtain rfl | rfl | hConcat := otherOp_cases hArith hLogic
        · exact iff_of_false (by simp) (fun h => by cases h)
        · rw [eval_guard]
          simp only [Bool.false_eq_true, if_false, if_true, ihRight.1]
          split
          · simp_all
          · simp_all [noText]
        · rw [text_concat hConcat, ← ihLeft.1, ← ihRight.1]
          obtain rfl | rfl := hConcat
          · simp
          · simp
  | unary op operand ih =>
    cases op with
    | not =>
      rw [HasText, HasTruth, eval_not, hBool, evalBool_not, Option.isSome_map]
      exact ⟨ih.2, ih.2⟩
    | plus =>
      rw [eval_unary_plus, hUint]
      exact ⟨Iff.rfl, by simp [HasTruth, Environment.evalBool, evaluators]⟩
    | minus =>
      rw [eval_unary_minus, hUint]
      refine ⟨?_, by simp [HasTruth, Environment.evalBool, evaluators]⟩
      have hNegate : env.evalUint (.unary .minus operand) = (env.evalUint operand).map negate := by
        simp [Environment.evalUint, evaluators]
      rw [hNegate, Option.isSome_map]
      exact Iff.rfl
  | ident str => exact ⟨Iff.rfl, Iff.rfl⟩
  | quote str => exact ⟨Iff.rfl, by simp [HasTruth, Environment.evalBool, evaluators]⟩
  | string str | num n => exact ⟨iff_of_true trivial rfl, by simp [HasTruth, Environment.evalBool, evaluators]⟩
  | nil => exact ⟨iff_of_false not_false (fun h => by cases h), by simp [HasTruth, Environment.evalBool, evaluators]⟩
  | call str args ih =>
    rw [HasText, HasTruth, evalBool_call]
    refine ⟨?_, Iff.rfl⟩
    cases hCall : isBuiltIn str args with
    | true => rw [if_pos rfl, eval_builtIn env hCall, hUint]
    | false => rw [if_neg Bool.false_ne_true, (eval_internal env hCall).1]

theorem hasText_iff : HasText env exp ↔ (env.eval exp).2.isSome = true := (hasText_and_hasTruth env exp).1

theorem hasTruth_iff : HasTruth env exp ↔ (env.evalBool exp).isSome = true := (hasText_and_hasTruth env exp).2

theorem noText_of_callLapses (h : CallLapses env exp) : env.eval exp = noText ∧ (env.evalBool exp).isSome = true := by
  cases exp with
  | call str args =>
    obtain ⟨hCall, hUint, hBool⟩ := h
    rw [eval_builtIn env hCall, hUint, evalBool_call]
    exact ⟨rfl, hBool⟩
  | _ => cases h

theorem text_of_bind {α : Type} {text : Option Text} {f : Text → Option α} (h : (text.bind f).isSome = true) :
    text.isSome = true := by
  cases text with
  | none => cases h
  | some text => rfl

/-- An expression with a truth value has a text, unless it is a call that lapses. -/
theorem callLapses_of_noText (hBool : (env.evalBool exp).isSome = true) (hText : env.eval exp = noText) :
    CallLapses env exp := by
  cases exp with
  | binary op left right =>
    cases hLogic : op.isLogic with
    | false =>
      rw [evalBool_other env hLogic] at hBool
      cases hBool
    | true =>
      have hArith : op.isArith = false := by
        cases op <;> first | rfl | cases hLogic
      rw [eval_logic env hArith hLogic] at hText
      obtain ⟨val, hVal⟩ := Option.isSome_iff_exists.mp hBool
      rw [hVal] at hText
      cases hText
  | unary op operand =>
    cases op with
    | not =>
      rw [eval_not] at hText
      obtain ⟨val, hVal⟩ := Option.isSome_iff_exists.mp hBool
      rw [hVal] at hText
      cases hText
    | plus | minus => cases hBool
  | ident str =>
    have hSome : (env.getValue str).isSome = true := text_of_bind hBool
    have hNone : env.getValue str = none := congrArg Prod.snd hText
    rw [hNone] at hSome
    cases hSome
  | quote str | string str | num n | nil => cases hBool
  | call str args =>
    rw [evalBool_call] at hBool
    cases hCall : isBuiltIn str args with
    | true => exact ⟨hCall, evalUint_of_noText env hText, hBool⟩
    | false =>
      have hSome := text_of_bind hBool
      rw [(eval_internal env hCall).1] at hText
      have hNone : env.internalText str args = none := congrArg Prod.snd hText
      rw [hNone] at hSome
      cases hSome

theorem self_mem_parts (exp : ComputedExp) : exp ∈ exp.parts := by
  cases exp with
  | binary op left right => exact List.mem_cons_self
  | unary op operand => cases op <;> exact List.mem_cons_self
  | _ => exact List.mem_cons_self

/-- Some part is undefined. -/
def Fails (env : Environment) (exp : ComputedExp) : Prop := ∃ part ∈ exp.parts, (env.eval part).1 = false

theorem fails_of_noText (h : env.eval exp = noText) : Fails env exp :=
  ⟨exp, self_mem_parts exp, by rw [h]; rfl⟩

theorem leavesText_iff_fails (h : exp.parts = [exp]) : LeavesText env exp ↔ HasText env exp ∧ Fails env exp := by
  rw [Fails, h, hasText_iff, leavesText_iff]
  simp only [List.mem_singleton, exists_eq_left]
  exact and_comm

theorem fails_truth (ih : Hides env exp ↔ HasText env exp ∧ Fails env exp) (h : HasTruth env exp) :
    Hides env exp ∨ CallLapses env exp ↔ Fails env exp := by
  rw [ih, hasText_iff]
  constructor
  · rintro (⟨-, hFails⟩ | hCall)
    · exact hFails
    · exact fails_of_noText (noText_of_callLapses hCall).1
  · intro hFails
    cases hText : (env.eval exp).2.isSome with
    | true => exact .inl ⟨rfl, hFails⟩
    | false => exact .inr (callLapses_of_noText (hasTruth_iff.mp h) (eval_eq_noText_iff.mpr hText))

theorem not_leavesText_binary {op : BinaryOp} {left right : ComputedExp}
    (h : (op = .cons || op = .concat || op.isLogic) = true) : ¬ LeavesText env (.binary op left right) := by
  revert h
  cases op <;> simp [LeavesText, BinaryOp.isLogic, BinaryOp.isComparison]

theorem fails_binary {op : BinaryOp} {left right : ComputedExp}
    (h : (op = .cons || op = .concat || op.isLogic) = true) (hText : HasText env (.binary op left right)) :
    Fails env (.binary op left right) ↔ Fails env left ∨ Fails env right := by
  have hSelf : ((env.eval (.binary op left right)).1 = false) = False := eq_false fun hFalse =>
    not_leavesText_binary h (leavesText_iff.mpr ⟨hFalse, hasText_iff.mp hText⟩)
  simp only [Fails, parts, h, if_true, List.mem_cons, List.mem_append, or_and_right, exists_or, exists_eq_left, hSelf,
    false_or]

theorem hides_singleton (hParts : exp.parts = [exp]) (hHides : Hides env exp ↔ LeavesText env exp) :
    Hides env exp ↔ HasText env exp ∧ Fails env exp :=
  hHides.trans (leavesText_iff_fails hParts)

/-- What hides is told by the parts that fail. -/
theorem hides_iff (env : Environment) (exp : ComputedExp) : Hides env exp ↔ HasText env exp ∧ Fails env exp := by
  induction exp with
  | binary op left right ihLeft ihRight =>
    rw [Hides]
    split
    · rename_i hKind
      have hParts : (op = .cons || op = .concat || op.isLogic) = true := by
        revert hKind
        cases op <;> decide
      refine and_congr_right fun hText => ?_
      have hBoth : HasText env left ∧ HasText env right := by
        revert hText hKind
        cases op <;> simp +contextual [HasText, BinaryOp.isComparison, BinaryOp.isArith, BinaryOp.isLogic]
      rw [fails_binary hParts hText, ihLeft, ihRight]
      simp only [hBoth.1, hBoth.2, true_and]
    · rename_i hKind
      split
      · rename_i hLogic
        have hConnective : op = .or ∨ op = .and := by
          revert hKind hLogic
          cases op <;> decide
        have hParts : (op = .cons || op = .concat || op.isLogic) = true := by
          rw [hLogic, Bool.or_true]
        have hSame : HasText env (.binary op left right) ↔ HasTruth env (.binary op left right) := by
          obtain rfl | rfl := hConnective
          · rw [HasText, HasTruth]
            rfl
          · rw [HasText, HasTruth]
            rfl
        rw [hSame]
        refine and_congr_right fun hTruth => ?_
        have hBoth : HasTruth env left ∧ HasTruth env right := by
          obtain rfl | rfl := hConnective
          · simpa [HasTruth, BinaryOp.isLogic, BinaryOp.isComparison] using hTruth
          · simpa [HasTruth, BinaryOp.isLogic, BinaryOp.isComparison] using hTruth
        rw [fails_binary hParts (hSame.mpr hTruth), fails_truth ihLeft hBoth.1, fails_truth ihRight hBoth.2]
      · rename_i hLogic
        refine leavesText_iff_fails ?_
        revert hKind hLogic
        cases op <;> simp [parts, BinaryOp.isLogic, BinaryOp.isComparison]
  | unary op operand ih =>
    cases op with
    | not =>
      rw [Hides, HasText]
      refine and_congr_right fun hTruth => ?_
      rw [fails_truth ih hTruth]
      have hSelf : ((env.eval (.unary .not operand)).1 = false) = False := eq_false fun hFalse =>
        (leavesText_iff.mpr ⟨hFalse, hasText_iff.mp hTruth⟩ : LeavesText env (.unary .not operand))
      simp only [Fails, parts, List.mem_cons, or_and_right, exists_or, exists_eq_left, hSelf, false_or]
    | plus | minus => exact hides_singleton (by simp [parts]) (by simp [Hides, LeavesText])
  | ident str | quote str | string str | num n | nil =>
    exact hides_singleton (by simp [parts]) (by simp [Hides, LeavesText])
  | call str args ih => exact hides_singleton (by simp [parts]) (by simp [Hides, LeavesText])

/-- The sum takes no number from the division. -/
example : ¬ Hides ⟨fun _ => some "0".toList, fun _ => none, 0⟩
    (.binary .plus (.num 1) (.binary .div (.num 1) (.num 0))) := not_false

end Failures

end Tr069Agent.Engine.ComputedExp
