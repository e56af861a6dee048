import Tr069Agent.Engine.ComputedExp

/-! # Detection of changes of computed parameters

The names that an evaluation asks for are compared with the names whose flags are looked at. An
evaluation comes to nothing when a name it asks for has no value, so that each name asked for matters.
-/

namespace Tr069Agent.Engine.ComputedExp

open Library Library.Lookup

set_option autoImplicit false

section Strictness

/-- A name without a value that is asked for makes the evaluation fail, and what the evaluation to a
number asks for is also asked for by the evaluation to a text. -/
structure StrictEvaluators (ev : Evaluators) : Prop where
  evalUint : Strict ev.evalUint (· = none)
  evalBool : Strict ev.evalBool (· = none)
  eval : Strict ev.eval (· = noText)
  evalClass : ∀ val c, Strict (ev.evalClass val c) (· = none)
  uint_asked : ∀ env, ev.evalUint.asked env ⊆ ev.eval.asked env

variable {op : BinaryOp} {left right : Evaluators}

theorem strict_uintValue (name : Text) : Strict (uintValue name) (· = none) := by
  rintro env ⟨other, hMem, hNone⟩
  simp only [uintValue, asked_bind, asked_get, asked_pure, List.append_nil, List.mem_singleton] at hMem
  subst hMem
  simp [uintValue, hNone]

theorem strict_boolValue (name : Text) : Strict (boolValue name) (· = none) := by
  rintro env ⟨other, hMem, hNone⟩
  simp only [boolValue, asked_bind, asked_get, asked_pure, List.append_nil, List.mem_singleton] at hMem
  subst hMem
  simp [boolValue, hNone]

theorem strict_textValue (name : Text) : Strict (textValue name) (· = noText) := by
  rintro env ⟨other, hMem, hNone⟩
  simp only [textValue, asked_bind, asked_get, asked_pure, List.append_nil, List.mem_singleton] at hMem
  subst hMem
  simp [textValue, hNone, noText]

theorem strict_bindSome {α γ : Type} {p : Read (Option α)} {fails : γ → Prop} {f : Option α → Read γ}
    (hStrict : Strict p (· = none)) (hNone : ∀ env, fails ((f none).run env))
    (hEnd : Strict (f none) fails) (hNext : ∀ value, Strict (f (some value)) fails) :
    Strict (p >>= f) fails := by
  refine hStrict.bind (fun result => ?_) fun env h => ?_
  · cases result with
    | none => exact hEnd
    | some value => exact hNext value
  · rw [h]
    exact hNone env

theorem strict_evalNumbers (hLeft : StrictEvaluators left) (hRight : StrictEvaluators right) :
    Strict (evalNumbers left right) (· = none) := by
  rw [evalNumbers]
  refine strict_bindSome hLeft.evalUint (fun _ => rfl) (strict_pure _ _) fun l => ?_
  exact strict_bindSome hRight.evalUint (fun _ => rfl) (strict_pure _ _) fun r => strict_pure _ _

theorem strict_evalConnective (hLeft : StrictEvaluators left) (hRight : StrictEvaluators right) :
    Strict (evalConnective op left right) (· = none) := by
  rw [evalConnective]
  refine strict_bindSome hLeft.evalBool (fun _ => rfl) (strict_pure _ _) fun l => ?_
  exact strict_bindSome hRight.evalBool (fun _ => rfl) (strict_pure _ _) fun r => strict_pure _ _

theorem asked_evalNumbers {env : Text → Option Text} {name : Text}
    (h : name ∈ (evalNumbers left right).asked env) :
    name ∈ left.evalUint.asked env ∨ name ∈ right.evalUint.asked env := by
  rw [evalNumbers, asked_bind, List.mem_append] at h
  obtain hLeft | hMore := h
  · exact .inl hLeft
  · cases hRun : left.evalUint.run env with
    | none => simp [hRun] at hMore
    | some l =>
      simp only [hRun, asked_bind, List.mem_append] at hMore
      obtain hRight | hEnd := hMore
      · exact .inr hRight
      · cases hRun' : right.evalUint.run env with
        | none => simp [hRun'] at hEnd
        | some r => simp [hRun'] at hEnd

theorem asked_evalTexts {env : Text → Option Text} {name : Text} :
    name ∈ (evalTexts left right).asked env ↔ name ∈ left.eval.asked env ∨ name ∈ right.eval.asked env := by
  rw [evalTexts, asked_bind, List.mem_append, asked_bind, List.mem_append]
  cases (left.eval.run env).2 with
  | none => simp
  | some l =>
    cases (right.eval.run env).2 with
    | none => simp
    | some r => simp

theorem strict_evalTexts (hLeft : StrictEvaluators left) (hRight : StrictEvaluators right) :
    Strict (evalTexts left right) (· = none) := by
  rintro env ⟨name, hMem, hNone⟩
  obtain hHere | hHere := asked_evalTexts.mp hMem
  · simp [evalTexts, hLeft.eval env ⟨name, hHere, hNone⟩, noText]
  · have hRun := hRight.eval env ⟨name, hHere, hNone⟩
    simp only [evalTexts, run_bind, hRun, noText]
    split <;> simp_all

theorem strict_evalComparison (hLeft : StrictEvaluators left) (hRight : StrictEvaluators right) :
    Strict (evalComparison op left right) (· = none) := by
  have hTexts := strict_evalTexts hLeft hRight
  rintro env ⟨name, hMem, hNone⟩
  rw [evalComparison, asked_bind, List.mem_append] at hMem
  rw [evalComparison, run_bind]
  obtain hHere | hHere := hMem
  · rw [strict_evalNumbers hLeft hRight env ⟨name, hHere, hNone⟩]
    have hAsked : name ∈ (evalTexts left right).asked env := by
      obtain hUint | hUint := asked_evalNumbers hHere
      · exact asked_evalTexts.mpr (.inl (hLeft.uint_asked env hUint))
      · exact asked_evalTexts.mpr (.inr (hRight.uint_asked env hUint))
    simp [hTexts env ⟨name, hAsked, hNone⟩]
  · cases hRun : (evalNumbers left right).run env with
    | some numbers => simp [hRun] at hHere
    | none =>
      simp only [hRun, asked_bind, asked_pure, List.append_nil] at hHere
      simp [hTexts env ⟨name, hHere, hNone⟩]

theorem strict_evalLogic (hLeft : StrictEvaluators left) (hRight : StrictEvaluators right) :
    Strict (evalLogic op left right) (· = none) := by
  rw [evalLogic]
  split
  · exact strict_evalComparison hLeft hRight
  · split
    · exact strict_evalConnective hLeft hRight
    · exact strict_pure _ _

theorem strict_evalGuard (hLeft : StrictEvaluators left) (hRight : StrictEvaluators right) :
    Strict (evalGuard left right) (· = noText) := by
  rw [evalGuard]
  refine strict_bindSome hLeft.evalBool (fun _ => rfl) (strict_pure _ _) fun guard => ?_
  cases guard with
  | true => exact hRight.eval
  | false => exact strict_pure _ _

theorem strict_evalConcat (hLeft : StrictEvaluators left) (hRight : StrictEvaluators right) :
    Strict (evalConcat op left right) (· = noText) := by
  rw [evalConcat]
  refine hLeft.eval.bind (fun sLeft => ?_) fun env h => ?_
  · obtain ⟨ok, text⟩ := sLeft
    cases ok with
    | false =>
      cases text with
      | none => exact strict_pure _ _
      | some text => exact strict_pure _ _
    | true =>
      refine hRight.eval.bind (fun sRight => ?_) fun env h => ?_
      · cases text with
        | none => exact strict_pure _ _
        | some text =>
          obtain ⟨okRight, other⟩ := sRight
          cases other with
          | none => exact strict_pure _ _
          | some other => exact strict_pure _ _
      · rw [h]
        cases text with
        | none => rfl
        | some text => rfl
  · rw [h]
    rfl

theorem strict_evalText (hLeft : StrictEvaluators left) (hRight : StrictEvaluators right) :
    Strict (evalText op left right) (· = noText) := by
  rw [evalText]
  split
  · exact strict_bindSome (strict_evalNumbers hLeft hRight) (fun _ => rfl) (strict_pure _ _)
      fun numbers => strict_pure _ _
  · split
    · refine (strict_evalLogic hLeft hRight).bind (fun val => strict_pure _ _) fun env h => ?_
      rw [h]
      rfl
    · split
      · exact strict_evalGuard hLeft hRight
      · split
        · exact strict_evalConcat hLeft hRight
        · exact strict_pure _ _

theorem strict_evalLastClass {bound : Read (Option Nat)} (h : Strict bound (· = none)) (val c : Nat) :
    Strict (evalLastClass bound val c) (· = none) := by
  rw [evalLastClass]
  exact strict_bindSome h (fun _ => rfl) (strict_pure _ _) fun borne => strict_pure _ _

theorem strict_evalClassCons (hLeft : StrictEvaluators left) (hRight : StrictEvaluators right)
    (empty : Bool) (val c : Nat) : Strict (evalClassCons left right empty val c) (· = none) := by
  have hNext (borne : Nat) : Strict (if val ≤ borne then pure (some c) else right.evalClass val (wrap (c + 1)))
      (· = none) := by
    split
    · exact strict_pure _ _
    · exact hRight.evalClass val (wrap (c + 1))
  rw [evalClassCons]
  cases empty with
  | true => exact hNext uintMax
  | false => exact strict_bindSome hLeft.evalUint (fun _ => rfl) (strict_pure _ _) hNext

section Functions

variable {dateStringToTime : Text → Option Int} {now : Int}

theorem strict_evalTime (hLeft : StrictEvaluators left) :
    Strict (evalTime dateStringToTime left) (· = none) := by
  rw [evalTime]
  refine hLeft.eval.bind (fun str => strict_pure _ _) fun env h => ?_
  rw [h]
  rfl

theorem strict_evalDiffTime {arg2 : Option Evaluators} (hArg2 : ∀ ev ∈ arg2, StrictEvaluators ev)
    (hLeft : StrictEvaluators left) : Strict (evalDiffTime dateStringToTime now arg2 left) (· = none) := by
  have hSecond : Strict (evalSecondTime dateStringToTime now arg2) (· = none) := by
    cases arg2 with
    | none => exact strict_pure _ _
    | some ev => exact strict_evalTime (hArg2 ev rfl)
  rw [evalDiffTime]
  refine strict_bindSome hSecond (fun _ => rfl) (strict_pure _ _) fun t2 => ?_
  exact strict_bindSome (strict_evalTime hLeft) (fun _ => rfl) (strict_pure _ _) fun t1 => strict_pure _ _

theorem strict_evalClassCall (hLeft : StrictEvaluators left) (hRight : StrictEvaluators right) :
    Strict (evalClassCall left right) (· = none) := by
  rw [evalClassCall]
  exact strict_bindSome hLeft.evalUint (fun _ => rfl) (strict_pure _ _) fun val => hRight.evalClass val 0

theorem strictEvaluators_uint {uint : Read (Option Nat)} (h : Strict uint (· = none)) :
    StrictEvaluators
      { evalUint := uint
        evalBool := pure none
        eval := do return showUint (← uint)
        evalClass := evalLastClass uint } where
  evalUint := h
  evalBool := strict_pure _ _
  eval := by
    refine h.bind (fun n => strict_pure _ _) fun env h => ?_
    rw [h]
    rfl
  evalClass := strict_evalLastClass h
  uint_asked env := by
    intro name hMem
    simpa using hMem

theorem strict_evaluateCall {special : Option (Read (Option Nat))} (internal : Option Text)
    (h : ∀ value ∈ special, Strict value (· = none)) : StrictEvaluators (evaluateCall special internal) := by
  have hBool : Strict (evaluateCall special internal).evalBool (· = none) := by
    cases internal with
    | none => exact strict_pure _ _
    | some name => exact strict_boolValue name
  cases special with
  | some value =>
    have hUint := strictEvaluators_uint (h value rfl)
    exact ⟨hUint.evalUint, hBool, hUint.eval, hUint.evalClass, hUint.uint_asked⟩
  | none =>
    cases internal with
    | none =>
      exact ⟨strict_pure _ _, hBool, strict_pure _ _, strict_evalLastClass (strict_pure _ _),
        fun _ => List.Subset.refl _⟩
    | some name =>
      exact ⟨strict_uintValue name, hBool, strict_textValue name, strict_evalLastClass (strict_uintValue name),
        fun _ => List.Subset.refl _⟩

theorem strict_binary (op : BinaryOp) (exp other : ComputedExp)
    (hLeft : StrictEvaluators (evaluators dateStringToTime now exp))
    (hRight : StrictEvaluators (evaluators dateStringToTime now other)) :
    StrictEvaluators (evaluators dateStringToTime now (.binary op exp other)) := by
  have hNumbers := strict_evalNumbers hLeft hRight
  have hUint : Strict (evaluators dateStringToTime now (.binary op exp other)).evalUint (· = none) := by
    dsimp only [evaluators]
    split
    · refine hNumbers.bind (fun numbers => strict_pure _ _) fun env h => ?_
      rw [h]
      rfl
    · exact strict_pure _ _
  refine ⟨hUint, strict_evalLogic hLeft hRight, strict_evalText hLeft hRight, fun val c => ?_, fun env => ?_⟩
  · dsimp only [evaluators]
    split
    · exact strict_evalClassCons hLeft hRight _ val c
    · exact strict_evalLastClass hUint val c
  · intro name hMem
    dsimp only [evaluators] at hMem ⊢
    rw [evalText]
    split at hMem
    · rw [if_pos ‹_›, asked_bind, List.mem_append]
      simp only [asked_bind, asked_pure, List.append_nil] at hMem
      exact .inl hMem
    · simp at hMem

theorem strict_evaluators (exp : ComputedExp) :
    StrictEvaluators (evaluators dateStringToTime now exp) := by
  cases exp with
  | binary op left right => exact strict_binary op left right (strict_evaluators left) (strict_evaluators right)
  | unary op operand =>
    have hOperand := strict_evaluators operand
    cases op with
    | not =>
      have hBool : Strict (do return (← (evaluators dateStringToTime now operand).evalBool).map (!·) :
          Read (Option Bool)) (· = none) := by
        refine hOperand.evalBool.bind (fun val => strict_pure _ _) fun env h => ?_
        rw [h]
        rfl
      refine ⟨strict_pure _ _, hBool, ?_, strict_evalLastClass (strict_pure _ _), fun _ => List.nil_subset _⟩
      refine hBool.bind (fun val => strict_pure _ _) fun env h => ?_
      rw [h]
      rfl
    | plus => exact strictEvaluators_uint hOperand.evalUint
    | minus =>
      refine strictEvaluators_uint (hOperand.evalUint.bind (fun n => strict_pure _ _) fun env h => ?_)
      rw [h]
      rfl
  | ident str =>
    exact ⟨strict_uintValue str, strict_boolValue str, strict_textValue str,
      strict_evalLastClass (strict_uintValue str), fun _ => List.Subset.refl _⟩
  | quote str =>
    exact ⟨strict_uintValue str, strict_pure _ _, strict_textValue str,
      strict_evalLastClass (strict_uintValue str), fun _ => List.Subset.refl _⟩
  | string str =>
    exact ⟨strict_pure _ _, strict_pure _ _, strict_pure _ _, strict_evalLastClass (strict_pure _ _),
      fun _ => List.nil_subset _⟩
  | num n =>
    exact ⟨strict_pure _ _, strict_pure _ _, strict_pure _ _, strict_evalLastClass (strict_pure _ _),
      fun _ => List.nil_subset _⟩
  | call str args =>
    obtain ⟨first, second, rfl⟩ | hNot := em (∃ first second, args = .binary .list first second)
    · have hFirst := strict_evaluators first
      have hSecond := strict_evaluators second
      rw [evaluators]
      apply strict_evaluateCall
      intro value hMem
      split at hMem
      · obtain rfl := Option.some.inj hMem
        exact strict_evalClassCall hFirst hSecond
      · split at hMem
        · obtain rfl := Option.some.inj hMem
          apply strict_evalDiffTime _ hSecond
          intro ev hEv
          split at hEv
          · cases hEv
          · obtain rfl := Option.some.inj hEv
            exact hFirst
        · cases hMem
    · have hArgs := strict_evaluators args
      rw [evaluators]
      · apply strict_evaluateCall
        intro value hMem
        split at hMem
        · obtain rfl := Option.some.inj hMem
          exact strict_evalDiffTime (by simp) hArgs
        · cases hMem
      · exact fun first second hEq => hNot ⟨first, second, hEq⟩
  | nil =>
    exact ⟨strict_pure _ _, strict_pure _ _, strict_pure _ _, fun _ _ => strict_pure _ _,
      fun _ => List.nil_subset _⟩
termination_by sizeOf exp

end Functions

end Strictness

section Time

/-- A call of `DiffTime` with one argument, or with an empty first one, takes the current time. -/
def usesTime : ComputedExp → Bool
  | .binary _ left right => usesTime left || usesTime right
  | .unary _ operand => usesTime operand
  | .call str (.binary .list first second) =>
    (str = diffTimeFct && first = .nil) || usesTime first || usesTime second
  | .call str args => str = diffTimeFct || usesTime args
  | _ => false

/-- Without the current time, an evaluation does not depend on when it is made. -/
theorem evaluators_time {dateStringToTime : Text → Option Int} (now later : Int) (exp : ComputedExp)
    (h : usesTime exp = false) :
    evaluators dateStringToTime now exp = evaluators dateStringToTime later exp := by
  cases exp with
  | binary op left right =>
    rw [usesTime, Bool.or_eq_false_iff] at h
    rw [evaluators, evaluators, evaluators_time now later left h.1, evaluators_time now later right h.2]
  | unary op operand =>
    rw [usesTime] at h
    cases op with
    | not => rw [evaluators, evaluators, evaluators_time now later operand h]
    | plus => rw [evaluators, evaluators, evaluators_time now later operand h]
    | minus => rw [evaluators, evaluators, evaluators_time now later operand h]
  | ident str => rfl
  | quote str => rfl
  | string str => rfl
  | num n => rfl
  | call str args =>
    obtain ⟨first, second, rfl⟩ | hNot := em (∃ first second, args = .binary .list first second)
    · rw [usesTime, Bool.or_eq_false_iff, Bool.or_eq_false_iff, Bool.and_eq_false_iff,
        decide_eq_false_iff_not, decide_eq_false_iff_not] at h
      obtain ⟨⟨hTime, hFirst⟩, hSecond⟩ := h
      rw [evaluators, evaluators, evaluators_time now later first hFirst,
        evaluators_time now later second hSecond]
      obtain hFct | hNil := hTime
      · rw [if_neg hFct, if_neg hFct]
      · rw [if_neg hNil]
        rfl
    · have hArgs : ∀ first second, args = .binary .list first second → False :=
        fun first second hEq => hNot ⟨first, second, hEq⟩
      have hUses : usesTime (.call str args) = (decide (str = diffTimeFct) || usesTime args) := by
        rw [usesTime]
        exact hArgs
      rw [hUses, Bool.or_eq_false_iff, decide_eq_false_iff_not] at h
      rw [evaluators, evaluators, if_neg h.1, if_neg h.1]
      · exact hArgs
      · exact hArgs
  | nil => rfl
termination_by sizeOf exp

end Time

section Flags

variable {dateStringToTime : Text → Option Int} {now : Int} {flag : Text → Bool × Bool}
  {getValue : Text → Option Text}

/-- The names whose flags `_isChanged` looks at as long as none is set, and what it then returns. -/
def looks (dateStringToTime : Text → Option Int) (now : Int) (getValue : Text → Option Text) :
    ComputedExp → Bool × List Text
  | .binary .guard left right =>
    if (evaluators dateStringToTime now left).evalBool.run getValue = some true then
      looks dateStringToTime now getValue right
    else (false, [])
  | .binary _ left right =>
    let l := looks dateStringToTime now getValue left
    let r := looks dateStringToTime now getValue right
    if l.1 then (r.1, l.2 ++ r.2) else l
  | .unary _ operand => looks dateStringToTime now getValue operand
  | .ident str => (true, [str])
  | .call str args =>
    if isPredefinedFunction str then looks dateStringToTime now getValue args
    else
      match internalName str args with
      | some name => (true, [name])
      | none => (false, [])
  | _ => (true, [])

/-- A change is reported exactly when the flag of one of the names looked at is set. -/
theorem isChangedExp_looks (exp : ComputedExp) :
    let report := isChangedExp dateStringToTime now flag getValue exp
    let looked := looks dateStringToTime now getValue exp
    report.changed = looked.2.any (fun name => (flag name).1) ∧
      (report.changed = false → report.result = looked.1) := by
  induction exp with
  | binary op left right ihLeft ihRight =>
    obtain rfl | hGuard := eq_or_ne op .guard
    · dsimp only [isChangedExp, looks]
      split
      · exact ihRight
      · simp
    · have hReport : isChangedExp dateStringToTime now flag getValue (.binary op left right) =
          let l := isChangedExp dateStringToTime now flag getValue left
          let r := isChangedExp dateStringToTime now flag getValue right
          if l.result && !(l.changed && l.pushed) then
            ⟨r.result, l.changed || r.changed, l.pushed || r.pushed⟩ else l := by
        rw [isChangedExp]
        exact hGuard
      have hLooks : looks dateStringToTime now getValue (.binary op left right) =
          let l := looks dateStringToTime now getValue left
          let r := looks dateStringToTime now getValue right
          if l.1 then (r.1, l.2 ++ r.2) else l := by
        rw [looks]
        exact hGuard
      rw [hReport, hLooks]
      generalize isChangedExp dateStringToTime now flag getValue left = l at *
      generalize isChangedExp dateStringToTime now flag getValue right = r at *
      generalize looks dateStringToTime now getValue left = lookedLeft at *
      generalize looks dateStringToTime now getValue right = lookedRight at *
      obtain ⟨result, changed, pushed⟩ := l
      dsimp only at ihLeft ihRight ⊢
      cases changed with
      | true =>
        -- the right side can only add to what the left one reports
        have hChanged : (if result && !(true && pushed) then
            (⟨r.result, true || r.changed, pushed || r.pushed⟩ : Report)
            else ⟨result, true, pushed⟩).changed = true := by
          split
          · rfl
          · rfl
        rw [hChanged]
        constructor
        · split
          · rw [List.any_append, ← ihLeft.1, Bool.true_or]
          · exact ihLeft.1
        · intro hFalse
          cases hFalse
      | false =>
        obtain rfl := ihLeft.2 rfl
        cases hResult : lookedLeft.1 with
        | true =>
          simp only [Bool.false_and, Bool.not_false, Bool.and_self, if_true, Bool.false_or,
            List.any_append, ← ihLeft.1]
          exact ihRight
        | false =>
          simp only [Bool.false_and, Bool.false_eq_true, if_false]
          exact ⟨ihLeft.1, fun _ => hResult.symm⟩
  | unary op operand ih => exact ih
  | ident str => simp [isChangedExp, looks]
  | call str args ih =>
    dsimp only [isChangedExp, looks]
    split
    · exact ih
    · cases internalName str args with
      | none => simp
      | some name => simp
  | quote str => simp [isChangedExp, looks]
  | string str => simp [isChangedExp, looks]
  | num n => simp [isChangedExp, looks]
  | nil => simp [isChangedExp, looks]

end Flags

section Soundness

variable {dateStringToTime : Text → Option Int} {exp : ComputedExp} {after : Text → Option Text}

/-- The flags are set for the names whose values differ. -/
def Flagged (before after : Text → Option Text) (flag : Text → Bool × Bool) : Prop :=
  ∀ name, before name ≠ after name → (flag name).1 = true

/-- Whenever the outcome differs from that of before, a change is reported. -/
def DetectsChanges (dateStringToTime : Text → Option Int) (sExp : Text) (after : Text → Option Text) :
    Prop :=
  ∀ (before : Text → Option Text) (flag : Text → Bool × Bool) (now later : Int),
    Flagged before after flag →
    eval dateStringToTime now sExp before ≠ eval dateStringToTime later sExp after →
    ∃ report, isChanged dateStringToTime later sExp flag after = some report ∧ report.changed = true

/-- An evaluation, at any time. -/
def evaluation (dateStringToTime : Text → Option Int) (exp : ComputedExp) : Read (Bool × Option Text) :=
  (evaluators dateStringToTime 0 exp).eval

def looked (dateStringToTime : Text → Option Int) (after : Text → Option Text) (exp : ComputedExp) :
    List Text :=
  (looks dateStringToTime 0 after exp).2

/-- The flags of the names that the evaluation asks for are looked at, up to the first name without a value. -/
def Tracked (dateStringToTime : Text → Option Int) (after : Text → Option Text) (exp : ComputedExp) :
    Prop :=
  ∀ name ∈ (evaluation dateStringToTime exp).askedFirst after, name ∈ looked dateStringToTime after exp

theorem usesTime_args {str : Text} {args : ComputedExp} (h : usesTime (.call str args) = false) :
    usesTime args = false := by
  obtain ⟨first, second, rfl⟩ | hNot := em (∃ first second, args = .binary .list first second)
  · rw [usesTime, Bool.or_eq_false_iff, Bool.or_eq_false_iff] at h
    rw [usesTime, h.1.2, h.2]
    rfl
  · have hUses : usesTime (.call str args) = (decide (str = diffTimeFct) || usesTime args) := by
      rw [usesTime]
      exact fun first second hEq => hNot ⟨first, second, hEq⟩
    rw [hUses, Bool.or_eq_false_iff] at h
    exact h.2

theorem looks_time (now later : Int) (h : usesTime exp = false) :
    looks dateStringToTime now after exp = looks dateStringToTime later after exp := by
  induction exp with
  | binary op left right ihLeft ihRight =>
    rw [usesTime, Bool.or_eq_false_iff] at h
    obtain rfl | hGuard := eq_or_ne op .guard
    · rw [looks, looks, evaluators_time now later left h.1, ihRight h.2]
    · rw [looks, looks, ihLeft h.1, ihRight h.2]
      · exact hGuard
      · exact hGuard
  | unary op operand ih =>
    rw [usesTime] at h
    rw [looks, looks, ih h]
  | call str args ih =>
    rw [looks, looks]
    split
    · exact ih (usesTime_args h)
    · rfl
  | ident str => rfl
  | quote str => rfl
  | string str => rfl
  | num n => rfl
  | nil => rfl

theorem changed_iff (flag : Text → Bool × Bool) (later : Int) (h : usesTime exp = false) :
    (isChangedExp dateStringToTime later flag after exp).changed = true ↔
      ∃ name ∈ looked dateStringToTime after exp, (flag name).1 = true := by
  rw [(isChangedExp_looks exp).1, looks_time later 0 h, List.any_eq_true]
  rfl

theorem eval_eq_evaluation {sExp : Text} (hParse : parse sExp = .ok exp) (hUses : usesTime exp = false) (now : Int)
    (getValue : Text → Option Text) :
    eval dateStringToTime now sExp getValue = some ((evaluation dateStringToTime exp).run getValue) := by
  rw [eval, hParse, evaluation, evaluators_time 0 now exp hUses]

/-- Where the environments agree on the names of a tracked expression, the outcomes are the same: a missing
value makes both evaluations fail. -/
theorem Tracked.run_eq (h : Tracked dateStringToTime after exp) {before : Text → Option Text}
    (hSame : ∀ name ∈ looked dateStringToTime after exp, before name = after name) :
    (evaluation dateStringToTime exp).run before = (evaluation dateStringToTime exp).run after := by
  have hStrict : Strict (evaluation dateStringToTime exp) (· = noText) := (strict_evaluators exp).eval
  obtain hRun | ⟨hAfter, hBefore⟩ := run_congr_first fun name hMem => hSame name (h name hMem)
  · exact hRun
  · exact (hStrict before hBefore).trans (hStrict after hAfter).symm

theorem detectsChanges_of_tracked {sExp : Text} (hTime : ∀ exp, parse sExp = .ok exp → usesTime exp = false)
    (h : ∀ exp, parse sExp = .ok exp → Tracked dateStringToTime after exp) :
    DetectsChanges dateStringToTime sExp after := by
  intro before flag now later hFlagged hDiffer
  cases hParse : parse sExp with
  | error e => cases e <;> simp [eval, hParse] at hDiffer
  | ok exp =>
    have hUses := hTime exp hParse
    refine ⟨_, by rw [isChanged, hParse], (changed_iff flag later hUses).mpr (not_not.mp fun hNone => hDiffer ?_)⟩
    rw [eval_eq_evaluation hParse hUses, eval_eq_evaluation hParse hUses, (h exp hParse).run_eq]
    exact fun name hLooked => not_not.mp fun hNe => hNone ⟨name, hLooked, hFlagged name hNe⟩

/-- Where the evaluation gives something, a name that is not looked at could lose its value unnoticed. -/
theorem tracked_of_detectsChanges {sExp : Text} (hTime : ∀ exp, parse sExp = .ok exp → usesTime exp = false)
    (hParse : parse sExp = .ok exp) (hText : eval dateStringToTime 0 sExp after ≠ some noText)
    (hDetects : DetectsChanges dateStringToTime sExp after) : Tracked dateStringToTime after exp := by
  have hUses := hTime exp hParse
  have hStrict : Strict (evaluation dateStringToTime exp) (· = noText) := (strict_evaluators exp).eval
  intro name hMem
  have hFails := hStrict.fails_update after (askedFirst_subset after hMem)
  obtain ⟨report, hChanged, hTrue⟩ := hDetects (Function.update after name none)
    (fun other => (decide (other = name), false)) 0 0
    (fun other hDiffer => by
      rw [decide_eq_true_eq]
      exact not_not.mp fun hNe => hDiffer (Function.update_of_ne hNe none after))
    (by rw [eval_eq_evaluation hParse hUses, hFails]; exact hText.symm)
  rw [isChanged, hParse] at hChanged
  obtain rfl := Option.some.inj hChanged
  obtain ⟨other, hLooked, hFlag⟩ := (changed_iff _ 0 hUses).mp hTrue
  rw [decide_eq_true_eq] at hFlag
  exact hFlag ▸ hLooked

section Examples

/-- Only the unknown time is read as a date. -/
def unknownDate (ch : Text) : Option Int := if ch = unknownTime then some 0 else none

def valueOfA (value : Text) (name : Text) : Option Text := if name = "A".toList then some value else none

def flagOfA (name : Text) : Bool × Bool := (decide (name = "A".toList), false)

theorem flagged_valueOfA (value other : Text) : Flagged (valueOfA value) (valueOfA other) flagOfA := by
  intro name hDiffer
  apply decide_eq_true
  apply not_not.mp
  intro hName
  exact hDiffer (by rw [valueOfA, valueOfA, if_neg hName, if_neg hName])

end Examples

end Soundness

end Tr069Agent.Engine.ComputedExp
