import Tr069Agent.Engine.ComputedExp

/-! # Where the parser of expressions runs out of tokens

Only the function for primary expressions compares a token without looking whether there is one: the
parenthesis that should close what it has opened. A reading of the tokens from left to right, which
knows what is expected next and how many parentheses are open, says when that happens.
-/

namespace Tr069Agent.Engine.ComputedExp

open Library Library.Decimal

set_option autoImplicit false

/-- What is expected: an operand, what may follow a name, or what may follow another operand. -/
inductive Place where
  | operand
  | name
  | operator
  deriving DecidableEq

inductive OperandToken where
  | opening
  | sign
  | literal
  | name
  | none
  deriving DecidableEq

def operandToken (tok : Text) : OperandToken :=
  if tok = "(".toList then .opening
  else if tok = "!".toList ∨ tok = "+".toList ∨ tok = "-".toList then .sign
  else
    match tok with
    | [] => .none
    | c :: _ =>
      if quotes.contains c ∨ (stringToUint tok).isSome then .literal
      else if c.isAlpha ∨ c = '.' ∨ c = '_' then .name
      else .none

def binaryOps : List Text :=
  [",", "?", ":", "++", "|", "&", "<", "<=", ">", ">=", "==", "!=", "+", "-", "*", "/"].map String.toList

/-- After an operand: a binary operator or the parenthesis that closes one of those open. -/
def afterOperand (depth : Nat) (tok : Text) : Option (Place × Nat) :=
  if tok ∈ binaryOps then some (.operand, depth)
  else if tok = ")".toList then
    match depth with
    | 0 => none
    | depth + 1 => some (.operator, depth)
  else none

/-- Where an operand is expected and there is none, an empty one stands. -/
def nextPlace (depth : Nat) (tok : Text) : Place → Option (Place × Nat)
  | .operand =>
    match operandToken tok with
    | .opening => some (.operand, depth + 1)
    | .sign => some (.operand, depth)
    | .literal => some (.operator, depth)
    | .name => some (.name, depth)
    | .none => afterOperand depth tok
  | .name => if tok = "(".toList then some (.operand, depth + 1) else afterOperand depth tok
  | .operator => afterOperand depth tok

/-- All tokens are read, and a parenthesis is still open. -/
def endsOpen (place : Place) (depth : Nat) : List Text → Bool
  | [] => depth ≠ 0
  | tok :: toks =>
    match nextPlace depth tok place with
    | none => false
    | some (place, depth) => endsOpen place depth toks

/-- The text ends inside a parenthesis. -/
def EndsInParenthesis (sExp : Text) : Prop := endsOpen .operand 0 (tokens sExp) = true

instance (sExp : Text) : Decidable (EndsInParenthesis sExp) :=
  inferInstanceAs (Decidable (endsOpen .operand 0 (tokens sExp) = true))

/-- What the reading says of the tokens that a parser was given, from what the parser answers: it has
read an operand and stops before a token that is none of its operators. -/
def Reads (ops : List Text) (toks : List Text) : Except ParseError (ComputedExp × List Text) → Prop
  | .ok (_, rest) => rest.length ≤ toks.length ∧ (∀ tok ∈ rest.head?, tok ∉ ops) ∧
      ∀ depth, endsOpen .operand depth toks = endsOpen .operator depth rest
  | .error .noExpression => ∀ depth, endsOpen .operand depth toks = false
  | .error .missingToken => ∀ depth, endsOpen .operand depth toks = true
  | .error .unfinished => False

/-- The reading follows the parser on every list of less than `bound` tokens. -/
def Follows (ops : List Text) (bound : Nat) (parser : Parse) : Prop :=
  ∀ toks : List Text, toks.length < bound → Reads ops toks (parser toks)

section Reading

variable {place : Place} {depth : Nat} {tok : Text} {toks : List Text}

theorem endsOpen_cons {next : Place × Nat} (h : nextPlace depth tok place = some next) :
    endsOpen place depth (tok :: toks) = endsOpen next.1 next.2 toks := by
  rw [endsOpen, h]

theorem endsOpen_stop (h : nextPlace depth tok place = none) : endsOpen place depth (tok :: toks) = false := by
  rw [endsOpen, h]

theorem endsOpen_binaryOp (h : tok ∈ binaryOps) :
    endsOpen .operator depth (tok :: toks) = endsOpen .operand depth toks :=
  @endsOpen_cons .operator depth tok toks (.operand, depth) (if_pos h)

theorem endsOpen_name (h : ∀ tok ∈ toks.head?, tok ≠ "(".toList) :
    endsOpen .name depth toks = endsOpen .operator depth toks := by
  cases toks with
  | nil => rfl
  | cons tok toks =>
    have hNext : nextPlace depth tok .name = nextPlace depth tok .operator := if_neg (h tok rfl)
    rw [endsOpen, endsOpen, hNext]

/-- Behind what stands in parentheses there is the one that closes them, or the parser goes wrong. -/
theorem endsOpen_closing (hOps : tok ∉ binaryOps) :
    endsOpen .operator (depth + 1) (tok :: toks) =
      if tok = ")".toList then endsOpen .operator depth toks else false := by
  split
  · rename_i hClose
    exact @endsOpen_cons .operator (depth + 1) tok toks (.operator, depth)
      ((if_neg hOps).trans (if_pos hClose))
  · rename_i hClose
    apply endsOpen_stop
    exact (if_neg hOps).trans (if_neg hClose)

end Reading

section Parentheses

variable {toks : List Text} {answer : Except ParseError (ComputedExp × List Text)}

/-- What follows an opening parenthesis is read one level deeper. -/
def readClosing (build : ComputedExp → ComputedExp) :
    Except ParseError (ComputedExp × List Text) → Except ParseError (ComputedExp × List Text)
  | .error e => .error e
  | .ok (_, []) => .error .missingToken
  | .ok (res, close :: toks) =>
    if close = ")".toList then .ok (build res, toks) else .error .noExpression

theorem reads_closing {all : List Text} (build : ComputedExp → ComputedExp)
    (hOpen : ∀ depth, endsOpen .operand depth all = endsOpen .operand (depth + 1) toks)
    (hLength : toks.length ≤ all.length) (h : Reads binaryOps toks answer) :
    Reads [] all (readClosing build answer) := by
  cases answer with
  | error e =>
    cases e with
    | noExpression => exact fun depth => (hOpen depth).trans (h (depth + 1))
    | missingToken => exact fun depth => (hOpen depth).trans (h (depth + 1))
    | unfinished => exact h
  | ok result =>
    obtain ⟨res, rest⟩ := result
    obtain ⟨hShorter, hStop, hRead⟩ := h
    cases rest with
    | nil => exact fun depth => (hOpen depth).trans (hRead (depth + 1))
    | cons close rest =>
      have hAll (depth : Nat) := (hOpen depth).trans
        ((hRead (depth + 1)).trans (endsOpen_closing (hStop close rfl)))
      rw [readClosing]
      split
      · rename_i hClose
        simp only [if_pos hClose] at hAll
        refine ⟨?_, fun _ _ => List.not_mem_nil, hAll⟩
        rw [List.length_cons] at hShorter
        omega
      · rename_i hClose
        exact fun depth => (hAll depth).trans (if_neg hClose)

end Parentheses

section Primary

/-- What is read behind a sign. -/
def readOperand (op : UnaryOp) :
    Except ParseError (ComputedExp × List Text) → Except ParseError (ComputedExp × List Text)
  | .error e => .error e
  | .ok (res, toks) => .ok (.unary op res, toks)

variable {list : Parse} {tok : Text} {toks : List Text}

theorem operandToken_eq_opening : operandToken tok = .opening ↔ tok = "(".toList := by
  constructor
  · intro h
    unfold operandToken at h
    split at h
    · assumption
    · repeat' split at h
      all_goals cases h
  · rintro rfl
    decide +kernel

theorem operandToken_eq_sign :
    operandToken tok = .sign ↔ tok = "!".toList ∨ tok = "+".toList ∨ tok = "-".toList := by
  constructor
  · intro h
    unfold operandToken at h
    split at h
    · cases h
    · split at h
      · assumption
      · repeat' split at h
        all_goals cases h
  · rintro (rfl | rfl | rfl) <;> decide +kernel

theorem parsePrim_opening (h : operandToken tok = .opening) :
    parsePrim list (tok :: toks) = readClosing id (list toks) := by
  rw [parsePrim.eq_def]
  dsimp only
  exact if_pos (operandToken_eq_opening.mp h)

theorem parsePrim_sign (h : operandToken tok = .sign) :
    ∃ op, parsePrim list (tok :: toks) = readOperand op (parsePrim list toks) := by
  have hTok := operandToken_eq_sign.mp h
  have hOpening : tok ≠ "(".toList := by
    rintro rfl
    cases operandToken_eq_opening.mpr rfl |>.symm.trans h
  rw [parsePrim.eq_def]
  dsimp only
  rw [if_neg hOpening]
  by_cases hNot : tok = "!".toList
  · exact ⟨.not, if_pos hNot⟩
  · rw [if_neg hNot, if_pos (hTok.resolve_left hNot)]
    exact ⟨_, rfl⟩

theorem operandToken_nil : operandToken [] = .none := by decide

section Other

/-! A token that opens nothing and is no sign. -/

variable {c : Char} {body : Text} (hOpening : operandToken (c :: body) ≠ .opening)
  (hSign : operandToken (c :: body) ≠ .sign)
include hOpening hSign

theorem parsePrim_other :
    parsePrim list ((c :: body) :: toks) =
      if c = '"' then .ok (.string (unquote c body), toks)
      else if quotes.contains c then .ok (.quote (unquote c body), toks)
      else
        match stringToUint (c :: body) with
        | some i => .ok (.num i, toks)
        | none =>
          if c.isAlpha ∨ c = '.' ∨ c = '_' then
            match toks with
            | next :: toks =>
              if next = "(".toList then readClosing (.call (c :: body)) (list toks)
              else .ok (.ident (c :: body), next :: toks)
            | [] => .ok (.ident (c :: body), [])
          else .ok (.nil, (c :: body) :: toks) := by
  obtain ⟨hNot, hPlus⟩ := not_or.mp (mt operandToken_eq_sign.mpr hSign)
  rw [parsePrim.eq_def]
  dsimp only
  rw [if_neg (mt operandToken_eq_opening.mpr hOpening), if_neg hNot, if_neg hPlus]
  rfl

theorem operandToken_other :
    operandToken (c :: body) =
      if quotes.contains c ∨ (stringToUint (c :: body)).isSome then .literal
      else if c.isAlpha ∨ c = '.' ∨ c = '_' then .name
      else .none := by
  unfold operandToken
  rw [if_neg (mt operandToken_eq_opening.mpr hOpening), if_neg (mt operandToken_eq_sign.mpr hSign)]

end Other

theorem parsePrim_literal (h : operandToken tok = .literal) :
    ∃ res, parsePrim list (tok :: toks) = .ok (res, toks) := by
  have hOpening : operandToken tok ≠ .opening := by rw [h]; decide
  have hSign : operandToken tok ≠ .sign := by rw [h]; decide
  cases tok with
  | nil => cases operandToken_nil.symm.trans h
  | cons c body =>
    rw [parsePrim_other hOpening hSign]
    rw [operandToken_other hOpening hSign] at h
    by_cases hString : c = '"'
    · exact ⟨_, if_pos hString⟩
    · rw [if_neg hString]
      by_cases hQuote : quotes.contains c = true
      · exact ⟨_, if_pos hQuote⟩
      · rw [if_neg hQuote]
        cases hNum : stringToUint (c :: body) with
        | some i => exact ⟨_, rfl⟩
        | none =>
          rw [hNum, if_neg (by simpa using hQuote)] at h
          split at h <;> cases h

theorem parsePrim_name (h : operandToken tok = .name) :
    parsePrim list (tok :: toks) =
      match toks with
      | next :: toks =>
        if next = "(".toList then readClosing (.call tok) (list toks) else .ok (.ident tok, next :: toks)
      | [] => .ok (.ident tok, []) := by
  have hOpening : operandToken tok ≠ .opening := by rw [h]; decide
  have hSign : operandToken tok ≠ .sign := by rw [h]; decide
  cases tok with
  | nil => cases operandToken_nil.symm.trans h
  | cons c body =>
    rw [parsePrim_other hOpening hSign]
    rw [operandToken_other hOpening hSign] at h
    split at h
    · cases h
    · rename_i hLiteral
      obtain ⟨hQuote, hNum⟩ := not_or.mp hLiteral
      have hString : c ≠ '"' := by
        rintro rfl
        exact hQuote (by decide)
      split at h
      · rename_i hName
        rw [if_neg hString, if_neg hQuote, Option.not_isSome_iff_eq_none.mp hNum]
        exact if_pos hName
      · cases h

theorem parsePrim_none (h : operandToken tok = .none) : parsePrim list (tok :: toks) = .ok (.nil, tok :: toks) := by
  have hOpening : operandToken tok ≠ .opening := by rw [h]; decide
  have hSign : operandToken tok ≠ .sign := by rw [h]; decide
  cases tok with
  | nil => rfl
  | cons c body =>
    rw [parsePrim_other hOpening hSign]
    rw [operandToken_other hOpening hSign] at h
    split at h
    · cases h
    · rename_i hLiteral
      obtain ⟨hQuote, hNum⟩ := not_or.mp hLiteral
      have hString : c ≠ '"' := by
        rintro rfl
        exact hQuote (by decide)
      split at h
      · cases h
      · rename_i hName
        rw [if_neg hString, if_neg hQuote, Option.not_isSome_iff_eq_none.mp hNum]
        exact if_neg hName

theorem Reads.sign {answer : Except ParseError (ComputedExp × List Text)} (hTok : operandToken tok = .sign)
    (op : UnaryOp) (h : Reads [] toks answer) : Reads [] (tok :: toks) (readOperand op answer) := by
  have hPlace (depth : Nat) : nextPlace depth tok .operand = some (.operand, depth) := by
    rw [nextPlace, hTok]
  have hNext (depth : Nat) : endsOpen .operand depth (tok :: toks) = endsOpen .operand depth toks :=
    endsOpen_cons (hPlace depth)
  cases answer with
  | error e =>
    cases e with
    | noExpression => exact fun depth => (hNext depth).trans (h depth)
    | missingToken => exact fun depth => (hNext depth).trans (h depth)
    | unfinished => exact h
  | ok result =>
    obtain ⟨hShorter, hStop, hRead⟩ := h
    exact ⟨hShorter.trans (Nat.le_succ _), hStop, fun depth => (hNext depth).trans (hRead depth)⟩

theorem follows_parsePrim {bound : Nat} (hList : Follows binaryOps bound list) :
    Follows [] (bound + 1) (parsePrim list) := by
  intro toks hLength
  induction toks with
  | nil => exact ⟨Nat.le_refl _, fun _ _ => List.not_mem_nil, fun _ => rfl⟩
  | cons tok toks ih =>
    rw [List.length_cons] at hLength
    cases hKind : operandToken tok with
    | opening =>
      have hPlace (depth : Nat) : nextPlace depth tok .operand = some (.operand, depth + 1) := by
        rw [nextPlace, hKind]
      rw [parsePrim_opening hKind]
      exact reads_closing id (fun depth => endsOpen_cons (hPlace depth)) (Nat.le_succ _)
        (hList toks (by omega))
    | sign =>
      obtain ⟨op, hParse⟩ := @parsePrim_sign list tok toks hKind
      rw [hParse]
      exact Reads.sign hKind op (ih (by omega))
    | literal =>
      obtain ⟨res, hParse⟩ := @parsePrim_literal list tok toks hKind
      have hPlace (depth : Nat) : nextPlace depth tok .operand = some (.operator, depth) := by
        rw [nextPlace, hKind]
      rw [hParse]
      exact ⟨Nat.le_succ _, fun _ _ => List.not_mem_nil, fun depth => endsOpen_cons (hPlace depth)⟩
    | name =>
      have hPlace (depth : Nat) : nextPlace depth tok .operand = some (.name, depth) := by
        rw [nextPlace, hKind]
      have hNext (depth : Nat) : endsOpen .operand depth (tok :: toks) = endsOpen .name depth toks :=
        endsOpen_cons (hPlace depth)
      rw [parsePrim_name hKind]
      cases toks with
      | nil => exact ⟨Nat.le_succ _, fun _ _ => List.not_mem_nil, hNext⟩
      | cons next toks =>
        dsimp only
        split
        · rename_i hOpen
          rw [List.length_cons] at hLength
          refine reads_closing (.call tok) (fun depth => (hNext depth).trans ?_) (by simp; omega)
            (hList toks (by omega))
          exact @endsOpen_cons .name depth next toks (.operand, depth + 1) (if_pos hOpen)
        · rename_i hOpen
          refine ⟨Nat.le_succ _, fun _ _ => List.not_mem_nil, fun depth => (hNext depth).trans ?_⟩
          apply endsOpen_name
          rintro _ ⟨⟩
          exact hOpen
    | none =>
      rw [parsePrim_none hKind]
      refine ⟨Nat.le_refl _, fun _ _ => List.not_mem_nil, fun depth => ?_⟩
      have hSame : nextPlace depth tok .operand = nextPlace depth tok .operator := by
        rw [nextPlace, hKind]
        rfl
      rw [endsOpen, endsOpen, hSame]

end Primary

section Operators

variable {handled : List Text} {bound : Nat} {operand : Parse}

theorem Reads.behind {ops ops' : List Text} {tok : Text} {rest toks : List Text} {res : ComputedExp}
    {answer : Except ParseError (ComputedExp × List Text)} (hTok : tok ∈ binaryOps)
    (hFirst : Reads ops' toks (.ok (res, tok :: rest))) (h : Reads ops rest answer) :
    Reads ops toks answer := by
  obtain ⟨hShorter, -, hRead⟩ := hFirst
  have hAll (depth : Nat) := (hRead depth).trans (endsOpen_binaryOp hTok)
  cases answer with
  | error e =>
    cases e with
    | noExpression => exact fun depth => (hAll depth).trans (h depth)
    | missingToken => exact fun depth => (hAll depth).trans (h depth)
    | unfinished => exact h
  | ok result =>
    obtain ⟨hRest, hStop, hGo⟩ := h
    refine ⟨?_, hStop, fun depth => (hAll depth).trans (hGo depth)⟩
    rw [List.length_cons] at hShorter
    omega

theorem follows_parseLeft {ops : List (Text × BinaryOp)} (hOps : ∀ op ∈ ops, op.1 ∈ binaryOps)
    (hOperand : Follows handled bound operand) (lExp : Option (ComputedExp × BinaryOp)) :
    Follows (ops.map Prod.fst ++ handled) bound (parseLeft ops operand bound lExp) := by
  have hLoop : ∀ fuel, fuel ≤ bound → ∀ (lExp : Option (ComputedExp × BinaryOp)) (toks : List Text),
      toks.length < fuel → Reads (ops.map Prod.fst ++ handled) toks (parseLeft ops operand fuel lExp toks) := by
    intro fuel
    induction fuel with
    | zero => exact fun _ _ _ h => absurd h (Nat.not_lt_zero _)
    | succ fuel ih =>
      intro hFuel lExp toks hLength
      have hFirst := hOperand toks (by omega)
      rw [parseLeft]
      cases hAnswer : operand toks with
      | error e =>
        rw [hAnswer] at hFirst
        cases e <;> exact hFirst
      | ok result =>
        obtain ⟨res, rest⟩ := result
        rw [hAnswer] at hFirst
        obtain ⟨hShorter, hStop, hRead⟩ := id hFirst
        cases rest with
        | nil => exact ⟨hShorter, by simp, hRead⟩
        | cons tok rest =>
          dsimp only
          split
          · rename_i op hLookup
            have hTok : tok ∈ binaryOps := by
              obtain ⟨front, back, rfl, -⟩ := List.lookup_eq_some_iff.mp hLookup
              exact hOps (tok, op) (by simp)
            have hRest : rest.length < fuel := by
              rw [List.length_cons] at hShorter
              omega
            exact .behind hTok hFirst (ih (by omega) _ rest hRest)
          · rename_i hLookup
            refine ⟨hShorter, ?_, hRead⟩
            rintro _ ⟨⟩ hMem
            rcases List.mem_append.mp hMem with hOp | hHandled
            · obtain ⟨op, hOpMem, rfl⟩ := List.mem_map.mp hOp
              have hNe := List.lookup_eq_none_iff.mp hLookup op hOpMem
              simp at hNe
            · exact hStop tok rfl hHandled
  exact fun toks hLength => hLoop bound (Nat.le_refl _) lExp toks hLength

theorem follows_parseRight {op : Text × BinaryOp} (hOp : op.1 ∈ binaryOps)
    (hOperand : Follows handled bound operand) :
    Follows (op.1 :: handled) bound (parseRight op operand bound) := by
  have hLoop : ∀ fuel, fuel ≤ bound → ∀ toks : List Text,
      toks.length < fuel → Reads (op.1 :: handled) toks (parseRight op operand fuel toks) := by
    intro fuel
    induction fuel with
    | zero => exact fun _ _ h => absurd h (Nat.not_lt_zero _)
    | succ fuel ih =>
      intro hFuel toks hLength
      have hFirst := hOperand toks (by omega)
      rw [parseRight]
      cases hAnswer : operand toks with
      | error e =>
        rw [hAnswer] at hFirst
        cases e <;> exact hFirst
      | ok result =>
        obtain ⟨res, rest⟩ := result
        rw [hAnswer] at hFirst
        obtain ⟨hShorter, hStop, hRead⟩ := id hFirst
        cases rest with
        | nil => exact ⟨hShorter, by simp, hRead⟩
        | cons tok rest =>
          dsimp only
          split
          · rename_i hTok
            have hRest : rest.length < fuel := by
              rw [List.length_cons] at hShorter
              omega
            have hNext := Reads.behind (hTok ▸ hOp) hFirst (ih (by omega) rest hRest)
            cases hRight : parseRight op operand fuel rest with
            | error e =>
              rw [hRight] at hNext
              exact hNext
            | ok result =>
              rw [hRight] at hNext
              exact hNext
          · rename_i hTok
            refine ⟨hShorter, ?_, hRead⟩
            rintro _ ⟨⟩ hMem
            rcases List.mem_cons.mp hMem with hEq | hHandled
            · exact hTok hEq
            · exact hStop tok rfl hHandled
  exact fun toks hLength => hLoop bound (Nat.le_refl _) toks hLength

theorem Reads.mono {ops ops' toks : List Text} {answer : Except ParseError (ComputedExp × List Text)}
    (hOps : ∀ tok ∈ ops', tok ∈ ops) (h : Reads ops toks answer) : Reads ops' toks answer := by
  cases answer with
  | error e => cases e <;> exact h
  | ok result =>
    obtain ⟨hShorter, hStop, hRead⟩ := h
    exact ⟨hShorter, fun tok hTok hMem => hStop tok hTok (hOps tok hMem), hRead⟩

/-- One level above the other, from the primary expressions up to the lists. -/
theorem follows_parseList (fuel : Nat) : Follows binaryOps fuel (parseList fuel) := by
  induction fuel with
  | zero => exact fun _ h => absurd h (Nat.not_lt_zero _)
  | succ fuel ih =>
    have hProd := @follows_parseLeft _ _ _ [("*".toList, .times), ("/".toList, .div)]
      (by decide +kernel) (follows_parsePrim ih) none
    have hSum := @follows_parseLeft _ _ _ [("+".toList, .plus), ("-".toList, .minus)]
      (by decide +kernel) hProd none
    have hCond := @follows_parseLeft _ _ _
      [("<".toList, .lt), ("<=".toList, .le), (">".toList, .gt), (">=".toList, .ge),
        ("==".toList, .eq), ("!=".toList, .ne)]
      (by decide +kernel) hSum none
    have hAnd := @follows_parseLeft _ _ _ [("&".toList, .and)] (by decide +kernel) hCond none
    have hOr := @follows_parseLeft _ _ _ [("|".toList, .or)] (by decide +kernel) hAnd none
    have hConcat := @follows_parseLeft _ _ _ [("++".toList, .concat)] (by decide +kernel) hOr none
    have hCons := @follows_parseRight _ _ _ (":".toList, .cons) (by decide +kernel) hConcat
    have hGuard := @follows_parseRight _ _ _ ("?".toList, .guard) (by decide +kernel) hCons
    have hList := @follows_parseRight _ _ _ (",".toList, .list) (by decide +kernel) hGuard
    intro toks hLength
    exact (hList toks hLength).mono (by decide +kernel)

end Operators

/-- The parser ends, and it gives NULL or a tree. -/
def EndsWell (sExp : Text) : Prop := parse sExp = .error .noExpression ∨ ∃ exp, parse sExp = .ok exp

/-- What is behind the expression keeps it from being one. -/
theorem endsOpen_behind {tok : Text} {toks : List Text} (h : tok ∉ binaryOps) :
    endsOpen .operator 0 (tok :: toks) = false := by
  apply endsOpen_stop
  unfold nextPlace afterOperand
  rw [if_neg h, ite_self]

theorem parse_eq_missingToken (sExp : Text) :
    match parse sExp with
    | .error .missingToken => EndsInParenthesis sExp
    | .error .unfinished => False
    | _ => ¬ EndsInParenthesis sExp := by
  have h := follows_parseList ((tokens sExp).length + 1) (tokens sExp) (Nat.lt_succ_self _)
  unfold parse
  dsimp only
  cases hAnswer : parseList ((tokens sExp).length + 1) (tokens sExp) with
  | error e =>
    rw [hAnswer] at h
    cases e with
    | noExpression => exact Bool.eq_false_iff.mp (h 0)
    | missingToken => exact h 0
    | unfinished => exact h
  | ok result =>
    obtain ⟨res, rest⟩ := result
    rw [hAnswer] at h
    obtain ⟨-, hStop, hRead⟩ := h
    cases rest with
    | nil => exact Bool.eq_false_iff.mp (hRead 0)
    | cons tok rest => exact Bool.eq_false_iff.mp ((hRead 0).trans (endsOpen_behind (hStop tok rfl)))

/-- The parser ends with NULL or a tree exactly when the text does not end inside a parenthesis. -/
theorem endsWell_iff (sExp : Text) : EndsWell sExp ↔ ¬ EndsInParenthesis sExp := by
  have h := parse_eq_missingToken sExp
  unfold EndsWell
  cases hParse : parse sExp with
  | error e =>
    rw [hParse] at h
    cases e with
    | noExpression => exact iff_of_true (.inl rfl) h
    | missingToken => exact iff_of_false (by simp) (not_not_intro h)
    | unfinished => exact h.elim
  | ok exp =>
    rw [hParse] at h
    exact iff_of_true (.inr ⟨exp, rfl⟩) h

theorem openParenthesis_not_endsWell : ¬ EndsWell "(".toList := by
  have hParse : parse "(".toList = .error .missingToken := by decide +kernel
  rw [EndsWell, hParse]
  rintro (h | ⟨exp, h⟩) <;> cases h

end Tr069Agent.Engine.ComputedExp
