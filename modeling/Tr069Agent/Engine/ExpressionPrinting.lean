import Mathlib.Tactic.IntervalCases
import Tr069Agent.Engine.ExpressionSafety

/-! # The grammar of expressions

An expression is printed with a blank between two tokens and with the parentheses that the precedence
of the operators requires; what the parser makes of the text is the expression again.
-/

namespace Tr069Agent.Engine.ComputedExp

open Library Library.Decimal

set_option autoImplicit false

section Printer

def BinaryOp.text : BinaryOp → Text
  | .list => ",".toList
  | .guard => "?".toList
  | .cons => ":".toList
  | .concat => "++".toList
  | .or => "|".toList
  | .and => "&".toList
  | .lt => "<".toList
  | .le => "<=".toList
  | .gt => ">".toList
  | .ge => ">=".toList
  | .eq => "==".toList
  | .ne => "!=".toList
  | .plus => "+".toList
  | .minus => "-".toList
  | .times => "*".toList
  | .div => "/".toList

/-- The precedence of an operator; the greater it is, the more tightly the operator binds. -/
def BinaryOp.level : BinaryOp → Nat
  | .list => 0
  | .guard => 1
  | .cons => 2
  | .concat => 3
  | .or => 4
  | .and => 5
  | .lt | .le | .gt | .ge | .eq | .ne => 6
  | .plus | .minus => 7
  | .times | .div => 8

def BinaryOp.groupsRight (op : BinaryOp) : Bool := op = .list || op = .guard || op = .cons

/-- The levels of the operands: an operand that groups with the operator may have its level. -/
def BinaryOp.leftLevel (op : BinaryOp) : Nat := if op.groupsRight then op.level + 1 else op.level

def BinaryOp.rightLevel (op : BinaryOp) : Nat := if op.groupsRight then op.level else op.level + 1

def UnaryOp.text : UnaryOp → Text
  | .not => "!".toList
  | .plus => "+".toList
  | .minus => "-".toList

def unaryLevel : Nat := 9

def level : ComputedExp → Nat
  | .binary op _ _ => op.level
  | _ => unaryLevel

def parenthesize (toks : List Text) : List Text := "(".toList :: (toks ++ [")".toList])

/-- The tokens of an expression where operators of `limit` and above stand alone. -/
def enclose (limit : Nat) (e : ComputedExp) (toks : List Text) : List Text :=
  if e.level < limit then parenthesize toks else toks

def printTokens : ComputedExp → List Text
  | .binary op left right =>
    enclose op.leftLevel left left.printTokens ++ op.text :: enclose op.rightLevel right right.printTokens
  | .unary op operand => op.text :: enclose unaryLevel operand operand.printTokens
  | .ident str => [str]
  | .num n => [showInt n]
  | .call str args => str :: parenthesize args.printTokens
  | .string str => ['"' :: (str ++ ['"'])]
  | .quote str => ['\'' :: (str ++ ['\''])]
  | .nil => []

def print (e : ComputedExp) : Text := List.intercalate [' '] e.printTokens

/-- A word that does not start with a digit. -/
def IsIdent (str : Text) : Prop :=
  (∀ c ∈ str, isWordChar c = true) ∧ ∃ c ∈ str.head?, c.isAlpha = true ∨ c = '.' ∨ c = '_'

instance (str : Text) : Decidable (IsIdent str) :=
  decidable_of_iff (str.all isWordChar = true ∧
      str.head?.any (fun c => c.isAlpha || decide (c = '.') || decide (c = '_')) = true) <| by
    cases str <;> simp [IsIdent, or_assoc]

/-- The trees of identifiers, unsigned numbers, calls and operators, without empty operands. -/
def Printable : ComputedExp → Prop
  | .binary _ left right => left.Printable ∧ right.Printable
  | .unary _ operand => operand.Printable
  | .ident str => IsIdent str
  | .num n => n ≤ uintMax
  | .call str args => IsIdent str ∧ args.Printable
  | _ => False

def decidablePrintable : (e : ComputedExp) → Decidable e.Printable
  | .binary _ left right =>
    have := decidablePrintable left
    have := decidablePrintable right
    inferInstanceAs (Decidable (left.Printable ∧ right.Printable))
  | .unary _ operand => decidablePrintable operand
  | .ident str => inferInstanceAs (Decidable (IsIdent str))
  | .num n => inferInstanceAs (Decidable (n ≤ uintMax))
  | .call str args =>
    have := decidablePrintable args
    inferInstanceAs (Decidable (IsIdent str ∧ args.Printable))
  | .string _ | .quote _ | .nil => isFalse id

instance : DecidablePred Printable := decidablePrintable

example : print (.binary .minus (.ident "A".toList)
    (.binary .minus (.unary .minus (.num 1)) (.call "F".toList (.binary .list (.num 2) (.ident "B".toList))))) =
    "A - ( - 1 - F ( 2 , B ) )".toList := by
  decide +kernel

end Printer

section Tokens

/-- A text that is one token wherever a blank or nothing follows. -/
def Solid (tok : Text) : Prop :=
  tok ≠ [] ∧ ∀ rest : Text, (∀ c ∈ rest.head?, c = ' ') → getToken (tok ++ rest) = some (tok, rest)

theorem span_append {p : Char → Bool} {tok rest : Text} (hTok : ∀ c ∈ tok, p c = true)
    (hRest : ∀ c ∈ rest.head?, p c = false) : (tok ++ rest).span p = (tok, rest) := by
  have hStop : rest.takeWhile p = [] ∧ rest.dropWhile p = rest := by
    cases rest with
    | nil => exact ⟨rfl, rfl⟩
    | cons c rest =>
      have hC := hRest c rfl
      exact ⟨List.takeWhile_cons_of_neg (by simp [hC]), List.dropWhile_cons_of_neg (by simp [hC])⟩
  rw [List.span_eq_takeWhile_dropWhile, List.takeWhile_append_of_pos hTok,
    List.dropWhile_append_of_pos hTok, hStop.1, hStop.2, List.append_nil]

/-- A first character that is no blank is where the token begins. -/
theorem dropWhile_blank {c : Char} (h : isspace c = false) (text : Text) :
    (c :: text).dropWhile isspace = c :: text :=
  List.dropWhile_cons_of_neg (by simp [h])

theorem getToken_blank (text : Text) : getToken (' ' :: text) = getToken text := by
  unfold getToken
  rw [List.dropWhile_cons_of_pos (by decide)]

theorem toNat_of_isAlpha {c : Char} (h : c.isAlpha = true) :
    65 ≤ c.toNat ∧ c.toNat ≤ 90 ∨ 97 ≤ c.toNat ∧ c.toNat ≤ 122 := by
  have hRange : (decide (c.val ≥ 'A'.val ∧ c.val ≤ 'Z'.val) ||
      decide (c.val ≥ 'a'.val) && decide (c.val ≤ 'z'.val)) = true := h
  simp only [Bool.or_eq_true, Bool.and_eq_true, decide_eq_true_eq, UInt32.le_iff_toNat_le, ge_iff_le] at hRange
  exact hRange

theorem toNat_of_isWordChar {c : Char} (h : isWordChar c = true) : 46 ≤ c.toNat := by
  simp only [isWordChar, Char.isAlphanum, Bool.or_eq_true, decide_eq_true_eq] at h
  obtain ((hAlpha | hDigit) | rfl) | rfl := h
  · have hRange := toNat_of_isAlpha hAlpha
    omega
  · simp only [Char.isDigit, Bool.and_eq_true, decide_eq_true_eq, UInt32.le_iff_toNat_le, ge_iff_le] at hDigit
    have hVal : c.toNat = c.val.toNat := rfl
    have hZero : '0'.val.toNat = 48 := rfl
    omega
  · decide
  · decide

theorem toNat_of_isspace {c : Char} (h : isspace c = true) : c.toNat ≤ 32 := by
  simp only [isspace, Bool.or_eq_true, Bool.and_eq_true, decide_eq_true_eq, Char.le_def,
    UInt32.le_iff_toNat_le] at h
  have hVal : c.toNat = c.val.toNat := rfl
  have hReturn : '\r'.val.toNat = 13 := rfl
  rcases h with rfl | h
  · decide
  · omega

theorem isspace_of_isWordChar {c : Char} (h : isWordChar c = true) : isspace c = false := by
  refine Bool.eq_false_iff.mpr fun hSpace => ?_
  have hLow := toNat_of_isWordChar h
  have hHigh := toNat_of_isspace hSpace
  omega

theorem solid_word {tok : Text} (hTok : tok ≠ []) (hWord : ∀ c ∈ tok, isWordChar c = true) : Solid tok := by
  refine ⟨hTok, fun rest hRest => ?_⟩
  obtain ⟨c, body, rfl⟩ := List.exists_cons_of_ne_nil hTok
  have hC := hWord c List.mem_cons_self
  have hSpan := span_append hWord fun d hd => (hRest d hd) ▸ (by decide : isWordChar ' ' = false)
  unfold getToken
  dsimp only
  rw [List.cons_append, dropWhile_blank (isspace_of_isWordChar hC), if_pos, ← List.cons_append, hSpan]
  rw [List.takeWhile_cons_of_pos hC]
  exact List.cons_ne_nil _ _

theorem solid_operator {tok : Text} (hTok : tok ≠ [])
    (hAll : tok.all (fun c => opChars.contains c && !isWordChar c && !isspace c) = true) : Solid tok := by
  have hChars : ∀ c ∈ tok, opChars.contains c = true ∧ isWordChar c = false ∧ isspace c = false := by
    intro c hc
    simpa [and_assoc] using List.all_eq_true.mp hAll c hc
  refine ⟨hTok, fun rest hRest => ?_⟩
  obtain ⟨c, body, rfl⟩ := List.exists_cons_of_ne_nil hTok
  obtain ⟨hOp, hWord, hSpace⟩ := hChars c List.mem_cons_self
  have hSpan := span_append (fun c hc => (hChars c hc).1) fun d hd =>
    (hRest d hd) ▸ (by decide : opChars.contains ' ' = false)
  unfold getToken
  dsimp only
  rw [List.cons_append, dropWhile_blank hSpace, if_neg, if_pos, ← List.cons_append, hSpan]
  · rw [List.takeWhile_cons_of_pos hOp]
    exact List.cons_ne_nil _ _
  · rw [List.takeWhile_cons_of_neg (by simp [hWord])]
    exact not_not_intro rfl

theorem solid_punctuation {c : Char}
    (h : opChars.contains c = false ∧ isWordChar c = false ∧ isspace c = false ∧ quotes.contains c = false) :
    Solid [c] := by
  obtain ⟨hOp, hWord, hSpace, hQuote⟩ := h
  refine ⟨List.cons_ne_nil _ _, fun rest _ => ?_⟩
  unfold getToken
  dsimp only
  rw [List.singleton_append, dropWhile_blank hSpace, if_neg, if_neg]
  · dsimp only
    rw [hQuote]
    rfl
  · rw [List.takeWhile_cons_of_neg (by rw [hOp]; decide)]
    exact not_not_intro rfl
  · rw [List.takeWhile_cons_of_neg (by simp [hWord])]
    exact not_not_intro rfl

theorem tokensFrom_blank (fuel : Nat) (text : Text) : tokensFrom fuel (' ' :: text) = tokensFrom fuel text := by
  cases fuel with
  | zero => rfl
  | succ fuel => rw [tokensFrom, tokensFrom, getToken_blank]

theorem tokensFrom_intercalate {toks : List Text} (h : ∀ tok ∈ toks, Solid tok) {fuel : Nat}
    (hFuel : toks.length ≤ fuel) : tokensFrom fuel (List.intercalate [' '] toks) = toks := by
  induction toks generalizing fuel with
  | nil => cases fuel <;> rfl
  | cons tok toks ih =>
    obtain ⟨hHead, hTail⟩ := List.forall_mem_cons.mp h
    cases fuel with
    | zero => simp at hFuel
    | succ fuel =>
      have hRest := ih hTail (Nat.le_of_succ_le_succ hFuel)
      cases toks with
      | nil =>
        have hToken := hHead.2 [] (by simp)
        rw [List.append_nil] at hToken
        rw [List.intercalate_singleton, tokensFrom, hToken]
        cases fuel <;> rfl
      | cons next toks =>
        rw [List.intercalate_cons_cons, List.append_assoc, List.singleton_append, tokensFrom,
          hHead.2 _ (by simp)]
        dsimp only
        rw [tokensFrom_blank, hRest]

theorem length_le_intercalate {toks : List Text} (h : ∀ tok ∈ toks, Solid tok) :
    toks.length ≤ (List.intercalate [' '] toks).length := by
  induction toks with
  | nil => exact Nat.le_refl 0
  | cons tok toks ih =>
    obtain ⟨hHead, hTail⟩ := List.forall_mem_cons.mp h
    have hTok := List.length_pos_iff.mpr hHead.1
    have hRest := ih hTail
    cases toks with
    | nil =>
      rw [List.intercalate_singleton]
      exact hTok
    | cons next toks =>
      rw [List.intercalate_cons_cons]
      simp only [List.length_append, List.length_cons, List.length_nil] at hRest ⊢
      omega

theorem tokens_intercalate {toks : List Text} (h : ∀ tok ∈ toks, Solid tok) :
    tokens (List.intercalate [' '] toks) = toks :=
  tokensFrom_intercalate h (length_le_intercalate h)

theorem solid_binaryOp (op : BinaryOp) : Solid op.text := by
  cases op with
  | list => exact solid_punctuation (by decide)
  | and => exact solid_punctuation (by decide)
  | _ => exact solid_operator (by decide) (by decide)

theorem solid_unaryOp (op : UnaryOp) : Solid op.text := by
  cases op <;> exact solid_operator (by decide) (by decide)

theorem solid_parenthesize {toks : List Text} (h : ∀ tok ∈ toks, Solid tok) :
    ∀ tok ∈ parenthesize toks, Solid tok := by
  intro tok hMem
  simp only [parenthesize, List.mem_cons, List.mem_append, List.not_mem_nil, or_false] at hMem
  rcases hMem with rfl | hMem | rfl
  · exact solid_punctuation (by decide)
  · exact h tok hMem
  · exact solid_punctuation (by decide)

theorem solid_enclose {limit : Nat} {e : ComputedExp} {toks : List Text} (h : ∀ tok ∈ toks, Solid tok) :
    ∀ tok ∈ enclose limit e toks, Solid tok := by
  unfold enclose
  split
  · exact solid_parenthesize h
  · exact h

theorem IsIdent.solid {str : Text} (h : IsIdent str) : Solid str := by
  obtain ⟨hWord, c, hHead, -⟩ := h
  refine solid_word ?_ hWord
  rintro rfl
  cases hHead

theorem solid_showInt (n : Nat) : Solid (showInt n) := by
  refine solid_word (showInt_ne_nil n) fun c hc => ?_
  simp [isWordChar, Char.isAlphanum, isDigit_of_mem_toDigits hc]

theorem solid_printTokens {e : ComputedExp} (h : e.Printable) : ∀ tok ∈ e.printTokens, Solid tok := by
  induction e with
  | binary op left right ihLeft ihRight =>
    obtain ⟨hLeft, hRight⟩ := h
    intro tok hMem
    rcases List.mem_append.mp hMem with hMem | hMem
    · exact solid_enclose (ihLeft hLeft) tok hMem
    · rcases List.mem_cons.mp hMem with rfl | hMem
      · exact solid_binaryOp op
      · exact solid_enclose (ihRight hRight) tok hMem
  | unary op operand ih =>
    intro tok hMem
    rcases List.mem_cons.mp hMem with rfl | hMem
    · exact solid_unaryOp op
    · exact solid_enclose (ih h) tok hMem
  | ident str =>
    intro tok hMem
    rw [List.mem_singleton.mp hMem]
    exact IsIdent.solid h
  | num n =>
    intro tok hMem
    rw [List.mem_singleton.mp hMem]
    exact solid_showInt n
  | call str args ih =>
    obtain ⟨hStr, hArgs⟩ := h
    intro tok hMem
    rcases List.mem_cons.mp hMem with rfl | hMem
    · exact IsIdent.solid hStr
    · exact solid_parenthesize (ih hArgs) tok hMem
  | string _ => exact h.elim
  | quote _ => exact h.elim
  | nil => exact h.elim

end Tokens

section Levels

/-- The operators of a level. -/
def opsAt : Nat → List (Text × BinaryOp)
  | 0 => [(",".toList, .list)]
  | 1 => [("?".toList, .guard)]
  | 2 => [(":".toList, .cons)]
  | 3 => [("++".toList, .concat)]
  | 4 => [("|".toList, .or)]
  | 5 => [("&".toList, .and)]
  | 6 => [("<".toList, .lt), ("<=".toList, .le), (">".toList, .gt), (">=".toList, .ge),
      ("==".toList, .eq), ("!=".toList, .ne)]
  | 7 => [("+".toList, .plus), ("-".toList, .minus)]
  | 8 => [("*".toList, .times), ("/".toList, .div)]
  | _ => []

/-- The parser of the operators of a level and above. -/
def parseAt (fuel : Nat) : Nat → Parse
  | 0 => parseList (fuel + 1)
  | 1 => parseGuard (parseList fuel) (fuel + 1)
  | 2 => parseCons (parseList fuel) (fuel + 1)
  | 3 => parseConcat (parseList fuel) (fuel + 1)
  | 4 => parseOr (parseList fuel) (fuel + 1)
  | 5 => parseAnd (parseList fuel) (fuel + 1)
  | 6 => parseCond (parseList fuel) (fuel + 1)
  | 7 => parseSum (parseList fuel) (fuel + 1)
  | 8 => parseProd (parseList fuel) (fuel + 1)
  | _ => parsePrim (parseList fuel)

theorem parseAt_right {op : BinaryOp} (h : op.groupsRight = true) (fuel : Nat) :
    parseAt fuel op.level = parseRight (op.text, op) (parseAt fuel (op.level + 1)) (fuel + 1) := by
  cases op <;> first | rfl | cases h

theorem parseAt_left {op : BinaryOp} (h : op.groupsRight = false) (fuel : Nat) :
    parseAt fuel op.level =
      parseLeft (opsAt op.level) (parseAt fuel (op.level + 1)) (fuel + 1) none := by
  cases op <;> first | rfl | cases h

theorem level_lt (op : BinaryOp) : op.level < unaryLevel := by
  cases op <;> decide

theorem exists_level {limit : Nat} (h : limit < unaryLevel) : ∃ op : BinaryOp, op.level = limit := by
  unfold unaryLevel at h
  interval_cases limit
  · exact ⟨.list, rfl⟩
  · exact ⟨.guard, rfl⟩
  · exact ⟨.cons, rfl⟩
  · exact ⟨.concat, rfl⟩
  · exact ⟨.or, rfl⟩
  · exact ⟨.and, rfl⟩
  · exact ⟨.lt, rfl⟩
  · exact ⟨.plus, rfl⟩
  · exact ⟨.times, rfl⟩

theorem lookup_text (op : BinaryOp) : (opsAt op.level).lookup op.text = some op := by
  cases op <;> decide

theorem lookup_text_of_ne {op : BinaryOp} {limit : Nat} (h : op.level ≠ limit) :
    (opsAt limit).lookup op.text = none := by
  by_cases hLimit : limit < unaryLevel
  · unfold unaryLevel at hLimit
    interval_cases limit <;> cases op <;> first | rfl | exact absurd rfl h
  · have hOps : opsAt limit = [] := by
      unfold unaryLevel at hLimit
      unfold opsAt
      split <;> first | rfl | omega
    rw [hOps]
    rfl

/-- What follows an expression: no operator of the level or above, and nothing that makes a name that
of a function. -/
def Follow (limit : Nat) (rest : List Text) : Prop :=
  ∀ tok ∈ rest.head?, tok ≠ "(".toList ∧ ∀ higher, limit ≤ higher → (opsAt higher).lookup tok = none

theorem Follow.mono {limit higher : Nat} {rest : List Text} (h : Follow limit rest) (hLe : limit ≤ higher) :
    Follow higher rest :=
  fun tok hTok => ⟨(h tok hTok).1, fun _ hHigher => (h tok hTok).2 _ (hLe.trans hHigher)⟩

theorem follow_nil (limit : Nat) : Follow limit [] := fun _ h => nomatch h

theorem follow_binaryOp (op : BinaryOp) (rest : List Text) : Follow (op.level + 1) (op.text :: rest) := by
  rintro _ ⟨⟩
  constructor
  · cases op <;> decide
  · intro higher hHigher
    exact lookup_text_of_ne (Nat.ne_of_lt hHigher)

theorem follow_closing (limit : Nat) (rest : List Text) : Follow limit (")".toList :: rest) := by
  rintro _ ⟨⟩
  constructor
  · decide
  · intro higher _
    unfold opsAt
    split <;> decide

theorem enclose_zero (e : ComputedExp) (toks : List Text) : enclose 0 e toks = toks :=
  if_neg (Nat.not_lt_zero _)

theorem enclose_own {limit : Nat} {e : ComputedExp} (h : e.level = limit) (toks : List Text) :
    enclose limit e toks = toks :=
  if_neg (Nat.not_lt.mpr h.ge)

/-- An operand that has not the level of the operator stands as one level higher. -/
theorem enclose_succ {limit : Nat} {e : ComputedExp} (h : e.level ≠ limit) (toks : List Text) :
    enclose limit e toks = enclose (limit + 1) e toks := by
  unfold enclose
  by_cases hLt : e.level < limit
  · rw [if_pos hLt, if_pos (Nat.lt_succ_of_lt hLt)]
  · rw [if_neg hLt, if_neg (by omega)]

end Levels

section Loops

variable {ops : List (Text × BinaryOp)} {operand : Parse} {res : ComputedExp} {toks rest : List Text}

/-- The loop of a level that groups to the left, behind an operand. -/
def afterLeft (ops : List (Text × BinaryOp)) (operand : Parse) (loop : Nat) (res : ComputedExp) : Parse
  | [] => .ok (res, [])
  | tok :: rest =>
    match ops.lookup tok with
    | some op => parseLeft ops operand loop (some (res, op)) rest
    | none => .ok (res, tok :: rest)

theorem parseLeft_none {loop : Nat} (h : operand toks = .ok (res, rest)) :
    parseLeft ops operand (loop + 1) none toks = afterLeft ops operand loop res rest := by
  rw [parseLeft, h]
  cases rest <;> rfl

theorem parseLeft_some {loop : Nat} {lExp : ComputedExp} {op : BinaryOp} (h : operand toks = .ok (res, rest)) :
    parseLeft ops operand (loop + 1) (some (lExp, op)) toks =
      afterLeft ops operand loop (.binary op lExp res) rest := by
  rw [parseLeft, h]
  cases rest <;> rfl

theorem afterLeft_stop {loop : Nat} (h : ∀ tok ∈ rest.head?, ops.lookup tok = none) :
    afterLeft ops operand loop res rest = .ok (res, rest) := by
  cases rest with
  | nil => rfl
  | cons tok rest => rw [afterLeft, h tok rfl]

theorem parseRight_stop {op : Text × BinaryOp} {loop : Nat} (hOperand : operand toks = .ok (res, rest))
    (h : ∀ tok ∈ rest.head?, tok ≠ op.1) : parseRight op operand (loop + 1) toks = .ok (res, rest) := by
  rw [parseRight, hOperand]
  cases rest with
  | nil => rfl
  | cons tok rest => exact if_neg (h tok rfl)

theorem parseRight_go {op : Text × BinaryOp} {loop : Nat} {rExp : ComputedExp} {more : List Text}
    (hOperand : operand toks = .ok (res, op.1 :: rest))
    (hRight : parseRight op operand loop rest = .ok (rExp, more)) :
    parseRight op operand (loop + 1) toks = .ok (.binary op.2 res rExp, more) := by
  rw [parseRight, hOperand]
  dsimp only
  rw [if_pos rfl, hRight]

end Loops

section Lifting

variable {fuel : Nat} {e : ComputedExp} {toks rest : List Text}

/-- Where no operator of a level follows, the level answers what the level above answers. -/
theorem parseAt_of_succ (op : BinaryOp) (h : parseAt fuel (op.level + 1) toks = .ok (e, rest))
    (hRest : Follow op.level rest) : parseAt fuel op.level toks = .ok (e, rest) := by
  have hStop : ∀ tok ∈ rest.head?, (opsAt op.level).lookup tok = none :=
    fun tok hTok => (hRest tok hTok).2 _ (Nat.le_refl _)
  cases hRight : op.groupsRight with
  | true =>
    rw [parseAt_right hRight]
    refine parseRight_stop h fun tok hTok hEq => ?_
    have hNone := hStop tok hTok
    rw [hEq, lookup_text] at hNone
    cases hNone
  | false =>
    rw [parseAt_left hRight, parseLeft_none h]
    exact afterLeft_stop hStop

theorem parseAt_of_le {limit higher : Nat} (hLe : limit ≤ higher) (hHigher : higher ≤ unaryLevel)
    (h : parseAt fuel higher toks = .ok (e, rest)) (hRest : Follow limit rest) :
    parseAt fuel limit toks = .ok (e, rest) := by
  induction higher, hLe using Nat.le_induction with
  | base => exact h
  | succ higher hLe ih =>
    obtain ⟨op, rfl⟩ := exists_level (Nat.lt_of_succ_le hHigher)
    exact ih (Nat.le_of_succ_le hHigher) (parseAt_of_succ op h (hRest.mono hLe))

/-- The expression is parsed at its own level, whatever follows that is no part of it. -/
def OwnParsed (e : ComputedExp) : Prop :=
  ∀ fuel rest, (e.printTokens ++ rest).length ≤ fuel → Follow e.level rest →
    parseAt fuel e.level (e.printTokens ++ rest) = .ok (e, rest)

/-- The expression is parsed at every level, in parentheses if they are needed. -/
def Parsed (e : ComputedExp) : Prop :=
  ∀ fuel limit rest, (enclose limit e e.printTokens ++ rest).length ≤ fuel → limit ≤ unaryLevel →
    Follow limit rest → parseAt fuel limit (enclose limit e e.printTokens ++ rest) = .ok (e, rest)

theorem level_le (e : ComputedExp) : e.level ≤ unaryLevel := by
  cases e with
  | binary op left right => exact (level_lt op).le
  | _ => exact Nat.le_refl _

theorem OwnParsed.list (h : OwnParsed e) (hFuel : (e.printTokens ++ ")".toList :: rest).length ≤ fuel) :
    parseAt fuel 0 (e.printTokens ++ ")".toList :: rest) = .ok (e, ")".toList :: rest) :=
  parseAt_of_le (Nat.zero_le _) (level_le e) (h fuel _ hFuel (follow_closing _ _)) (follow_closing _ _)

theorem OwnParsed.parsed (h : OwnParsed e) : Parsed e := by
  intro fuel limit rest hFuel hLimit hRest
  by_cases hLevel : e.level < limit
  · rw [enclose, if_pos hLevel, parenthesize, List.cons_append, List.append_assoc, List.singleton_append]
      at hFuel ⊢
    cases fuel with
    | zero => simp at hFuel
    | succ fuel =>
      have hInner := h.list (Nat.le_of_succ_le_succ hFuel)
      refine parseAt_of_le hLimit (Nat.le_refl _) ?_ hRest
      calc
        parsePrim (parseList (fuel + 1)) ("(".toList :: (e.printTokens ++ ")".toList :: rest)) =
            readClosing id (parseAt fuel 0 (e.printTokens ++ ")".toList :: rest)) :=
          parsePrim_opening (operandToken_eq_opening.mpr rfl)
        _ = .ok (e, rest) := by
          rw [hInner]
          rfl
  · rw [enclose, if_neg hLevel] at hFuel ⊢
    have hLe := Nat.le_of_not_lt hLevel
    exact parseAt_of_le hLe (level_le e) (h fuel rest hFuel (hRest.mono hLe)) hRest

/-- The expression as the beginning of a chain of operators that group to the left. -/
def StartsLeft (e : ComputedExp) : Prop :=
  ∀ op : BinaryOp, op.groupsRight = false → ∀ fuel loop rest,
    (enclose op.level e e.printTokens ++ rest).length ≤ fuel →
    (enclose op.level e e.printTokens ++ rest).length < loop → Follow (op.level + 1) rest →
    ∃ loop', rest.length ≤ loop' ∧
      parseLeft (opsAt op.level) (parseAt fuel (op.level + 1)) loop none
          (enclose op.level e e.printTokens ++ rest) =
        afterLeft (opsAt op.level) (parseAt fuel (op.level + 1)) loop' e rest

/-- The expression as the end of a chain of operators that group to the right. -/
def EndsRight (e : ComputedExp) : Prop :=
  ∀ op : BinaryOp, op.groupsRight = true → ∀ fuel loop rest,
    (enclose op.level e e.printTokens ++ rest).length ≤ fuel →
    (enclose op.level e e.printTokens ++ rest).length < loop → Follow op.level rest →
    parseRight (op.text, op) (parseAt fuel (op.level + 1)) loop
      (enclose op.level e e.printTokens ++ rest) = .ok (e, rest)

theorem Parsed.startsLeft {op : BinaryOp} (h : Parsed e) (hLevel : e.level ≠ op.level) {loop : Nat}
    (hFuel : (enclose op.level e e.printTokens ++ rest).length ≤ fuel)
    (hLoop : (enclose op.level e e.printTokens ++ rest).length < loop) (hRest : Follow (op.level + 1) rest) :
    ∃ loop', rest.length ≤ loop' ∧
      parseLeft (opsAt op.level) (parseAt fuel (op.level + 1)) loop none
          (enclose op.level e e.printTokens ++ rest) =
        afterLeft (opsAt op.level) (parseAt fuel (op.level + 1)) loop' e rest := by
  rw [enclose_succ hLevel] at hFuel hLoop ⊢
  cases loop with
  | zero => exact absurd hLoop (Nat.not_lt_zero _)
  | succ loop =>
    refine ⟨loop, ?_, parseLeft_none (h fuel (op.level + 1) rest hFuel (level_lt op) hRest)⟩
    rw [List.length_append] at hLoop
    omega

theorem Parsed.endsRight {op : BinaryOp} (h : Parsed e) (hLevel : e.level ≠ op.level) {loop : Nat}
    (hFuel : (enclose op.level e e.printTokens ++ rest).length ≤ fuel)
    (hLoop : (enclose op.level e e.printTokens ++ rest).length < loop) (hRest : Follow op.level rest) :
    parseRight (op.text, op) (parseAt fuel (op.level + 1)) loop
      (enclose op.level e e.printTokens ++ rest) = .ok (e, rest) := by
  rw [enclose_succ hLevel] at hFuel hLoop ⊢
  cases loop with
  | zero => exact absurd hLoop (Nat.not_lt_zero _)
  | succ loop =>
    refine parseRight_stop (h fuel (op.level + 1) rest hFuel (level_lt op) (hRest.mono (Nat.le_succ _)))
      fun tok hTok hEq => ?_
    have hNone := (hRest tok hTok).2 op.level (Nat.le_refl _)
    rw [hEq, lookup_text] at hNone
    cases hNone

structure RoundTrip (e : ComputedExp) : Prop where
  parsed : Parsed e
  startsLeft : StartsLeft e
  endsRight : EndsRight e

/-- An expression that no binary operator makes. -/
theorem OwnParsed.roundTrip (h : OwnParsed e) (hLevel : e.level = unaryLevel) : RoundTrip e where
  parsed := h.parsed
  startsLeft op _ _ _ _ hFuel hLoop hRest :=
    h.parsed.startsLeft (fun hEq => absurd (level_lt op) (by omega)) hFuel hLoop hRest
  endsRight op _ _ _ _ hFuel hLoop hRest :=
    h.parsed.endsRight (fun hEq => absurd (level_lt op) (by omega)) hFuel hLoop hRest

end Lifting

section Binary

variable {op : BinaryOp} {left right : ComputedExp} {fuel loop : Nat} {rest : List Text}

theorem printTokens_right (h : op.groupsRight = true) (left right : ComputedExp) (rest : List Text) :
    (binary op left right).printTokens ++ rest =
      enclose (op.level + 1) left left.printTokens ++
        op.text :: (enclose op.level right right.printTokens ++ rest) := by
  rw [printTokens, BinaryOp.leftLevel, BinaryOp.rightLevel, if_pos h, if_pos h, List.append_assoc,
    List.cons_append]

theorem printTokens_left (h : op.groupsRight = false) (left right : ComputedExp) (rest : List Text) :
    (binary op left right).printTokens ++ rest =
      enclose op.level left left.printTokens ++
        op.text :: (enclose (op.level + 1) right right.printTokens ++ rest) := by
  have hNot : ¬ op.groupsRight = true := by rw [h]; decide
  rw [printTokens, BinaryOp.leftLevel, BinaryOp.rightLevel, if_neg hNot, if_neg hNot, List.append_assoc,
    List.cons_append]

/-- The loop over a chain that groups to the right: the left operand, the operator, the chain that the
right operand ends. -/
theorem parseRight_binary (hGroups : op.groupsRight = true) (hLeft : Parsed left) (hRight : EndsRight right)
    (hFuel : ((binary op left right).printTokens ++ rest).length ≤ fuel)
    (hLoop : ((binary op left right).printTokens ++ rest).length < loop) (hRest : Follow op.level rest) :
    parseRight (op.text, op) (parseAt fuel (op.level + 1)) loop ((binary op left right).printTokens ++ rest) =
      .ok (binary op left right, rest) := by
  rw [printTokens_right hGroups] at hFuel hLoop ⊢
  have hOperand := hLeft fuel (op.level + 1) _ hFuel (level_lt op)
    (follow_binaryOp op (enclose op.level right right.printTokens ++ rest))
  rw [List.length_append, List.length_cons] at hFuel hLoop
  cases loop with
  | zero => exact absurd hLoop (Nat.not_lt_zero _)
  | succ loop =>
    have hEnd := hRight op hGroups fuel loop rest (by omega) (by omega) hRest
    exact @parseRight_go _ _ _ _ (op.text, op) loop right rest hOperand hEnd

/-- The loop over a chain that groups to the left: the chain that the left operand starts, the operator,
the right operand. -/
theorem parseLeft_binary (hGroups : op.groupsRight = false) (hLeft : StartsLeft left) (hRight : Parsed right)
    (hFuel : ((binary op left right).printTokens ++ rest).length ≤ fuel)
    (hLoop : ((binary op left right).printTokens ++ rest).length < loop) (hRest : Follow (op.level + 1) rest) :
    ∃ loop', rest.length ≤ loop' ∧
      parseLeft (opsAt op.level) (parseAt fuel (op.level + 1)) loop none
          ((binary op left right).printTokens ++ rest) =
        afterLeft (opsAt op.level) (parseAt fuel (op.level + 1)) loop' (binary op left right) rest := by
  rw [printTokens_left hGroups] at hFuel hLoop ⊢
  obtain ⟨loop', hLoop', hStart⟩ := hLeft op hGroups fuel loop _ hFuel hLoop (follow_binaryOp op _)
  rw [List.length_append, List.length_cons] at hFuel
  rw [List.length_cons, List.length_append] at hLoop'
  cases loop' with
  | zero => exact absurd hLoop' (by omega)
  | succ loop' =>
    refine ⟨loop', by omega, hStart.trans ?_⟩
    rw [afterLeft, lookup_text]
    exact parseLeft_some (hRight fuel (op.level + 1) rest (by omega) (level_lt op) hRest)

theorem ownParsed_binary (hLeft : RoundTrip left) (hRight : RoundTrip right) :
    OwnParsed (binary op left right) := by
  intro fuel rest hFuel hRest
  cases hGroups : op.groupsRight with
  | true =>
    refine Eq.trans (congrFun (parseAt_right hGroups fuel) _) ?_
    exact parseRight_binary hGroups hLeft.parsed hRight.endsRight hFuel (Nat.lt_succ_of_le hFuel) hRest
  | false =>
    obtain ⟨loop, -, hLoop⟩ := parseLeft_binary hGroups hLeft.startsLeft hRight.parsed hFuel
      (Nat.lt_succ_of_le hFuel) (hRest.mono (Nat.le_succ _))
    refine Eq.trans (congrFun (parseAt_left hGroups fuel) _) (hLoop.trans ?_)
    exact afterLeft_stop fun tok hTok => (hRest tok hTok).2 _ (Nat.le_refl _)

theorem groupsRight_iff (op : BinaryOp) : op.groupsRight = true ↔ op.level < 3 := by
  cases op <;> decide

theorem eq_of_level {op' : BinaryOp} (hOp : op.groupsRight = true) (h : op.level = op'.level) : op = op' := by
  cases op with
  | list | guard | cons => cases op' <;> first | rfl | cases h
  | _ => cases hOp

theorem roundTrip_binary (hLeft : RoundTrip left) (hRight : RoundTrip right) :
    RoundTrip (binary op left right) where
  parsed := (ownParsed_binary hLeft hRight).parsed
  startsLeft op' hOp' fuel loop rest hFuel hLoop hRest := by
    by_cases hLevel : op.level = op'.level
    · have hGroups : op.groupsRight = false := by
        rw [← Bool.not_eq_true, groupsRight_iff, hLevel, ← groupsRight_iff, hOp']
        decide
      rw [@enclose_own op'.level (binary op left right) hLevel] at hFuel hLoop ⊢
      rw [← hLevel] at hRest ⊢
      exact parseLeft_binary hGroups hLeft.startsLeft hRight.parsed hFuel hLoop hRest
    · exact (ownParsed_binary hLeft hRight).parsed.startsLeft hLevel hFuel hLoop hRest
  endsRight op' hOp' fuel loop rest hFuel hLoop hRest := by
    by_cases hLevel : op.level = op'.level
    · obtain rfl := eq_of_level hOp' hLevel.symm
      rw [@enclose_own op'.level (binary op' left right) rfl] at hFuel hLoop ⊢
      exact parseRight_binary hOp' hLeft.parsed hRight.endsRight hFuel hLoop hRest
    · exact (ownParsed_binary hLeft hRight).parsed.endsRight hLevel hFuel hLoop hRest

end Binary

section Primary

variable {fuel : Nat} {rest : List Text} {str : Text}

theorem isDigit_of_isAlpha {c : Char} (h : c.isAlpha = true) : c.isDigit = false := by
  refine Bool.eq_false_iff.mpr fun hDigit => ?_
  simp only [Char.isDigit, Bool.and_eq_true, decide_eq_true_eq, UInt32.le_iff_toNat_le, ge_iff_le] at hDigit
  have hRange := toNat_of_isAlpha h
  have hVal : c.toNat = c.val.toNat := rfl
  have hNine : '9'.val.toNat = 57 := rfl
  omega

theorem ne_of_isWordChar {c : Char} {body text : Text} (h : isWordChar c = true)
    (hText : text.head?.all (fun d => !isWordChar d) = true) : c :: body ≠ text := by
  rintro rfl
  rw [List.head?_cons, Option.all_some, h] at hText
  cases hText

theorem not_quote_of_isWordChar {c : Char} (h : isWordChar c = true) : quotes.contains c = false := by
  refine Bool.eq_false_iff.mpr fun hQuote => ?_
  have hMem : c = '"' ∨ c = '\'' := by simpa [quotes] using hQuote
  rcases hMem with rfl | rfl <;> cases h

theorem operandToken_word {c : Char} {body : Text} (h : isWordChar c = true) :
    operandToken (c :: body) =
      if (stringToUint (c :: body)).isSome then .literal
      else if c.isAlpha ∨ c = '.' ∨ c = '_' then .name
      else .none := by
  unfold operandToken
  rw [if_neg (ne_of_isWordChar h (by decide)), if_neg]
  · simp only [not_quote_of_isWordChar h, Bool.false_eq_true, false_or]
  · rintro (hEq | hEq | hEq) <;> exact ne_of_isWordChar h (by decide) hEq

theorem IsIdent.operandToken (h : IsIdent str) : operandToken str = .name := by
  obtain ⟨hWord, c, hHead, hC⟩ := h
  cases str with
  | nil => cases hHead
  | cons d body =>
    obtain rfl : d = c := by simpa using hHead
    have hD := hWord d List.mem_cons_self
    have hDigit : d.isDigit = false := by
      rcases hC with hAlpha | rfl | rfl
      · exact isDigit_of_isAlpha hAlpha
      · decide
      · decide
    have hNum : stringToUint (d :: body) = none := by
      rw [stringToUint, dropWhile_blank (isspace_of_isWordChar hD)]
      simp [firstChar, hDigit]
    rw [operandToken_word hD, hNum]
    exact if_pos hC

theorem parsePrim_unary {list : Parse} (op : UnaryOp) (toks : List Text) :
    parsePrim list (op.text :: toks) = readOperand op (parsePrim list toks) := by
  cases op <;> rfl

theorem ownParsed_unary {op : UnaryOp} {operand : ComputedExp} (h : Parsed operand) :
    OwnParsed (unary op operand) := by
  intro fuel rest hFuel hRest
  have hOperand := h fuel unaryLevel rest (Nat.le_of_succ_le hFuel) (Nat.le_refl _) hRest
  calc
    parseAt fuel unaryLevel ((unary op operand).printTokens ++ rest) =
        readOperand op (parseAt fuel unaryLevel (enclose unaryLevel operand operand.printTokens ++ rest)) :=
      parsePrim_unary op _
    _ = .ok (unary op operand, rest) := by
      rw [hOperand]
      rfl

theorem ownParsed_ident (h : IsIdent str) : OwnParsed (ident str) := by
  intro fuel rest _ hRest
  refine (parsePrim_name h.operandToken).trans ?_
  cases rest with
  | nil => rfl
  | cons next rest => exact if_neg (hRest next rfl).1

theorem ownParsed_num {n : Nat} (h : n ≤ uintMax) : OwnParsed (num n) := by
  intro fuel rest _ _
  have hNum := stringToUint_showInt h
  obtain ⟨c, body, hDigits, hDigit⟩ := exists_toDigits_cons n
  have hShow : showInt n = c :: body := hDigits
  have hWord : isWordChar c = true := by simp [isWordChar, Char.isAlphanum, hDigit]
  rw [hShow] at hNum
  have hToken : ComputedExp.operandToken (c :: body) = .literal := by
    rw [operandToken_word hWord, hNum]
    rfl
  have hOpening : ComputedExp.operandToken (c :: body) ≠ .opening := by rw [hToken]; decide
  have hSign : ComputedExp.operandToken (c :: body) ≠ .sign := by rw [hToken]; decide
  have hString : c ≠ '"' := by
    rintro rfl
    cases hDigit
  calc
    parseAt fuel unaryLevel ((num n).printTokens ++ rest) = parsePrim (parseList fuel) ((c :: body) :: rest) := by
      rw [← hShow]
      rfl
    _ = .ok (num n, rest) := by
      rw [parsePrim_other hOpening hSign, if_neg hString, not_quote_of_isWordChar hWord, hNum]
      rfl

theorem ownParsed_call {args : ComputedExp} (hStr : IsIdent str) (hArgs : Parsed args) :
    OwnParsed (call str args) := by
  intro fuel rest hFuel _
  have hTokens : (call str args).printTokens ++ rest =
      str :: "(".toList :: (enclose 0 args args.printTokens ++ ")".toList :: rest) := by
    rw [enclose_zero, printTokens, parenthesize, List.cons_append, List.cons_append, List.append_assoc,
      List.singleton_append]
  rw [hTokens] at hFuel ⊢
  cases fuel with
  | zero => simp at hFuel
  | succ fuel =>
    have hInner := hArgs fuel 0 (")".toList :: rest) (by rw [List.length_cons, List.length_cons] at hFuel; omega)
      (Nat.zero_le _) (follow_closing _ _)
    calc
      parsePrim (parseList (fuel + 1))
          (str :: "(".toList :: (enclose 0 args args.printTokens ++ ")".toList :: rest)) =
          readClosing (.call str) (parseAt fuel 0 (enclose 0 args args.printTokens ++ ")".toList :: rest)) :=
        parsePrim_name hStr.operandToken
      _ = .ok (call str args, rest) := by
        rw [hInner]
        rfl

end Primary

theorem roundTrip_of_printable {e : ComputedExp} (h : e.Printable) : RoundTrip e := by
  induction e with
  | binary op left right ihLeft ihRight => exact roundTrip_binary (ihLeft h.1) (ihRight h.2)
  | unary op operand ih => exact (ownParsed_unary (ih h).parsed).roundTrip rfl
  | ident str => exact (ownParsed_ident h).roundTrip rfl
  | num n => exact (ownParsed_num h).roundTrip rfl
  | call str args ih => exact (ownParsed_call h.1 (ih h.2).parsed).roundTrip rfl
  | string _ => exact h.elim
  | quote _ => exact h.elim
  | nil => exact h.elim

/-- The parser gives back the expression that was printed. -/
theorem parse_print {e : ComputedExp} (h : e.Printable) : parse e.print = .ok e := by
  have hTokens : tokens e.print = enclose 0 e e.printTokens ++ [] := by
    rw [enclose_zero, List.append_nil]
    exact tokens_intercalate (solid_printTokens h)
  have hList := (roundTrip_of_printable h).parsed (tokens e.print).length 0 [] (hTokens ▸ Nat.le_refl _)
    (Nat.zero_le _) (follow_nil 0)
  rw [← hTokens] at hList
  unfold parse
  dsimp only
  rw [show parseList ((tokens e.print).length + 1) (tokens e.print) = .ok (e, []) from hList]

theorem parse_print_call :
    parse (print (.call "F".toList (.binary .list (.unary .minus (.ident "A".toList))
      (.binary .times (.binary .guard (.ident "B".toList) (.num 1)) (.num 3))))) =
    .ok (.call "F".toList (.binary .list (.unary .minus (.ident "A".toList))
      (.binary .times (.binary .guard (.ident "B".toList) (.num 1)) (.num 3)))) :=
  parse_print (by decide +kernel)

end Tr069Agent.Engine.ComputedExp
