import Mathlib.Data.List.Infix
import Tr069Agent.Engine.Common

/-! # The escapes of values

A byte above 127 is a negative character, and its escape has nine places where the encoder counts three. The
decoder counts three places for every percent sign.
-/

namespace Tr069Agent.Engine

open Library

set_option autoImplicit false

/-- The bytes before the zero at the end. -/
structure CString where
  text : Text
  bytes : ∀ c ∈ text, c ≠ '\x00' ∧ c.toNat < 256

section Encoding

/-- The places that `DM_ENG_encodeValue` counts, without the one of the zero. -/
def encodedLength (str : Text) : Nat := str.length + 2 * str.countP needsEncoding

/-- The stored form of a value is a plain text of the length counted, nothing is written behind it, and the value
comes back from it. -/
structure ValueReversible (str : Text) : Prop where
  plain : ∀ c ∈ encoded (some str), ' ' ≤ c ∧ c ∉ ";\"<\\".toList
  length : (encoded (some str)).length = encodedLength str
  inside : (encodeFrom [] str).length ≤ encodedLength str + 1
  back : decoded (encoded (some str)) = str

/-- Six more places follow on every escape of nine. -/
def HasRoom : Text → Prop
  | [] => True
  | c :: str => (128 ≤ c.toNat → 6 ≤ encodedLength str) ∧ HasRoom str

/-- What stays of an escape when the next character is written. -/
def storedChar (c : Char) : Text := if needsEncoding c then (escape c).take 3 else [c]

variable {old str : Text} {c : Char}

theorem encodedLength_cons (c : Char) (str : Text) :
    encodedLength (c :: str) = (if needsEncoding c then 3 else 1) + encodedLength str := by
  rw [encodedLength, encodedLength, List.length_cons, List.countP_cons]
  split <;> omega

theorem needsEncoding_of_high (h : 128 ≤ c.toNat) : needsEncoding c = true := by
  simp [needsEncoding, h]

theorem escape_of_high (h : 128 ≤ c.toNat) :
    escape c = "%FFFFFF".toList ++ [hexDigit (c.toNat / 16 % 16), hexDigit (c.toNat % 16)] := by
  rw [escape, if_neg (by omega)]
  rfl

theorem length_escape (c : Char) : (escape c).length = if 128 ≤ c.toNat then 9 else 3 := by
  split
  · rename_i hHigh
    rw [escape_of_high hHigh]
    rfl
  · rename_i hLow
    rw [escape_of_ascii (by omega)]
    rfl

theorem length_overwrite (text old : Text) :
    (overwrite text old).length = max (text.length + 1) old.length := by
  rw [overwrite, List.length_append, List.length_cons, List.length_drop]
  omega

theorem three_le_length_overwrite (c : Char) (old : Text) : 3 ≤ (overwrite (escape c) old).length := by
  rw [length_overwrite, length_escape]
  split <;> omega

theorem length_encodeFrom_cons (h : needsEncoding c = true) :
    (encodeFrom old (c :: str)).length = 3 + (encodeFrom ((overwrite (escape c) old).drop 3) str).length := by
  have hLength := three_le_length_overwrite c old
  rw [encodeFrom, if_pos h, List.length_append, List.length_take]
  omega

theorem length_le_length_encodeFrom (old str : Text) : old.length ≤ (encodeFrom old str).length := by
  induction str generalizing old with
  | nil => exact Nat.le_refl _
  | cons c str ih =>
    by_cases hSpecial : needsEncoding c = true
    · have hRest := ih ((overwrite (escape c) old).drop 3)
      rw [List.length_drop, length_overwrite] at hRest
      rw [length_encodeFrom_cons hSpecial]
      omega
    · have hRest := ih old.tail
      rw [List.length_tail] at hRest
      rw [encodeFrom, if_neg hSpecial, List.length_cons]
      omega

theorem hasRoom_of_inside (h : (encodeFrom old str).length ≤ encodedLength str + 1) : HasRoom str := by
  induction str generalizing old with
  | nil => trivial
  | cons c str ih =>
    rw [encodedLength_cons] at h
    by_cases hSpecial : needsEncoding c = true
    · rw [length_encodeFrom_cons hSpecial, if_pos hSpecial] at h
      refine ⟨fun hHigh => ?_, @ih ((overwrite (escape c) old).drop 3) (by omega)⟩
      have hRest := length_le_length_encodeFrom ((overwrite (escape c) old).drop 3) str
      rw [List.length_drop, length_overwrite, length_escape, if_pos hHigh] at hRest
      omega
    · rw [encodeFrom, if_neg hSpecial, List.length_cons, if_neg hSpecial] at h
      exact ⟨fun hHigh => absurd (needsEncoding_of_high hHigh) hSpecial, @ih old.tail (by omega)⟩

/-- What lies behind the text, which is nothing or its zero. -/
def EndsThere (length : Nat) (old : Text) : Prop :=
  old.length ≤ length + 1 ∧ ∀ c ∈ old.drop length, c = '\x00'

theorem EndsThere.overwrite {length : Nat} {text : Text} (h : EndsThere (3 + length) old)
    (hText : text.length ≤ 3 + length) : EndsThere length ((overwrite text old).drop 3) := by
  obtain ⟨hLength, hZero⟩ := h
  constructor
  · rw [List.length_drop, length_overwrite]
    omega
  · intro c hMem
    rw [List.drop_drop, Engine.overwrite, List.drop_append, List.mem_append] at hMem
    rcases hMem with hText' | hRest
    · rw [List.drop_eq_nil_of_le hText] at hText'
      cases hText'
    · cases hSkip : 3 + length - text.length with
      | zero =>
        rw [hSkip, List.drop_zero, List.mem_cons] at hRest
        rcases hRest with rfl | hOver
        · rfl
        · refine hZero c ?_
          rw [show text.length + 1 = 3 + length + 1 by omega, ← List.drop_drop] at hOver
          exact List.mem_of_mem_drop hOver
      | succ skip =>
        rw [hSkip, List.drop_succ_cons, List.drop_drop] at hRest
        exact hZero c (by rwa [show text.length + 1 + skip = 3 + length by omega] at hRest)

/-- With room for every escape each keeps its first three places. -/
theorem encodeFrom_of_hasRoom (h : HasRoom str) (hOver : EndsThere (encodedLength str) old) :
    ∃ zeros, (∀ c ∈ zeros, c = '\x00') ∧ zeros.length ≤ 1 ∧
      encodeFrom old str = str.flatMap storedChar ++ zeros := by
  induction str generalizing old with
  | nil => exact ⟨old, hOver.2, hOver.1, rfl⟩
  | cons c str ih =>
    obtain ⟨hHere, hRest⟩ := h
    rw [encodedLength_cons] at hOver
    by_cases hSpecial : needsEncoding c = true
    · rw [if_pos hSpecial] at hOver
      have hText : (escape c).length ≤ 3 + encodedLength str := by
        rw [length_escape]
        split
        · rename_i hHigh
          have hSix := hHere hHigh
          omega
        · omega
      obtain ⟨zeros, hZeros, hOne, hEq⟩ := ih hRest (hOver.overwrite hText)
      refine ⟨zeros, hZeros, hOne, ?_⟩
      have hTake : (Engine.overwrite (escape c) old).take 3 = (escape c).take 3 := by
        rw [Engine.overwrite, List.take_append_of_le_length]
        rw [length_escape]
        split <;> omega
      rw [encodeFrom, if_pos hSpecial, hEq, hTake, List.flatMap_cons, storedChar, if_pos hSpecial, List.append_assoc]
    · rw [if_neg hSpecial] at hOver
      have hTail : EndsThere (encodedLength str) old.tail := by
        refine ⟨?_, fun d hMem => hOver.2 d ?_⟩
        · have hLength := hOver.1
          rw [List.length_tail]
          omega
        · rw [← List.drop_one, List.drop_drop] at hMem
          exact hMem
      obtain ⟨zeros, hZeros, hOne, hEq⟩ := ih hRest hTail
      refine ⟨zeros, hZeros, hOne, ?_⟩
      rw [encodeFrom, if_neg hSpecial, hEq, List.flatMap_cons, storedChar, if_neg hSpecial]
      rfl

theorem storedChar_of_special (h : needsEncoding c = true) : ∃ high < 16, ∃ low < 16,
    storedChar c = ['%', hexDigit high, hexDigit low] ∧
      high * 16 + low = if 128 ≤ c.toNat then 255 else c.toNat := by
  rw [storedChar, if_pos h]
  split
  · rename_i hHigh
    refine ⟨15, by decide, 15, by decide, ?_, rfl⟩
    rw [escape_of_high hHigh]
    rfl
  · rename_i hLow
    refine ⟨c.toNat / 16, by omega, c.toNat % 16, by omega, ?_, by omega⟩
    rw [escape_of_ascii (by omega)]
    rfl

def backChar (c : Char) : Char := if 128 ≤ c.toNat then 'ÿ' else c

theorem decodeFrom_storedChar (c : Char) (rest : Text) :
    decodeFrom .outside (storedChar c ++ rest) = backChar c :: decodeFrom .outside rest := by
  by_cases hSpecial : needsEncoding c = true
  · obtain ⟨high, hHigh, low, hLow, hStored, hSum⟩ := storedChar_of_special hSpecial
    have hHighSign := (hexDigit_spec hHigh).1
    have hLowSign := (hexDigit_spec hLow).1
    have hScan := scanX2_hexDigits hHigh hLow rest
    have hChar : Char.ofNat (high * 16 + low) = backChar c := by
      rw [hSum, backChar]
      split
      · rfl
      · exact Char.ofNat_toNat c
    rw [hStored]
    simp [decodeFrom, hHighSign, hLowSign, hScan, hChar]
  · have hPercent : c ≠ '%' := by
      rintro rfl
      exact hSpecial (by decide)
    have hLow : ¬ 128 ≤ c.toNat := fun hHigh => hSpecial (needsEncoding_of_high hHigh)
    rw [storedChar, if_neg hSpecial, backChar, if_neg hLow, List.singleton_append, decodeFrom, if_neg hPercent]

theorem decodeFrom_stored (str : Text) : decodeFrom .outside (str.flatMap storedChar) = str.map backChar := by
  induction str with
  | nil => rfl
  | cons c str ih => rw [List.flatMap_cons, decodeFrom_storedChar, ih, List.map_cons]

theorem length_stored (str : Text) : (str.flatMap storedChar).length = encodedLength str := by
  induction str with
  | nil => rfl
  | cons c str ih =>
    rw [List.flatMap_cons, List.length_append, ih, encodedLength_cons]
    by_cases hSpecial : needsEncoding c = true
    · obtain ⟨high, -, low, -, hStored, -⟩ := storedChar_of_special hSpecial
      rw [hStored, if_pos hSpecial]
      rfl
    · rw [storedChar, if_neg hSpecial, if_neg hSpecial]
      rfl

theorem mem_stored (h : c ∈ str.flatMap storedChar) : c = '%' ∨ needsEncoding c = false := by
  obtain ⟨d, -, hMem⟩ := List.mem_flatMap.mp h
  by_cases hSpecial : needsEncoding d = true
  · obtain ⟨high, hHigh, low, hLow, hStored, -⟩ := storedChar_of_special hSpecial
    rw [hStored] at hMem
    simp only [List.mem_cons, List.not_mem_nil, or_false] at hMem
    rcases hMem with rfl | rfl | rfl
    · exact .inl rfl
    · exact .inr (hexDigit_spec hHigh).2.2
    · exact .inr (hexDigit_spec hLow).2.2
  · rw [storedChar, if_neg hSpecial] at hMem
    obtain rfl := List.mem_singleton.mp hMem
    exact .inr (Bool.eq_false_iff.mpr hSpecial)

theorem plain_of_stored (h : c = '%' ∨ needsEncoding c = false) : ' ' ≤ c ∧ c ∉ ";\"<\\".toList ∧ c ≠ '\x00' := by
  obtain rfl | hPlain := h
  · decide
  · simp only [needsEncoding, Bool.or_eq_false_iff, decide_eq_false_iff_not] at hPlain
    obtain ⟨⟨hControl, -⟩, hSpecial⟩ := hPlain
    refine ⟨Char.not_lt.mp hControl, fun hMem => ?_, ?_⟩
    · have hAll : ";\"<\\".toList.all specialChars.contains = true := by decide
      exact Bool.false_ne_true (hSpecial.symm.trans (List.all_eq_true.mp hAll c hMem))
    · rintro rfl
      exact hControl (by decide)

theorem storedChar_of_not_any (h : ¬ str.any needsEncoding = true) : str.flatMap storedChar = str := by
  have hKeep : ∀ c ∈ str, storedChar c = [c] := by
    intro c hMem
    have hChar : needsEncoding c ≠ true := fun hSpecial => h (List.any_eq_true.mpr ⟨c, hMem, hSpecial⟩)
    rw [storedChar, if_neg hChar]
  rw [List.flatMap_congr hKeep, List.flatMap_singleton']

theorem encoded_of_hasRoom (h : HasRoom str) : encoded (some str) = str.flatMap storedChar := by
  simp only [encoded, encodeValue]
  split
  · obtain ⟨zeros, hZeros, -, hEq⟩ := @encodeFrom_of_hasRoom [] str h ⟨Nat.zero_le _, by simp⟩
    have hEnd : zeros.takeWhile (· ≠ '\x00') = [] := by
      rw [List.takeWhile_eq_nil_iff]
      exact fun hPos => by simp [hZeros _ (List.getElem_mem hPos)]
    rw [Option.getD_some, hEq, List.takeWhile_append_of_pos, hEnd, List.append_nil]
    exact fun c hMem => by simpa using (plain_of_stored (mem_stored hMem)).2.2
  · rename_i hNone
    rw [Option.getD_none, Option.getD_some, storedChar_of_not_any hNone]

theorem decoded_stored (h : ∀ c ∈ str, c ≠ '\x00') : decoded (str.flatMap storedChar) = str.map backChar := by
  rw [← decodeFrom_stored, decoded, decodeValue]
  split
  · rw [Option.getD_some, List.takeWhile_eq_self_iff, decodeFrom_stored]
    intro c hMem
    obtain ⟨d, hD, rfl⟩ := List.mem_map.mp hMem
    have hBack : backChar d ≠ '\x00' := by
      rw [backChar]
      split
      · decide
      · exact h d hD
    simpa using hBack
  · rename_i hPercent
    rw [decodeFrom_of_not_mem (by simpa using hPercent), Option.getD_none]

theorem map_backChar_eq_iff : str.map backChar = str ↔ ∀ c ∈ str, 128 ≤ c.toNat → c = 'ÿ' := by
  conv_lhs => rhs; rw [← List.map_id str]
  rw [List.map_inj_left]
  refine forall₂_congr fun c _ => ?_
  rw [backChar]
  split
  · rename_i hHigh
    exact ⟨fun hSame _ => hSame.symm, fun hSame => (hSame hHigh).symm⟩
  · rename_i hLow
    exact ⟨fun _ hHigh => absurd hHigh hLow, fun _ => rfl⟩

/-- A value comes back if and only if its bytes above 127 are all 255 and six more places are written behind each
of them. -/
theorem reversible_iff (s : CString) :
    ValueReversible s.text ↔ (∀ c ∈ s.text, 128 ≤ c.toNat → c = 'ÿ') ∧ HasRoom s.text := by
  have hZero : ∀ c ∈ s.text, c ≠ '\x00' := fun c hMem => (s.bytes c hMem).1
  constructor
  · intro h
    have hRoom := hasRoom_of_inside h.inside
    have hBack := h.back
    rw [encoded_of_hasRoom hRoom, decoded_stored hZero] at hBack
    exact ⟨map_backChar_eq_iff.mp hBack, hRoom⟩
  · rintro ⟨hBytes, hRoom⟩
    have hStored := encoded_of_hasRoom hRoom
    obtain ⟨zeros, -, hOne, hEq⟩ := @encodeFrom_of_hasRoom [] s.text hRoom ⟨Nat.zero_le _, by simp⟩
    constructor
    · intro c hMem
      rw [hStored] at hMem
      obtain ⟨hSpace, hSpecial, -⟩ := plain_of_stored (mem_stored hMem)
      exact ⟨hSpace, hSpecial⟩
    · rw [hStored, length_stored]
    · rw [hEq, List.length_append, length_stored]
      omega
    · rw [hStored, decoded_stored hZero]
      exact map_backChar_eq_iff.mpr hBytes

/-- The two bytes of a letter in UTF-8. -/
def accentedLetter : CString := ⟨['Ã', '©'],
  List.forall_mem_cons.mpr ⟨by decide, List.forall_mem_singleton.mpr (by decide)⟩⟩

theorem accentedLetter_not_reversible : ¬ ValueReversible accentedLetter.text := by
  intro h
  exact absurd h.inside (by decide)

end Encoding

section Decoding

/-- The size of the array of `DM_ENG_decodeValue`. -/
def decodedSize (str : Text) : Int := str.length - 2 * str.count '%' + 1

/-- Where an array is made, it has room for the characters written and a zero. -/
def DecodesInside (str : Text) : Prop :=
  '%' ∈ str → ((decodeFrom .outside str).length : Int) + 1 ≤ decodedSize str ∧ 0 < decodedSize str

/-- Two characters that are no percent sign come next. -/
def twoFollow (str : Text) : Bool := 2 ≤ str.length && !(str.take 2).contains '%'

/-- Two characters follow on every percent sign before the next one. -/
def EscapesWhole (str : Text) : Prop := ∀ rest, '%' :: rest <:+ str → twoFollow rest = true

/-- The number of percent signs on which no two characters follow. -/
def cutEscapes : Text → Nat
  | [] => 0
  | c :: str => (if c = '%' ∧ twoFollow str = false then 1 else 0) + cutEscapes str

theorem cutEscapes_eq_zero_iff {str : Text} : cutEscapes str = 0 ↔ EscapesWhole str := by
  induction str with
  | nil => simp [cutEscapes, EscapesWhole]
  | cons c str ih =>
    rw [cutEscapes, Nat.add_eq_zero_iff, ih]
    constructor
    · rintro ⟨hHere, hRest⟩ rest hSuffix
      rw [List.suffix_cons_iff] at hSuffix
      rcases hSuffix with hSame | hLater
      · obtain ⟨rfl, rfl⟩ := List.cons.inj hSame
        by_contra hCut
        simp [hCut] at hHere
      · exact hRest rest hLater
    · intro h
      refine ⟨?_, fun rest hSuffix => h rest (hSuffix.trans (List.suffix_cons c str))⟩
      rw [if_neg]
      rintro ⟨rfl, hCut⟩
      rw [h str (List.suffix_refl _)] at hCut
      cases hCut

/-- Each escape that is cut short takes a place more than is counted for it. -/
theorem length_decodeFrom (str : Text) :
    (decodeFrom .outside str).length + 2 * str.count '%' = str.length + cutEscapes str ∧
      (decodeFrom .second str).length + 1 + 2 * str.count '%' =
        str.length + cutEscapes str + (if str = [] ∨ str.head? = some '%' then 1 else 0) ∧
      (decodeFrom .first str).length + 1 + 2 * str.count '%' =
        str.length + cutEscapes str + (if twoFollow str then 0 else 1) := by
  induction str with
  | nil => decide
  | cons c str ih =>
    obtain ⟨hOutside, hSecond, hFirst⟩ := ih
    by_cases hPercent : c = '%'
    · subst hPercent
      have hSelf : twoFollow ('%' :: str) = false := by simp [twoFollow]
      cases hTwo : twoFollow str <;> simp_all [decodeFrom, cutEscapes] <;> omega
    · have hCount : (c :: str).count '%' = str.count '%' := by simp [hPercent]
      have hCut : cutEscapes (c :: str) = cutEscapes str := by simp [cutEscapes, hPercent]
      have hHead : ¬ (c :: str = [] ∨ (c :: str).head? = some '%') := by simp [hPercent]
      have hTwo : twoFollow (c :: str) = !decide (str = [] ∨ str.head? = some '%') := by
        cases str with
        | nil => rfl
        | cons d str => simp [twoFollow, Ne.symm hPercent, eq_comm]
      rw [hCount, hCut, if_neg hHead, hTwo, decodeFrom, decodeFrom, decodeFrom, if_neg hPercent, if_neg hPercent,
        if_neg hPercent]
      simp only [List.length_cons, Bool.not_eq_true', decide_eq_false_iff_not, ite_not]
      refine ⟨by omega, by omega, ?_⟩
      omega

/-- The characters written and the zero are within the array if and only if two characters that are no percent
sign follow on each percent sign. -/
theorem decodesInside_iff (str : Text) : DecodesInside str ↔ EscapesWhole str := by
  have hLength := (length_decodeFrom str).1
  rw [← cutEscapes_eq_zero_iff]
  constructor
  · intro h
    by_cases hPercent : '%' ∈ str
    · obtain ⟨hRoom, -⟩ := h hPercent
      rw [decodedSize] at hRoom
      omega
    · rw [cutEscapes_eq_zero_iff]
      exact fun rest hSuffix => absurd (hSuffix.subset List.mem_cons_self) hPercent
  · intro hWhole _
    rw [decodedSize]
    omega

/-- A percent sign at the end of a text. -/
theorem percent_not_decodedInside : ¬ DecodesInside "100%".toList := by
  intro h
  exact absurd (h (by decide)).1 (by decide)

end Decoding

end Tr069Agent.Engine
