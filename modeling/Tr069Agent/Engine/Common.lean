import Mathlib.Data.List.Basic
import Mathlib.Data.List.DropRight
import Mathlib.Data.List.TakeWhile
import Mathlib.Tactic.Common
import Tr069Agent.Library.Decimal
import Tr069Agent.Library.Lines

/-! # All-purpose functions

Digits and numbers, comma separated lists, and the encoding of the texts that go into a file.
-/

namespace Tr069Agent.Engine

open Library Library.Lines Library.Decimal

set_option autoImplicit false

section Numbers

def intMin : Int := -2 ^ 31

def intMax : Int := 2 ^ 31 - 1

def uintMax : Nat := 2 ^ 32 - 1

/-- The conversion of an `int` to `unsigned int`. -/
def toUint (n : Int) : Nat := (n % 2 ^ 32).toNat

/-- The conversion of an `unsigned int` to `int`. -/
def ofUint (n : Nat) : Int := if n < 2 ^ 31 then n else n - 2 ^ 32

/-- The arithmetic of an `unsigned int`. -/
def wrap (n : Nat) : Nat := n % 2 ^ 32

def InInt (n : Int) : Prop := intMin ≤ n ∧ n ≤ intMax

instance (n : Int) : Decidable (InInt n) := inferInstanceAs (Decidable (_ ∧ _))

theorem ofUint_toUint {n : Int} (h : InInt n) : ofUint (toUint n) = n := by
  obtain ⟨hLow, hHigh⟩ := h
  simp only [intMin, intMax, toUint, ofUint] at *
  omega

theorem toUint_le (n : Int) : toUint n ≤ uintMax := by
  simp only [toUint, uintMax]
  omega

/-- `DM_ENG_charToInt`: none for a character that is no digit. -/
def charToInt (ch : Char) : Option Nat := if ch.isDigit then some (ch.toNat - '0'.toNat) else none

def firstChar (text : Text) : Char := text.headD '\x00'

def stringToInt (ch : Text) : Option Int :=
  if ch = [] then none
  else
    let (val, rest) := strtol ch
    if rest.dropWhile isspace ≠ [] ∨ val < intMin ∨ val > intMax then none else some val

def stringToUint (ch : Text) : Option Nat :=
  let ch := ch.dropWhile isspace
  if (firstChar ch).isDigit then
    let (val, rest) := strtol ch
    if rest.dropWhile isspace ≠ [] ∨ val > uintMax then none else some val.toNat
  else none

theorem charToInt_le {ch : Char} {n : Nat} (h : charToInt ch = some n) : n ≤ 9 := by
  rw [charToInt] at h
  split at h
  · rename_i hDigit
    obtain rfl := Option.some.inj h
    simp only [Char.isDigit, Bool.and_eq_true, decide_eq_true_eq, UInt32.le_iff_toNat_le] at hDigit
    have hVal : ch.toNat = ch.val.toNat := rfl
    have hZero : '0'.toNat = 48 := rfl
    have hNine : ('9'.val.toNat : Nat) = 57 := rfl
    omega
  · cases h

theorem inInt_stringToInt {ch : Text} {n : Int} (h : stringToInt ch = some n) : InInt n := by
  rw [stringToInt] at h
  split at h
  · cases h
  · dsimp only at h
    split at h
    · cases h
    · rename_i hRange
      obtain rfl := Option.some.inj h
      exact ⟨by omega, by omega⟩

theorem inInt_ofUint {n : Nat} (h : n ≤ uintMax) : InInt (ofUint n) := by
  simp only [InInt, intMin, intMax, uintMax, ofUint] at *
  split <;> omega

theorem stringToInt_showInt {n : Int} (h : InInt n) : stringToInt (showInt n) = some n := by
  obtain ⟨hLow, hHigh⟩ := h
  rw [stringToInt, if_neg (showInt_ne_nil n), strtol_showInt]
  simp
  omega

theorem stringToUint_le {ch : Text} {n : Nat} (h : stringToUint ch = some n) : n ≤ uintMax := by
  dsimp only [stringToUint] at h
  split at h
  · split at h
    · cases h
    · rename_i hRead
      obtain rfl := Option.some.inj h
      omega
  · cases h

theorem stringToUint_showInt {n : Nat} (h : n ≤ uintMax) : stringToUint (showInt n) = some n := by
  obtain ⟨c, digits, hShow, hDigit⟩ := exists_toDigits_cons n
  have hCons : showInt n = c :: digits := hShow
  have hKeep : (showInt n).dropWhile isspace = showInt n := by
    rw [hCons, List.dropWhile_cons_of_neg (Bool.eq_false_iff.mp (digit_not_blank hDigit))]
  have hFirst : (firstChar (showInt n)).isDigit = true := by
    rw [hCons]
    exact hDigit
  simp only [stringToUint, hKeep, hFirst, if_true, strtol_showInt]
  simp
  omega

theorem chars_of_stringToUint {ch : Text} {n : Nat} (h : stringToUint ch = some n) :
    ch ≠ [] ∧ ∀ c ∈ ch, isspace c = true ∨ c.isDigit = true := by
  dsimp only [stringToUint] at h
  split at h
  · rename_i hDigit
    split at h
    · cases h
    · rename_i hRead
      rw [not_or, not_not] at hRead
      obtain ⟨first, digits, hBody⟩ : ∃ first digits, ch.dropWhile isspace = first :: digits := by
        cases hBody : ch.dropWhile isspace with
        | nil =>
          rw [hBody] at hDigit
          exact absurd hDigit (by decide)
        | cons first digits => exact ⟨first, digits, rfl⟩
      rw [hBody, firstChar, List.headD_cons] at hDigit
      have hBlank : isspace first = false := digit_not_blank hDigit
      have hRest : (strtol (ch.dropWhile isspace)).2 = (first :: digits).dropWhile Char.isDigit := by
        rw [hBody, strtol, List.dropWhile_cons_of_neg (by simp [hBlank]), sign_of_digit hDigit]
        simp [hDigit]
      refine ⟨fun hNil => by simp [hNil] at hBody, fun c hMem => ?_⟩
      rw [← List.takeWhile_append_dropWhile (p := isspace) (l := ch), hBody, List.mem_append] at hMem
      obtain hLead | hMem := hMem
      · exact .inl (List.mem_takeWhile_imp hLead)
      · rw [← List.takeWhile_append_dropWhile (p := Char.isDigit) (l := first :: digits),
          List.mem_append] at hMem
        obtain hHere | hTail := hMem
        · exact .inr (List.mem_takeWhile_imp hHere)
        · rw [← hRest] at hTail
          exact .inl (List.dropWhile_eq_nil_iff.mp hRead.1 c hTail)
  · cases h

theorem comma_notMem_of_stringToUint {ch : Text} {n : Nat} (h : stringToUint ch = some n) : ',' ∉ ch := by
  intro hMem
  obtain hBlank | hDigit := (chars_of_stringToUint h).2 ',' hMem
  · exact absurd hBlank (by decide)
  · exact absurd hDigit (by decide)

end Numbers

section Lists

/-- The blanks at both ends are removed. -/
def trim (item : Text) : Text := (item.dropWhile (· = ' ')).rdropWhile (· = ' ')

theorem trim_trim (item : Text) : trim (trim item) = trim item := by
  have hBody := List.dropWhile_eq_self_iff.mp (List.dropWhile_idempotent (· = ' ') item)
  have hPrefix : trim item <+: item.dropWhile (· = ' ') := List.rdropWhile_prefix _ _
  have hFront : (trim item).dropWhile (· = ' ') = trim item := by
    refine List.dropWhile_eq_self_iff.mpr fun hPos => ?_
    rw [hPrefix.getElem hPos]
    exact hBody (hPos.trans_le hPrefix.length_le)
  rw [trim, hFront]
  exact List.rdropWhile_idempotent _ _

def splitCommaSeparatedList (ch : Text) : List Text := (ch.splitOn ',').map trim

def buildCommaSeparatedList (tCh : Option (List Text)) : Option Text :=
  match tCh with
  | none => none
  | some [] => none
  | some items => some (join ',' items)

theorem splitCommaSeparatedList_join {items : List Text} (hComma : ∀ item ∈ items, ',' ∉ item)
    (hSome : items ≠ []) : splitCommaSeparatedList (join ',' items) = items.map trim := by
  rw [splitCommaSeparatedList, splitOn_join hComma hSome]

theorem splitCommaSeparatedList_ne_nil (ch : Text) : splitCommaSeparatedList ch ≠ [] := by
  rw [splitCommaSeparatedList, ne_eq, List.map_eq_nil_iff]
  exact List.splitOn_ne_nil ',' ch

theorem splitCommaSeparatedList_append (left right : Text) :
    splitCommaSeparatedList (left ++ ',' :: right) =
      splitCommaSeparatedList left ++ splitCommaSeparatedList right := by
  rw [splitCommaSeparatedList, splitOn_append_cons, List.map_append]
  rfl

theorem item_of_mem_splitCommaSeparatedList {ch item : Text} (h : item ∈ splitCommaSeparatedList ch) :
    trim item = item ∧ ',' ∉ item := by
  obtain ⟨field, hField, rfl⟩ := List.mem_map.mp h
  refine ⟨trim_trim field, fun hComma => (mem_splitOn hField).1 ?_⟩
  exact (List.dropWhile_suffix _).subset ((List.rdropWhile_prefix _ _).subset hComma)

theorem splitCommaSeparatedList_join_items {ch : Text} {items : List Text}
    (hItems : ∀ item ∈ items, item ∈ splitCommaSeparatedList ch) (hSome : items ≠ []) :
    splitCommaSeparatedList (join ',' items) = items := by
  have hItem := fun item hMem => item_of_mem_splitCommaSeparatedList (hItems item hMem)
  rw [splitCommaSeparatedList_join (fun item hMem => (hItem item hMem).2) hSome]
  exact (List.map_congr_left fun item hMem => (hItem item hMem).1).trans (List.map_id items)

end Lists

section Encoding

def specialChars : List Char := "%\\;\"<".toList

def needsEncoding (c : Char) : Bool := c < ' ' || 128 ≤ c.toNat || specialChars.contains c

def hexDigit (d : Nat) : Char := d.digitChar.toUpper

/-- The format `%%%.2X`, where a character above 127 is a negative number. -/
def escape (c : Char) : Text :=
  let digits := [hexDigit (c.toNat / 16 % 16), hexDigit (c.toNat % 16)]
  if c.toNat < 128 then '%' :: digits else '%' :: ("FFFFFF".toList ++ digits)

/-- A text and the zero behind it are written over what was there before. -/
def overwrite (text old : Text) : Text := text ++ '\x00' :: old.drop (text.length + 1)

/-- The loop of `DM_ENG_encodeValue` from a position on, where `over` was already written: an escape is written
as a whole, and the position goes three further. -/
def encodeFrom : Text → Text → Text
  | old, [] => old
  | old, c :: str =>
    if needsEncoding c then
      (overwrite (escape c) old).take 3 ++ encodeFrom ((overwrite (escape c) old).drop 3) str
    else c :: encodeFrom old.tail str

/-- `DM_ENG_encodeValue`: none when there is nothing to encode. -/
def encodeValue (str : Option Text) : Option Text :=
  match str with
  | none => none
  | some str =>
    if str.any needsEncoding then some ((encodeFrom [] str).takeWhile (· ≠ '\x00')) else none

def hexValue (c : Char) : Option Nat :=
  if c.isDigit then some (c.toNat - '0'.toNat)
  else if 'A' ≤ c ∧ c ≤ 'F' then some (c.toNat - 'A'.toNat + 10)
  else if 'a' ≤ c ∧ c ≤ 'f' then some (c.toNat - 'a'.toNat + 10)
  else none

def isSpace (c : Char) : Bool := c = ' ' || 9 ≤ c.toNat && c.toNat ≤ 13

/-- At most `width` hexadecimal digits, read on from a value. -/
def scanHex : Nat → Nat → Text → Nat
  | width + 1, value, c :: rest =>
    match hexValue c with
    | none => value
    | some digit => scanHex width (value * 16 + digit) rest
  | _, value, _ => value

/-- The lowest byte of what `sscanf` with the format `%2X` reads into a variable that is zero. -/
def scanX2 (str : Text) : Nat :=
  match str.dropWhile isSpace with
  | '-' :: rest => (256 - scanHex 1 0 rest) % 256
  | '+' :: rest => scanHex 1 0 rest
  | rest => scanHex 2 0 rest

inductive Echap where
  | outside
  | first
  | second

/-- The loop of `DM_ENG_decodeValue`. -/
def decodeFrom : Echap → Text → Text
  | _, [] => []
  | echap, c :: str =>
    if c = '%' then decodeFrom .first str
    else
      match echap with
      | .outside => c :: decodeFrom .outside str
      | .first => Char.ofNat (scanX2 (c :: str)) :: decodeFrom .second str
      | .second => decodeFrom .outside str

/-- `DM_ENG_decodeValue`: none when there is nothing to decode; the result ends at its first zero. -/
def decodeValue (str : Text) : Option Text :=
  if str.contains '%' then some ((decodeFrom .outside str).takeWhile (· ≠ '\x00')) else none

/-- The text that goes into the file. -/
def encoded (str : Option Text) : Text := (encodeValue str).getD (str.getD [])

/-- The text that is taken from the file. -/
def decoded (str : Text) : Text := (decodeValue str).getD str

def encodedChar (c : Char) : Text := if needsEncoding c then escape c else [c]

theorem hexDigit_spec {d : Nat} (h : d < 16) :
    hexDigit d ≠ '%' ∧ hexValue (hexDigit d) = some d ∧ needsEncoding (hexDigit d) = false := by
  have hAll : ∀ d : Fin 16, hexDigit d.val ≠ '%' ∧ hexValue (hexDigit d.val) = some d.val ∧
      needsEncoding (hexDigit d.val) = false := by decide
  exact hAll ⟨d, h⟩

theorem hexDigit_no_sign {d : Nat} (h : d < 16) :
    isSpace (hexDigit d) = false ∧ hexDigit d ≠ '-' ∧ hexDigit d ≠ '+' := by
  have hAll : ∀ d : Fin 16, isSpace (hexDigit d.val) = false ∧ hexDigit d.val ≠ '-' ∧ hexDigit d.val ≠ '+' := by decide
  exact hAll ⟨d, h⟩

/-- Two digits are read whole. -/
theorem scanX2_hexDigits {high low : Nat} (hHigh : high < 16) (hLow : low < 16) (rest : Text) :
    scanX2 (hexDigit high :: hexDigit low :: rest) = high * 16 + low := by
  obtain ⟨hSpace, hMinus, hPlus⟩ := hexDigit_no_sign hHigh
  rw [scanX2, List.dropWhile_cons_of_neg (by rw [hSpace]; exact Bool.false_ne_true)]
  split
  · rename_i hSign
    exact absurd (List.cons.inj hSign).1 hMinus
  · rename_i hSign
    exact absurd (List.cons.inj hSign).1 hPlus
  · simp only [scanHex, (hexDigit_spec hHigh).2.1, (hexDigit_spec hLow).2.1, Nat.zero_mul, Nat.zero_add]

/-- The characters of a C string in ASCII. -/
def IsAscii (str : Text) : Prop := ∀ c ∈ str, c ≠ '\x00' ∧ c.toNat < 128

instance (str : Text) : Decidable (IsAscii str) := List.decidableBAll _ str

theorem escape_of_ascii {c : Char} (h : c.toNat < 128) :
    escape c = ['%', hexDigit (c.toNat / 16), hexDigit (c.toNat % 16)] := by
  rw [escape]
  have hHigh : c.toNat / 16 % 16 = c.toNat / 16 := Nat.mod_eq_of_lt (by omega)
  simp [h, hHigh]

theorem encodeFrom_of_ascii {old str : Text} (h : IsAscii str) (hOver : old.length ≤ 1)
    (hZero : ∀ c ∈ old, c = '\x00') :
    (encodeFrom old str).takeWhile (· ≠ '\x00') = str.flatMap encodedChar := by
  induction str generalizing old with
  | nil =>
    rw [encodeFrom, List.flatMap_nil, List.takeWhile_eq_nil_iff]
    exact fun hPos => by simp [hZero _ (List.getElem_mem hPos)]
  | cons c str ih =>
    obtain ⟨⟨hChar, hAscii⟩, hRest⟩ := List.forall_mem_cons.mp h
    rw [List.flatMap_cons, encodedChar, encodeFrom]
    split
    · obtain ⟨hHigh, -, hHighPlain⟩ := hexDigit_spec (show c.toNat / 16 < 16 by omega)
      obtain ⟨hLow, -, hLowPlain⟩ := hexDigit_spec (show c.toNat % 16 < 16 by omega)
      have hPlain {d : Char} (hD : needsEncoding d = false) : d ≠ '\x00' := by
        rintro rfl
        exact absurd hD (by decide)
      have hDrop : old.drop 4 = [] := List.drop_eq_nil_iff.mpr (by omega)
      have hZeros := @ih ['\x00'] hRest (Nat.le_refl 1) (by simp)
      simp only [escape_of_ascii hAscii, overwrite, List.length_cons, List.length_nil, hDrop, List.cons_append,
        List.nil_append, List.take_succ_cons, List.take_zero, List.drop_succ_cons, List.drop_zero]
      simpa [hPlain hHighPlain, hPlain hLowPlain] using hZeros
    · have hTail := @ih old.tail hRest (by simp; omega) fun d hMem => hZero d (List.mem_of_mem_tail hMem)
      simpa [hChar] using hTail

theorem encoded_eq_flatMap {str : Option Text} (h : IsAscii (str.getD [])) :
    encoded str = (str.getD []).flatMap encodedChar := by
  cases str with
  | none => rfl
  | some str =>
    simp only [encoded, encodeValue]
    split
    · exact encodeFrom_of_ascii h (Nat.zero_le 1) (by simp)
    · rename_i hPlain
      have hKeep : ∀ c ∈ str, encodedChar c = [c] := by
        intro c hMem
        have hChar : needsEncoding c ≠ true := fun h => hPlain (List.any_eq_true.mpr ⟨c, hMem, h⟩)
        rw [encodedChar, if_neg hChar]
      rw [Option.getD_none, Option.getD_some, List.flatMap_congr hKeep, List.flatMap_singleton']

theorem decodeFrom_escape {c : Char} (h : c.toNat < 128) (rest : Text) :
    decodeFrom .outside (escape c ++ rest) = c :: decodeFrom .outside rest := by
  obtain ⟨hHigh, -, -⟩ := hexDigit_spec (show c.toNat / 16 < 16 by omega)
  obtain ⟨hLow, -, -⟩ := hexDigit_spec (show c.toNat % 16 < 16 by omega)
  have hScan : scanX2 (hexDigit (c.toNat / 16) :: hexDigit (c.toNat % 16) :: rest) = c.toNat := by
    rw [scanX2_hexDigits (by omega) (by omega)]
    omega
  have hChar : Char.ofNat c.toNat = c := Char.ofNat_toNat c
  simp [escape_of_ascii h, decodeFrom, hHigh, hLow, hScan, hChar]

theorem decodeFrom_encodedChar {c : Char} (h : c.toNat < 128) (rest : Text) :
    decodeFrom .outside (encodedChar c ++ rest) = c :: decodeFrom .outside rest := by
  rw [encodedChar]
  split
  · exact decodeFrom_escape h rest
  · rename_i hPlain
    have hPercent : c ≠ '%' := by
      rintro rfl
      exact hPlain (by decide)
    simp [decodeFrom, hPercent]

theorem decodeFrom_flatMap {str : Text} (h : IsAscii str) :
    decodeFrom .outside (str.flatMap encodedChar) = str := by
  induction str with
  | nil => rfl
  | cons c str ih =>
    obtain ⟨⟨-, hChar⟩, hRest⟩ := List.forall_mem_cons.mp h
    rw [List.flatMap_cons, decodeFrom_encodedChar hChar, ih hRest]

theorem decodeFrom_of_not_mem {str : Text} (h : '%' ∉ str) : decodeFrom .outside str = str := by
  induction str with
  | nil => rfl
  | cons c str ih =>
    obtain ⟨hHead, hTail⟩ := List.ne_and_not_mem_of_not_mem_cons h
    rw [decodeFrom, if_neg hHead.symm, ih hTail]

/-- What is encoded is decoded to the same text, where a missing text is an empty one. -/
theorem decoded_encoded {str : Option Text} (h : IsAscii (str.getD [])) :
    decoded (encoded str) = str.getD [] := by
  rw [decoded, decodeValue, encoded_eq_flatMap h]
  split
  · rw [Option.getD_some, decodeFrom_flatMap h, List.takeWhile_eq_self_iff]
    exact fun c hMem => by simpa using (h c hMem).1
  · rename_i hPercent
    have hNone : '%' ∉ (str.getD []).flatMap encodedChar := by simpa using hPercent
    calc
      _ = decodeFrom .outside ((str.getD []).flatMap encodedChar) := (decodeFrom_of_not_mem hNone).symm
      _ = str.getD [] := decodeFrom_flatMap h

theorem mem_encoded {str : Option Text} (h : IsAscii (str.getD [])) {c : Char} (hMem : c ∈ encoded str) :
    c = '%' ∨ needsEncoding c = false := by
  rw [encoded_eq_flatMap h] at hMem
  obtain ⟨d, hD, hMem⟩ := List.mem_flatMap.mp hMem
  have hAscii := (h d hD).2
  rw [encodedChar] at hMem
  split at hMem
  · rw [escape_of_ascii hAscii] at hMem
    simp only [List.mem_cons, List.not_mem_nil, or_false] at hMem
    rcases hMem with rfl | rfl | rfl
    · exact .inl rfl
    · exact .inr (hexDigit_spec (by omega)).2.2
    · exact .inr (hexDigit_spec (by omega)).2.2
  · rename_i hPlain
    obtain rfl := List.mem_singleton.mp hMem
    exact .inr (Bool.eq_false_iff.mpr hPlain)

end Encoding

end Tr069Agent.Engine
