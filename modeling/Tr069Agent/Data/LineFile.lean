import Mathlib.Data.List.Basic
import Mathlib.Data.List.DropRight
import Mathlib.Tactic.Common
import Tr069Agent.Library.Lines

/-! # Line files closed by a checksum

The parameter file and the control file are lines of text, followed by a line with a star and the
CRC of the lines before it. A line that looks like this last one ends the reading wherever it stands.
-/

namespace Tr069Agent.Data

open Library Library.Lines

set_option autoImplicit false

def maxLineLen : Nat := 800

/-- The comparison `c < ' '`, where `char` is signed. -/
def belowSpace (c : Char) : Bool := c < ' ' || 128 ≤ c.toNat

/-- The end of the line is not cut off with the end of the line in the file. -/
def EndsPlain (line : Text) : Prop := ∀ c ∈ line.getLast?, belowSpace c = false

instance (line : Text) : Decidable (EndsPlain line) := Option.decidableForallMem line.getLast?

/-- A line that is read back as it was written. -/
def Fits (line : Text) : Prop := line.length + 1 < maxLineLen ∧ '\n' ∉ line ∧ EndsPlain line

instance (line : Text) : Decidable (Fits line) := inferInstanceAs (Decidable (_ ∧ _ ∧ _))

theorem endsPlain_of_forall {line : Text} (h : ∀ c ∈ line, belowSpace c = false) : EndsPlain line :=
  fun c hLast => h c (List.mem_of_getLast? hLast)

theorem newline_notMem_of_forall {line : Text} (h : ∀ c ∈ line, belowSpace c = false) :
    '\n' ∉ line := fun hMem => absurd (h '\n' hMem) (by decide)

section Crc

/-- `_createCrc32Table`: one entry of the table. -/
def crc32Table (n : Nat) : Nat :=
  (List.range 8).foldl (fun c _ => if c &&& 1 = 1 then 0xedb88320 ^^^ (c >>> 1) else c >>> 1) n

def updateCrc32 (crc32 : Nat) (buf : Text) : Nat :=
  (buf.foldl (fun c ch => crc32Table ((c ^^^ ch.toNat) &&& 0xff) ^^^ (c >>> 8)) (crc32 ^^^ 0xffffffff))
    ^^^ 0xffffffff

/-- The format `%lX`. -/
def showHex (n : Nat) : Text := (Nat.toDigits 16 n).map Char.toUpper

theorem crc32Table_lt {n : Nat} (h : n < 2 ^ 32) : crc32Table n < 2 ^ 32 := by
  unfold crc32Table
  generalize List.range 8 = rounds
  induction rounds generalizing n with
  | nil => exact h
  | cons k rounds ih =>
    have hShift : n >>> 1 < 2 ^ 32 := Nat.lt_of_le_of_lt (Nat.shiftRight_le n 1) h
    apply ih
    beta_reduce
    split
    · exact Nat.xor_lt_two_pow (by decide) hShift
    · exact hShift

theorem updateCrc32_lt {crc32 : Nat} (h : crc32 < 2 ^ 32) (buf : Text) :
    updateCrc32 crc32 buf < 2 ^ 32 := by
  refine Nat.xor_lt_two_pow ?_ (by decide)
  have hStart : crc32 ^^^ 0xffffffff < 2 ^ 32 := Nat.xor_lt_two_pow h (by decide)
  generalize crc32 ^^^ 0xffffffff = c at hStart
  induction buf generalizing c with
  | nil => exact hStart
  | cons ch buf ih =>
    apply ih
    refine Nat.xor_lt_two_pow (crc32Table_lt ?_) (Nat.lt_of_le_of_lt (Nat.shiftRight_le c 8) hStart)
    exact Nat.and_lt_two_pow _ (by decide)

theorem foldl_updateCrc32_lt {crc32 : Nat} (h : crc32 < 2 ^ 32) (lines : List Text) :
    lines.foldl updateCrc32 crc32 < 2 ^ 32 := by
  induction lines generalizing crc32 with
  | nil => exact h
  | cons line lines ih => exact ih (updateCrc32_lt h line)

theorem length_showHex_le {n : Nat} (h : n < 2 ^ 32) : (showHex n).length ≤ 8 := by
  rw [showHex, List.length_map, Nat.length_toDigits_le_iff (by decide) (by decide)]
  simpa using h

theorem length_showHex_pos (n : Nat) : 0 < (showHex n).length := by
  rw [showHex, List.length_map]
  exact Nat.length_toDigits_pos

theorem belowSpace_digitChar {d : Nat} (h : d < 16) : belowSpace d.digitChar.toUpper = false := by
  have hAll : ∀ d : Fin 16, belowSpace d.val.digitChar.toUpper = false := by decide
  exact hAll ⟨d, h⟩

theorem mem_showHex {n : Nat} {c : Char} (h : c ∈ showHex n) : ∃ d < 16, c = d.digitChar.toUpper := by
  induction n using Nat.strong_induction_on generalizing c with
  | _ n ih =>
    rw [showHex, Nat.toDigits_eq_if (by decide)] at h
    split at h
    · rename_i hDigit
      exact ⟨n, hDigit, by simpa using h⟩
    · rename_i hLarge
      rw [List.map_append, List.mem_append] at h
      rcases h with hRest | hLast
      · exact ih (n / 16) (by omega) hRest
      · exact ⟨n % 16, Nat.mod_lt n (by decide), by simpa using hLast⟩

theorem belowSpace_of_mem_showHex {n : Nat} {c : Char} (h : c ∈ showHex n) : belowSpace c = false := by
  obtain ⟨d, hDigit, rfl⟩ := mem_showHex h
  exact belowSpace_digitChar hDigit

theorem star_notMem_showHex (n : Nat) : '*' ∉ showHex n := by
  intro h
  obtain ⟨d, hDigit, hStar⟩ := mem_showHex h
  have hAll : ∀ d : Fin 16, '*' ≠ d.val.digitChar.toUpper := by decide
  exact hAll ⟨d, hDigit⟩ hStar

end Crc

section Writing

def crcLine (lines : List Text) : Text := '*' :: showHex (lines.foldl updateCrc32 0)

/-- The lines given to `_writeln` after `_resetCrc`, closed by `_writeCrc`. -/
def writeFile (lines : List Text) : Text := unlines (lines ++ [crcLine lines])

end Writing

section Reading

structure LineReader where
  pieces : List Text
  crc32 : Nat
  crcOK : Bool

/-- The file opened, after `_resetCrc`. -/
def LineReader.open (file : Text) : LineReader := ⟨fgets maxLineLen file, 0, false⟩

/-- A line of more than one character that begins with a star. -/
def isCrcLine (line : Text) : Bool := 1 < line.length && line.head? = some '*'

/-- Whether a line of fields looks like a checksum line shows at its first field. -/
theorem isCrcLine_append_eq_false_iff (field rest : Text) :
    isCrcLine (field ++ ';' :: rest) = false ↔ field.head? ≠ some '*' := by
  cases field with
  | nil => simp [isCrcLine]
  | cons c field =>
    have hLong : 0 < field.length + (rest.length + 1) := by omega
    simp [isCrcLine, hLong]

/-- `_readln`: none at the end of the file and at a checksum line. -/
def readln (fp : LineReader) : Option Text × LineReader :=
  match fp.pieces with
  | [] => (none, fp)
  | piece :: pieces =>
    let line := piece.rdropWhile belowSpace
    if isCrcLine line then
      -- a second star stands for a checksum that is not verified
      let crcOK := line.tail = showHex fp.crc32 || (line)[1]? = some '*'
      (none, { fp with pieces, crcOK })
    else (some line, { fp with pieces, crc32 := updateCrc32 fp.crc32 line })

/-- The lines that `_readln` gives until it gives none. -/
def readLinesFrom : List Text → Nat → Bool → List Text × LineReader
  | [], crc32, crcOK => ([], ⟨[], crc32, crcOK⟩)
  | piece :: pieces, crc32, crcOK =>
    match readln ⟨piece :: pieces, crc32, crcOK⟩ with
    | (none, fp) => ([], fp)
    | (some line, fp) =>
      let (lines, last) := readLinesFrom pieces fp.crc32 fp.crcOK
      (line :: lines, last)

def readLines (fp : LineReader) : List Text × LineReader := readLinesFrom fp.pieces fp.crc32 fp.crcOK

theorem readln_line {line : Text} (hLine : EndsPlain line) (pieces : List Text)
    (crc32 : Nat) (crcOK : Bool) :
    readln ⟨(line ++ ['\n']) :: pieces, crc32, crcOK⟩ =
      if isCrcLine line then
        (none, ⟨pieces, crc32, line.tail = showHex crc32 || (line)[1]? = some '*'⟩)
      else (some line, ⟨pieces, updateCrc32 crc32 line, crcOK⟩) := by
  have hStrip : (line ++ ['\n']).rdropWhile belowSpace = line :=
    rdropWhile_line (by decide) hLine
  simp only [readln, hStrip]

theorem readLinesFrom_lines {lines : List Text} (hLines : ∀ line ∈ lines, EndsPlain line)
    (crc32 : Nat) (crcOK : Bool) :
    (readLinesFrom (lines.map fun line => line ++ ['\n']) crc32 crcOK).1 =
      lines.takeWhile fun line => !isCrcLine line := by
  induction lines generalizing crc32 crcOK with
  | nil => rfl
  | cons line lines ih =>
    have hRest := ih fun other hMem => hLines other (List.mem_cons_of_mem line hMem)
    rw [List.map_cons, readLinesFrom, readln_line (hLines line List.mem_cons_self)]
    cases hCrc : isCrcLine line with
    | true => simp [hCrc]
    | false => simp [hCrc, hRest]

theorem isCrcLine_crcLine (lines : List Text) : isCrcLine (crcLine lines) = true := by
  have := length_showHex_pos (lines.foldl updateCrc32 0)
  simp [isCrcLine, crcLine]
  omega

theorem fits_crcLine (lines : List Text) : Fits (crcLine lines) := by
  have hPlain : ∀ c ∈ crcLine lines, belowSpace c = false := by
    intro c hMem
    rcases List.mem_cons.mp hMem with rfl | hHex
    · decide
    · exact belowSpace_of_mem_showHex hHex
  refine ⟨?_, newline_notMem_of_forall hPlain, endsPlain_of_forall hPlain⟩
  have := length_showHex_le (foldl_updateCrc32_lt (by decide : 0 < 2 ^ 32) lines)
  simp only [crcLine, List.length_cons, maxLineLen]
  omega

theorem fits_writeFile {lines : List Text} (hFits : ∀ line ∈ lines, Fits line) :
    ∀ line ∈ lines ++ [crcLine lines], Fits line := by
  intro line hMem
  rcases List.mem_append.mp hMem with hLine | hLast
  · exact hFits line hLine
  · rw [List.mem_singleton.mp hLast]
    exact fits_crcLine lines

theorem fgets_writeFile {lines : List Text} (hFits : ∀ line ∈ lines, Fits line) :
    fgets maxLineLen (writeFile lines) = (lines ++ [crcLine lines]).map fun line => line ++ ['\n'] := by
  apply fgets_unlines
  intro line hMem
  obtain ⟨hLength, hNewline, -⟩ := fits_writeFile hFits line hMem
  exact ⟨hLength, hNewline⟩

theorem readLinesFrom_crcOK {lines : List Text} (hLines : ∀ line ∈ lines, EndsPlain line)
    (hNone : ∀ line ∈ lines, isCrcLine line = false) {last : Text} (hLast : isCrcLine last = true)
    (hPlain : EndsPlain last) {crc32 : Nat}
    (hCrc : last.tail = showHex (lines.foldl updateCrc32 crc32)) (crcOK : Bool) :
    (readLinesFrom ((lines ++ [last]).map fun line => line ++ ['\n']) crc32 crcOK).2.crcOK = true := by
  induction lines generalizing crc32 with
  | nil =>
    rw [List.nil_append, List.map_cons, readLinesFrom, readln_line hPlain]
    simp [hLast, hCrc]
  | cons line lines ih =>
    obtain ⟨hHead, hTail⟩ := List.forall_mem_cons.mp hNone
    obtain ⟨hHeadLine, hTailLines⟩ := List.forall_mem_cons.mp hLines
    have hRest := ih hTailLines hTail hCrc
    rw [List.cons_append, List.map_cons, readLinesFrom, readln_line hHeadLine]
    simp only [hHead, Bool.false_eq_true, if_false]
    exact hRest

/-- A file whose lines do not look like a checksum line passes its own check. -/
theorem readLines_crcOK_writeFile {lines : List Text} (hFits : ∀ line ∈ lines, Fits line)
    (hNone : ∀ line ∈ lines, isCrcLine line = false) :
    (readLines (.open (writeFile lines))).2.crcOK = true := by
  rw [readLines, LineReader.open, fgets_writeFile hFits]
  exact readLinesFrom_crcOK (fun line hMem => (hFits line hMem).2.2) hNone (isCrcLine_crcLine lines)
    (fits_crcLine lines).2.2 rfl false

theorem mem_readLinesFrom {pieces : List Text} {crc32 : Nat} {crcOK : Bool} {line : Text}
    (h : line ∈ (readLinesFrom pieces crc32 crcOK).1) :
    ∃ piece ∈ pieces, line = piece.rdropWhile belowSpace := by
  induction pieces generalizing crc32 crcOK with
  | nil => cases h
  | cons piece pieces ih =>
    rw [readLinesFrom] at h
    split at h
    · cases h
    · rename_i first fp hFirst
      simp only [readln] at hFirst
      split at hFirst
      · cases hFirst
      · obtain ⟨hSame, -⟩ := Prod.mk.inj hFirst
        obtain rfl := Option.some.inj hSame
        rcases List.mem_cons.mp h with rfl | hRest
        · exact ⟨piece, List.mem_cons_self, rfl⟩
        · obtain ⟨other, hMem, hLine⟩ := ih hRest
          exact ⟨other, List.mem_cons_of_mem piece hMem, hLine⟩

theorem isCrcLine_of_mem_readLinesFrom {pieces : List Text} {crc32 : Nat} {crcOK : Bool} {line : Text}
    (h : line ∈ (readLinesFrom pieces crc32 crcOK).1) : isCrcLine line = false := by
  induction pieces generalizing crc32 crcOK with
  | nil => cases h
  | cons piece pieces ih =>
    rw [readLinesFrom] at h
    split at h
    · cases h
    · rename_i first fp hFirst
      simp only [readln] at hFirst
      split at hFirst
      · cases hFirst
      · rename_i hNone
        obtain ⟨hSame, -⟩ := Prod.mk.inj hFirst
        obtain rfl := Option.some.inj hSame
        rcases List.mem_cons.mp h with rfl | hRest
        · exact Bool.eq_false_iff.mpr hNone
        · exact ih hRest

theorem newline_notMem_of_mem_readLines {file line : Text} (h : line ∈ (readLines (.open file)).1) :
    '\n' ∉ line := by
  obtain ⟨piece, hPiece, rfl⟩ := mem_readLinesFrom h
  exact newline_notMem_of_mem_piecesFrom (by decide) (by simp) hPiece

end Reading

end Tr069Agent.Data
