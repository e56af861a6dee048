import Mathlib.Data.List.Basic
import Tr069Agent.Data.LineFile

/-! # Line files that were not written to their end

When the power is cut while a line file is written, a beginning of it is left. The checksum stands at
the end, so the beginnings that pass the check are those that hold the whole checksum line.
-/

namespace Tr069Agent.Data

open Library Library.Lines

set_option autoImplicit false

section Reader

def strip (piece : Text) : Text := piece.rdropWhile belowSpace

theorem strip_strip (piece : Text) : strip (strip piece) = strip piece := List.rdropWhile_idempotent _ _

/-- The reader of the pieces without what `_readln` cuts off at their ends. -/
def LineReader.stripped (fp : LineReader) : LineReader := { fp with pieces := fp.pieces.map strip }

theorem readln_stripped (fp : LineReader) : readln fp.stripped = ((readln fp).1, (readln fp).2.stripped) := by
  obtain ⟨pieces, crc32, crcOK⟩ := fp
  cases pieces with
  | nil => rfl
  | cons piece pieces =>
    have hSame : (strip piece).rdropWhile belowSpace = piece.rdropWhile belowSpace := strip_strip piece
    simp only [LineReader.stripped, readln, List.map_cons, hSame]
    split <;> rfl

theorem readLinesFrom_stripped (pieces : List Text) (crc32 : Nat) (crcOK : Bool) :
    readLinesFrom (pieces.map strip) crc32 crcOK =
      ((readLinesFrom pieces crc32 crcOK).1, (readLinesFrom pieces crc32 crcOK).2.stripped) := by
  induction pieces generalizing crc32 crcOK with
  | nil => rfl
  | cons piece pieces ih =>
    have hSame : (strip piece).rdropWhile belowSpace = piece.rdropWhile belowSpace := strip_strip piece
    simp only [List.map_cons, readLinesFrom, readln, hSame]
    by_cases hCrc : isCrcLine (piece.rdropWhile belowSpace) = true
    · simp only [hCrc, if_true]
      rfl
    · simp only [hCrc, Bool.false_eq_true, if_false, ih]

/-- Readers whose pieces differ only in what is cut off give the same line. -/
theorem readln_congr {fp other : LineReader} (h : fp.stripped = other.stripped) :
    (readln fp).1 = (readln other).1 ∧ (readln fp).2.stripped = (readln other).2.stripped := by
  have hSame := readln_stripped fp
  rw [h, readln_stripped other] at hSame
  exact (Prod.mk.inj hSame).imp Eq.symm Eq.symm

theorem readLines_congr {fp other : LineReader} (h : fp.stripped = other.stripped) :
    (readLines fp).1 = (readLines other).1 ∧ (readLines fp).2.crcOK = (readLines other).2.crcOK := by
  have hSame : readLines fp.stripped = _ := readLinesFrom_stripped fp.pieces fp.crc32 fp.crcOK
  have hOther : readLines other.stripped = _ := readLinesFrom_stripped other.pieces other.crc32 other.crcOK
  rw [h, hOther] at hSame
  obtain ⟨hLines, hLast⟩ := Prod.mk.inj hSame
  exact ⟨hLines.symm, (congrArg LineReader.crcOK hLast).symm⟩

end Reader

section Cut

variable {lines : List Text} {cut : Text}

theorem readLinesFrom_append (hLines : ∀ line ∈ lines, EndsPlain line) (hNone : ∀ line ∈ lines, isCrcLine line = false)
    (pieces : List Text) (crc32 : Nat) (crcOK : Bool) :
    readLinesFrom ((lines.map fun line => line ++ ['\n']) ++ pieces) crc32 crcOK =
      (lines ++ (readLinesFrom pieces (lines.foldl updateCrc32 crc32) crcOK).1,
        (readLinesFrom pieces (lines.foldl updateCrc32 crc32) crcOK).2) := by
  induction lines generalizing crc32 with
  | nil => rfl
  | cons line lines ih =>
    obtain ⟨hHead, hTail⟩ := List.forall_mem_cons.mp hNone
    obtain ⟨hHeadLine, hTailLines⟩ := List.forall_mem_cons.mp hLines
    rw [List.map_cons, List.cons_append, readLinesFrom, readln_line hHeadLine]
    simp only [hHead, Bool.false_eq_true, if_false]
    rw [ih hTailLines hTail]
    rfl

theorem readLines_front (hFits : ∀ line ∈ lines, Fits line) (hNone : ∀ line ∈ lines, isCrcLine line = false)
    (rest : Text) :
    readLines (.open (unlines lines ++ rest)) =
      (lines ++ (readLinesFrom (fgets maxLineLen rest) (lines.foldl updateCrc32 0) false).1,
        (readLinesFrom (fgets maxLineLen rest) (lines.foldl updateCrc32 0) false).2) := by
  rw [readLines, LineReader.open, fgets_unlines_append fun line hMem => ⟨(hFits line hMem).1, (hFits line hMem).2.1⟩]
  exact readLinesFrom_append (fun line hMem => (hFits line hMem).2.2) hNone _ _ _

theorem isCrcLine_of_isPrefix {part line : Text} (hPart : part <+: line) (hLine : isCrcLine line = false) :
    isCrcLine part = false := by
  obtain ⟨rest, rfl⟩ := hPart
  cases part with
  | nil => rfl
  | cons c part =>
    simp only [isCrcLine, List.length_cons, List.cons_append, List.head?_cons, List.length_append,
      Bool.and_eq_false_iff, decide_eq_false_iff_not] at hLine ⊢
    refine hLine.imp_left fun hShort => ?_
    omega

/-- What is read of a line whose end is missing. -/
theorem readLinesFrom_part {part : Text} (hPart : isCrcLine (part.rdropWhile belowSpace) = false) (crc32 : Nat)
    (crcOK : Bool) :
    (readLinesFrom [part] crc32 crcOK).1 = [part.rdropWhile belowSpace] ∧
      (readLinesFrom [part] crc32 crcOK).2.crcOK = crcOK := by
  simp [readLinesFrom, readln, hPart]

theorem rdropWhile_plain {part : Text} (hPlain : ∀ c ∈ part, belowSpace c = false) :
    part.rdropWhile belowSpace = part := by
  rw [List.rdropWhile_eq_self_iff]
  intro hSome
  simp [hPlain _ (List.getLast_mem hSome)]

/-- A checksum line without its end of line passes the check if none of its digits is missing. -/
theorem readLinesFrom_crcPart {part : Text} {crc32 : Nat} (hPart : part <+: '*' :: showHex crc32) (hSome : part ≠ []) :
    (readLinesFrom [part] crc32 false).2.crcOK = true ↔ part = '*' :: showHex crc32 := by
  obtain ⟨c, digits, rfl⟩ := List.exists_cons_of_ne_nil hSome
  obtain ⟨rfl, hDigits⟩ := List.cons_prefix_cons.mp hPart
  have hPlain : ∀ c ∈ '*' :: digits, belowSpace c = false := by
    intro c hMem
    rcases List.mem_cons.mp hMem with rfl | hIn
    · decide
    · exact belowSpace_of_mem_showHex (hDigits.subset hIn)
  have hStar : '*' ∉ digits := fun hMem => star_notMem_showHex crc32 (hDigits.subset hMem)
  have hLong := length_showHex_pos crc32
  rcases eq_or_ne digits [] with rfl | hMore
  · have hShort : [] ≠ showHex crc32 := fun h => by simp [← h] at hLong
    simp [readLinesFrom, readln, rdropWhile_plain hPlain, isCrcLine, hShort]
  · have hPos := List.length_pos_of_ne_nil hMore
    have hSecond : digits[0]? ≠ some '*' := fun hFirst => hStar (List.mem_of_getElem? hFirst)
    simp only [readLinesFrom, readln, rdropWhile_plain hPlain, isCrcLine, List.length_cons, List.head?_cons,
      List.getElem?_cons_succ, List.tail_cons, hSecond, List.cons.injEq, true_and]
    rw [if_pos (by simp [hPos])]
    simp

theorem cut_cases (hCut : cut <+: writeFile lines) :
    cut = writeFile lines ∨ (∃ part, part <+: crcLine lines ∧ cut = unlines lines ++ part) ∨
      ∃ front line back part, lines = front ++ line :: back ∧ part <+: line ∧ cut = unlines front ++ part := by
  rcases prefix_unlines_cases hCut with hWhole | ⟨front, line, back, part, hLines, hPart, rfl⟩
  · exact .inl hWhole
  · rcases List.eq_nil_or_concat back with rfl | ⟨back, last, rfl⟩
    · obtain ⟨rfl, hLast⟩ := List.append_inj' hLines rfl
      obtain rfl := (List.cons.inj hLast).1
      exact .inr (.inl ⟨part, hPart, rfl⟩)
    · rw [List.concat_eq_append, ← List.cons_append, ← List.append_assoc] at hLines
      exact .inr (.inr ⟨front, line, back, part, (List.append_inj' hLines rfl).1, hPart, rfl⟩)

theorem readLines_part_of_lines (hFits : ∀ line ∈ lines, Fits line) (hNone : ∀ line ∈ lines, isCrcLine line = false)
    {front back : List Text} {line part : Text} (hLines : lines = front ++ line :: back) (hPart : part <+: line) :
    (readLines (.open (unlines front ++ part))).2.crcOK = false := by
  have hFront : ∀ other ∈ front, other ∈ lines := fun other hMem => by simp [hLines, hMem]
  have hLine : line ∈ lines := by simp [hLines]
  obtain ⟨hLength, hNewline, -⟩ := hFits line hLine
  rw [readLines_front (fun other hMem => hFits other (hFront other hMem))
    fun other hMem => hNone other (hFront other hMem)]
  rcases eq_or_ne part [] with rfl | hSome
  · rfl
  · have hLe := hPart.length_le
    rw [fgets_part (by omega) (fun hMem => hNewline (hPart.subset hMem)) hSome]
    have hStrip : part.rdropWhile belowSpace <+: line := (List.rdropWhile_prefix _ _).trans hPart
    exact (readLinesFrom_part (isCrcLine_of_isPrefix hStrip (hNone line hLine))
      (front.foldl updateCrc32 0) false).2

theorem readLines_part_of_crcLine (hFits : ∀ line ∈ lines, Fits line) (hNone : ∀ line ∈ lines, isCrcLine line = false)
    {part : Text} (hPart : part <+: crcLine lines) :
    (readLines (.open (unlines lines ++ part))).2.crcOK = true ↔ part = crcLine lines := by
  obtain ⟨hLength, hNewline, -⟩ := fits_crcLine lines
  rw [readLines_front hFits hNone]
  rcases eq_or_ne part [] with rfl | hSome
  · exact iff_of_false Bool.false_ne_true (List.cons_ne_nil _ _).symm
  · have hLe := hPart.length_le
    rw [fgets_part (by omega) (fun hMem => hNewline (hPart.subset hMem)) hSome]
    exact readLinesFrom_crcPart hPart hSome

/-- A beginning of the file passes the check if and only if at most the last end of line is missing. -/
theorem readLines_crcOK_cut_iff (hFits : ∀ line ∈ lines, Fits line)
    (hNone : ∀ line ∈ lines, isCrcLine line = false) (hCut : cut <+: writeFile lines) :
    (readLines (.open cut)).2.crcOK = true ↔ (writeFile lines).length ≤ cut.length + 1 := by
  have hFile : writeFile lines = unlines lines ++ crcLine lines ++ ['\n'] := unlines_concat lines (crcLine lines)
  rcases cut_cases hCut with rfl | ⟨part, hPart, rfl⟩ | ⟨front, line, back, part, hLines, hPart, rfl⟩
  · exact iff_of_true (readLines_crcOK_writeFile hFits hNone) (Nat.le_succ _)
  · rw [readLines_part_of_crcLine hFits hNone hPart, hFile]
    simp only [List.length_append, List.length_singleton]
    constructor
    · rintro rfl
      exact Nat.le_refl _
    · intro hLe
      exact hPart.eq_of_length_le (by omega)
  · have hLe := hPart.length_le
    refine iff_of_false (by simp [readLines_part_of_lines hFits hNone hLines hPart]) ?_
    rw [hFile, hLines, unlines_append, unlines_cons]
    have hCrc : 0 < (crcLine (front ++ line :: back)).length := List.length_pos_of_ne_nil (List.cons_ne_nil _ _)
    simp only [List.length_append, List.length_cons, List.length_nil]
    omega

/-- The beginnings that pass the check: the whole file, and the file without its last end of line. -/
theorem cut_of_long (hFits : ∀ line ∈ lines, Fits line) (hNone : ∀ line ∈ lines, isCrcLine line = false)
    (hCut : cut <+: writeFile lines) (hLong : (writeFile lines).length ≤ cut.length + 1) :
    cut = writeFile lines ∨ cut = unlines lines ++ crcLine lines := by
  have hCrcOK := (readLines_crcOK_cut_iff hFits hNone hCut).mpr hLong
  rcases cut_cases hCut with rfl | ⟨part, hPart, rfl⟩ | ⟨front, line, back, part, hLines, hPart, rfl⟩
  · exact .inl rfl
  · right
    rw [(readLines_part_of_crcLine hFits hNone hPart).mp hCrcOK]
  · rw [readLines_part_of_lines hFits hNone hLines hPart] at hCrcOK
    cases hCrcOK

/-- The pieces of a beginning that passes the check, without what is cut off at their ends. -/
theorem strip_fgets_of_long (hFits : ∀ line ∈ lines, Fits line) (hNone : ∀ line ∈ lines, isCrcLine line = false)
    (hCut : cut <+: writeFile lines) (hLong : (writeFile lines).length ≤ cut.length + 1) :
    (fgets maxLineLen cut).map strip = lines ++ [crcLine lines] := by
  have hPlain : ∀ line ∈ lines ++ [crcLine lines], strip (line ++ ['\n']) = line := fun line hMem =>
    rdropWhile_line (by decide) (fits_writeFile hFits line hMem).2.2
  rcases cut_of_long hFits hNone hCut hLong with rfl | rfl
  · rw [fgets_writeFile hFits, List.map_map]
    exact (List.map_congr_left hPlain).trans (List.map_id _)
  · obtain ⟨hLength, hNewline, hEnd⟩ := fits_crcLine lines
    have hLast : strip (crcLine lines) = crcLine lines := by
      rw [strip, List.rdropWhile_eq_self_iff]
      intro hSome
      simpa using hEnd _ (List.getLast?_eq_some_getLast hSome)
    rw [fgets_unlines_append fun line hMem => ⟨(hFits line hMem).1, (hFits line hMem).2.1⟩,
      fgets_part hLength hNewline (List.cons_ne_nil _ _), List.map_append, List.map_map, List.map_singleton, hLast]
    refine congrArg (· ++ [crcLine lines]) ((List.map_congr_left fun line hMem => ?_).trans (List.map_id _))
    exact hPlain line (List.mem_append_left _ hMem)

theorem stripped_open_of_long (hFits : ∀ line ∈ lines, Fits line) (hNone : ∀ line ∈ lines, isCrcLine line = false)
    (hCut : cut <+: writeFile lines) (hLong : (writeFile lines).length ≤ cut.length + 1) :
    (LineReader.open cut).stripped = (LineReader.open (writeFile lines)).stripped := by
  simp only [LineReader.stripped, LineReader.open, strip_fgets_of_long hFits hNone hCut hLong,
    strip_fgets_of_long hFits hNone List.prefix_rfl (Nat.le_succ _)]

end Cut

end Tr069Agent.Data
