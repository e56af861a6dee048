import Tr069Agent.Data.ControlData
import Tr069Agent.Data.CutFile
import Tr069Agent.Data.ParameterFile
import Tr069Agent.Library.Crc

/-! # Damaged line files

The table computes the cyclic redundancy check of the characters of all lines one after the other, so a
file in which at most four characters in a row have changed fails its check.
-/

namespace Tr069Agent.Data

open Library Library.Lines Library.Crc

set_option autoImplicit false

section Table

/-- The generator of the check, its highest power lowest. -/
def crcPoly : Nat := 0xedb88320

theorem hasWidth_crcPoly : HasWidth crcPoly 32 := ⟨by decide, by decide⟩

theorem crc32Table_eq (n : Nat) : crc32Table n = shiftBits crcPoly 8 n := rfl

/-- A character as `_updateCrc32` reads it. -/
def charByte (ch : Char) : Nat := ch.toNat % 2 ^ 8

theorem charByte_lt (ch : Char) : charByte ch < 256 := Nat.mod_lt _ (by decide)

theorem crc32Table_step (c : Nat) (ch : Char) :
    crc32Table ((c ^^^ ch.toNat) &&& 0xff) ^^^ (c >>> 8) = feed crcPoly c (charByte ch) := by
  have hMask (x : Nat) : x &&& 0xff = x % 2 ^ 8 := Nat.and_two_pow_sub_one_eq_mod x 8
  have hHigh : (c ^^^ charByte ch) >>> 8 = c >>> 8 := by
    rw [Nat.shiftRight_xor_distrib, Nat.shiftRight_eq_div_pow (charByte ch), Nat.div_eq_of_lt (charByte_lt ch),
      Nat.xor_zero]
  have hLow : (c ^^^ ch.toNat) % 2 ^ 8 = (c ^^^ charByte ch) % 2 ^ 8 := by
    rw [Nat.xor_mod_two_pow, Nat.xor_mod_two_pow, charByte, Nat.mod_mod]
  rw [feed, shiftBits_eq_table, hHigh, hMask, hLow, crc32Table_eq]

/-- The check of a text is the register that its characters leave. -/
theorem updateCrc32_eq (crc32 : Nat) (buf : Text) :
    updateCrc32 crc32 buf = (buf.map charByte).foldl (feed crcPoly) (crc32 ^^^ 0xffffffff) ^^^ 0xffffffff := by
  rw [updateCrc32, List.foldl_map]
  simp only [crc32Table_step]

theorem xor_xor_self (c mask : Nat) : c ^^^ mask ^^^ mask = c := by
  rw [Nat.xor_assoc, Nat.xor_self, Nat.xor_zero]

/-- The check of several lines is that of their characters one after the other. -/
theorem foldl_updateCrc32 (lines : List Text) (crc32 : Nat) :
    lines.foldl updateCrc32 crc32 = updateCrc32 crc32 lines.flatten := by
  induction lines generalizing crc32 with
  | nil => simp [updateCrc32_eq]
  | cons line lines ih =>
    rw [List.foldl_cons, ih, List.flatten_cons, updateCrc32_eq, updateCrc32_eq, updateCrc32_eq, xor_xor_self,
      List.map_append, List.foldl_append]

theorem updateCrc32_ne {changed other : Text} (hLength : changed.length = other.length) (hShort : changed.length ≤ 4)
    (hNe : changed.map charByte ≠ other.map charByte) (front back : Text) (crc32 : Nat) :
    updateCrc32 crc32 (front ++ changed ++ back) ≠ updateCrc32 crc32 (front ++ other ++ back) := by
  have hBytes (text : Text) : ∀ byte ∈ text.map charByte, byte < 256 := by
    intro byte hMem
    obtain ⟨ch, -, rfl⟩ := List.mem_map.mp hMem
    exact charByte_lt ch
  have hDiffer := foldl_feed_ne hasWidth_crcPoly (by simpa using hLength) (by rw [List.length_map]; omega)
    (hBytes changed) (hBytes other) hNe (front.map charByte) (back.map charByte) (crc32 ^^^ 0xffffffff)
  intro hSame
  rw [updateCrc32_eq, updateCrc32_eq, List.map_append, List.map_append, List.map_append, List.map_append] at hSame
  exact hDiffer (Nat.xor_left_injective hSame)

end Table

section Hexadecimal

theorem digitChar_injective {d e : Nat} (hd : d < 16) (he : e < 16)
    (h : d.digitChar.toUpper = e.digitChar.toUpper) : d = e := by
  have hAll : ∀ d e : Fin 16, d.val.digitChar.toUpper = e.val.digitChar.toUpper → d = e := by decide
  exact congrArg Fin.val (hAll ⟨d, hd⟩ ⟨e, he⟩ h)

theorem showHex_of_ge {n : Nat} (h : 16 ≤ n) :
    showHex n = showHex (n / 16) ++ [(n % 16).digitChar.toUpper] := by
  rw [showHex, Nat.toDigits_of_base_le (by decide) h, List.map_append]
  rfl

theorem showHex_of_lt {n : Nat} (h : n < 16) : showHex n = [n.digitChar.toUpper] := by
  rw [showHex, Nat.toDigits_of_lt_base h]
  rfl

theorem showHex_injective {n m : Nat} (h : showHex n = showHex m) : n = m := by
  induction n using Nat.strong_induction_on generalizing m with
  | _ n ih =>
    have hLong (k : Nat) : 0 < (showHex k).length := length_showHex_pos k
    rcases Nat.lt_or_ge n 16 with hN | hN <;> rcases Nat.lt_or_ge m 16 with hM | hM
    · rw [showHex_of_lt hN, showHex_of_lt hM] at h
      exact digitChar_injective hN hM (by simpa using h)
    · rw [showHex_of_lt hN, showHex_of_ge hM] at h
      have hLengths := congrArg List.length h
      have := hLong (m / 16)
      simp only [List.length_append, List.length_singleton] at hLengths
      omega
    · rw [showHex_of_ge hN, showHex_of_lt hM] at h
      have hLengths := congrArg List.length h
      have := hLong (n / 16)
      simp only [List.length_append, List.length_singleton] at hLengths
      omega
    · rw [showHex_of_ge hN, showHex_of_ge hM] at h
      obtain ⟨hFront, hLast⟩ := List.append_inj' h rfl
      have hHigh := ih (n / 16) (by omega) hFront
      have hLow : n % 16 = m % 16 :=
        digitChar_injective (Nat.mod_lt n (by decide)) (Nat.mod_lt m (by decide)) (by simpa using hLast)
      omega

end Hexadecimal

section Rejection

variable {lines damaged : List Text}

/-- The file whose lines have become others, with the checksum of the lines it was written with. -/
def damagedFile (lines damaged : List Text) : Text := unlines (damaged ++ [crcLine lines])

theorem readLines_damagedFile (hFits : ∀ line ∈ damaged, Fits line) (hNone : ∀ line ∈ damaged, isCrcLine line = false) :
    (readLines (.open (damagedFile lines damaged))).2.crcOK = true ↔
      damaged.foldl updateCrc32 0 = lines.foldl updateCrc32 0 := by
  obtain ⟨hLength, hNewline, hPlain⟩ := fits_crcLine lines
  have hPiece : fgets maxLineLen (crcLine lines ++ ['\n']) = [crcLine lines ++ ['\n']] := by
    have hOne := fgets_unlines (List.forall_mem_singleton.mpr ⟨hLength, hNewline⟩)
    simpa [unlines] using hOne
  have hSecond : (crcLine lines)[1]? ≠ some '*' := fun hStar =>
    star_notMem_showHex _ (List.mem_of_getElem? (List.getElem?_cons_succ ▸ hStar))
  have hTail : (crcLine lines).tail = showHex (lines.foldl updateCrc32 0) := rfl
  rw [damagedFile, unlines_concat, List.append_assoc, readLines_front hFits hNone, hPiece, readLinesFrom,
    readln_line hPlain, if_pos (isCrcLine_crcLine lines), hTail]
  simp only [hSecond, decide_false, Bool.or_false, decide_eq_true_eq]
  exact ⟨fun hSame => (showHex_injective hSame).symm, fun hSame => congrArg showHex hSame.symm⟩

end Rejection

end Tr069Agent.Data
