import Mathlib.Data.Nat.Bitwise
import Mathlib.Tactic.Common

/-! # Cyclic redundancy checks

A reflected register of `width` bits that is shifted by one bit at a time, where the generator is added
when a one falls out. Shifting is linear in exclusive or, so the check of a message is the message
itself, taken for one number, shifted through the register.
-/

namespace Tr069Agent.Library.Crc

set_option autoImplicit false

variable (poly : Nat)

def shiftBit (c : Nat) : Nat := if c &&& 1 = 1 then poly ^^^ (c >>> 1) else c >>> 1

def shiftBits : Nat → Nat → Nat
  | 0, c => c
  | count + 1, c => shiftBits count (shiftBit poly c)

/-- The register after one more byte. -/
def feed (c byte : Nat) : Nat := shiftBits poly 8 (c ^^^ byte)

/-- The message as one number, its first byte lowest. -/
def stream : List Nat → Nat
  | [] => 0
  | byte :: bytes => byte ^^^ (stream bytes <<< 8)

variable {poly}

section Linear

theorem shiftBit_xor (a b : Nat) : shiftBit poly (a ^^^ b) = shiftBit poly a ^^^ shiftBit poly b := by
  have hShift : (a ^^^ b) >>> 1 = a >>> 1 ^^^ b >>> 1 := Nat.shiftRight_xor_distrib
  have hBit : ((a ^^^ b) &&& 1 = 1) ↔ ¬ ((a &&& 1 = 1) ↔ (b &&& 1 = 1)) := by
    simp only [Nat.and_one_is_mod, Nat.xor_mod_two_eq_one]
  simp only [shiftBit, hBit, hShift]
  by_cases hA : a &&& 1 = 1 <;> by_cases hB : b &&& 1 = 1
  · -- the generator is added twice
    rw [if_neg (not_not_intro (iff_of_true hA hB)), if_pos hA, if_pos hB, Nat.xor_comm poly (a >>> 1), Nat.xor_assoc,
      ← Nat.xor_assoc poly poly, Nat.xor_self, Nat.zero_xor]
  · rw [if_pos fun h => hB (h.mp hA), if_pos hA, if_neg hB, Nat.xor_assoc]
  · rw [if_pos fun h => hA (h.mpr hB), if_neg hA, if_pos hB, ← Nat.xor_assoc, Nat.xor_comm poly, Nat.xor_assoc]
  · rw [if_neg (not_not_intro (iff_of_false hA hB)), if_neg hA, if_neg hB]

theorem shiftBits_xor (count a b : Nat) :
    shiftBits poly count (a ^^^ b) = shiftBits poly count a ^^^ shiftBits poly count b := by
  induction count generalizing a b with
  | zero => rfl
  | succ count ih => rw [shiftBits, shiftBit_xor, ih, shiftBits, shiftBits]

theorem shiftBits_add (more count c : Nat) :
    shiftBits poly (count + more) c = shiftBits poly more (shiftBits poly count c) := by
  induction count generalizing c with
  | zero => rw [Nat.zero_add, shiftBits]
  | succ count ih => rw [Nat.succ_add, shiftBits, ih, shiftBits]

theorem shiftBit_shiftLeft (a : Nat) : shiftBit poly (a <<< 1) = a := by
  have hEven : ¬ (a <<< 1) &&& 1 = 1 := by
    rw [Nat.and_one_is_mod, Nat.shiftLeft_eq]
    omega
  rw [shiftBit, if_neg hEven, Nat.shiftLeft_shiftRight]

/-- Zeros fall out without a trace. -/
theorem shiftBits_shiftLeft (count a : Nat) : shiftBits poly count (a <<< count) = a := by
  induction count with
  | zero => rfl
  | succ count ih => rw [shiftBits, Nat.shiftLeft_add, shiftBit_shiftLeft, ih]

theorem xor_split (c count : Nat) : c = (c % 2 ^ count) ^^^ ((c >>> count) <<< count) := by
  refine Nat.eq_of_testBit_eq fun i => ?_
  rw [Nat.testBit_xor, Nat.testBit_mod_two_pow, Nat.testBit_shiftLeft, Nat.testBit_shiftRight]
  by_cases h : i < count
  · simp [h, Nat.not_le.mpr h]
  · simp [h, Nat.not_lt.mp h]

/-- Several bits at once: the low bits from a table, the others are moved down. -/
theorem shiftBits_eq_table (count c : Nat) :
    shiftBits poly count c = shiftBits poly count (c % 2 ^ count) ^^^ (c >>> count) := by
  conv => lhs; rw [xor_split c count]
  rw [shiftBits_xor, shiftBits_shiftLeft]

theorem foldl_feed (bytes : List Nat) (c : Nat) :
    bytes.foldl (feed poly) c = shiftBits poly (8 * bytes.length) (c ^^^ stream bytes) := by
  induction bytes generalizing c with
  | nil => rw [List.foldl_nil, stream, Nat.xor_zero, List.length_nil, Nat.mul_zero, shiftBits]
  | cons byte bytes ih =>
    have hLength : 8 * (byte :: bytes).length = 8 + 8 * bytes.length := by
      rw [List.length_cons]
      omega
    rw [List.foldl_cons, ih, hLength, shiftBits_add, stream, ← Nat.xor_assoc, shiftBits_xor 8, shiftBits_shiftLeft,
      feed]

theorem foldl_feed_xor {bytes others : List Nat} (h : bytes.length = others.length) (c d : Nat) :
    bytes.foldl (feed poly) c ^^^ others.foldl (feed poly) d =
      shiftBits poly (8 * bytes.length) ((c ^^^ d) ^^^ (stream bytes ^^^ stream others)) := by
  rw [foldl_feed, foldl_feed, ← h, ← shiftBits_xor]
  congr 1
  rw [Nat.xor_assoc, Nat.xor_assoc, ← Nat.xor_assoc (stream bytes), Nat.xor_comm (stream bytes) d, Nat.xor_assoc]

end Linear

section Detection

/-- The generator has `width` bits. -/
structure HasWidth (poly width : Nat) : Prop where
  low : 2 ^ width ≤ 2 * poly
  high : poly < 2 ^ width

variable {width : Nat}

theorem shiftBit_lt (hPoly : HasWidth poly width) {c : Nat} (hc : c < 2 ^ width) : shiftBit poly c < 2 ^ width := by
  have hShift : c >>> 1 < 2 ^ width := Nat.lt_of_le_of_lt (Nat.shiftRight_le c 1) hc
  rw [shiftBit]
  split
  · exact Nat.xor_lt_two_pow hPoly.high hShift
  · exact hShift

theorem eq_zero_of_shiftBit (hPoly : HasWidth poly width) {c : Nat} (hc : c < 2 ^ width) (h : shiftBit poly c = 0) :
    c = 0 := by
  have hLow := hPoly.low
  rw [shiftBit] at h
  split at h
  · have hSame : poly = c >>> 1 := by simpa using h
    rw [Nat.shiftRight_eq_div_pow] at hSame
    omega
  · rename_i hEven
    rw [Nat.and_one_is_mod] at hEven
    rw [Nat.shiftRight_eq_div_pow] at h
    omega

theorem eq_zero_of_shiftBits (hPoly : HasWidth poly width) {count c : Nat} (hc : c < 2 ^ width)
    (h : shiftBits poly count c = 0) : c = 0 := by
  induction count generalizing c with
  | zero => exact h
  | succ count ih => exact eq_zero_of_shiftBit hPoly hc (ih (shiftBit_lt hPoly hc) h)

theorem stream_lt {bytes : List Nat} (h : ∀ byte ∈ bytes, byte < 256) : stream bytes < 2 ^ (8 * bytes.length) := by
  induction bytes with
  | nil => exact Nat.one_pos
  | cons byte bytes ih =>
    obtain ⟨hByte, hBytes⟩ := List.forall_mem_cons.mp h
    have hRest := ih hBytes
    rw [List.length_cons, Nat.mul_succ, stream]
    refine Nat.xor_lt_two_pow (Nat.lt_of_lt_of_le hByte ?_) ?_
    · calc 256 = 2 ^ 8 := rfl
        _ ≤ 2 ^ (8 * bytes.length + 8) := Nat.pow_le_pow_right Nat.two_pos (Nat.le_add_left 8 _)
    · rw [Nat.shiftLeft_eq, Nat.pow_add]
      exact Nat.mul_lt_mul_of_pos_right hRest (Nat.two_pow_pos 8)

theorem stream_injective {bytes others : List Nat} (hLength : bytes.length = others.length)
    (hBytes : ∀ byte ∈ bytes, byte < 256) (hOthers : ∀ byte ∈ others, byte < 256) (h : stream bytes = stream others) :
    bytes = others := by
  induction bytes generalizing others with
  | nil => exact (List.length_eq_zero_iff.mp hLength.symm).symm
  | cons byte bytes ih =>
    obtain ⟨other, others, rfl⟩ := List.exists_cons_of_length_eq_add_one hLength.symm
    obtain ⟨hByte, hBytes⟩ := List.forall_mem_cons.mp hBytes
    obtain ⟨hOther, hOthers'⟩ := List.forall_mem_cons.mp hOthers
    have hLow (b : Nat) (hb : b < 256) (rest : Nat) :
        (b ^^^ (rest <<< 8)) % 2 ^ 8 = b ∧ (b ^^^ (rest <<< 8)) >>> 8 = rest := by
      constructor
      · rw [Nat.xor_mod_two_pow, Nat.mod_eq_of_lt hb, Nat.shiftLeft_eq, Nat.mul_mod_left, Nat.xor_zero]
      · rw [Nat.shiftRight_xor_distrib, Nat.shiftLeft_shiftRight, Nat.shiftRight_eq_div_pow, Nat.div_eq_of_lt hb,
          Nat.zero_xor]
    simp only [stream] at h
    obtain ⟨hFirst, hRest⟩ := hLow byte hByte (stream bytes)
    obtain ⟨hOtherFirst, hOtherRest⟩ := hLow other hOther (stream others)
    rw [h] at hFirst hRest
    have hSame := ih (Nat.succ.inj hLength) hBytes hOthers' (hRest.symm.trans hOtherRest)
    rw [hSame, hFirst.symm.trans hOtherFirst]

/-- A message that is changed within as many bits as the register has never keeps its check. -/
theorem foldl_feed_ne (hPoly : HasWidth poly width) {changed other : List Nat}
    (hLength : changed.length = other.length) (hWidth : 8 * changed.length ≤ width)
    (hChanged : ∀ byte ∈ changed, byte < 256) (hOther : ∀ byte ∈ other, byte < 256) (hNe : changed ≠ other)
    (front back : List Nat) (c : Nat) :
    (front ++ changed ++ back).foldl (feed poly) c ≠ (front ++ other ++ back).foldl (feed poly) c := by
  intro hSame
  simp only [List.foldl_append] at hSame
  have hBehind : _ = shiftBits poly _ _ := foldl_feed_xor (rfl : back.length = back.length)
    (changed.foldl (feed poly) (front.foldl (feed poly) c)) (other.foldl (feed poly) (front.foldl (feed poly) c))
  rw [hSame, Nat.xor_self, Nat.xor_self, Nat.xor_zero, foldl_feed_xor hLength, Nat.xor_self, Nat.zero_xor,
    ← shiftBits_add] at hBehind
  have hSmall : stream changed ^^^ stream other < 2 ^ width := by
    have hPow : 2 ^ (8 * changed.length) ≤ 2 ^ width := Nat.pow_le_pow_right (by decide) hWidth
    refine Nat.xor_lt_two_pow ((stream_lt hChanged).trans_le hPow) ((stream_lt hOther).trans_le ?_)
    rwa [← hLength]
  have hZero := eq_zero_of_shiftBits hPoly hSmall hBehind.symm
  exact hNe (stream_injective hLength hChanged hOther (Nat.xor_eq_zero_iff.mp hZero))

end Detection

end Tr069Agent.Library.Crc
