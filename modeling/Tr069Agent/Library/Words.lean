import Mathlib.Data.UInt
import Mathlib.Tactic.Common

/-! # The bytes of a word -/

namespace Tr069Agent.Library.Words

set_option autoImplicit false

theorem toUInt8_shiftRight (x : UInt32) {k : Nat} (hk : k < 4) :
    (x >>> UInt32.ofNat (8 * k)).toUInt8 = UInt8.ofNat (x.toNat / 256 ^ k) := by
  have hShift : (UInt32.ofNat (8 * k)).toNat % 32 = 8 * k := by
    rw [UInt32.toNat_ofNat']
    omega
  rw [← UInt8.toNat_inj, UInt32.toNat_toUInt8, UInt32.toNat_shiftRight, hShift, UInt8.toNat_ofNat',
    Nat.shiftRight_eq_div_pow, Nat.pow_mul]

theorem ofNat_congr {n m : Nat} (h : n % 256 = m % 256) : UInt8.ofNat n = UInt8.ofNat m := by
  rw [← UInt8.toNat_inj, UInt8.toNat_ofNat', UInt8.toNat_ofNat']
  exact h

/-! Words of two and four bytes, the high byte first. -/

def bytes16 (x : UInt16) : List UInt8 := [(x >>> 8).toUInt8, x.toUInt8]

def word16 (high low : UInt8) : UInt16 := UInt16.ofNat (high.toNat * 2 ^ 8 + low.toNat)

def bytes32 (x : UInt32) : List UInt8 := [(x >>> 24).toUInt8, (x >>> 16).toUInt8, (x >>> 8).toUInt8, x.toUInt8]

def word32 (b3 b2 b1 b0 : UInt8) : UInt32 :=
  UInt32.ofNat (((b3.toNat * 2 ^ 8 + b2.toNat) * 2 ^ 8 + b1.toNat) * 2 ^ 8 + b0.toNat)

@[simp] theorem length_bytes16 (x : UInt16) : (bytes16 x).length = 2 := rfl

@[simp] theorem length_bytes32 (x : UInt32) : (bytes32 x).length = 4 := rfl

theorem toNat_word16 (high low : UInt8) : (word16 high low).toNat = high.toNat * 2 ^ 8 + low.toNat := by
  have hHigh := high.toNat_lt
  have hLow := low.toNat_lt
  rw [word16, UInt16.toNat_ofNat']
  omega

theorem word16_bytes (x : UInt16) : word16 (x >>> 8).toUInt8 x.toUInt8 = x := by
  have hRange := x.toNat_lt
  have hShift : (8 : UInt16).toNat % 16 = 8 := rfl
  rw [← UInt16.toNat_inj, toNat_word16, UInt16.toNat_toUInt8, UInt16.toNat_toUInt8, UInt16.toNat_shiftRight, hShift,
    Nat.shiftRight_eq_div_pow]
  omega

theorem bytes16_word (high low : UInt8) : bytes16 (word16 high low) = [high, low] := by
  have hHigh := high.toNat_lt
  have hLow := low.toNat_lt
  have hShift : (8 : UInt16).toNat % 16 = 8 := rfl
  simp only [bytes16, List.cons.injEq, and_true, ← UInt8.toNat_inj, UInt16.toNat_toUInt8, UInt16.toNat_shiftRight,
    hShift, toNat_word16, Nat.shiftRight_eq_div_pow]
  omega

theorem word32_bytes (x : UInt32) :
    word32 (x >>> 24).toUInt8 (x >>> 16).toUInt8 (x >>> 8).toUInt8 x.toUInt8 = x := by
  have hRange := x.toNat_lt
  have h1 : (x >>> 8).toUInt8 = UInt8.ofNat (x.toNat / 256 ^ 1) := toUInt8_shiftRight (k := 1) x (by decide)
  have h2 : (x >>> 16).toUInt8 = UInt8.ofNat (x.toNat / 256 ^ 2) := toUInt8_shiftRight (k := 2) x (by decide)
  have h3 : (x >>> 24).toUInt8 = UInt8.ofNat (x.toNat / 256 ^ 3) := toUInt8_shiftRight (k := 3) x (by decide)
  rw [word32, h1, h2, h3, ← UInt32.toNat_inj, UInt32.toNat_ofNat']
  simp only [UInt8.toNat_ofNat', UInt32.toNat_toUInt8]
  omega

end Tr069Agent.Library.Words
