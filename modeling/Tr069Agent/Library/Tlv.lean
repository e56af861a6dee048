import Mathlib.Data.List.Basic
import Mathlib.Tactic.Common
import Tr069Agent.Library.Words

/-! # Sequences of attributes, each with its type and its length in front

Type and length are words of two bytes with the high byte first; the length counts the bytes of the value.
-/

namespace Tr069Agent.Library.Tlv

open Words

set_option autoImplicit false

structure Attribute where
  type : UInt16
  value : List UInt8
  fits : value.length < 2 ^ 16
  deriving DecidableEq

def Attribute.bytes (a : Attribute) : List UInt8 :=
  bytes16 a.type ++ bytes16 (UInt16.ofNat a.value.length) ++ a.value

theorem Attribute.length_bytes (a : Attribute) : a.bytes.length = 4 + a.value.length := by
  rw [bytes, List.length_append, List.length_append, length_bytes16, length_bytes16]

/-- The attribute at the front of the bytes and what follows it. -/
def takeAttribute : List UInt8 → Option (Attribute × List UInt8)
  | t1 :: t0 :: l1 :: l0 :: rest =>
    if (word16 l1 l0).toNat ≤ rest.length then
      some (⟨word16 t1 t0, rest.take (word16 l1 l0).toNat,
        (List.length_take_le _ _).trans_lt (word16 l1 l0).toNat_lt⟩, rest.drop (word16 l1 l0).toNat)
    else none
  | _ => none

theorem takeAttribute_bytes (a : Attribute) (rest : List UInt8) :
    takeAttribute (a.bytes ++ rest) = some (a, rest) := by
  have hLength : (UInt16.ofNat a.value.length).toNat = a.value.length := by
    rw [UInt16.toNat_ofNat', Nat.mod_eq_of_lt a.fits]
  have hRoom : a.value.length ≤ (a.value ++ rest).length := by simp
  simp only [Attribute.bytes, bytes16, List.cons_append, List.nil_append, takeAttribute, word16_bytes, hLength,
    if_pos hRoom, List.take_left, List.drop_left]

theorem bytes_of_takeAttribute {bytes rest : List UInt8} {a : Attribute} (h : takeAttribute bytes = some (a, rest)) :
    bytes = a.bytes ++ rest := by
  rcases bytes with _ | ⟨t1, _ | ⟨t0, _ | ⟨l1, _ | ⟨l0, bytes⟩⟩⟩⟩
  iterate 4 · cases h
  rw [takeAttribute] at h
  split at h
  · rename_i hRoom
    cases h
    have hLength : UInt16.ofNat (bytes.take (word16 l1 l0).toNat).length = word16 l1 l0 := by
      rw [List.length_take_of_le hRoom, UInt16.ofNat_toNat]
    simp only [Attribute.bytes, hLength, bytes16_word, List.cons_append, List.nil_append, List.take_append_drop]
  · cases h

theorem length_of_takeAttribute {bytes rest : List UInt8} {a : Attribute} (h : takeAttribute bytes = some (a, rest)) :
    rest.length < bytes.length := by
  rw [bytes_of_takeAttribute h, List.length_append, Attribute.length_bytes]
  omega

/-- All whole attributes from the front on, and the bytes behind them. -/
def attributes (bytes : List UInt8) : List Attribute × List UInt8 :=
  match h : takeAttribute bytes with
  | some (a, rest) =>
    have : rest.length < bytes.length := length_of_takeAttribute h
    (a :: (attributes rest).1, (attributes rest).2)
  | none => ([], bytes)
termination_by bytes.length

theorem attributes_of_some {bytes rest : List UInt8} {a : Attribute} (h : takeAttribute bytes = some (a, rest)) :
    attributes bytes = (a :: (attributes rest).1, (attributes rest).2) := by
  rw [attributes]
  split
  · rename_i hOther
    rw [h] at hOther
    cases hOther
    rfl
  · rename_i hNone
    rw [h] at hNone
    cases hNone

theorem attributes_of_none {bytes : List UInt8} (h : takeAttribute bytes = none) : attributes bytes = ([], bytes) := by
  rw [attributes]
  split
  · rename_i hSome
    rw [h] at hSome
    cases hSome
  · rfl

theorem attributes_nil : attributes [] = ([], []) := attributes_of_none rfl

theorem attributes_append (as : List Attribute) (rest : List UInt8) :
    attributes (as.flatMap Attribute.bytes ++ rest) = (as ++ (attributes rest).1, (attributes rest).2) := by
  induction as with
  | nil => rfl
  | cons a as ih =>
    rw [List.flatMap_cons, List.append_assoc, attributes_of_some (takeAttribute_bytes a _), ih]
    rfl

theorem attributes_flatMap (as : List Attribute) : attributes (as.flatMap Attribute.bytes) = (as, []) := by
  have hAll := attributes_append as []
  rwa [attributes_nil, List.append_nil, List.append_nil] at hAll

/-- The bytes are those of the whole attributes and of what is behind them. -/
theorem bytes_attributes (bytes : List UInt8) :
    (attributes bytes).1.flatMap Attribute.bytes ++ (attributes bytes).2 = bytes := by
  induction bytes using (measure List.length).wf.induction with
  | h bytes ih =>
    rcases hFront : takeAttribute bytes with _ | ⟨a, rest⟩
    · rw [attributes_of_none hFront]
      rfl
    · rw [attributes_of_some hFront, List.flatMap_cons, List.append_assoc,
        ih rest (length_of_takeAttribute hFront), ← bytes_of_takeAttribute hFront]

/-- A text that is made of whole attributes is made of them in one way. -/
theorem attributes_eq_iff {bytes : List UInt8} {as : List Attribute} :
    attributes bytes = (as, []) ↔ bytes = as.flatMap Attribute.bytes := by
  constructor
  · intro h
    rw [← bytes_attributes bytes, h, List.append_nil]
  · rintro rfl
    exact attributes_flatMap as

end Tr069Agent.Library.Tlv
