import Mathlib.Data.List.Basic
import Mathlib.Data.Nat.Basic
import Mathlib.Tactic.Common

/-! # Hashes that work block by block

A message is taken into the state one block of `size` entries after the other. What is behind the last
whole block waits in a buffer, whose other places hold what was there before.
-/

namespace Tr069Agent.Library.BlockHash

set_option autoImplicit false

variable {α σ : Type*} (size : Nat) (compress : σ → List α → σ)

section Blocks

/-- The first `count` blocks are taken in. -/
def absorbBlocks : Nat → σ → List α → σ
  | 0, s, _ => s
  | count + 1, s, msg => absorbBlocks count (compress s (msg.take size)) (msg.drop size)

/-- All whole blocks are taken in. -/
def absorb (s : σ) (msg : List α) : σ := absorbBlocks size compress (msg.length / size) s msg

/-- What is behind the last whole block. -/
def rest (msg : List α) : List α := msg.drop (msg.length / size * size)

variable {size compress}

theorem absorbBlocks_add (count more : Nat) (s : σ) (msg : List α) :
    absorbBlocks size compress (count + more) s msg =
      absorbBlocks size compress more (absorbBlocks size compress count s msg) (msg.drop (count * size)) := by
  induction count generalizing s msg with
  | zero => rw [Nat.zero_add, Nat.zero_mul, List.drop_zero, absorbBlocks]
  | succ count ih =>
    rw [Nat.succ_add, absorbBlocks, ih, absorbBlocks, List.drop_drop, Nat.succ_mul, Nat.add_comm]

/-- The blocks do not depend on what is behind them. -/
theorem absorbBlocks_append {count : Nat} {msg : List α} (h : count * size ≤ msg.length) (s : σ) (more : List α) :
    absorbBlocks size compress count s (msg ++ more) = absorbBlocks size compress count s msg := by
  induction count generalizing s msg with
  | zero => rfl
  | succ count ih =>
    rw [Nat.succ_mul] at h
    have hRest : count * size ≤ (msg.drop size).length := by
      rw [List.length_drop]
      omega
    rw [absorbBlocks, absorbBlocks, List.take_append_of_le_length (by omega),
      List.drop_append_of_le_length (by omega), ih hRest]

theorem length_rest (msg : List α) : (rest size msg).length = msg.length % size := by
  rw [rest, List.length_drop, Nat.mod_eq_sub_div_mul]

theorem absorb_of_lt {msg : List α} (h : msg.length < size) (s : σ) : absorb size compress s msg = s := by
  rw [absorb, Nat.div_eq_of_lt h, absorbBlocks]

theorem rest_of_lt {msg : List α} (h : msg.length < size) : rest size msg = msg := by
  rw [rest, Nat.div_eq_of_lt h, Nat.zero_mul, List.drop_zero]

theorem rest_eq_nil {msg : List α} (h : msg.length % size = 0) : rest size msg = [] := by
  rw [← List.length_eq_zero_iff, length_rest, h]

theorem drop_append_rest (msg more : List α) :
    (msg ++ more).drop (msg.length / size * size) = rest size msg ++ more :=
  List.drop_append_of_le_length (Nat.div_mul_le_self _ _)

variable (hSize : 0 < size)
include hSize

theorem absorb_block {block : List α} (h : block.length = size) (s : σ) :
    absorb size compress s block = compress s block := by
  rw [absorb, h, Nat.div_self hSize, absorbBlocks, absorbBlocks, List.take_of_length_le (Nat.le_of_eq h)]

theorem length_append_div (msg more : List α) :
    (msg ++ more).length / size = msg.length / size + (rest size msg ++ more).length / size := by
  have hSplit : msg.length = msg.length / size * size + msg.length % size := (Nat.div_add_mod' _ _).symm
  rw [List.length_append, List.length_append, length_rest]
  conv => lhs; rw [hSplit, Nat.add_assoc, Nat.add_comm, Nat.add_mul_div_right _ _ hSize, Nat.add_comm]

/-- What follows is taken in behind what waits. -/
theorem absorb_append (s : σ) (msg more : List α) :
    absorb size compress s (msg ++ more) =
      absorb size compress (absorb size compress s msg) (rest size msg ++ more) := by
  rw [absorb, length_append_div hSize, absorbBlocks_add, drop_append_rest,
    absorbBlocks_append (Nat.div_mul_le_self _ _)]
  rfl

theorem rest_append (msg more : List α) : rest size (msg ++ more) = rest size (rest size msg ++ more) := by
  rw [rest, length_append_div hSize, Nat.add_mul, ← List.drop_drop, drop_append_rest]
  rfl

end Blocks

section Buffer

/-- Entries are copied over those from the place `used` on. -/
def fill (buffer : List α) (used : Nat) (data : List α) : List α :=
  buffer.take used ++ data ++ buffer.drop (used + data.length)

theorem length_fill {buffer data : List α} {used : Nat} (h : used + data.length ≤ buffer.length) :
    (fill buffer used data).length = buffer.length := by
  simp only [fill, List.length_append, List.length_take, List.length_drop]
  omega

theorem take_fill {buffer : List α} {used : Nat} (h : used ≤ buffer.length) (data : List α) :
    (fill buffer used data).take (used + data.length) = buffer.take used ++ data := by
  have hLength : (buffer.take used ++ data).length = used + data.length := by
    rw [List.length_append, List.length_take, Nat.min_eq_left h]
  rw [fill, ← hLength, List.take_left]

/-- Copying behind what was copied before is copying both at once. -/
theorem fill_fill {buffer : List α} {used : Nat} (h : used ≤ buffer.length) (data more : List α) :
    fill (fill buffer used data) (used + data.length) more = fill buffer used (data ++ more) := by
  have hLength : (buffer.take used ++ data).length = used + data.length := by
    rw [List.length_append, List.length_take, Nat.min_eq_left h]
  have hDrop : (fill buffer used data).drop (used + data.length + more.length) =
      buffer.drop (used + (data ++ more).length) := by
    rw [← List.drop_drop, fill, ← hLength, List.drop_left, List.drop_drop, hLength, List.length_append, Nat.add_assoc]
  conv => lhs; rw [fill]
  rw [take_fill h, hDrop, fill, ← List.append_assoc (buffer.take used)]

/-- The state and the buffer after the message; what the buffer holds behind it is open. -/
structure Holds (init s : σ) (buffer msg : List α) : Prop where
  state : s = absorb size compress init msg
  length : buffer.length = size
  waiting : buffer.take (msg.length % size) = rest size msg

variable {size compress} {init s : σ} {buffer msg : List α}

theorem holds_nil (hLength : buffer.length = size) : Holds size compress init init buffer [] := by
  refine ⟨?_, hLength, ?_⟩
  · rw [absorb, List.length_nil, Nat.zero_div, absorbBlocks]
  · rw [List.length_nil, Nat.zero_mod, List.take_zero, rest, List.drop_nil]

variable (hSize : 0 < size) (h : Holds size compress init s buffer msg)
include hSize h

/-- Data that leave room in the buffer. -/
theorem Holds.short {data : List α} (hShort : msg.length % size + data.length < size) :
    Holds size compress init s (fill buffer (msg.length % size) data) (msg ++ data) := by
  have hUsed := Nat.mod_lt msg.length hSize
  have hWait : (rest size msg ++ data).length < size := by rwa [List.length_append, length_rest]
  have hMod : (msg ++ data).length % size = msg.length % size + data.length := by
    rw [List.length_append, Nat.add_mod, Nat.mod_eq_of_lt (by omega : data.length < size), Nat.mod_eq_of_lt hShort]
  refine ⟨?_, ?_, ?_⟩
  · rw [absorb_append hSize, absorb_of_lt hWait, ← h.state]
  · rw [length_fill (by rw [h.length]; omega), h.length]
  · rw [hMod, take_fill (by rw [h.length]; omega), h.waiting, rest_append hSize, rest_of_lt hWait]

/-- Data that fill the buffer. -/
theorem Holds.full {data : List α} (hFull : msg.length % size + data.length = size) :
    Holds size compress init (compress s (fill buffer (msg.length % size) data))
      (fill buffer (msg.length % size) data) (msg ++ data) := by
  have hUsed := Nat.mod_lt msg.length hSize
  have hBlock : fill buffer (msg.length % size) data = rest size msg ++ data := by
    rw [fill, hFull, h.waiting, ← h.length, List.drop_length, List.append_nil]
  have hLength : (rest size msg ++ data).length = size := by rwa [List.length_append, length_rest]
  have hMod : (msg ++ data).length % size = 0 := by
    rw [List.length_append, Nat.add_mod, ← Nat.mod_mod msg.length, ← Nat.add_mod, hFull, Nat.mod_self]
  refine ⟨?_, ?_, ?_⟩
  · rw [absorb_append hSize, hBlock, absorb_block hSize hLength, ← h.state]
  · rw [hBlock, hLength]
  · rw [hMod, List.take_zero, rest_eq_nil hMod]

/-- Whole blocks that go past the empty buffer. -/
theorem Holds.blocks (hEmpty : msg.length % size = 0) {data : List α} {count : Nat}
    (hCount : count * size ≤ data.length) :
    Holds size compress init (absorbBlocks size compress count s data) buffer (msg ++ data.take (count * size)) := by
  have hLength : (data.take (count * size)).length = count * size := List.length_take_of_le hCount
  have hMod : (msg ++ data.take (count * size)).length % size = 0 := by
    rw [List.length_append, hLength, Nat.add_mul_mod_self_right, hEmpty]
  have hBlocks : absorbBlocks size compress count s (data.take (count * size)) =
      absorbBlocks size compress count s data := by
    have hAll : absorbBlocks size compress count s _ = _ :=
      absorbBlocks_append (Nat.le_of_eq hLength.symm) s (data.drop (count * size))
    rwa [List.take_append_drop, eq_comm] at hAll
  refine ⟨?_, h.length, ?_⟩
  · rw [absorb_append hSize, rest_eq_nil hEmpty, List.nil_append, ← h.state, absorb, hLength,
      Nat.mul_div_cancel _ hSize, hBlocks]
  · rw [hMod, List.take_zero, rest_eq_nil hMod]

end Buffer

end Tr069Agent.Library.BlockHash
