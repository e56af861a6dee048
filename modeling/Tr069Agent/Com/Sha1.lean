import Mathlib.Data.List.GetD
import Mathlib.Data.UInt
import Mathlib.Tactic.Common
import Mathlib.Tactic.IntervalCases
import Tr069Agent.Library.BlockHash
import Tr069Agent.Library.Words

/-! # The SHA-1 digest and its keyed form

The eighty words of the schedule are computed in the place of the sixteen words of the block, and the end
of a message is put behind it one byte at a time.
-/

namespace Tr069Agent.Com.Sha1

open Library.BlockHash Library.Words

set_option autoImplicit false

abbrev Bytes := List UInt8

section Transformation

structure State where
  a : UInt32
  b : UInt32
  c : UInt32
  d : UInt32
  e : UInt32
  deriving DecidableEq

def rol (value bits : UInt32) : UInt32 := (value <<< bits) ||| (value >>> (32 - bits))

/-- A word of the workspace as the copied bytes make it. -/
def littleWord (buffer : Bytes) (n : Nat) : UInt32 :=
  (buffer.getD (n * 4) 0).toUInt32 ||| ((buffer.getD (n * 4 + 1) 0).toUInt32 <<< 8) |||
    ((buffer.getD (n * 4 + 2) 0).toUInt32 <<< 16) ||| ((buffer.getD (n * 4 + 3) 0).toUInt32 <<< 24)

/-- The sixteen words `l` of the block. -/
abbrev Workspace := List UInt32

def blk0 (l : Workspace) (i : Nat) : UInt32 × Workspace :=
  let word := l.getD i 0
  let value := (rol word 24 &&& 0xFF00FF00) ||| (rol word 8 &&& 0x00FF00FF)
  (value, l.set i value)

def blk (l : Workspace) (i : Nat) : UInt32 × Workspace :=
  let value := rol (l.getD ((i + 13) &&& 15) 0 ^^^ l.getD ((i + 8) &&& 15) 0 ^^^ l.getD ((i + 2) &&& 15) 0 ^^^
    l.getD (i &&& 15) 0) 1
  (value, l.set (i &&& 15) value)

/-- What the operations `R0` to `R4` have in common; the registers are then in the order of the next one. -/
def round (f : UInt32 → UInt32 → UInt32 → UInt32) (k word : UInt32) (s : State) : State :=
  ⟨s.e + (f s.b s.c s.d + word + k + rol s.a 5), s.a, rol s.b 30, s.c, s.d⟩

def choose (w x y : UInt32) : UInt32 := (w &&& (x ^^^ y)) ^^^ y
def parity (w x y : UInt32) : UInt32 := w ^^^ x ^^^ y
def majority (w x y : UInt32) : UInt32 := ((w ||| x) &&& y) ||| (w &&& x)

/-- The operation with the number `i`. -/
def operation (sl : State × Workspace) (i : Nat) : State × Workspace :=
  let (s, l) := sl
  let (word, l) := if i < 16 then blk0 l i else blk l i
  if i < 20 then (round choose 0x5A827999 word s, l)
  else if i < 40 then (round parity 0x6ED9EBA1 word s, l)
  else if i < 60 then (round majority 0x8F1BBCDC word s, l)
  else (round parity 0xCA62C1D6 word s, l)

def SHA1Transform (state : State) (buffer : Bytes) : State :=
  let (s, _) := (List.range 80).foldl operation (state, (List.range 16).map (littleWord buffer))
  ⟨state.a + s.a, state.b + s.b, state.c + s.c, state.d + s.d, state.e + s.e⟩

end Transformation

section Context

structure SHA1_CTX where
  state : State
  count0 : UInt32
  count1 : UInt32
  buffer : Bytes

def initialState : State := ⟨0x67452301, 0xEFCDAB89, 0x98BADCFE, 0x10325476, 0xC3D2E1F0⟩

def SHA1Init (context : SHA1_CTX) : SHA1_CTX := { context with state := initialState, count0 := 0, count1 := 0 }

/-- The count of the bits in `SHA1Update`. -/
def countBits (context : SHA1_CTX) (len : Nat) : SHA1_CTX :=
  let bits := UInt32.ofNat (len <<< 3)
  let context := { context with count0 := context.count0 + bits }
  let context := if context.count0 < bits then { context with count1 := context.count1 + 1 } else context
  { context with count1 := context.count1 + UInt32.ofNat (len >>> 29) }

/-- The loop over the whole blocks, from the place `i` on; `i` and `len` are words. -/
def transformBlocks (data : Bytes) : Nat → State → Nat → State × Nat
  | 0, state, i => (state, i)
  | fuel + 1, state, i =>
    if (i + 63) % 2 ^ 32 < data.length then
      transformBlocks data fuel (SHA1Transform state ((data.drop i).take 64)) ((i + 64) % 2 ^ 32)
    else (state, i)

/-- The length of the data is a word. -/
def SHA1Update (context : SHA1_CTX) (data : Bytes) : SHA1_CTX :=
  let len := data.length
  let j := (context.count0.toNat >>> 3) &&& 63
  let context := countBits context len
  if (j + len) % 2 ^ 32 > 63 then
    let i := 64 - j
    let buffer := fill context.buffer j (data.take i)
    let (state, i) := transformBlocks data len (SHA1Transform context.state buffer) i
    { context with state, buffer := fill buffer 0 (data.drop i) }
  else { context with buffer := fill context.buffer j data }

/-- The loop of `SHA1Final` that puts zeros behind the message. -/
def putZeros : Nat → SHA1_CTX → SHA1_CTX
  | 0, context => context
  | fuel + 1, context =>
    if context.count0.toNat &&& 504 ≠ 448 then putZeros fuel (SHA1Update context [0]) else context

/-- The four bytes of a word, the highest first. -/
def wordBytes (x : UInt32) : Bytes := [(x >>> 24).toUInt8, (x >>> 16).toUInt8, (x >>> 8).toUInt8, x.toUInt8]

def SHA1Final (context : SHA1_CTX) : Bytes :=
  let finalcount := wordBytes context.count1 ++ wordBytes context.count0
  let context := SHA1Update context [0x80]
  let context := putZeros 64 context
  let context := SHA1Update context finalcount
  let s := context.state
  wordBytes s.a ++ wordBytes s.b ++ wordBytes s.c ++ wordBytes s.d ++ wordBytes s.e

/-- `sha1_vector`, where the context on the stack holds anything. -/
def sha1_vector (stack : SHA1_CTX) (addr : List Bytes) : Bytes := SHA1Final (addr.foldl SHA1Update (SHA1Init stack))

end Context

section Schedule

/-- A word of the block in the order of the standard. -/
def bigWord (block : Bytes) (n : Nat) : UInt32 :=
  ((block.getD (n * 4) 0).toUInt32 <<< 24) ||| ((block.getD (n * 4 + 1) 0).toUInt32 <<< 16) |||
    ((block.getD (n * 4 + 2) 0).toUInt32 <<< 8) ||| (block.getD (n * 4 + 3) 0).toUInt32

/-- The first words of the schedule of the standard. -/
def schedule (block : Bytes) : Nat → List UInt32
  | 0 => []
  | t + 1 =>
    let w := schedule block t
    w ++ [if t < 16 then bigWord block t
      else rol (w.getD (t - 3) 0 ^^^ w.getD (t - 8) 0 ^^^ w.getD (t - 14) 0 ^^^ w.getD (t - 16) 0) 1]

def scheduleWord (block : Bytes) (t : Nat) : UInt32 := (schedule block (t + 1)).getD t 0

theorem length_schedule (block : Bytes) (count : Nat) : (schedule block count).length = count := by
  induction count with
  | zero => rfl
  | succ count ih => rw [schedule, List.length_append, ih, List.length_singleton]

theorem getD_schedule (block : Bytes) {t count : Nat} (h : t < count) :
    (schedule block count).getD t 0 = scheduleWord block t := by
  induction count with
  | zero => omega
  | succ count ih =>
    rcases Nat.lt_or_ge t count with hEarlier | hLast
    · rw [schedule, List.getD_append _ _ _ _ (by rwa [length_schedule]), ih hEarlier]
    · obtain rfl : t = count := by omega
      rfl

theorem scheduleWord_eq (block : Bytes) (t : Nat) :
    scheduleWord block t = if t < 16 then bigWord block t
      else rol (scheduleWord block (t - 3) ^^^ scheduleWord block (t - 8) ^^^ scheduleWord block (t - 14) ^^^
        scheduleWord block (t - 16)) 1 := by
  rw [scheduleWord, schedule, List.getD_append_right _ _ _ _ (Nat.le_of_eq (length_schedule block t)), length_schedule,
    Nat.sub_self, List.getD_cons_zero]
  split
  · rfl
  · rw [getD_schedule block (by omega), getD_schedule block (by omega), getD_schedule block (by omega),
      getD_schedule block (by omega)]

theorem swap_bytes (b0 b1 b2 b3 : UInt8) :
    let word := b0.toUInt32 ||| (b1.toUInt32 <<< 8) ||| (b2.toUInt32 <<< 16) ||| (b3.toUInt32 <<< 24)
    ((rol word 24 &&& 0xFF00FF00) ||| (rol word 8 &&& 0x00FF00FF) : UInt32) =
      (b0.toUInt32 <<< 24) ||| (b1.toUInt32 <<< 16) ||| (b2.toUInt32 <<< 8) ||| b3.toUInt32 := by
  intro word
  rw [← UInt32.toBitVec_inj]
  have h8 : UInt32.toBitVec 8 % 32 = 8 := rfl
  have h16 : UInt32.toBitVec 16 % 32 = 16 := rfl
  have h24 : UInt32.toBitVec 24 % 32 = 24 := rfl
  have h24' : UInt32.toBitVec (32 - 8) % 32 = 24 := rfl
  have h8' : UInt32.toBitVec (32 - 24) % 32 = 8 := rfl
  apply BitVec.eq_of_getLsbD_eq
  intro i hi
  simp only [word, rol, UInt32.toBitVec_or, UInt32.toBitVec_and, UInt32.toBitVec_shiftLeft, UInt32.toBitVec_shiftRight,
    UInt8.toBitVec_toUInt32, h8, h16, h24, h24', h8']
  interval_cases i <;> simp

/-- The workspace before operation `i`: the words behind it as they were copied, and the last sixteen words of
the schedule. -/
structure Scheduled (block : Bytes) (i : Nat) (l : Workspace) : Prop where
  length : l.length = 16
  copied : ∀ t, i ≤ t → t < 16 → l.getD t 0 = littleWord block t
  computed : ∀ t, t < i → i ≤ t + 16 → l.getD (t % 16) 0 = scheduleWord block t

theorem getD_set (l : Workspace) {j : Nat} (h : j < l.length) (k : Nat) (value : UInt32) :
    (l.set j value).getD k 0 = if j = k then value else l.getD k 0 := by
  rw [List.getD_eq_getElem?_getD, List.getD_eq_getElem?_getD]
  rcases eq_or_ne j k with rfl | hOther
  · simp [h]
  · simp [hOther]

theorem and_mask4 (n : Nat) : n &&& 15 = n % 16 := Nat.and_two_pow_sub_one_eq_mod n 4

theorem scheduled_start (block : Bytes) : Scheduled block 0 ((List.range 16).map (littleWord block)) := by
  refine ⟨rfl, fun t _ hT => ?_, fun t hT => by omega⟩
  rw [List.getD_eq_getElem?_getD, List.getElem?_map, List.getElem?_range hT]
  rfl

theorem scheduled_blk0 {block : Bytes} {i : Nat} {l : Workspace} (h : Scheduled block i l) (hI : i < 16) :
    (blk0 l i).1 = scheduleWord block i ∧ Scheduled block (i + 1) (blk0 l i).2 := by
  have hPlace : i < l.length := by rwa [h.length]
  have hValue : (blk0 l i).1 = scheduleWord block i := by
    rw [scheduleWord_eq, if_pos hI]
    simp only [blk0, h.copied i (Nat.le_refl i) hI]
    exact swap_bytes _ _ _ _
  refine ⟨hValue, ?_, ?_, ?_⟩
  · rw [blk0, List.length_set, h.length]
  · intro t hLater hT
    rw [blk0, getD_set l hPlace, if_neg (by omega), h.copied t (by omega) hT]
  · intro t hEarlier hLast
    have hSet : (blk0 l i).2.getD (t % 16) 0 = if i = t % 16 then (blk0 l i).1 else l.getD (t % 16) 0 :=
      getD_set l hPlace _ _
    rw [hSet]
    rcases Nat.lt_or_ge t i with hBefore | hSame
    · rw [if_neg (by omega), h.computed t hBefore (by omega)]
    · obtain rfl : t = i := by omega
      rw [if_pos (by omega), hValue]

theorem scheduled_blk {block : Bytes} {i : Nat} {l : Workspace} (h : Scheduled block i l) (hI : 16 ≤ i) :
    (blk l i).1 = scheduleWord block i ∧ Scheduled block (i + 1) (blk l i).2 := by
  have hPlace : i % 16 < l.length := by
    rw [h.length]
    exact Nat.mod_lt i (by decide)
  have hEarlier (back : Nat) (hBack : 0 < back) (hFew : back ≤ 16) {place : Nat} (hMod : place % 16 = (i - back) % 16) :
      l.getD (place &&& 15) 0 = scheduleWord block (i - back) := by
    rw [and_mask4, hMod]
    exact h.computed (i - back) (by omega) (by omega)
  have hValue : (blk l i).1 = scheduleWord block i := by
    rw [scheduleWord_eq, if_neg (by omega)]
    simp only [blk]
    rw [hEarlier 3 (by decide) (by decide) (by omega), hEarlier 8 (by decide) (by decide) (by omega),
      hEarlier 14 (by decide) (by decide) (by omega), hEarlier 16 (by decide) (by decide) (by omega)]
  refine ⟨hValue, ?_, fun t _ _ => by omega, ?_⟩
  · rw [blk, List.length_set, h.length]
  · intro t hT hLast
    have hSet : (blk l i).2.getD (t % 16) 0 = if i % 16 = t % 16 then (blk l i).1 else l.getD (t % 16) 0 := by
      have hAny := getD_set l hPlace (t % 16) (blk l i).1
      rw [← and_mask4 i] at hAny
      rw [← and_mask4 i]
      exact hAny
    rw [hSet]
    rcases Nat.lt_or_ge t i with hBefore | hSame
    · rw [if_neg (by omega), h.computed t hBefore (by omega)]
    · obtain rfl : t = i := by omega
      rw [if_pos rfl, hValue]

end Schedule

section Standard

/-- The functions as the standard writes them. -/
def standardFn (t : Nat) (x y z : UInt32) : UInt32 :=
  if t < 20 then (x &&& y) ||| (~~~x &&& z)
  else if t < 40 then x ^^^ y ^^^ z
  else if t < 60 then (x &&& y) ||| (x &&& z) ||| (y &&& z)
  else x ^^^ y ^^^ z

def standardConstant (t : Nat) : UInt32 :=
  if t < 20 then 0x5A827999 else if t < 40 then 0x6ED9EBA1 else if t < 60 then 0x8F1BBCDC else 0xCA62C1D6

def standardRound (block : Bytes) (s : State) (t : Nat) : State :=
  round (standardFn t) (standardConstant t) (scheduleWord block t) s

def standardTransform (state : State) (block : Bytes) : State :=
  let s := (List.range 80).foldl (standardRound block) state
  ⟨state.a + s.a, state.b + s.b, state.c + s.c, state.d + s.d, state.e + s.e⟩

theorem choose_eq (x y z : UInt32) : choose x y z = (x &&& y) ||| (~~~x &&& z) := by
  rw [choose, ← UInt32.toBitVec_inj]
  ext k hk
  simp only [UInt32.toBitVec_xor, UInt32.toBitVec_and, UInt32.toBitVec_or, UInt32.toBitVec_not, BitVec.getElem_xor,
    BitVec.getElem_and, BitVec.getElem_or, BitVec.getElem_not]
  cases x.toBitVec[k] <;> cases y.toBitVec[k] <;> cases z.toBitVec[k] <;> rfl

theorem majority_eq (x y z : UInt32) : majority x y z = (x &&& y) ||| (x &&& z) ||| (y &&& z) := by
  rw [majority, ← UInt32.toBitVec_inj]
  ext k hk
  simp only [UInt32.toBitVec_and, UInt32.toBitVec_or, BitVec.getElem_and, BitVec.getElem_or]
  cases x.toBitVec[k] <;> cases y.toBitVec[k] <;> cases z.toBitVec[k] <;> rfl

theorem operation_spec {block : Bytes} {i : Nat} {l : Workspace} (h : Scheduled block i l) (s : State) :
    (operation (s, l) i).1 = standardRound block s i ∧ Scheduled block (i + 1) (operation (s, l) i).2 := by
  have hWord : (if i < 16 then blk0 l i else blk l i).1 = scheduleWord block i ∧
      Scheduled block (i + 1) (if i < 16 then blk0 l i else blk l i).2 := by
    split
    · rename_i hFirst
      exact scheduled_blk0 h hFirst
    · rename_i hLater
      exact scheduled_blk h (by omega)
  obtain ⟨hValue, hNext⟩ := hWord
  have hChoose : choose = fun x y z => (x &&& y) ||| (~~~x &&& z) :=
    funext fun x => funext fun y => funext fun z => choose_eq x y z
  have hMajority : majority = fun x y z => (x &&& y) ||| (x &&& z) ||| (y &&& z) :=
    funext fun x => funext fun y => funext fun z => majority_eq x y z
  have hFn (t : Nat) : standardFn t = if t < 20 then choose else if t < 40 then parity
      else if t < 60 then majority else parity := by
    rw [hChoose, hMajority]
    funext x y z
    simp only [standardFn]
    split_ifs <;> rfl
  simp only [operation, standardRound, hFn, standardConstant, ← hValue]
  generalize (if i < 16 then blk0 l i else blk l i) = taken at hNext
  split_ifs <;> exact ⟨rfl, hNext⟩

theorem foldl_operation {block : Bytes} {l : Workspace} (h : Scheduled block 0 l) (s : State) (count : Nat) :
    ((List.range count).foldl operation (s, l)).1 = (List.range count).foldl (standardRound block) s ∧
      Scheduled block count ((List.range count).foldl operation (s, l)).2 := by
  induction count with
  | zero => exact ⟨rfl, h⟩
  | succ count ih =>
    obtain ⟨hState, hScheduled⟩ := ih
    obtain ⟨hNext, hNextScheduled⟩ := operation_spec hScheduled ((List.range count).foldl operation (s, l)).1
    rw [List.range_succ, List.foldl_append, List.foldl_append, List.foldl_cons, List.foldl_nil, List.foldl_cons,
      List.foldl_nil, ← hState]
    exact ⟨hNext, hNextScheduled⟩

/-- The transformation in place is that of the standard. -/
theorem SHA1Transform_eq : SHA1Transform = standardTransform := by
  funext state block
  simp only [SHA1Transform, standardTransform, (foldl_operation (scheduled_start block) state 80).1]

end Standard

section Counting

/-- The context after the message; the buffer holds anything behind what waits in it. -/
structure Represents (context : SHA1_CTX) (msg : Bytes) : Prop where
  count0 : context.count0.toNat = 8 * msg.length % 2 ^ 32
  count1 : context.count1.toNat = 8 * msg.length / 2 ^ 32 % 2 ^ 32
  holds : Holds 64 SHA1Transform initialState context.state context.buffer msg

variable {context : SHA1_CTX} {msg : Bytes}

theorem countBits_state (context : SHA1_CTX) (len : Nat) :
    (countBits context len).state = context.state ∧ (countBits context len).buffer = context.buffer := by
  simp only [countBits]
  split <;> exact ⟨rfl, rfl⟩

/-- The two words count on together. -/
theorem countBits_spec (h : Represents context msg) (len : Nat) :
    (countBits context len).count0.toNat = 8 * (msg.length + len) % 2 ^ 32 ∧
      (countBits context len).count1.toNat = 8 * (msg.length + len) / 2 ^ 32 % 2 ^ 32 := by
  have hLow := h.count0
  have hHigh := h.count1
  have hOne : UInt32.toNat 1 = 1 := rfl
  have hBits : (UInt32.ofNat (len <<< 3)).toNat = 8 * len % 2 ^ 32 := by
    rw [UInt32.toNat_ofNat', Nat.shiftLeft_eq]
    omega
  have hShift : len >>> 29 = len / 2 ^ 29 := Nat.shiftRight_eq_div_pow len 29
  have hNew : (context.count0 + UInt32.ofNat (len <<< 3)).toNat = 8 * (msg.length + len) % 2 ^ 32 := by
    rw [UInt32.toNat_add, hBits, hLow]
    omega
  simp only [countBits]
  generalize context.count0 + UInt32.ofNat (len <<< 3) = count0 at hNew
  split
  · rename_i hCarry
    rw [UInt32.lt_iff_toNat_lt, hNew, hBits] at hCarry
    refine ⟨hNew, ?_⟩
    simp only [UInt32.toNat_add, UInt32.toNat_ofNat', hHigh, hShift, hOne]
    omega
  · rename_i hCarry
    rw [UInt32.lt_iff_toNat_lt, hNew, hBits] at hCarry
    refine ⟨hNew, ?_⟩
    simp only [UInt32.toNat_add, UInt32.toNat_ofNat', hHigh, hShift]
    omega

theorem used_eq (h : Represents context msg) : (context.count0.toNat >>> 3) &&& 63 = msg.length % 64 := by
  rw [h.count0, Nat.shiftRight_eq_div_pow, Nat.and_two_pow_sub_one_eq_mod _ 6]
  omega

end Counting

section Updating

/-- Data so short that the places in them can be counted with words. -/
def Countable (data : Bytes) : Prop := data.length + 63 < 2 ^ 32

instance (data : Bytes) : Decidable (Countable data) := inferInstanceAs (Decidable (_ < _))

theorem transformBlocks_eq {data : Bytes} (hData : Countable data) {fuel i : Nat} (hI : i ≤ data.length)
    (hFuel : (data.length - i) / 64 ≤ fuel) (state : State) :
    transformBlocks data fuel state i =
      (absorbBlocks 64 SHA1Transform ((data.length - i) / 64) state (data.drop i),
        i + (data.length - i) / 64 * 64) := by
  have hLimit : data.length + 63 < 2 ^ 32 := hData
  induction fuel generalizing i state with
  | zero =>
    obtain hNone : (data.length - i) / 64 = 0 := by omega
    rw [transformBlocks, hNone, absorbBlocks, Nat.zero_mul, Nat.add_zero]
  | succ fuel ih =>
    rw [transformBlocks]
    split
    · rename_i hMore
      have hBlocks : (data.length - i) / 64 = (data.length - (i + 64)) / 64 + 1 := by omega
      rw [Nat.mod_eq_of_lt (by omega : i + 64 < 2 ^ 32), ih (by omega) (by omega), hBlocks, absorbBlocks,
        List.drop_drop]
      refine Prod.ext rfl ?_
      dsimp only
      omega
    · rename_i hFew
      obtain hNone : (data.length - i) / 64 = 0 := by omega
      rw [hNone, absorbBlocks, Nat.zero_mul, Nat.add_zero]

variable {context : SHA1_CTX} {msg data : Bytes}

/-- One call of `SHA1Update` appends its data to the message. -/
theorem represents_update (h : Represents context msg) (hData : Countable data) :
    Represents (SHA1Update context data) (msg ++ data) := by
  obtain ⟨hLow, hHigh⟩ := countBits_spec h data.length
  obtain ⟨hState, hBuffer⟩ := countBits_state context data.length
  have hHolds : Holds 64 SHA1Transform initialState (countBits context data.length).state
      (countBits context data.length).buffer msg := by
    rw [hState, hBuffer]
    exact h.holds
  have hLimit : data.length + 63 < 2 ^ 32 := hData
  rw [← List.length_append] at hLow hHigh
  simp only [SHA1Update, used_eq h]
  split
  · rename_i hFills
    have hI : 64 - msg.length % 64 ≤ data.length := by omega
    have hTaken : (data.take (64 - msg.length % 64)).length = 64 - msg.length % 64 := List.length_take_of_le hI
    have hFull := hHolds.full (by decide) (by omega : msg.length % 64 + (data.take (64 - msg.length % 64)).length = 64)
    have hEmpty : (msg ++ data.take (64 - msg.length % 64)).length % 64 = 0 := by
      rw [List.length_append]
      omega
    have hDropped : (data.drop (64 - msg.length % 64)).length = data.length - (64 - msg.length % 64) :=
      List.length_drop
    have hBlocks := hFull.blocks (by decide) hEmpty
      (by omega : (data.length - (64 - msg.length % 64)) / 64 * 64 ≤ (data.drop (64 - msg.length % 64)).length)
    have hNone : (msg ++ data.take (64 - msg.length % 64) ++ (data.drop (64 - msg.length % 64)).take
        ((data.length - (64 - msg.length % 64)) / 64 * 64)).length % 64 = 0 := by
      rw [List.length_append, List.length_take_of_le (by omega)]
      omega
    have hPart : (data.drop (64 - msg.length % 64 + (data.length - (64 - msg.length % 64)) / 64 * 64)).length < 64 := by
      rw [List.length_drop]
      omega
    have hAll := hBlocks.short (by decide) (by omega :
      _ % 64 + (data.drop (64 - msg.length % 64 + (data.length - (64 - msg.length % 64)) / 64 * 64)).length < 64)
    rw [hNone, ← List.drop_drop, List.append_assoc, List.take_append_drop, List.append_assoc, List.take_append_drop,
      List.drop_drop] at hAll
    rw [transformBlocks_eq hData hI (by omega)]
    exact ⟨hLow, hHigh, hAll⟩
  · rename_i hShort
    exact ⟨hLow, hHigh, hHolds.short (by decide) (by omega)⟩

end Updating

section Digest

/-- The 64 bits of a number, the highest byte first. -/
def bigEndian (n : Nat) : Bytes := (List.range 8).map fun k => UInt8.ofNat (n / 256 ^ (7 - k))

/-- What is put behind a message: a one, zeros up to eight bytes before the end of a block, and the length
in bits. -/
def padding (length : Nat) : Bytes :=
  0x80 :: (List.replicate ((119 - length % 64) % 64) 0 ++ bigEndian (8 * length))

/-- The digest of the standard. -/
def standardDigest (msg : Bytes) : Bytes :=
  let s := absorb 64 standardTransform initialState (msg ++ padding msg.length)
  wordBytes s.a ++ wordBytes s.b ++ wordBytes s.c ++ wordBytes s.d ++ wordBytes s.e

theorem wordBytes_eq (x : UInt32) :
    wordBytes x = [UInt8.ofNat (x.toNat / 256 ^ 3), UInt8.ofNat (x.toNat / 256 ^ 2), UInt8.ofNat (x.toNat / 256),
      UInt8.ofNat x.toNat] := by
  have h1 := toUInt8_shiftRight x (by decide : 1 < 4)
  have h2 := toUInt8_shiftRight x (by decide : 2 < 4)
  have h3 := toUInt8_shiftRight x (by decide : 3 < 4)
  have h0 : x.toUInt8 = UInt8.ofNat x.toNat := rfl
  rw [Nat.pow_one] at h1
  rw [wordBytes, h0, ← h1, ← h2, ← h3]
  rfl

variable {context : SHA1_CTX} {msg : Bytes}

theorem wordBytes_counts (h : Represents context msg) :
    wordBytes context.count1 ++ wordBytes context.count0 = bigEndian (8 * msg.length) := by
  rw [wordBytes_eq, wordBytes_eq, h.count0, h.count1]
  generalize 8 * msg.length = n
  have hBytes : bigEndian n = [UInt8.ofNat (n / 256 ^ 7), UInt8.ofNat (n / 256 ^ 6), UInt8.ofNat (n / 256 ^ 5),
      UInt8.ofNat (n / 256 ^ 4), UInt8.ofNat (n / 256 ^ 3), UInt8.ofNat (n / 256 ^ 2), UInt8.ofNat (n / 256 ^ 1),
      UInt8.ofNat (n / 256 ^ 0)] := rfl
  rw [hBytes]
  simp only [List.cons_append, List.nil_append, List.cons.injEq, and_true]
  refine ⟨?_, ?_, ?_, ?_, ?_, ?_, ?_, ?_⟩ <;> exact ofNat_congr (by omega)

/-- The bits of the count that say how much of the last block is used. -/
theorem and_mask504 (n : Nat) : 8 * n % 2 ^ 32 &&& 504 = 8 * (n % 64) := by
  have hShift : 8 * n % 2 ^ 32 = (n % 2 ^ 29) <<< 3 := by
    rw [Nat.shiftLeft_eq]
    omega
  have hMask : 504 = (2 ^ 6 - 1) <<< 3 := rfl
  rw [hShift, hMask, ← Nat.shiftLeft_and_distrib, Nat.and_two_pow_sub_one_eq_mod, Nat.shiftLeft_eq]
  omega

/-- Zeros are put behind the message until eight bytes are left in its last block. -/
theorem represents_putZeros {fuel : Nat} (h : Represents context msg) (hFuel : (120 - msg.length % 64) % 64 ≤ fuel) :
    Represents (putZeros fuel context) (msg ++ List.replicate ((120 - msg.length % 64) % 64) 0) := by
  have hMod := Nat.mod_lt msg.length (by decide : 0 < 64)
  induction fuel generalizing context msg with
  | zero =>
    obtain hNone : (120 - msg.length % 64) % 64 = 0 := by omega
    rw [putZeros, hNone, List.replicate_zero, List.append_nil]
    exact h
  | succ fuel ih =>
    rw [putZeros, h.count0, and_mask504]
    split
    · rename_i hMore
      have hNext := ih (represents_update h (by decide : Countable [0])) (by
        rw [List.length_append, List.length_singleton]
        omega) (Nat.mod_lt _ (by decide))
      have hZeros : (120 - msg.length % 64) % 64 = (120 - (msg ++ [0]).length % 64) % 64 + 1 := by
        rw [List.length_append, List.length_singleton]
        omega
      rwa [hZeros, Nat.add_comm, List.replicate_add, ← List.append_assoc]
    · rename_i hEnough
      obtain hNone : (120 - msg.length % 64) % 64 = 0 := by omega
      rw [hNone, List.replicate_zero, List.append_nil]
      exact h

theorem SHA1Final_eq (h : Represents context msg) : SHA1Final context = standardDigest msg := by
  have hOne := represents_update h (by decide : Countable [0x80])
  have hZeros := represents_putZeros hOne (Nat.le_of_lt (Nat.mod_lt _ (by decide) : _ < 64))
  have hCount : Countable (bigEndian (8 * msg.length)) := by
    have hLength : (bigEndian (8 * msg.length)).length = 8 := rfl
    rw [Countable, hLength]
    decide
  have hAll := (represents_update hZeros hCount).holds
  have hPlaces : (120 - (msg ++ [0x80]).length % 64) % 64 = (119 - msg.length % 64) % 64 := by
    rw [List.length_append, List.length_singleton]
    omega
  have hPadded : msg ++ [0x80] ++ List.replicate ((120 - (msg ++ [0x80]).length % 64) % 64) 0 ++
      bigEndian (8 * msg.length) = msg ++ padding msg.length := by
    rw [hPlaces, padding]
    simp
  rw [hPadded] at hAll
  simp only [SHA1Final, wordBytes_counts h, hAll.state, SHA1Transform_eq, standardDigest]

theorem represents_updates {pieces : List Bytes} (hPieces : ∀ piece ∈ pieces, Countable piece)
    (h : Represents context msg) : Represents (pieces.foldl SHA1Update context) (msg ++ pieces.flatten) := by
  induction pieces generalizing context msg with
  | nil => rwa [List.flatten_nil, List.append_nil]
  | cons piece pieces ih =>
    obtain ⟨hPiece, hRest⟩ := List.forall_mem_cons.mp hPieces
    rw [List.foldl_cons, List.flatten_cons, ← List.append_assoc]
    exact ih hRest (represents_update h hPiece)

theorem digest_updates {stack : SHA1_CTX} (hBuffer : stack.buffer.length = 64) {pieces : List Bytes}
    (hPieces : ∀ piece ∈ pieces, Countable piece) :
    SHA1Final (pieces.foldl SHA1Update (SHA1Init stack)) = standardDigest pieces.flatten := by
  have hStart : Represents (SHA1Init stack) [] := ⟨rfl, rfl, holds_nil hBuffer⟩
  have hWhole := SHA1Final_eq (represents_updates hPieces hStart)
  rwa [List.nil_append] at hWhole

/-- Whatever the stack held and in whatever fragments the message comes, the result is the digest of the
whole message. -/
theorem sha1_vector_eq {stack : SHA1_CTX} (hBuffer : stack.buffer.length = 64) {addr : List Bytes}
    (hAddr : ∀ data ∈ addr, Countable data) : sha1_vector stack addr = standardDigest addr.flatten :=
  digest_updates hBuffer hAddr

theorem sha1_vector_eq_abc :
    sha1_vector ⟨initialState, 5, 7, List.replicate 64 0xaa⟩ [[0x61], [], [0x62, 0x63]] =
      standardDigest [0x61, 0x62, 0x63] :=
  sha1_vector_eq List.length_replicate (by decide)

example : standardDigest "abc".toUTF8.toList = [0xa9, 0x99, 0x3e, 0x36, 0x47, 0x06, 0x81, 0x6a, 0xba, 0x3e, 0x25, 0x71,
    0x78, 0x50, 0xc2, 0x6c, 0x9c, 0xd0, 0xd8, 0x9d] := by decide +kernel

end Digest

section Keyed

/-- `hmac_sha1_vector`: none for more fragments than the array has room for. -/
def hmac_sha1_vector (stack : SHA1_CTX) (key : Bytes) (addr : List Bytes) : Option Bytes :=
  if addr.length > 5 then none
  else
    let key := if key.length > 64 then sha1_vector stack [key] else key
    let k_pad := (fill (List.replicate 64 0) 0 key).map (· ^^^ 0x36)
    let mac := sha1_vector stack (k_pad :: addr)
    let k_pad := (fill (List.replicate 64 0) 0 key).map (· ^^^ 0x5c)
    some (sha1_vector stack [k_pad, mac])

def hmac_sha1 (stack : SHA1_CTX) (key data : Bytes) : Option Bytes := hmac_sha1_vector stack key [data]

/-- The key of one block: a long one is replaced by its digest, and zeros are put behind it. -/
def blockKey (key : Bytes) : Bytes :=
  let key := if key.length > 64 then standardDigest key else key
  key ++ List.replicate (64 - key.length) 0

/-- The keyed digest of the standard. -/
def standardHmac (key msg : Bytes) : Bytes :=
  standardDigest ((blockKey key).map (· ^^^ 0x5c) ++ standardDigest ((blockKey key).map (· ^^^ 0x36) ++ msg))

theorem length_standardDigest (msg : Bytes) : (standardDigest msg).length = 20 := rfl

theorem fill_zeros (key : Bytes) : fill (List.replicate 64 0) 0 key = key ++ List.replicate (64 - key.length) 0 := by
  rw [fill, List.take_zero, List.nil_append, Nat.zero_add, List.drop_replicate]

theorem length_blockKey (key : Bytes) : (blockKey key).length = 64 := by
  simp only [blockKey]
  split
  · rw [List.length_append, List.length_replicate, length_standardDigest]
  · rw [List.length_append, List.length_replicate]
    omega

theorem hmac_fragments {stack : SHA1_CTX} (hBuffer : stack.buffer.length = 64) {key : Bytes} (hKey : Countable key)
    {addr : List Bytes} (hAddr : ∀ data ∈ addr, Countable data) (hFew : addr.length ≤ 5) :
    hmac_sha1_vector stack key addr = some (standardHmac key addr.flatten) := by
  have hVector {pieces : List Bytes} (hPieces : ∀ piece ∈ pieces, Countable piece) :
      sha1_vector stack pieces = standardDigest pieces.flatten :=
    digest_updates hBuffer hPieces
  have hPad (mask : UInt8) : Countable ((blockKey key).map (· ^^^ mask)) := by
    rw [Countable, List.length_map, length_blockKey]
    decide
  have hDigest (msg : Bytes) : Countable (standardDigest msg) := by
    rw [Countable, length_standardDigest]
    decide
  have hBlock : fill (List.replicate 64 0) 0 (if key.length > 64 then sha1_vector stack [key] else key) =
      blockKey key := by
    rw [hVector (List.forall_mem_singleton.mpr hKey), List.flatten_singleton, fill_zeros, blockKey]
  rw [hmac_sha1_vector, if_neg (by omega)]
  simp only [hBlock]
  rw [hVector (List.forall_mem_cons.mpr ⟨hPad 0x36, hAddr⟩),
    hVector (List.forall_mem_cons.mpr ⟨hPad 0x5c, List.forall_mem_singleton.mpr (hDigest _)⟩)]
  simp only [standardHmac, List.flatten_cons, List.flatten_nil, List.append_nil]

/-- The keyed digest of up to five fragments is that of the standard for all of them in a row. -/
theorem hmac_sha1_vector_eq {stack : SHA1_CTX} (hBuffer : stack.buffer.length = 64) {key : Bytes} (hKey : Countable key)
    {addr : List Bytes} (hAddr : ∀ data ∈ addr, Countable data) :
    hmac_sha1_vector stack key addr = if addr.length > 5 then none else some (standardHmac key addr.flatten) := by
  split
  · rename_i hMany
    rw [hmac_sha1_vector, if_pos hMany]
  · rename_i hFew
    exact hmac_fragments hBuffer hKey hAddr (by omega)

theorem hmac_sha1_eq {stack : SHA1_CTX} (hBuffer : stack.buffer.length = 64) {key data : Bytes} (hKey : Countable key)
    (hData : Countable data) : hmac_sha1 stack key data = some (standardHmac key data) := by
  rw [hmac_sha1, hmac_fragments hBuffer hKey (List.forall_mem_singleton.mpr hData) (Nat.succ_le_succ (Nat.zero_le 4)),
    List.flatten_singleton]

theorem hmac_sha1_vector_eq_two :
    hmac_sha1_vector ⟨initialState, 5, 7, List.replicate 64 0xaa⟩ [0x4a, 0x65, 0x66, 0x65] [[0x77, 0x68], [0x61]] =
      some (standardHmac [0x4a, 0x65, 0x66, 0x65] [0x77, 0x68, 0x61]) :=
  hmac_sha1_vector_eq List.length_replicate (by decide : Countable [0x4a, 0x65, 0x66, 0x65])
    (by decide : ∀ data ∈ [[0x77, 0x68], [0x61]], Countable data)

end Keyed

end Tr069Agent.Com.Sha1
