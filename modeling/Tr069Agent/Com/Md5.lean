import Mathlib.Data.UInt
import Mathlib.Tactic.Common
import Tr069Agent.Library.BlockHash
import Tr069Agent.Library.Words

/-! # The MD5 digest

The digest is taken of data that come in pieces. The count of the bytes is kept in two words, the lower
one of 29 bits, so that both together, shifted by three, are the length in bits.
-/

namespace Tr069Agent.Com.Md5

open Library.BlockHash Library.Words

set_option autoImplicit false

abbrev Bytes := List UInt8

section Transformation

structure Registers where
  a : UInt32
  b : UInt32
  c : UInt32
  d : UInt32
  deriving DecidableEq

def F (x y z : UInt32) : UInt32 := z ^^^ (x &&& (y ^^^ z))
def G (x y z : UInt32) : UInt32 := y ^^^ (z &&& (x ^^^ y))
def H (x y z : UInt32) : UInt32 := (x ^^^ y) ^^^ z
def H2 (x y z : UInt32) : UInt32 := x ^^^ (y ^^^ z)
def I (x y z : UInt32) : UInt32 := y ^^^ (x ||| ~~~z)

/-- `STEP`; the registers are then in the order in which the next step names them. -/
def step (fn : UInt32 → UInt32 → UInt32 → UInt32) (x t s : UInt32) (r : Registers) : Registers :=
  let a := r.a + (fn r.b r.c r.d + x + t)
  let a := (a <<< s) ||| (a >>> (32 - s))
  ⟨r.d, a + r.b, r.b, r.c⟩

/-- One line of `body`: the place of the word, the constant and the shift. -/
abbrev Line := Nat × UInt32 × UInt32

def round1 : List Line :=
  [(0, 0xd76aa478, 7), (1, 0xe8c7b756, 12), (2, 0x242070db, 17), (3, 0xc1bdceee, 22),
    (4, 0xf57c0faf, 7), (5, 0x4787c62a, 12), (6, 0xa8304613, 17), (7, 0xfd469501, 22),
    (8, 0x698098d8, 7), (9, 0x8b44f7af, 12), (10, 0xffff5bb1, 17), (11, 0x895cd7be, 22),
    (12, 0x6b901122, 7), (13, 0xfd987193, 12), (14, 0xa679438e, 17), (15, 0x49b40821, 22)]

def round2 : List Line :=
  [(1, 0xf61e2562, 5), (6, 0xc040b340, 9), (11, 0x265e5a51, 14), (0, 0xe9b6c7aa, 20),
    (5, 0xd62f105d, 5), (10, 0x02441453, 9), (15, 0xd8a1e681, 14), (4, 0xe7d3fbc8, 20),
    (9, 0x21e1cde6, 5), (14, 0xc33707d6, 9), (3, 0xf4d50d87, 14), (8, 0x455a14ed, 20),
    (13, 0xa9e3e905, 5), (2, 0xfcefa3f8, 9), (7, 0x676f02d9, 14), (12, 0x8d2a4c8a, 20)]

def round3 : List Line :=
  [(5, 0xfffa3942, 4), (8, 0x8771f681, 11), (11, 0x6d9d6122, 16), (14, 0xfde5380c, 23),
    (1, 0xa4beea44, 4), (4, 0x4bdecfa9, 11), (7, 0xf6bb4b60, 16), (10, 0xbebfbc70, 23),
    (13, 0x289b7ec6, 4), (0, 0xeaa127fa, 11), (3, 0xd4ef3085, 16), (6, 0x04881d05, 23),
    (9, 0xd9d4d039, 4), (12, 0xe6db99e5, 11), (15, 0x1fa27cf8, 16), (2, 0xc4ac5665, 23)]

def round4 : List Line :=
  [(0, 0xf4292244, 6), (7, 0x432aff97, 10), (14, 0xab9423a7, 15), (5, 0xfc93a039, 21),
    (12, 0x655b59c3, 6), (3, 0x8f0ccc92, 10), (10, 0xffeff47d, 15), (1, 0x85845dd1, 21),
    (8, 0x6fa87e4f, 6), (15, 0xfe2ce6e0, 10), (6, 0xa3014314, 15), (13, 0x4e0811a1, 21),
    (4, 0xf7537e82, 6), (11, 0xbd3af235, 10), (2, 0x2ad7d2bb, 15), (9, 0xeb86d391, 21)]

/-- `SET` and `GET`: four bytes in little-endian order. -/
def word (ptr : Bytes) (n : Nat) : UInt32 :=
  (ptr.getD (n * 4) 0).toUInt32 ||| ((ptr.getD (n * 4 + 1) 0).toUInt32 <<< 8) |||
    ((ptr.getD (n * 4 + 2) 0).toUInt32 <<< 16) ||| ((ptr.getD (n * 4 + 3) 0).toUInt32 <<< 24)

def runLine (fn : UInt32 → UInt32 → UInt32 → UInt32) (ptr : Bytes) (r : Registers) (line : Line) : Registers :=
  step fn (word ptr line.1) line.2.1 line.2.2 r

/-- The lines of the third round use `H` and `H2` by turns. -/
def runPair (ptr : Bytes) (r : Registers) : List Line → Registers
  | first :: second :: lines => runPair ptr (runLine H2 ptr (runLine H ptr r first) second) lines
  | lines => lines.foldl (runLine H ptr) r

/-- One turn of the loop of `body`, for one block of 64 bytes. -/
def transform (saved : Registers) (ptr : Bytes) : Registers :=
  let r := round1.foldl (runLine F ptr) saved
  let r := round2.foldl (runLine G ptr) r
  let r := runPair ptr r round3
  let r := round4.foldl (runLine I ptr) r
  ⟨r.a + saved.a, r.b + saved.b, r.c + saved.c, r.d + saved.d⟩

end Transformation

section Context

structure MD5_CTX where
  lo : UInt32
  hi : UInt32
  registers : Registers
  buffer : Bytes

/-- `body`: the blocks of `size` bytes, and the data behind them. -/
def body (ctx : MD5_CTX) (data : Bytes) (size : Nat) : MD5_CTX × Bytes :=
  ({ ctx with registers := absorbBlocks 64 transform (size / 64) ctx.registers data }, data.drop size)

def initialRegisters : Registers := ⟨0x67452301, 0xefcdab89, 0x98badcfe, 0x10325476⟩

/-- `MD5_Init` does not touch the buffer. -/
def MD5_Init (ctx : MD5_CTX) : MD5_CTX := { ctx with registers := initialRegisters, lo := 0, hi := 0 }

/-- The count of the bytes in `MD5_Update`; the length of the data is an `unsigned long`. -/
def countBytes (ctx : MD5_CTX) (size : Nat) : MD5_CTX :=
  let savedLo := ctx.lo
  let ctx := { ctx with lo := UInt32.ofNat ((savedLo.toNat + size) % 2 ^ 64 &&& 0x1fffffff) }
  let ctx := if ctx.lo < savedLo then { ctx with hi := ctx.hi + 1 } else ctx
  { ctx with hi := ctx.hi + UInt32.ofNat (size >>> 29) }

/-- The rest of `MD5_Update` where the buffer has been emptied. -/
def takeBlocks (ctx : MD5_CTX) (data : Bytes) : MD5_CTX :=
  let size := data.length
  let (ctx, data, size) :=
    if size ≥ 64 then
      let (ctx, data) := body ctx data (size - size % 64)
      (ctx, data, size &&& 0x3f)
    else (ctx, data, size)
  { ctx with buffer := fill ctx.buffer 0 (data.take size) }

def MD5_Update (ctx : MD5_CTX) (data : Bytes) : MD5_CTX :=
  let used := ctx.lo.toNat &&& 0x3f
  let ctx := countBytes ctx data.length
  if used ≠ 0 then
    let available := 64 - used
    if data.length < available then { ctx with buffer := fill ctx.buffer used data }
    else
      let buffer := fill ctx.buffer used (data.take available)
      takeBlocks (body { ctx with buffer } buffer 64).1 (data.drop available)
  else takeBlocks ctx data

/-- The four bytes of a word, the lowest first. -/
def wordBytes (x : UInt32) : Bytes := [x.toUInt8, (x >>> 8).toUInt8, (x >>> 16).toUInt8, (x >>> 24).toUInt8]

def MD5_Final (ctx : MD5_CTX) : Bytes :=
  let used := ctx.lo.toNat &&& 0x3f
  let ctx := { ctx with buffer := fill ctx.buffer used [0x80] }
  let used := used + 1
  let available := 64 - used
  let (ctx, used, available) :=
    if available < 8 then
      let buffer := fill ctx.buffer used (List.replicate available 0)
      ((body { ctx with buffer } buffer 64).1, 0, 64)
    else (ctx, used, available)
  let ctx := { ctx with buffer := fill ctx.buffer used (List.replicate (available - 8) 0) }
  let lo := ctx.lo <<< (3 : UInt32)
  let ctx := { ctx with buffer := fill ctx.buffer 56 (wordBytes lo ++ wordBytes ctx.hi) }
  let ctx := (body ctx ctx.buffer 64).1
  wordBytes ctx.registers.a ++ wordBytes ctx.registers.b ++ wordBytes ctx.registers.c ++ wordBytes ctx.registers.d

end Context

section Counting

/-- The context after the message; the buffer holds anything behind what waits in it. -/
structure Represents (ctx : MD5_CTX) (msg : Bytes) : Prop where
  lo : ctx.lo.toNat = msg.length % 2 ^ 29
  hi : ctx.hi.toNat = msg.length / 2 ^ 29 % 2 ^ 32
  holds : Holds 64 transform initialRegisters ctx.registers ctx.buffer msg

variable {ctx : MD5_CTX} {msg : Bytes}

theorem countBytes_registers (ctx : MD5_CTX) (size : Nat) :
    (countBytes ctx size).registers = ctx.registers ∧ (countBytes ctx size).buffer = ctx.buffer := by
  simp only [countBytes]
  split <;> exact ⟨rfl, rfl⟩

theorem and_mask29 (n : Nat) : n &&& 0x1fffffff = n % 2 ^ 29 := Nat.and_two_pow_sub_one_eq_mod n 29

theorem and_mask6 (n : Nat) : n &&& 0x3f = n % 2 ^ 6 := Nat.and_two_pow_sub_one_eq_mod n 6

/-- The two words count on together. -/
theorem countBytes_spec (h : Represents ctx msg) (size : Nat) :
    (countBytes ctx size).lo.toNat = (msg.length + size) % 2 ^ 29 ∧
      (countBytes ctx size).hi.toNat = (msg.length + size) / 2 ^ 29 % 2 ^ 32 := by
  have hLo := h.lo
  have hHi := h.hi
  have hMask : (ctx.lo.toNat + size) % 2 ^ 64 &&& 0x1fffffff = (msg.length + size) % 2 ^ 29 := by
    rw [and_mask29]
    omega
  have hLoNew : (UInt32.ofNat ((ctx.lo.toNat + size) % 2 ^ 64 &&& 0x1fffffff)).toNat =
      (msg.length + size) % 2 ^ 29 := by
    rw [hMask, UInt32.toNat_ofNat']
    omega
  have hHigh : size >>> 29 = size / 2 ^ 29 := Nat.shiftRight_eq_div_pow size 29
  have hOne : UInt32.toNat 1 = 1 := rfl
  simp only [countBytes]
  generalize UInt32.ofNat ((ctx.lo.toNat + size) % 2 ^ 64 &&& 0x1fffffff) = lo at hLoNew
  split
  · rename_i hCarry
    rw [UInt32.lt_iff_toNat_lt, hLoNew, hLo] at hCarry
    refine ⟨hLoNew, ?_⟩
    simp only [UInt32.toNat_add, UInt32.toNat_ofNat', hHi, hHigh, hOne]
    omega
  · rename_i hCarry
    rw [UInt32.lt_iff_toNat_lt, hLoNew, hLo] at hCarry
    refine ⟨hLoNew, ?_⟩
    simp only [UInt32.toNat_add, UInt32.toNat_ofNat', hHi, hHigh]
    omega

theorem used_eq (h : Represents ctx msg) : ctx.lo.toNat &&& 0x3f = msg.length % 64 := by
  rw [and_mask6, h.lo]
  omega

end Counting

section Updating

variable {ctx : MD5_CTX} {msg data : Bytes}

abbrev HoldsMd5 (registers : Registers) (buffer msg : Bytes) : Prop :=
  Holds 64 transform initialRegisters registers buffer msg

theorem takeBlocks_counts (ctx : MD5_CTX) (data : Bytes) :
    (takeBlocks ctx data).lo = ctx.lo ∧ (takeBlocks ctx data).hi = ctx.hi := by
  simp only [takeBlocks, body]
  split <;> exact ⟨rfl, rfl⟩

theorem holds_takeBlocks (h : HoldsMd5 ctx.registers ctx.buffer msg) (hEmpty : msg.length % 64 = 0) (data : Bytes) :
    HoldsMd5 (takeBlocks ctx data).registers (takeBlocks ctx data).buffer (msg ++ data) := by
  have hShort (msg : Bytes) {registers : Registers} (hHolds : HoldsMd5 registers ctx.buffer msg)
      (hNone : msg.length % 64 = 0) {part : Bytes} (hPart : part.length < 64) :
      HoldsMd5 registers (fill ctx.buffer 0 part) (msg ++ part) := by
    have hAppended := hHolds.short (by decide) (by omega : msg.length % 64 + part.length < 64)
    rwa [hNone] at hAppended
  simp only [takeBlocks, body]
  split
  · have hCount : (data.length - data.length % 64) / 64 * 64 = data.length - data.length % 64 := by omega
    have hBlocks := h.blocks (by decide) hEmpty (by omega : (data.length - data.length % 64) / 64 * 64 ≤ data.length)
    rw [hCount] at hBlocks
    have hRest : (data.drop (data.length - data.length % 64)).length = data.length % 64 := by
      rw [List.length_drop]
      omega
    have hNone : (msg ++ data.take (data.length - data.length % 64)).length % 64 = 0 := by
      rw [List.length_append, List.length_take]
      omega
    have hAll := hShort _ hBlocks hNone (by omega : (data.drop (data.length - data.length % 64)).length < 64)
    rw [List.append_assoc, List.take_append_drop] at hAll
    have hTake : (data.drop (data.length - data.length % 64)).take (data.length &&& 0x3f) =
        data.drop (data.length - data.length % 64) := by
      rw [and_mask6]
      exact List.take_of_length_le (Nat.le_of_eq hRest)
    dsimp only
    rwa [hTake]
  · rename_i hSmall
    rw [List.take_length]
    exact hShort msg h hEmpty (by omega)

theorem represents_takeBlocks {whole : Bytes} (hLo : ctx.lo.toNat = whole.length % 2 ^ 29)
    (hHi : ctx.hi.toNat = whole.length / 2 ^ 29 % 2 ^ 32) (h : HoldsMd5 ctx.registers ctx.buffer msg)
    (hEmpty : msg.length % 64 = 0) (hWhole : msg ++ data = whole) : Represents (takeBlocks ctx data) whole := by
  obtain ⟨hLoSame, hHiSame⟩ := takeBlocks_counts ctx data
  refine ⟨hLoSame ▸ hLo, hHiSame ▸ hHi, ?_⟩
  rw [← hWhole]
  exact holds_takeBlocks h hEmpty data

/-- A buffer that is full is one block. -/
theorem body_buffer {buffer : Bytes} (hLength : buffer.length = 64) (ctx : MD5_CTX) :
    (body ctx buffer 64).1 = { ctx with registers := transform ctx.registers buffer } := by
  simp only [body, Nat.div_self (by decide : 0 < 64), absorbBlocks, List.take_of_length_le (Nat.le_of_eq hLength)]

/-- One call of `MD5_Update` appends its data to the message. -/
theorem represents_update (h : Represents ctx msg) (data : Bytes) : Represents (MD5_Update ctx data) (msg ++ data) := by
  obtain ⟨hLo, hHi⟩ := countBytes_spec h data.length
  obtain ⟨hRegisters, hBuffer⟩ := countBytes_registers ctx data.length
  have hHolds : HoldsMd5 (countBytes ctx data.length).registers (countBytes ctx data.length).buffer msg := by
    rw [hRegisters, hBuffer]
    exact h.holds
  have hUsed := used_eq h
  have hLength : (msg ++ data).length = msg.length + data.length := List.length_append
  rw [← hLength] at hLo hHi
  simp only [MD5_Update, hUsed]
  split
  · rename_i hWaiting
    split
    · exact ⟨hLo, hHi, hHolds.short (by decide) (by omega)⟩
    · have hTaken : (data.take (64 - msg.length % 64)).length = 64 - msg.length % 64 :=
        List.length_take_of_le (by omega)
      have hFull := hHolds.full (by decide)
        (by omega : msg.length % 64 + (data.take (64 - msg.length % 64)).length = 64)
      have hEmpty : (msg ++ data.take (64 - msg.length % 64)).length % 64 = 0 := by
        rw [List.length_append]
        omega
      rw [body_buffer hFull.length]
      exact represents_takeBlocks hLo hHi hFull hEmpty (by rw [List.append_assoc, List.take_append_drop])
  · rename_i hNone
    exact represents_takeBlocks hLo hHi hHolds (by omega) rfl

end Updating

section Digest

/-- The 64 bits of a number, the lowest byte first. -/
def littleEndian (n : Nat) : Bytes := (List.range 8).map fun k => UInt8.ofNat (n / 256 ^ k)

/-- What is put behind a message: a one, zeros up to eight bytes before the end of a block, and the length
in bits. -/
def padding (length : Nat) : Bytes :=
  0x80 :: (List.replicate ((119 - length % 64) % 64) 0 ++ littleEndian (8 * length))

/-- The digest of a whole message. -/
def digest (msg : Bytes) : Bytes :=
  let r := absorb 64 transform initialRegisters (msg ++ padding msg.length)
  wordBytes r.a ++ wordBytes r.b ++ wordBytes r.c ++ wordBytes r.d

theorem wordBytes_eq (x : UInt32) :
    wordBytes x = [UInt8.ofNat x.toNat, UInt8.ofNat (x.toNat / 256), UInt8.ofNat (x.toNat / 256 ^ 2),
      UInt8.ofNat (x.toNat / 256 ^ 3)] := by
  have h1 := toUInt8_shiftRight x (by decide : 1 < 4)
  have h2 := toUInt8_shiftRight x (by decide : 2 < 4)
  have h3 := toUInt8_shiftRight x (by decide : 3 < 4)
  have h0 : x.toUInt8 = UInt8.ofNat x.toNat := rfl
  rw [Nat.pow_one] at h1
  rw [wordBytes, h0, ← h1, ← h2, ← h3]
  rfl

theorem wordBytes_counts {ctx : MD5_CTX} {msg : Bytes} (h : Represents ctx msg) :
    wordBytes (ctx.lo <<< (3 : UInt32)) ++ wordBytes ctx.hi = littleEndian (8 * msg.length) := by
  have hLow : (ctx.lo <<< (3 : UInt32)).toNat = 8 * msg.length % 2 ^ 32 := by
    have hShift : (3 : UInt32).toNat % 32 = 3 := rfl
    rw [UInt32.toNat_shiftLeft, hShift, h.lo, Nat.shiftLeft_eq]
    omega
  have hHigh : ctx.hi.toNat = 8 * msg.length / 2 ^ 32 % 2 ^ 32 := by
    rw [h.hi]
    omega
  rw [wordBytes_eq, wordBytes_eq, hLow, hHigh]
  generalize 8 * msg.length = n
  have hBytes : littleEndian n = [UInt8.ofNat (n / 256 ^ 0), UInt8.ofNat (n / 256 ^ 1), UInt8.ofNat (n / 256 ^ 2),
      UInt8.ofNat (n / 256 ^ 3), UInt8.ofNat (n / 256 ^ 4), UInt8.ofNat (n / 256 ^ 5), UInt8.ofNat (n / 256 ^ 6),
      UInt8.ofNat (n / 256 ^ 7)] := rfl
  rw [hBytes]
  simp only [List.cons_append, List.nil_append, List.cons.injEq, and_true]
  refine ⟨?_, ?_, ?_, ?_, ?_, ?_, ?_, ?_⟩ <;> exact ofNat_congr (by omega)

theorem length_littleEndian (n : Nat) : (littleEndian n).length = 8 := rfl

/-- The zeros reach the length in the next block. -/
theorem padding_of_few {length : Nat} (h : 56 ≤ length % 64) :
    padding length = ([0x80] ++ List.replicate (64 - (length % 64 + 1)) 0) ++
      (List.replicate 56 0 ++ littleEndian (8 * length)) := by
  have hZeros : (119 - length % 64) % 64 = (64 - (length % 64 + 1)) + 56 := by omega
  rw [padding, hZeros, List.replicate_add]
  simp

theorem padding_of_room {length : Nat} (h : length % 64 < 56) :
    padding length = [0x80] ++ List.replicate (64 - (length % 64 + 1) - 8) 0 ++ littleEndian (8 * length) := by
  have hZeros : (119 - length % 64) % 64 = 64 - (length % 64 + 1) - 8 := by omega
  rw [padding, hZeros]
  simp

section Final

variable {ctx : MD5_CTX} {msg : Bytes}

/-- The length does not fit behind the one, and takes a block of its own. -/
theorem MD5_Final_of_few (h : Represents ctx msg) (hFew : 56 ≤ msg.length % 64) : MD5_Final ctx = digest msg := by
  have hLength := h.holds.length
  have hMod := Nat.mod_lt msg.length (by decide : 0 < 64)
  have hFirst := fill_fill (by omega : msg.length % 64 ≤ ctx.buffer.length) [0x80]
    (List.replicate (64 - (msg.length % 64 + 1)) 0)
  have hFull : msg.length % 64 + ([0x80] ++ List.replicate (64 - (msg.length % 64 + 1)) 0 : Bytes).length = 64 := by
    rw [List.length_append, List.length_replicate, List.length_singleton]
    omega
  have hHolds := h.holds.full (by decide) hFull
  have hEmpty : (msg ++ ([0x80] ++ List.replicate (64 - (msg.length % 64 + 1)) 0)).length % 64 = 0 := by
    rw [List.length_append]
    omega
  have hLast : (msg ++ ([0x80] ++ List.replicate (64 - (msg.length % 64 + 1)) 0)).length % 64 +
      (List.replicate 56 0 ++ littleEndian (8 * msg.length) : Bytes).length = 64 := by
    rw [hEmpty, List.length_append, List.length_replicate, length_littleEndian]
  have hWhole := hHolds.full (by decide) hLast
  rw [hEmpty] at hWhole
  have hCopied : ∀ buffer : Bytes, fill (fill buffer 0 (List.replicate (64 - 8) 0)) 56
      (littleEndian (8 * msg.length)) = fill buffer 0 (List.replicate 56 0 ++ littleEndian (8 * msg.length)) :=
    fun buffer => fill_fill (Nat.zero_le _) (List.replicate 56 0) _
  have hState := hWhole.state
  rw [List.append_assoc, ← padding_of_few hFew] at hState
  simp only [MD5_Final, used_eq h, if_pos (by omega : 64 - (msg.length % 64 + 1) < 8)]
  rw [List.length_singleton] at hFirst
  rw [hFirst, body_buffer hHolds.length]
  simp only [wordBytes_counts h, hCopied]
  rw [body_buffer hWhole.length]
  simp only [hState, digest]

theorem MD5_Final_of_room (h : Represents ctx msg) (hRoom : msg.length % 64 < 56) : MD5_Final ctx = digest msg := by
  have hLength := h.holds.length
  have hFirst := fill_fill (by omega : msg.length % 64 ≤ ctx.buffer.length) [0x80]
    (List.replicate (64 - (msg.length % 64 + 1) - 8) 0)
  have hSecond := fill_fill (by omega : msg.length % 64 ≤ ctx.buffer.length)
    ([0x80] ++ List.replicate (64 - (msg.length % 64 + 1) - 8) 0) (littleEndian (8 * msg.length))
  have hPlace : msg.length % 64 + ([0x80] ++ List.replicate (64 - (msg.length % 64 + 1) - 8) 0 : Bytes).length =
      56 := by
    rw [List.length_append, List.length_replicate, List.length_singleton]
    omega
  rw [hPlace, ← padding_of_room hRoom] at hSecond
  have hFull : msg.length % 64 + (padding msg.length).length = 64 := by
    rw [padding_of_room hRoom, List.length_append, length_littleEndian]
    omega
  have hWhole := h.holds.full (by decide) hFull
  simp only [MD5_Final, used_eq h, wordBytes_counts h, if_neg (by omega : ¬ 64 - (msg.length % 64 + 1) < 8)]
  rw [List.length_singleton] at hFirst
  rw [hFirst, hSecond, body_buffer hWhole.length]
  simp only [hWhole.state, digest]

theorem MD5_Final_eq (h : Represents ctx msg) : MD5_Final ctx = digest msg := by
  rcases Nat.lt_or_ge (msg.length % 64) 56 with hRoom | hFew
  · exact MD5_Final_of_room h hRoom
  · exact MD5_Final_of_few h hFew

end Final

end Digest

section Standard

/-- The four functions as the standard writes them. -/
def standardFn : Nat → UInt32 → UInt32 → UInt32 → UInt32
  | 0, x, y, z => (x &&& y) ||| (~~~x &&& z)
  | 1, x, y, z => (x &&& z) ||| (y &&& ~~~z)
  | 2, x, y, z => x ^^^ y ^^^ z
  | _, x, y, z => y ^^^ (x ||| ~~~z)

/-- The place of the word that is taken in by step `t`. -/
def standardPlace (t : Nat) : Nat :=
  match t / 16 with
  | 0 => t % 16
  | 1 => (5 * t + 1) % 16
  | 2 => (3 * t + 5) % 16
  | _ => 7 * t % 16

def standardShifts : List (List UInt32) := [[7, 12, 17, 22], [5, 9, 14, 20], [4, 11, 16, 23], [6, 10, 15, 21]]

/-- The whole part of 2 ^ 32 times the sine of `t + 1`, without its sign. -/
def standardConstants : List UInt32 :=
  [0xd76aa478, 0xe8c7b756, 0x242070db, 0xc1bdceee, 0xf57c0faf, 0x4787c62a, 0xa8304613, 0xfd469501,
    0x698098d8, 0x8b44f7af, 0xffff5bb1, 0x895cd7be, 0x6b901122, 0xfd987193, 0xa679438e, 0x49b40821,
    0xf61e2562, 0xc040b340, 0x265e5a51, 0xe9b6c7aa, 0xd62f105d, 0x02441453, 0xd8a1e681, 0xe7d3fbc8,
    0x21e1cde6, 0xc33707d6, 0xf4d50d87, 0x455a14ed, 0xa9e3e905, 0xfcefa3f8, 0x676f02d9, 0x8d2a4c8a,
    0xfffa3942, 0x8771f681, 0x6d9d6122, 0xfde5380c, 0xa4beea44, 0x4bdecfa9, 0xf6bb4b60, 0xbebfbc70,
    0x289b7ec6, 0xeaa127fa, 0xd4ef3085, 0x04881d05, 0xd9d4d039, 0xe6db99e5, 0x1fa27cf8, 0xc4ac5665,
    0xf4292244, 0x432aff97, 0xab9423a7, 0xfc93a039, 0x655b59c3, 0x8f0ccc92, 0xffeff47d, 0x85845dd1,
    0x6fa87e4f, 0xfe2ce6e0, 0xa3014314, 0x4e0811a1, 0xf7537e82, 0xbd3af235, 0x2ad7d2bb, 0xeb86d391]

def rotateLeft (x s : UInt32) : UInt32 := (x <<< s) ||| (x >>> (32 - s))

def standardShift (t : Nat) : UInt32 := (standardShifts.getD (t / 16) []).getD (t % 4) 0

/-- Step `t` computes one register anew; the others are named in turn. -/
def standardStep (block : Bytes) (r : Registers) (t : Nat) : Registers :=
  let sum := r.a + standardFn (t / 16) r.b r.c r.d + word block (standardPlace t) + standardConstants.getD t 0
  ⟨r.d, r.b + rotateLeft sum (standardShift t), r.b, r.c⟩

/-- The digits of the registers count up and down again, each word with its lowest byte first. -/
def standardRegisters : Registers :=
  let bytes : Bytes :=
    [0x01, 0x23, 0x45, 0x67, 0x89, 0xab, 0xcd, 0xef, 0xfe, 0xdc, 0xba, 0x98, 0x76, 0x54, 0x32, 0x10]
  ⟨word bytes 0, word bytes 1, word bytes 2, word bytes 3⟩

/-- The sixty-four steps of the standard. -/
def standardTransform (saved : Registers) (block : Bytes) : Registers :=
  let r := (List.range 64).foldl (standardStep block) saved
  ⟨r.a + saved.a, r.b + saved.b, r.c + saved.c, r.d + saved.d⟩

theorem F_eq (x y z : UInt32) : F x y z = standardFn 0 x y z := by
  rw [F, standardFn, ← UInt32.toBitVec_inj]
  ext k hk
  simp only [UInt32.toBitVec_xor, UInt32.toBitVec_and, UInt32.toBitVec_or, UInt32.toBitVec_not, BitVec.getElem_xor,
    BitVec.getElem_and, BitVec.getElem_or, BitVec.getElem_not]
  cases x.toBitVec[k] <;> cases y.toBitVec[k] <;> cases z.toBitVec[k] <;> rfl

theorem G_eq (x y z : UInt32) : G x y z = standardFn 1 x y z := by
  rw [G, standardFn, ← UInt32.toBitVec_inj]
  ext k hk
  simp only [UInt32.toBitVec_xor, UInt32.toBitVec_and, UInt32.toBitVec_or, UInt32.toBitVec_not, BitVec.getElem_xor,
    BitVec.getElem_and, BitVec.getElem_or, BitVec.getElem_not]
  cases x.toBitVec[k] <;> cases y.toBitVec[k] <;> cases z.toBitVec[k] <;> rfl

theorem H2_eq (x y z : UInt32) : H2 x y z = H x y z := (UInt32.xor_assoc x y z).symm

theorem runPair_eq (ptr : Bytes) (r : Registers) (lines : List Line) :
    runPair ptr r lines = lines.foldl (runLine H ptr) r := by
  have hSame : H2 = H := funext fun x => funext fun y => funext fun z => H2_eq x y z
  fun_induction runPair ptr r lines with
  | case1 r first second lines ih => rw [ih, hSame, List.foldl_cons, List.foldl_cons]
  | case2 r lines => rfl

theorem step_eq_standardStep (block : Bytes) (r : Registers) (t : Nat) :
    step (standardFn (t / 16)) (word block (standardPlace t)) (standardConstants.getD t 0) (standardShift t) r =
      standardStep block r t := by
  simp only [step, standardStep, rotateLeft, UInt32.add_assoc, UInt32.add_comm _ r.b]

theorem initialRegisters_eq : initialRegisters = standardRegisters := by decide

/-- A round of `body` takes sixteen steps of the standard. -/
theorem foldl_runLine {fn : UInt32 → UInt32 → UInt32 → UInt32} {round : List Line} {number : Nat}
    (hFn : fn = standardFn number)
    (hRound : round = (List.range' (16 * number) 16).map fun t =>
      (standardPlace t, standardConstants.getD t 0, standardShift t))
    (ptr : Bytes) (r : Registers) :
    round.foldl (runLine fn ptr) r = (List.range' (16 * number) 16).foldl (standardStep ptr) r := by
  rw [hRound, List.foldl_map]
  refine List.foldl_ext _ _ _ fun r t hMem => ?_
  have hNumber : t / 16 = number := by
    rw [List.mem_range'_1] at hMem
    omega
  rw [runLine, ← step_eq_standardStep, hNumber, hFn]

/-- The unrolled transformation is that of the standard. -/
theorem transform_eq : transform = standardTransform := by
  funext saved ptr
  have hRange : List.range 64 = List.range' (16 * 0) 16 ++ List.range' (16 * 1) 16 ++ List.range' (16 * 2) 16 ++
      List.range' (16 * 3) 16 := by decide
  have hF : F = standardFn 0 := funext fun x => funext fun y => funext fun z => F_eq x y z
  have hG : G = standardFn 1 := funext fun x => funext fun y => funext fun z => G_eq x y z
  have hH : H = standardFn 2 := rfl
  have hI : I = standardFn 3 := rfl
  simp only [transform, standardTransform, runPair_eq, hRange, List.foldl_append]
  rw [foldl_runLine hF (by decide), foldl_runLine hG (by decide), foldl_runLine hH (by decide),
    foldl_runLine hI (by decide)]

/-- The digest of the standard. -/
def standardDigest (msg : Bytes) : Bytes :=
  let r := absorb 64 standardTransform standardRegisters (msg ++ padding msg.length)
  wordBytes r.a ++ wordBytes r.b ++ wordBytes r.c ++ wordBytes r.d

theorem represents_updates (pieces : List Bytes) {ctx : MD5_CTX} {msg : Bytes} (h : Represents ctx msg) :
    Represents (pieces.foldl MD5_Update ctx) (msg ++ pieces.flatten) := by
  induction pieces generalizing ctx msg with
  | nil => rwa [List.flatten_nil, List.append_nil]
  | cons piece pieces ih =>
    rw [List.foldl_cons, List.flatten_cons, ← List.append_assoc]
    exact ih (represents_update h piece)

/-- Whatever the buffer held and in whatever pieces the message comes, the result is the digest of the
whole message. -/
theorem digest_of_pieces {ctx : MD5_CTX} (hBuffer : ctx.buffer.length = 64) (pieces : List Bytes) :
    MD5_Final (pieces.foldl MD5_Update (MD5_Init ctx)) = standardDigest pieces.flatten := by
  have hStart : Represents (MD5_Init ctx) [] := ⟨rfl, rfl, holds_nil hBuffer⟩
  have hWhole := MD5_Final_eq (represents_updates pieces hStart)
  rw [hWhole, digest, transform_eq, initialRegisters_eq, List.nil_append, standardDigest]

theorem digest_of_pieces_abc :
    MD5_Final ([[0x61], [], [0x62, 0x63]].foldl MD5_Update
      (MD5_Init ⟨5, 7, initialRegisters, List.replicate 64 0xaa⟩)) = standardDigest [0x61, 0x62, 0x63] :=
  digest_of_pieces (List.length_replicate) _

example : standardDigest "abc".toUTF8.toList = [0x90, 0x01, 0x50, 0x98, 0x3c, 0xd2, 0x4f, 0xb0, 0xd6, 0x96, 0x3f, 0x7d,
    0x28, 0xe1, 0x7f, 0x72] := by decide +kernel

end Standard

end Tr069Agent.Com.Md5
