import Mathlib.Data.Finset.Basic
import Mathlib.Data.Finset.Union
import Mathlib.Data.List.Nodup

/-! # Allocated blocks and their release

The memory is the set of the allocated blocks. To release a block that is not allocated, or not any more, is
undefined, so a run of releases is defined exactly when it releases allocated blocks and none of them twice.
-/

namespace Tr069Agent.Library.Allocation

set_option autoImplicit false

variable {α : Type*} [DecidableEq α]

def free (memory : Finset α) (block : α) : Option (Finset α) :=
  if block ∈ memory then some (memory.erase block) else none

def freeAll (memory : Finset α) : List α → Option (Finset α)
  | [] => some memory
  | block :: blocks => (free memory block).bind fun memory => freeAll memory blocks

/-- The blocks are different ones, all of them allocated. -/
structure Allocated (memory : Finset α) (blocks : List α) : Prop where
  nodup : blocks.Nodup
  mem : ∀ block ∈ blocks, block ∈ memory

@[simp] theorem freeAll_nil (memory : Finset α) : freeAll memory [] = some memory := rfl

@[simp] theorem freeAll_cons (memory : Finset α) (block : α) (blocks : List α) :
    freeAll memory (block :: blocks) = (free memory block).bind fun memory => freeAll memory blocks := rfl

@[simp] theorem freeAll_singleton (memory : Finset α) (block : α) : freeAll memory [block] = free memory block := by
  rw [freeAll_cons]
  exact Option.bind_fun_some _

theorem freeAll_append (memory : Finset α) (blocks others : List α) :
    freeAll memory (blocks ++ others) = (freeAll memory blocks).bind fun memory => freeAll memory others := by
  induction blocks generalizing memory with
  | nil => rfl
  | cons block blocks ih => simp only [List.cons_append, freeAll_cons, Option.bind_assoc, ih]

theorem allocated_cons_iff {memory : Finset α} {block : α} {blocks : List α} :
    Allocated memory (block :: blocks) ↔ block ∈ memory ∧ Allocated (memory.erase block) blocks := by
  constructor
  · rintro ⟨hNodup, hMem⟩
    obtain ⟨hNot, hRest⟩ := List.nodup_cons.mp hNodup
    refine ⟨hMem block List.mem_cons_self, hRest, fun other hOther => ?_⟩
    have hDifferent : other ≠ block := fun hSame => hNot (hSame ▸ hOther)
    exact Finset.mem_erase.mpr ⟨hDifferent, hMem other (List.mem_cons_of_mem block hOther)⟩
  · rintro ⟨hBlock, hRest⟩
    have hNot : block ∉ blocks := fun hIn => Finset.notMem_erase block memory (hRest.mem block hIn)
    refine ⟨List.nodup_cons.mpr ⟨hNot, hRest.nodup⟩, fun other hOther => ?_⟩
    obtain rfl | hOther := List.mem_cons.mp hOther
    · exact hBlock
    · exact Finset.mem_of_mem_erase (hRest.mem other hOther)

/-- The releases are defined for allocated blocks only, and leave the other blocks as they are. -/
theorem freeAll_eq_some_iff {memory left : Finset α} {blocks : List α} :
    freeAll memory blocks = some left ↔ Allocated memory blocks ∧ left = memory \ blocks.toFinset := by
  induction blocks generalizing memory with
  | nil =>
    have hNil : Allocated memory [] := ⟨List.nodup_nil, nofun⟩
    simp [hNil, eq_comm]
  | cons block blocks ih =>
    have hLeft : memory.erase block \ blocks.toFinset = memory \ (block :: blocks).toFinset := by
      ext other
      simp only [Finset.mem_sdiff, Finset.mem_erase, List.mem_toFinset, List.mem_cons]
      tauto
    rw [freeAll_cons, allocated_cons_iff, and_assoc, ← hLeft]
    by_cases hBlock : block ∈ memory
    · rw [free, if_pos hBlock, Option.bind_some, ih]
      exact (and_iff_right hBlock).symm
    · simp [free, hBlock]

theorem Allocated.freeAll {memory : Finset α} {blocks : List α} (h : Allocated memory blocks) :
    freeAll memory blocks = some (memory \ blocks.toFinset) := freeAll_eq_some_iff.mpr ⟨h, rfl⟩

theorem allocated_append_iff {memory : Finset α} {blocks others : List α} :
    Allocated memory (blocks ++ others) ↔
      Allocated memory blocks ∧ Allocated (memory \ blocks.toFinset) others := by
  constructor
  · rintro ⟨hNodup, hMem⟩
    obtain ⟨hBlocks, hOthers, hApart⟩ := List.nodup_append'.mp hNodup
    refine ⟨⟨hBlocks, fun block hBlock => hMem block (List.mem_append_left others hBlock)⟩, hOthers, ?_⟩
    intro other hOther
    have hNot : other ∉ blocks := fun hIn => hApart hIn hOther
    exact Finset.mem_sdiff.mpr ⟨hMem other (List.mem_append_right blocks hOther), by simpa using hNot⟩
  · rintro ⟨hBlocks, hOthers⟩
    refine ⟨List.nodup_append'.mpr ⟨hBlocks.nodup, hOthers.nodup, fun block hBlock hOther => ?_⟩, ?_⟩
    · exact (Finset.mem_sdiff.mp (hOthers.mem block hOther)).2 (List.mem_toFinset.mpr hBlock)
    · intro block hBlock
      obtain hBlock | hBlock := List.mem_append.mp hBlock
      · exact hBlocks.mem block hBlock
      · exact (Finset.mem_sdiff.mp (hOthers.mem block hBlock)).1

omit [DecidableEq α] in
theorem Allocated.of_append_right {memory : Finset α} {blocks others : List α}
    (h : Allocated memory (blocks ++ others)) : Allocated memory others :=
  ⟨(List.nodup_append'.mp h.nodup).2.1, fun block hBlock => h.mem block (List.mem_append_right blocks hBlock)⟩

/-- New blocks beside the allocated ones. -/
theorem Allocated.append_new {memory : Finset α} {blocks new : List α} (h : Allocated memory blocks)
    (hNodup : new.Nodup) (hNew : ∀ block ∈ new, block ∉ memory) :
    Allocated (memory ∪ new.toFinset) (blocks ++ new) := by
  refine ⟨List.nodup_append'.mpr ⟨h.nodup, hNodup, fun block hBlock hIn => ?_⟩, fun block hBlock => ?_⟩
  · exact hNew block hIn (h.mem block hBlock)
  · obtain hBlock | hBlock := List.mem_append.mp hBlock
    · exact Finset.mem_union_left _ (h.mem block hBlock)
    · exact Finset.mem_union_right _ (List.mem_toFinset.mpr hBlock)

section ReleaseEach

variable {β : Type*} (release : β → Finset α → Option (Finset α))

/-- One item after the other, each with its own release. -/
def releaseEach : List β → Finset α → Option (Finset α)
  | [], memory => some memory
  | item :: items, memory => (release item memory).bind (releaseEach items)

variable {release}

theorem releaseEach_eq_freeAll {owned : β → List α}
    (h : ∀ item memory, release item memory = freeAll memory (owned item)) (items : List β) (memory : Finset α) :
    releaseEach release items memory = freeAll memory (items.flatMap owned) := by
  induction items generalizing memory with
  | nil => rfl
  | cons item items ih =>
    rw [releaseEach, h, List.flatMap_cons, freeAll_append]
    exact congrArg _ (funext ih)

end ReleaseEach

end Tr069Agent.Library.Allocation
