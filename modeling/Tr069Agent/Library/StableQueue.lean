import Mathlib.Data.List.MinMax

/-! # Queues ordered by a key

A new element is put behind those whose key is not greater. So the elements are in the order of their keys,
and those of one key in the order in which they came: the first one is the earliest of the smallest key.
-/

namespace Tr069Agent.Library.StableQueue

set_option autoImplicit false

variable {α κ : Type*} [LinearOrder κ] (key : α → κ)

def insert (a : α) (queue : List α) : List α :=
  queue.takeWhile (key · ≤ key a) ++ a :: queue.dropWhile (key · ≤ key a)

/-- The queue of elements that come one after the other. -/
def ofArrivals (arrivals : List α) : List α := arrivals.foldl (fun queue a => insert key a queue) []

variable {key} in
theorem mem_insert {a b : α} {queue : List α} : b ∈ insert key a queue ↔ b = a ∨ b ∈ queue := by
  have hSplit := List.takeWhile_append_dropWhile (p := (key · ≤ key a)) (l := queue)
  conv_rhs => rw [← hSplit]
  simp only [insert, List.mem_append, List.mem_cons]
  tauto

theorem ofArrivals_concat (arrivals : List α) (a : α) :
    ofArrivals key (arrivals ++ [a]) = insert key a (ofArrivals key arrivals) := by
  simp [ofArrivals]

theorem insert_cons_of_le {a first : α} (h : key first ≤ key a) (queue : List α) :
    insert key a (first :: queue) = first :: insert key a queue := by
  simp [insert, h]

theorem insert_cons_of_lt {a first : α} (h : key a < key first) (queue : List α) :
    insert key a (first :: queue) = a :: first :: queue := by
  simp [insert, h.not_ge]

/-- The first element is the one of the smallest key that came first. -/
theorem head?_ofArrivals (arrivals : List α) : (ofArrivals key arrivals).head? = arrivals.argmin key := by
  induction arrivals using List.reverseRecOn with
  | nil => rfl
  | append_singleton arrivals a ih =>
    rw [ofArrivals_concat, List.argmin_concat, ← ih]
    cases ofArrivals key arrivals with
    | nil => simp [insert]
    | cons first queue =>
      rcases le_or_gt (key first) (key a) with hLe | hLt
      · simp [insert_cons_of_le key hLe, hLe.not_gt]
      · simp [insert_cons_of_lt key hLt, hLt]

/-- An element that comes before all others is the first one where no other one has a smaller key. -/
theorem head?_ofArrivals_cons (a : α) (arrivals : List α) :
    (ofArrivals key (a :: arrivals)).head? = match (ofArrivals key arrivals).head? with
      | none => some a
      | some first => if key first < key a then some first else some a := by
  rw [head?_ofArrivals, head?_ofArrivals, List.argmin_cons]
  cases arrivals.argmin key <;> rfl

theorem mem_of_head?_ofArrivals {arrivals : List α} {m : α} (h : (ofArrivals key arrivals).head? = some m) :
    m ∈ arrivals :=
  List.argmin_mem ((head?_ofArrivals key arrivals).symm.trans h)

theorem tail_ofArrivals [DecidableEq α] {arrivals : List α} {m : α} (h : (ofArrivals key arrivals).head? = some m) :
    (ofArrivals key arrivals).tail = ofArrivals key (arrivals.erase m) := by
  rw [head?_ofArrivals] at h
  induction arrivals using List.reverseRecOn generalizing m with
  | nil => simp at h
  | append_singleton arrivals a ih =>
    have hHead := head?_ofArrivals key arrivals
    rw [List.argmin_concat] at h
    rw [ofArrivals_concat]
    cases hMin : arrivals.argmin key with
    | none =>
      obtain rfl : arrivals = [] := List.argmin_eq_none.mp hMin
      obtain rfl : a = m := by simpa using h
      simp [ofArrivals, insert]
    | some first =>
      rw [hMin] at h hHead
      obtain ⟨queue, hQueue⟩ : ∃ queue, ofArrivals key arrivals = first :: queue :=
        List.head?_eq_some_iff.mp hHead
      rcases le_or_gt (key first) (key a) with hLe | hLt
      · obtain rfl : first = m := by simpa [hLe.not_gt] using h
        have hMem : first ∈ arrivals := List.argmin_mem hMin
        have hRest := ih hMin
        rw [hQueue, List.tail_cons] at hRest
        rw [hQueue, insert_cons_of_le key hLe, List.tail_cons, List.erase_append_left _ hMem, ofArrivals_concat,
          hRest]
      · obtain rfl : a = m := by simpa [hLt] using h
        have hNew : a ∉ arrivals := fun hMem => List.not_lt_of_mem_argmin hMem hMin hLt
        rw [hQueue, insert_cons_of_lt key hLt, List.tail_cons, List.erase_append_right _ hNew, ← hQueue]
        simp

end Tr069Agent.Library.StableQueue
