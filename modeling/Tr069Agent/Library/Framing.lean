import Mathlib.Data.List.Infix

/-! # Collecting a message that arrives in pieces

A collector keeps one buffer. A piece that opens a message replaces the buffer, any other piece
extends a buffer that was opened before, and a piece that closes a message empties the buffer and
hands its content over. Whether a piece opens or closes is a test on that piece alone.
-/

namespace Tr069Agent.Library.Framing

set_option autoImplicit false

variable {α : Type*}

/-- The buffer after a piece, before the closing test. -/
def keep (opens : List α → Bool) (buffer : Option (List α)) (piece : List α) : Option (List α) :=
  if opens piece then some piece else buffer.map (· ++ piece)

/-- One piece: the buffer left behind and the message handed over. -/
def collect (opens closes : List α → Bool) (buffer : Option (List α)) (piece : List α) :
    Option (List α) × Option (List α) :=
  match keep opens buffer piece with
  | none => (none, none)
  | some message => if closes piece then (none, some message) else (some message, none)

def collectAll (opens closes : List α → Bool) :
    Option (List α) → List (List α) → List (Option (List α))
  | _, [] => []
  | buffer, piece :: pieces =>
    let result := collect opens closes buffer piece
    result.2 :: collectAll opens closes result.1 pieces

def keepAll (opens : List α → Bool) (buffer : Option (List α)) (pieces : List (List α)) :
    Option (List α) :=
  pieces.foldl (keep opens) buffer

/-- Nothing is handed over before the last step, which hands over `message`. -/
def HandsOverLast {β : Type*} (message : β) (outputs : List (Option β)) : Prop :=
  outputs = List.replicate (outputs.length - 1) none ++ [some message]

instance {β : Type*} [DecidableEq β] (message : β) (outputs : List (Option β)) :
    Decidable (HandsOverLast message outputs) :=
  inferInstanceAs (Decidable (outputs = _))

theorem handsOverLast_singleton {β : Type*} (message : β) (output : Option β) :
    HandsOverLast message [output] ↔ output = some message := by
  simp [HandsOverLast]

theorem handsOverLast_cons {β : Type*} (message : β) (output next : Option β)
    (outputs : List (Option β)) :
    HandsOverLast message (output :: next :: outputs) ↔
      output = none ∧ HandsOverLast message (next :: outputs) := by
  simp [HandsOverLast, List.replicate_succ]

theorem not_handsOverLast_nil {β : Type*} (message : β) : ¬ HandsOverLast message [] := by
  simp [HandsOverLast]

theorem not_handsOverLast_of_silent {β : Type*} (message : β) {outputs : List (Option β)}
    (h : ∀ output ∈ outputs, output = none) : ¬ HandsOverLast message outputs := by
  intro hLast
  have hMem : some message ∈ outputs := by
    rw [hLast]
    simp
  exact absurd (h _ hMem) (by simp)

/-- Silent steps in front do not matter. -/
theorem handsOverLast_replicate_append {β : Type*} (message : β) (n : Nat)
    (outputs : List (Option β)) (h : outputs ≠ []) :
    HandsOverLast message (List.replicate n none ++ outputs) ↔ HandsOverLast message outputs := by
  obtain ⟨output, outputs, rfl⟩ := List.exists_cons_of_ne_nil h
  induction n with
  | zero => simp
  | succ n ih =>
    cases n with
    | zero => simp [handsOverLast_cons]
    | succ n =>
      rw [← ih]
      simp [List.replicate_succ, handsOverLast_cons]

theorem keepAll_cons (opens : List α → Bool) (buffer : Option (List α)) (piece : List α)
    (pieces : List (List α)) :
    keepAll opens buffer (piece :: pieces) = keepAll opens (keep opens buffer piece) pieces := rfl

theorem keepAll_of_not_opens {opens : List α → Bool} {pieces : List (List α)}
    (h : ∀ piece ∈ pieces, opens piece = false) (buffer : Option (List α)) :
    keepAll opens buffer pieces = buffer.map (· ++ pieces.flatten) := by
  induction pieces generalizing buffer with
  | nil => simp [keepAll]
  | cons piece pieces ih =>
    rw [List.forall_mem_cons] at h
    rw [keepAll_cons, ih h.2]
    simp [keep, h.1, Function.comp_def]

theorem length_keepAll_le {opens : List α → Bool} {pieces : List (List α)}
    (h : ∃ piece ∈ pieces, opens piece = true) {buffer : Option (List α)} {message : List α}
    (hKept : keepAll opens buffer pieces = some message) :
    message.length ≤ pieces.flatten.length := by
  induction pieces generalizing buffer with
  | nil => simp at h
  | cons piece pieces ih =>
    rw [keepAll_cons] at hKept
    by_cases hLater : ∃ piece ∈ pieces, opens piece = true
    · have := ih hLater hKept
      simp only [List.flatten_cons, List.length_append]
      omega
    · have hNone : ∀ piece ∈ pieces, opens piece = false := by simpa using hLater
      have hFirst : opens piece = true := by
        obtain ⟨opening, hMem, hOpens⟩ := h
        rcases List.mem_cons.mp hMem with rfl | hMem
        · exact hOpens
        · exact absurd ⟨opening, hMem, hOpens⟩ hLater
      rw [keepAll_of_not_opens hNone, keep, if_pos hFirst] at hKept
      obtain rfl : piece ++ pieces.flatten = message := by simpa using hKept
      simp

/-- The kept text is everything that came, with `front` before it, in two cases only: the first
piece opened the message and `front` is empty, or `front` was the buffer and no piece opened. -/
theorem keepAll_eq_append_flatten_iff (opens : List α → Bool) {buffer : Option (List α)}
    (hBuffer : buffer ≠ some []) (front : List α) {first : List α} (rest : List (List α))
    (hFirst : first ≠ []) :
    keepAll opens buffer (first :: rest) = some (front ++ (first :: rest).flatten) ↔
      (front = [] ∧ opens first = true ∧ ∀ piece ∈ rest, opens piece = false) ∨
      (buffer = some front ∧ ∀ piece ∈ first :: rest, opens piece = false) := by
  have hPos : 0 < first.length := List.length_pos_iff.mpr hFirst
  constructor
  · intro hKept
    by_cases hRest : ∃ piece ∈ rest, opens piece = true
    · rw [keepAll_cons] at hKept
      have := length_keepAll_le hRest hKept
      simp only [List.flatten_cons, List.length_append] at this
      omega
    · have hRest' : ∀ piece ∈ rest, opens piece = false := by simpa using hRest
      cases hOpens : opens first with
      | true =>
        have := length_keepAll_le ⟨first, List.mem_cons_self, hOpens⟩ hKept
        simp only [List.length_append] at this
        exact .inl ⟨List.length_eq_zero_iff.mp (by omega), rfl, hRest'⟩
      | false =>
        have hAll : ∀ piece ∈ first :: rest, opens piece = false :=
          List.forall_mem_cons.mpr ⟨hOpens, hRest'⟩
        rw [keepAll_of_not_opens hAll] at hKept
        obtain ⟨text, hText, hEq⟩ := Option.map_eq_some_iff.mp hKept
        exact .inr ⟨by rw [hText, List.append_cancel_right hEq], hAll⟩
  · rintro (⟨rfl, hOpens, hRest⟩ | ⟨rfl, hAll⟩)
    · rw [keepAll_cons, keepAll_of_not_opens hRest, keep, if_pos hOpens]
      simp
    · rw [keepAll_of_not_opens hAll]
      simp

theorem keep_isSome {opens : List α → Bool} {buffer : Option (List α)} {piece : List α}
    (h : buffer.isSome ∨ opens piece = true) : ∃ text, keep opens buffer piece = some text := by
  unfold keep
  by_cases hOpens : opens piece = true
  · exact ⟨piece, by simp [hOpens]⟩
  · obtain ⟨text, rfl⟩ := Option.isSome_iff_exists.mp (h.resolve_right hOpens)
    exact ⟨text ++ piece, by simp [hOpens]⟩

theorem keepAll_of_handsOverLast {opens closes : List α → Bool} {message : List α}
    {pieces : List (List α)} {buffer : Option (List α)}
    (h : HandsOverLast message (collectAll opens closes buffer pieces)) :
    keepAll opens buffer pieces = some message := by
  induction pieces generalizing buffer with
  | nil => exact absurd h (not_handsOverLast_nil message)
  | cons piece pieces ih =>
    cases pieces with
    | nil =>
      simp only [collectAll, collect, handsOverLast_singleton] at h
      rw [keepAll_cons]
      cases hKeep : keep opens buffer piece with
      | none => simp [hKeep] at h
      | some text =>
        by_cases hCloses : closes piece = true <;> simp_all [keepAll]
    | cons next pieces =>
      obtain ⟨hSilent, hRest⟩ := (handsOverLast_cons message _ _ _).mp h
      rw [keepAll_cons, ← ih hRest]
      congr 1
      unfold collect at hSilent ⊢
      cases hKeep : keep opens buffer piece with
      | none => rfl
      | some text =>
        by_cases hCloses : closes piece = true
        · simp [hKeep, hCloses] at hSilent
        · simp [hCloses]

/-- A buffer that is kept from the first piece on closes exactly at the first closing piece. -/
theorem handsOverLast_collectAll_iff (opens closes : List α → Bool) (buffer : Option (List α))
    (message first : List α) (rest : List (List α)) (hKept : buffer.isSome ∨ opens first = true) :
    HandsOverLast message (collectAll opens closes buffer (first :: rest)) ↔
      keepAll opens buffer (first :: rest) = some message ∧
      closes ((first :: rest).getLast (by simp)) = true ∧
      ∀ piece ∈ (first :: rest).dropLast, closes piece = false := by
  induction rest generalizing buffer first with
  | nil =>
    obtain ⟨text, hText⟩ := keep_isSome hKept
    simp only [collectAll, collect, hText, handsOverLast_singleton, keepAll, List.foldl_cons,
      List.foldl_nil, List.getLast_singleton, List.dropLast_singleton]
    by_cases hCloses : closes first = true <;> simp [hCloses]
  | cons second rest ih =>
    obtain ⟨text, hText⟩ := keep_isSome hKept
    rw [keepAll_cons, hText]
    have hNext := ih (some text) second (.inl rfl)
    by_cases hCloses : closes first = true
    · simp [collectAll, collect, hText, hCloses, handsOverLast_cons]
    · simp only [collectAll, collect, hText, hCloses, Bool.false_eq_true, if_false] at hNext ⊢
      rw [handsOverLast_cons, hNext]
      simp [hCloses]

/-- When the last piece, and no earlier one, hands over `front` and all the pieces. -/
theorem delivers_iff (opens closes : List α → Bool) {buffer : Option (List α)}
    (hBuffer : buffer ≠ some []) {front first : List α} {rest : List (List α)}
    (hFirst : first ≠ []) :
    HandsOverLast (front ++ (first :: rest).flatten)
        (collectAll opens closes buffer (first :: rest)) ↔
      ((front = [] ∧ opens first = true ∧ ∀ piece ∈ rest, opens piece = false) ∨
        (buffer = some front ∧ ∀ piece ∈ first :: rest, opens piece = false)) ∧
      closes ((first :: rest).getLast (by simp)) = true ∧
      ∀ piece ∈ (first :: rest).dropLast, closes piece = false := by
  have hShape := keepAll_eq_append_flatten_iff opens hBuffer front rest hFirst
  have hStarted : keepAll opens buffer (first :: rest) = some (front ++ (first :: rest).flatten) →
      buffer.isSome ∨ opens first = true := by
    intro hKept
    rcases hShape.mp hKept with ⟨-, hOpens, -⟩ | ⟨rfl, -⟩
    · exact .inr hOpens
    · exact .inl rfl
  constructor
  · intro h
    have hKept := keepAll_of_handsOverLast h
    exact ⟨hShape.mp hKept,
      ((handsOverLast_collectAll_iff opens closes buffer _ _ _ (hStarted hKept)).mp h).2⟩
  · rintro ⟨hCase, hCloses⟩
    have hKept := hShape.mpr hCase
    exact (handsOverLast_collectAll_iff opens closes buffer _ _ _ (hStarted hKept)).mpr ⟨hKept, hCloses⟩

end Tr069Agent.Library.Framing
