import Mathlib.Data.List.Basic
import Mathlib.Data.List.DropRight
import Mathlib.Data.List.Forall2
import Mathlib.Data.List.TakeWhile
import Mathlib.Tactic.Common
import Tr069Agent.Library.Text

/-! # Lines and fields

A file is read in pieces by `fgets`, each up to the end of a line or as long as the buffer, and a
line is made of fields with a separator between each two.
-/

namespace Tr069Agent.Library.Lines

set_option autoImplicit false

section Pieces

/-- What the calls of `fgets` give one after the other: `room` more characters go into the piece that
`piece` begins. -/
def piecesFrom (size : Nat) : Nat → Text → Text → List Text
  | _, piece, [] => if piece = [] then [] else [piece]
  | room, piece, c :: file =>
    if c = '\n' ∨ room ≤ 1 then (piece ++ [c]) :: piecesFrom size (size - 1) [] file
    else piecesFrom size (room - 1) (piece ++ [c]) file

/-- `fgets` with a buffer of `size` characters keeps one of them for the end of the string. -/
def fgets (size : Nat) (file : Text) : List Text := piecesFrom size (size - 1) [] file

/-- The file that holds these lines. -/
def unlines (lines : List Text) : Text := lines.flatMap fun line => line ++ ['\n']

theorem piecesFrom_line {size room : Nat} {piece line : Text} (hLine : '\n' ∉ line)
    (hRoom : line.length < room) (file : Text) :
    piecesFrom size room piece (line ++ '\n' :: file) = (piece ++ line ++ ['\n']) :: fgets size file := by
  induction line generalizing room piece with
  | nil => simp [piecesFrom, fgets]
  | cons c line ih =>
    obtain ⟨hHead, hTail⟩ := List.ne_and_not_mem_of_not_mem_cons hLine
    simp only [List.length_cons] at hRoom
    have hMore : ¬ (c = '\n' ∨ room ≤ 1) := by
      rintro (rfl | hLe)
      · exact hHead rfl
      · omega
    rw [List.cons_append, piecesFrom, if_neg hMore, ih hTail (by omega)]
    simp

theorem exists_piecesFrom_line {size room : Nat} {piece line : Text} (hLine : '\n' ∉ line) (hRoom : line.length ≤ room)
    (hSome : 0 < room) (file : Text) :
    ∃ ending rest, (ending = [] ∨ ending = ['\n']) ∧
      piecesFrom size room piece (line ++ '\n' :: file) = (piece ++ line ++ ending) :: rest := by
  induction line generalizing room piece with
  | nil => exact ⟨['\n'], _, .inr rfl, by rw [List.nil_append, piecesFrom, if_pos (.inl rfl), List.append_nil]⟩
  | cons c line ih =>
    obtain ⟨hHead, hTail⟩ := List.ne_and_not_mem_of_not_mem_cons hLine
    rw [List.length_cons] at hRoom
    rw [List.cons_append, piecesFrom]
    by_cases hLast : room ≤ 1
    · obtain rfl : line = [] := List.length_eq_zero_iff.mp (by omega)
      exact ⟨[], _, .inl rfl, by rw [if_pos (.inr hLast), List.append_nil]⟩
    · have hMore : ¬ (c = '\n' ∨ room ≤ 1) := not_or.mpr ⟨hHead.symm, hLast⟩
      obtain ⟨ending, rest, hEnding, hPieces⟩ := @ih (room - 1) (piece ++ [c]) hTail (by omega) (by omega)
      exact ⟨ending, rest, hEnding, by rw [if_neg hMore, hPieces]; simp⟩

theorem fgets_unlines {size : Nat} {lines : List Text}
    (hFits : ∀ line ∈ lines, line.length + 1 < size ∧ '\n' ∉ line) :
    fgets size (unlines lines) = lines.map fun line => line ++ ['\n'] := by
  induction lines with
  | nil => simp [fgets, unlines, piecesFrom]
  | cons line lines ih =>
    obtain ⟨hLength, hLine⟩ := hFits line List.mem_cons_self
    have hRest := ih fun other hMem => hFits other (List.mem_cons_of_mem line hMem)
    have hFile : unlines (line :: lines) = line ++ '\n' :: unlines lines := by simp [unlines]
    rw [hFile, fgets, piecesFrom_line hLine (by omega), hRest]
    simp

theorem takeWhile_concat_of_neg {α : Type} {p : α → Bool} {last : α} (h : p last = false)
    (items : List α) : (items ++ [last]).takeWhile p = items.takeWhile p := by
  induction items with
  | nil => simp [h]
  | cons item items ih => rw [List.cons_append, List.takeWhile_cons, List.takeWhile_cons, ih]

theorem rdropWhile_line {p : Char → Bool} {line : Text} (hNewline : p '\n' = true)
    (hLine : ∀ c ∈ line.getLast?, p c = false) : (line ++ ['\n']).rdropWhile p = line := by
  rw [List.rdropWhile_concat_pos _ _ _ hNewline]
  rcases List.eq_nil_or_concat line with rfl | ⟨body, c, rfl⟩
  · simp
  · rw [List.concat_eq_append, List.rdropWhile_concat_neg]
    simpa using hLine c (by simp)

theorem newline_notMem_of_mem_piecesFrom {p : Char → Bool} (hNewline : p '\n' = true) {size room : Nat}
    {begun file piece : Text} (hBegun : '\n' ∉ begun) (hMem : piece ∈ piecesFrom size room begun file) :
    '\n' ∉ piece.rdropWhile p := by
  induction file generalizing room begun with
  | nil =>
    rw [piecesFrom] at hMem
    split at hMem
    · cases hMem
    · rw [List.mem_singleton.mp hMem]
      exact fun hIn => hBegun ((List.rdropWhile_prefix p begun).subset hIn)
  | cons c file ih =>
    have hMore (hC : c ≠ '\n') : '\n' ∉ begun ++ [c] := by
      simp only [List.mem_append, List.mem_singleton, not_or]
      exact ⟨hBegun, hC.symm⟩
    have hPiece : '\n' ∉ (begun ++ [c]).rdropWhile p := by
      rcases eq_or_ne c '\n' with rfl | hC
      · rw [List.rdropWhile_concat_pos _ _ _ hNewline]
        exact fun hIn => hBegun ((List.rdropWhile_prefix p begun).subset hIn)
      · exact fun hIn => hMore hC ((List.rdropWhile_prefix p _).subset hIn)
    rw [piecesFrom] at hMem
    split at hMem
    · rcases List.mem_cons.mp hMem with rfl | hRest
      · exact hPiece
      · exact ih (by simp) hRest
    · rename_i hOpen
      exact ih (hMore fun hC => hOpen (.inl hC)) hMem

theorem unlines_cons (line : Text) (lines : List Text) : unlines (line :: lines) = line ++ '\n' :: unlines lines := by
  simp [unlines]

theorem unlines_append (lines more : List Text) : unlines (lines ++ more) = unlines lines ++ unlines more :=
  List.flatMap_append

theorem unlines_concat (lines : List Text) (line : Text) :
    unlines (lines ++ [line]) = unlines lines ++ line ++ ['\n'] := by
  simp [unlines]

/-- Behind lines that fit the buffer, the pieces are those of the rest of the file. -/
theorem fgets_unlines_append {size : Nat} {lines : List Text}
    (hFits : ∀ line ∈ lines, line.length + 1 < size ∧ '\n' ∉ line) (rest : Text) :
    fgets size (unlines lines ++ rest) = (lines.map fun line => line ++ ['\n']) ++ fgets size rest := by
  induction lines with
  | nil => rfl
  | cons line lines ih =>
    obtain ⟨hLength, hLine⟩ := hFits line List.mem_cons_self
    have hRest := ih fun other hMem => hFits other (List.mem_cons_of_mem line hMem)
    rw [unlines_cons, List.append_assoc, List.cons_append, fgets, piecesFrom_line hLine (by omega), hRest]
    rfl

/-- A line whose end is missing is one piece. -/
theorem fgets_part {size : Nat} {part : Text} (hLength : part.length + 1 < size) (hLine : '\n' ∉ part)
    (hSome : part ≠ []) : fgets size part = [part] := by
  have hPieces : ∀ {rest begun : Text} {room : Nat}, '\n' ∉ rest → rest.length < room → begun ++ rest ≠ [] →
      piecesFrom size room begun rest = [begun ++ rest] := by
    intro rest
    induction rest with
    | nil =>
      intro begun room _ _ hBegun
      rw [List.append_nil] at hBegun ⊢
      rw [piecesFrom, if_neg hBegun]
    | cons c rest ih =>
      intro begun room hRest hRoom _
      obtain ⟨hHead, hTail⟩ := List.ne_and_not_mem_of_not_mem_cons hRest
      rw [List.length_cons] at hRoom
      have hMore : ¬ (c = '\n' ∨ room ≤ 1) := not_or.mpr ⟨hHead.symm, by omega⟩
      rw [piecesFrom, if_neg hMore, ih hTail (by omega) (by simp), List.append_assoc, List.singleton_append]
  exact hPieces hLine (by omega) hSome

/-- The beginnings of a file of lines: whole lines, and the beginning of the next one. -/
theorem prefix_unlines_cases {lines : List Text} {cut : Text} (h : cut <+: unlines lines) :
    cut = unlines lines ∨
      ∃ front line back part, lines = front ++ line :: back ∧ part <+: line ∧ cut = unlines front ++ part := by
  induction lines generalizing cut with
  | nil => exact .inl (List.prefix_nil.mp h)
  | cons line lines ih =>
    have hFile : unlines (line :: lines) = (line ++ ['\n']) ++ unlines lines := by simp [unlines]
    rw [hFile] at h ⊢
    rcases List.prefix_or_prefix_of_prefix h (List.prefix_append _ _) with hPart | ⟨rest, rfl⟩
    · rcases List.prefix_concat_iff.mp hPart with rfl | hPart
      · cases lines with
        | nil => exact .inl (by simp [unlines])
        | cons other lines =>
          exact .inr ⟨[line], other, lines, [], rfl, List.nil_prefix, by simp [unlines]⟩
      · exact .inr ⟨[], line, lines, cut, rfl, hPart, rfl⟩
    · rcases ih ((List.prefix_append_right_inj _).mp h) with rfl | ⟨front, other, back, part, rfl, hPart, rfl⟩
      · exact .inl rfl
      · exact .inr ⟨line :: front, other, back, part, rfl, hPart, by simp [unlines]⟩

end Pieces

section Fields

variable {sep : Char}

/-- The fields with a separator between each two. -/
def join (sep : Char) (fields : List Text) : Text := [sep].intercalate fields

theorem join_singleton (field : Text) : join sep [field] = field := by simp [join]

theorem join_cons {fields : List Text} (h : fields ≠ []) (field : Text) :
    join sep (field :: fields) = field ++ sep :: join sep fields := by
  rw [join, List.intercalate_cons_of_ne_nil h]
  simp [join]

theorem splitOn_join {fields : List Text} (hFields : ∀ field ∈ fields, sep ∉ field)
    (hSome : fields ≠ []) : (join sep fields).splitOn sep = fields :=
  List.splitOn_intercalate sep hFields hSome

theorem join_concat {fields : List Text} (h : fields ≠ []) (last : Text) :
    join sep (fields ++ [last]) = join sep fields ++ sep :: last := by
  induction fields with
  | nil => exact absurd rfl h
  | cons field fields ih =>
    cases fields with
    | nil => simp [join_cons, join_singleton]
    | cons other fields =>
      have hMore : other :: fields ++ [last] ≠ [] := List.cons_ne_nil _ _
      have hSome : other :: fields ≠ [] := List.cons_ne_nil _ _
      rw [List.cons_append, join_cons hMore, ih hSome, join_cons hSome]
      simp

theorem join_append {front back : List Text} (hFront : front ≠ []) (hBack : back ≠ []) :
    join sep (front ++ back) = join sep front ++ sep :: join sep back := by
  induction front with
  | nil => exact absurd rfl hFront
  | cons field front ih =>
    cases front with
    | nil => rw [List.singleton_append, join_cons hBack, join_singleton]
    | cons other front =>
      have hMore : other :: front ≠ [] := List.cons_ne_nil other front
      rw [List.cons_append, join_cons (by simp), ih hMore, join_cons hMore]
      simp

theorem mem_join {fields : List Text} {c : Char} (h : c ∈ join sep fields) :
    c = sep ∨ ∃ field ∈ fields, c ∈ field := by
  induction fields with
  | nil => simp [join] at h
  | cons field fields ih =>
    cases fields with
    | nil => exact .inr ⟨field, by simp, by simpa [join_singleton] using h⟩
    | cons other fields =>
      rw [join_cons (by simp), List.mem_append, List.mem_cons] at h
      rcases h with hHere | rfl | hLater
      · exact .inr ⟨field, by simp, hHere⟩
      · exact .inl rfl
      · rcases ih hLater with rfl | ⟨later, hMem, hIn⟩
        · exact .inl rfl
        · exact .inr ⟨later, List.mem_cons_of_mem field hMem, hIn⟩

theorem mem_splitOn {text field : Text} (h : field ∈ text.splitOn sep) : sep ∉ field ∧ field ⊆ text := by
  induction text generalizing field with
  | nil =>
    obtain rfl : field = [] := by simpa using h
    simp
  | cons c text ih =>
    rw [List.splitOn_cons_eq_if_modifyHead] at h
    split at h
    · rcases List.mem_cons.mp h with rfl | hRest
      · simp
      · exact ⟨(ih hRest).1, fun d hD => List.mem_cons_of_mem c ((ih hRest).2 hD)⟩
    · rename_i hSep
      obtain ⟨first, rest, hSplit⟩ := List.exists_cons_of_ne_nil (List.splitOn_ne_nil sep text)
      rw [hSplit, List.modifyHead_cons] at h
      rw [hSplit] at ih
      rcases List.mem_cons.mp h with rfl | hRest
      · obtain ⟨hFree, hSub⟩ := ih List.mem_cons_self
        refine ⟨?_, List.cons_subset_cons c hSub⟩
        simp only [List.mem_cons, not_or]
        exact ⟨fun hC => hSep (by simp [hC]), hFree⟩
      · obtain ⟨hFree, hSub⟩ := ih (List.mem_cons_of_mem first hRest)
        exact ⟨hFree, fun d hD => List.mem_cons_of_mem c (hSub hD)⟩

theorem splitOn_append_cons (left right : Text) :
    (left ++ sep :: right).splitOn sep = left.splitOn sep ++ right.splitOn sep := by
  induction left with
  | nil => simp [List.splitOn_cons_eq_if_modifyHead]
  | cons c left ih =>
    rw [List.cons_append, List.splitOn_cons_eq_if_modifyHead, ih, List.splitOn_cons_eq_if_modifyHead]
    obtain ⟨first, rest, hSplit⟩ := List.exists_cons_of_ne_nil (List.splitOn_ne_nil sep left)
    rw [hSplit]
    split <;> rfl

theorem append_flatMap_sep (field : Text) (fields : List Text) :
    field ++ fields.flatMap (fun other => sep :: other) = join sep (field :: fields) := by
  induction fields generalizing field with
  | nil => simp [join_singleton]
  | cons other fields ih =>
    rw [join_cons (List.cons_ne_nil other fields), ← ih other]
    simp

theorem length_le_length_join (fields : List Text) :
    fields.length ≤ (join sep fields).length + 1 := by
  induction fields with
  | nil => simp
  | cons field fields ih =>
    cases fields with
    | nil => simp
    | cons other fields =>
      rw [join_cons (List.cons_ne_nil other fields)]
      simp only [List.length_cons, List.length_append] at ih ⊢
      omega

/-- The text before the first character that `stop` accepts, and the text behind this one. -/
def cut (stop : Char → Bool) (text : Text) : Text × Text :=
  (text.takeWhile fun c => !stop c, (text.dropWhile fun c => !stop c).tail)

variable {stop : Char → Bool}

theorem not_stop_of_mem_cut {text : Text} {c : Char} (h : c ∈ (cut stop text).1) : stop c = false := by
  simpa using List.mem_takeWhile_imp h

theorem cut_append {field : Text} (hField : ∀ c ∈ field, stop c = false) {c : Char}
    (hStop : stop c = true) (rest : Text) : cut stop (field ++ c :: rest) = (field, rest) := by
  have hKeep : ∀ d ∈ field, (!stop d) = true := fun d hMem => by simp [hField d hMem]
  simp [cut, List.takeWhile_append_of_pos hKeep, List.dropWhile_append_of_pos hKeep, hStop]

/-- What stands behind a character that ends the text does not change it. -/
theorem fst_cut_append {c : Char} (hStop : stop c = true) (text rest : Text) :
    (cut stop (text ++ c :: rest)).1 = (cut stop text).1 := by
  induction text with
  | nil => simp [cut, hStop]
  | cons d text ih =>
    simp only [cut, List.cons_append, List.takeWhile_cons] at ih ⊢
    rw [ih]

theorem cut_last {field : Text} (hField : ∀ c ∈ field, stop c = false) :
    cut stop field = (field, []) := by
  have hKeep : ∀ d ∈ field, (!stop d) = true := fun d hMem => by simp [hField d hMem]
  simp [cut, List.takeWhile_eq_self_iff.mpr hKeep, List.dropWhile_eq_nil_iff.mpr hKeep]

section Stops

variable {c : Char} {text : Text}

theorem decide_ne_of_notMem (h : c ∉ text) : ∀ d ∈ text, decide (d ≠ c) = true := by
  intro d hMem
  simp only [decide_eq_true_eq]
  rintro rfl
  exact h hMem

theorem takeWhile_ne (h : c ∉ text) : text.takeWhile (· ≠ c) = text :=
  List.takeWhile_eq_self_iff.mpr (decide_ne_of_notMem h)

theorem dropWhile_ne (h : c ∉ text) : text.dropWhile (· ≠ c) = [] :=
  List.dropWhile_eq_nil_iff.mpr (decide_ne_of_notMem h)

theorem takeWhile_ne_append (h : c ∉ text) (rest : Text) : (text ++ c :: rest).takeWhile (· ≠ c) = text := by
  rw [List.takeWhile_append_of_pos (decide_ne_of_notMem h)]
  simp

theorem dropWhile_ne_append (h : c ∉ text) (rest : Text) : (text ++ c :: rest).dropWhile (· ≠ c) = c :: rest := by
  rw [List.dropWhile_append_of_pos (decide_ne_of_notMem h)]
  simp

end Stops

theorem mapM_eq_some_iff {α β : Type} {f : α → Option β} {items : List α} {values : List β} :
    items.mapM f = some values ↔ List.Forall₂ (fun item value => f item = some value) items values := by
  induction items generalizing values with
  | nil => cases values <;> simp
  | cons item items ih =>
    cases values with
    | nil => simp [Option.bind_eq_some_iff]
    | cons value values => simp [List.mapM_cons, Option.bind_eq_some_iff, ih, and_comm]

theorem mapM_eq_none_iff {α β : Type} {f : α → Option β} {items : List α} :
    items.mapM f = none ↔ ∃ item ∈ items, f item = none := by
  induction items with
  | nil => simp
  | cons item items ih =>
    rw [List.mapM_cons, List.exists_mem_cons_iff, ← ih]
    cases f item with
    | none => simp
    | some value => cases items.mapM f <;> simp

theorem exists_of_mem_mapM {α β : Type} {f : α → Option β} {items : List α} {values : List β}
    (h : items.mapM f = some values) {value : β} (hMem : value ∈ values) :
    ∃ item ∈ items, f item = some value := by
  have hEach := mapM_eq_some_iff.mp h
  clear h
  induction hEach with
  | nil => cases hMem
  | cons hHead _ ih =>
    rcases List.mem_cons.mp hMem with rfl | hRest
    · exact ⟨_, List.mem_cons_self, hHead⟩
    · obtain ⟨item, hItem, hValue⟩ := ih hRest
      exact ⟨item, List.mem_cons_of_mem _ hItem, hValue⟩

end Fields

end Tr069Agent.Library.Lines
