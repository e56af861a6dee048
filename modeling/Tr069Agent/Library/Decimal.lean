import Mathlib.Data.List.Basic
import Mathlib.Data.List.TakeWhile
import Mathlib.Tactic.Common
import Tr069Agent.Library.Text

/-! # Numbers in texts

Printing of integers in base ten, and the reading of `strtol`, which passes leading blanks, takes a
sign and the digits that follow, and also tells where it stopped.
-/

namespace Tr069Agent.Library.Decimal

set_option autoImplicit false

def showInt : Int → Text
  | .ofNat n => Nat.toDigits 10 n
  | .negSucc n => '-' :: Nat.toDigits 10 (n + 1)

def isspace (c : Char) : Bool := c = ' ' || ('\t' ≤ c && c ≤ '\r')

/-- The sign of a number and the text behind it. -/
def sign : Text → Int × Text
  | '-' :: text => (-1, text)
  | '+' :: text => (1, text)
  | text => (1, text)

def strtol (text : Text) : Int × Text :=
  let (factor, body) := sign (text.dropWhile isspace)
  match body.takeWhile Char.isDigit with
  | [] => (0, text)
  | digits => (factor * Nat.ofDigitChars 10 digits 0, body.dropWhile Char.isDigit)

def atol (text : Text) : Int := (strtol text).1

theorem digit_not_blank {c : Char} (h : c.isDigit = true) : isspace c = false := by
  have hLow : '0' ≤ c := by
    simp only [Char.isDigit, Bool.and_eq_true, decide_eq_true_eq] at h
    exact h.1
  have hBlank : c ≠ ' ' := by
    rintro rfl
    exact absurd hLow (by decide)
  have hControl : ¬ c ≤ '\r' := fun hLe => absurd (Char.le_trans hLow hLe) (by decide)
  simp [isspace, hBlank, hControl]

theorem isDigit_of_mem_toDigits {n : Nat} {c : Char} (h : c ∈ Nat.toDigits 10 n) :
    c.isDigit = true :=
  Nat.isDigit_of_mem_toDigits (by decide) (by decide) h

theorem exists_toDigits_cons (n : Nat) :
    ∃ c rest, Nat.toDigits 10 n = c :: rest ∧ c.isDigit = true := by
  cases hDigits : Nat.toDigits 10 n with
  | nil => exact absurd hDigits Nat.toDigits_ne_nil
  | cons c rest => exact ⟨c, rest, rfl, isDigit_of_mem_toDigits (hDigits ▸ List.mem_cons_self)⟩

theorem showInt_ne_nil (n : Int) : showInt n ≠ [] := by
  cases n with
  | ofNat n => exact Nat.toDigits_ne_nil
  | negSucc n => exact List.cons_ne_nil _ _

theorem mem_showInt {n : Int} {c : Char} (h : c ∈ showInt n) : c.isDigit = true ∨ c = '-' := by
  cases n with
  | ofNat n => exact .inl (isDigit_of_mem_toDigits h)
  | negSucc n =>
    rcases List.mem_cons.mp h with rfl | hDigit
    · exact .inr rfl
    · exact .inl (isDigit_of_mem_toDigits hDigit)

theorem not_mem_showInt {c : Char} (hDigit : c.isDigit = false) (hSign : c ≠ '-') (n : Int) :
    c ∉ showInt n := by
  intro hMem
  rcases mem_showInt hMem with h | h
  · rw [hDigit] at h
    cases h
  · exact hSign h

theorem sign_of_digit {c : Char} {text : Text} (h : c.isDigit = true) :
    sign (c :: text) = (1, c :: text) := by
  unfold sign
  split <;> simp_all

theorem takeWhile_digits_append (n : Nat) {rest : Text} (hRest : ∀ c ∈ rest.head?, c.isDigit = false) :
    (Nat.toDigits 10 n ++ rest).takeWhile Char.isDigit = Nat.toDigits 10 n := by
  rw [List.takeWhile_append_of_pos fun c => isDigit_of_mem_toDigits]
  cases rest with
  | nil => simp
  | cons c rest => simp [hRest c rfl]

theorem dropWhile_digits_append (n : Nat) {rest : Text} (hRest : ∀ c ∈ rest.head?, c.isDigit = false) :
    (Nat.toDigits 10 n ++ rest).dropWhile Char.isDigit = rest := by
  rw [List.dropWhile_append_of_pos fun c => isDigit_of_mem_toDigits]
  cases rest with
  | nil => simp
  | cons c rest => simp [hRest c rfl]

theorem strtol_showInt_append (n : Int) {rest : Text} (hRest : ∀ c ∈ rest.head?, c.isDigit = false) :
    strtol (showInt n ++ rest) = (n, rest) := by
  cases n with
  | ofNat n =>
    obtain ⟨c, digits, hDigits, hDigit⟩ := exists_toDigits_cons n
    have hTake := takeWhile_digits_append n hRest
    have hDrop := dropWhile_digits_append n hRest
    have hValue := Nat.ofDigitChars_ten_toDigits (n := n)
    rw [hDigits] at hTake hDrop hValue
    simp only [strtol, showInt, hDigits, List.cons_append,
      List.dropWhile_cons_of_neg (Bool.eq_false_iff.mp (digit_not_blank hDigit)),
      sign_of_digit hDigit] at *
    rw [hTake, hDrop]
    simp [hValue]
  | negSucc n =>
    have hBlank : isspace '-' = false := by decide
    obtain ⟨c, digits, hDigits, -⟩ := exists_toDigits_cons (n + 1)
    have hTake := takeWhile_digits_append (n + 1) hRest
    have hDrop := dropWhile_digits_append (n + 1) hRest
    have hValue := Nat.ofDigitChars_ten_toDigits (n := n + 1)
    rw [hDigits] at hTake hDrop hValue
    simp only [strtol, showInt, hDigits, List.cons_append,
      List.dropWhile_cons_of_neg (Bool.eq_false_iff.mp hBlank), sign] at *
    rw [hTake, hDrop]
    simp [hValue]
    omega

theorem strtol_showInt (n : Int) : strtol (showInt n) = (n, []) := by
  have hEnd : ∀ c ∈ ([] : Text).head?, c.isDigit = false := by simp
  simpa using strtol_showInt_append n hEnd

@[simp]
theorem atol_showInt (n : Int) : atol (showInt n) = n := by
  rw [atol, strtol_showInt]

end Tr069Agent.Library.Decimal
