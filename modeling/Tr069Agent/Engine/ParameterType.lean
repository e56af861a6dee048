import Mathlib.Tactic.Common
import Tr069Agent.Engine.Common

/-! # Parameter types and their text

The text of a type is its number, followed by the bounds that differ from those of the type.
-/

namespace Tr069Agent.Engine

open Library Library.Lines Library.Decimal

set_option autoImplicit false

inductive ParameterType where
  | int
  | uint
  | long
  | boolean
  | date
  | string
  | any
  | statistics
  | undefined
  /-- The number 9, which is that of no type. -/
  | other
  deriving DecidableEq

namespace ParameterType

def number : ParameterType → Nat
  | .int => 0
  | .uint => 1
  | .long => 2
  | .boolean => 3
  | .date => 4
  | .string => 5
  | .any => 6
  | .statistics => 7
  | .undefined => 8
  | .other => 9

/-- None beyond the digits. -/
def ofNumber (n : Nat) : Option ParameterType :=
  [int, uint, long, boolean, date, string, any, statistics, undefined, other][n]?

def names : List (Text × ParameterType) :=
  [("INT".toList, int), ("UINT".toList, uint), ("LONG".toList, long), ("BOOLEAN".toList, boolean),
    ("DATE".toList, date), ("STRING".toList, string), ("STATISTICS".toList, statistics),
    ("ANY".toList, any)]

/-- The two encodings of a type, by its number and by its name. -/
def ofText (str : Text) : Option ParameterType :=
  if str.length = 1 then
    match charToInt (firstChar str) with
    | none => some undefined
    | some n => ofNumber n
  else some (((names.find? fun entry => entry.1 = str.map Char.toUpper).map Prod.snd).getD undefined)

/-- The bounds of a type from their texts, where zero is kept for what the type does not use. -/
def bounds (type : ParameterType) (min max : Option Text) : Int × Int :=
  match type with
  | .int => ((min.bind stringToInt).getD intMin, (max.bind stringToInt).getD intMax)
  | .uint | .any | .statistics =>
    (ofUint ((min.bind stringToUint).getD 0), ofUint ((max.bind stringToUint).getD uintMax))
  | .string => ((min.bind stringToInt).getD (-1), 0)
  | _ => (0, 0)

/-- `DM_ENG_stringToType`: the type and its bounds. -/
def stringToType (str : Text) : Option (ParameterType × Int × Int) := do
  let parts := str.splitOn ':'
  let type ← ofText (parts.headD [])
  return (type, bounds type parts[1]? parts[2]?)

/-- The texts of the bounds that differ from those of the type. -/
def boundParts (type : ParameterType) (min max : Int) : List Text :=
  match type with
  | .int =>
    if min > intMin ∨ max < intMax then
      if max ≥ intMax then [showInt min]
      else if min ≤ intMin then [[], showInt max]
      else [showInt min, showInt max]
    else []
  | .uint | .any | .statistics =>
    if toUint min > 0 ∨ toUint max < uintMax then
      if toUint max ≥ uintMax then [showInt (toUint min)]
      else if toUint min = 0 then [[], showInt (toUint max)]
      else [showInt (toUint min), showInt (toUint max)]
    else []
  | .string => if min > -1 then [showInt min] else []
  | _ => []

def parts (type : ParameterType) (min max : Int) : List Text :=
  showInt type.number :: boundParts type min max

def typeToString (type : ParameterType) (min max : Int) : Text := join ':' (parts type min max)

/-- The bounds that the text of the type carries. -/
def Bounded (type : ParameterType) (min max : Int) : Prop :=
  match type with
  | .int | .uint | .any | .statistics => True
  | .string => -1 ≤ min ∧ max = 0
  | _ => min = 0 ∧ max = 0

instance decidableBounded : ∀ (type : ParameterType) (min max : Int), Decidable (Bounded type min max)
  | .int, _, _ | .uint, _, _ | .any, _, _ | .statistics, _, _ => isTrue trivial
  | .string, min, max => inferInstanceAs (Decidable (-1 ≤ min ∧ max = 0))
  | .long, min, max | .boolean, min, max | .date, min, max | .undefined, min, max | .other, min, max =>
    inferInstanceAs (Decidable (min = 0 ∧ max = 0))

theorem isSome_ofNumber {n : Nat} (h : n ≤ 9) : (ofNumber n).isSome = true := by
  have hAll : ∀ n : Fin 10, (ofNumber n.val).isSome = true := by decide
  exact hAll ⟨n, by omega⟩

theorem isSome_ofText (str : Text) : (ofText str).isSome = true := by
  rw [ofText]
  split
  · split
    · rfl
    · exact isSome_ofNumber (charToInt_le ‹_›)
  · rfl

/-- Every text is read as that of a type. -/
theorem isSome_stringToType (str : Text) : (stringToType str).isSome = true := by
  obtain ⟨type, hType⟩ := Option.isSome_iff_exists.mp (isSome_ofText ((str.splitOn ':').headD []))
  rw [stringToType, hType]
  rfl

theorem ofText_number (type : ParameterType) : ofText (showInt type.number) = some type := by
  cases type <;> rfl

theorem splitOn_typeToString (type : ParameterType) (min max : Int) :
    (typeToString type min max).splitOn ':' = parts type min max := by
  refine splitOn_join (fun part hMem => ?_) (List.cons_ne_nil _ _)
  have hShow (n : Int) : ':' ∉ showInt n := not_mem_showInt (by decide) (by decide) n
  rcases List.mem_cons.mp hMem with rfl | hBound
  · exact hShow _
  · cases type <;> simp only [boundParts] at hBound <;> grind

theorem stringToType_eq_bounds (type : ParameterType) (min max : Int) :
    stringToType (typeToString type min max) =
      some (type, bounds type (parts type min max)[1]? (parts type min max)[2]?) := by
  rw [stringToType, splitOn_typeToString, parts, List.headD_cons, ofText_number]
  rfl

theorem bounds_int {min max : Int} (hMin : InInt min) (hMax : InInt max) :
    bounds .int (parts .int min max)[1]? (parts .int min max)[2]? = (min, max) := by
  have hLow := hMin.1
  have hHigh := hMax.2
  have hEmpty : stringToInt [] = none := rfl
  rw [parts, boundParts, bounds]
  split_ifs <;> simp [stringToInt_showInt hMin, stringToInt_showInt hMax, hEmpty] <;> omega

theorem bounds_uint {min max : Int} (hMin : InInt min) (hMax : InInt max) :
    bounds .uint (parts .uint min max)[1]? (parts .uint min max)[2]? = (min, max) := by
  have hLow := stringToUint_showInt (toUint_le min)
  have hHigh := stringToUint_showInt (toUint_le max)
  have hLowBack := ofUint_toUint hMin
  have hHighBack := ofUint_toUint hMax
  have hEmpty : stringToUint [] = none := rfl
  have hMax := toUint_le max
  rw [parts, boundParts, bounds]
  split_ifs with hBounds hTop hZero
  · obtain hSame : uintMax = toUint max := by omega
    simp [hLow, hLowBack, hSame, hHighBack]
  · rw [hZero] at hLowBack
    simp [hHigh, hEmpty, hLowBack, hHighBack]
  · simp [hLow, hHigh, hLowBack, hHighBack]
  · obtain hZero : 0 = toUint min := by omega
    obtain hSame : uintMax = toUint max := by omega
    simp [hZero, hLowBack, hSame, hHighBack]

theorem bounds_string {min max : Int} (hMin : InInt min) :
    bounds .string (parts .string min max)[1]? (parts .string min max)[2]? = (min, max) ↔
      -1 ≤ min ∧ max = 0 := by
  rw [parts, boundParts, bounds]
  split_ifs <;> simp [stringToInt_showInt hMin] <;> omega

/-- The text of a type is read back with its bounds exactly when it carries them. -/
theorem stringToType_typeToString {type : ParameterType} {min max : Int} (hMin : InInt min)
    (hMax : InInt max) :
    stringToType (typeToString type min max) = some (type, min, max) ↔ Bounded type min max := by
  rw [stringToType_eq_bounds, Option.some.injEq, Prod.mk.injEq, eq_self, true_and]
  cases type with
  | int => simp only [bounds_int hMin hMax, Bounded]
  | uint | any | statistics => exact iff_of_true (bounds_uint hMin hMax) trivial
  | string => exact bounds_string hMin
  | long | boolean | date | undefined | other => simp [bounds, Bounded, eq_comm]

theorem inInt_getD {text : Option Text} {default : Int} (h : InInt default) :
    InInt ((text.bind stringToInt).getD default) := by
  cases hRead : text.bind stringToInt with
  | none => exact h
  | some n =>
    obtain ⟨ch, -, hInt⟩ := Option.bind_eq_some_iff.mp hRead
    exact inInt_stringToInt hInt

theorem inInt_getD_uint {text : Option Text} {default : Nat} (h : default ≤ uintMax) :
    InInt (ofUint ((text.bind stringToUint).getD default)) := by
  apply inInt_ofUint
  cases hRead : text.bind stringToUint with
  | none => exact h
  | some n =>
    obtain ⟨ch, -, hUint⟩ := Option.bind_eq_some_iff.mp hRead
    exact stringToUint_le hUint

theorem inInt_bounds (type : ParameterType) (min max : Option Text) :
    InInt (bounds type min max).1 ∧ InInt (bounds type min max).2 := by
  have hZero : InInt 0 := by decide
  cases type with
  | int => exact ⟨inInt_getD (by decide), inInt_getD (by decide)⟩
  | uint | any | statistics => exact ⟨inInt_getD_uint (by decide), inInt_getD_uint (by decide)⟩
  | string => exact ⟨inInt_getD (by decide), hZero⟩
  | long | boolean | date | undefined | other => exact ⟨hZero, hZero⟩

/-- A type that is read from a text is read again from the text made of it; but a negative length of a string,
which is not written, is that of a string of any length then. -/
theorem stringToType_saved {str : Text} {type : ParameterType} {min max : Int}
    (h : stringToType str = some (type, min, max)) :
    stringToType (typeToString type min max) =
      some (type, if type = .string ∧ min < -1 then -1 else min, max) := by
  obtain ⟨read, -, hRead⟩ := Option.bind_eq_some_iff.mp h
  obtain ⟨rfl, hBounds⟩ := Prod.mk.inj (Option.some.inj hRead)
  obtain ⟨hMin, hMax⟩ := inInt_bounds read (str.splitOn ':')[1]? (str.splitOn ':')[2]?
  rw [hBounds] at hMin hMax
  by_cases hNegative : read = .string ∧ min < -1
  · obtain ⟨rfl, hLow⟩ := hNegative
    obtain ⟨-, rfl⟩ := Prod.mk.inj hBounds
    rw [stringToType_eq_bounds, if_pos ⟨rfl, hLow⟩, parts, boundParts, if_neg (by omega)]
    rfl
  · rw [if_neg hNegative]
    refine (stringToType_typeToString hMin hMax).mpr ?_
    cases read with
    | int | uint | any | statistics => trivial
    | string =>
      obtain ⟨-, rfl⟩ := Prod.mk.inj hBounds
      exact ⟨Int.not_lt.mp fun hLow => hNegative ⟨rfl, hLow⟩, rfl⟩
    | long | boolean | date | undefined | other =>
      obtain ⟨rfl, rfl⟩ := Prod.mk.inj hBounds
      exact ⟨rfl, rfl⟩

/-- The number of instances of an object at its limit. -/
theorem stringToType_saved_any :
    stringToType (typeToString .any (-1) (ofUint uintMax)) = some (.any, -1, ofUint uintMax) :=
  @stringToType_saved "ANY:4294967295".toList .any (-1) (ofUint uintMax) (by decide +kernel)

/-- The length is read as it is, and it is not written. -/
theorem negative_length_not_saved :
    stringToType "STRING:-5".toList = some (.string, -5, 0) ∧
      stringToType (typeToString .string (-5) 0) = some (.string, -1, 0) := by
  decide +kernel

end ParameterType

end Tr069Agent.Engine
