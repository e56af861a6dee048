import Mathlib.Tactic.Common
import Tr069Agent.Engine.ParameterType

/-! # Parameters

A parameter of the data model, as it is made from the attributes of a line of the data file.
-/

namespace Tr069Agent.Engine

open Library

set_option autoImplicit false

/-- The number `n + 4` is that of no mode, and is kept as it is. -/
inductive StorageMode where
  | dmOnly
  | systemOnly
  | mixed
  | computed
  | other (n : Nat)
  deriving DecidableEq

inductive NotificationMode where
  | off
  | passive
  | active
  | undefined
  | other (n : Nat)
  deriving DecidableEq

def StorageMode.number : StorageMode → Nat
  | .dmOnly => 0
  | .systemOnly => 1
  | .mixed => 2
  | .computed => 3
  | .other n => n + 4

def StorageMode.ofNumber : Nat → StorageMode
  | 0 => .dmOnly
  | 1 => .systemOnly
  | 2 => .mixed
  | 3 => .computed
  | n + 4 => .other n

def NotificationMode.number : NotificationMode → Nat
  | .off => 0
  | .passive => 1
  | .active => 2
  | .undefined => 3
  | .other n => n + 4

def NotificationMode.ofNumber : Nat → NotificationMode
  | 0 => .off
  | 1 => .passive
  | 2 => .active
  | 3 => .undefined
  | n + 4 => .other n

@[simp] theorem StorageMode.number_ofNumber (n : Nat) : (ofNumber n).number = n := by
  rcases n with _ | _ | _ | _ | n <;> rfl

@[simp] theorem StorageMode.ofNumber_number (storageMode : StorageMode) :
    ofNumber storageMode.number = storageMode := by
  cases storageMode <;> rfl

@[simp] theorem NotificationMode.number_ofNumber (n : Nat) : (ofNumber n).number = n := by
  rcases n with _ | _ | _ | _ | n <;> rfl

@[simp] theorem NotificationMode.ofNumber_number (notification : NotificationMode) :
    ofNumber notification.number = notification := by
  cases notification <;> rfl

/-- The bits of the state of a parameter. -/
structure ParameterState where
  valueChanged : Bool
  changeRequested : Bool
  beingEvaluated : Bool
  loaded : Bool
  pushed : Bool
  deriving DecidableEq

namespace ParameterState

def initial : ParameterState := ⟨false, false, false, false, false⟩

def mask (state : ParameterState) : Nat :=
  state.valueChanged.toNat + 2 * state.changeRequested.toNat + 4 * state.beingEvaluated.toNat +
    8 * state.loaded.toNat + 16 * state.pushed.toNat

def ofMask (n : Nat) : ParameterState :=
  ⟨n.testBit 0, n.testBit 1, n.testBit 2, n.testBit 3, n.testBit 4⟩

theorem ofMask_mask (state : ParameterState) : ofMask state.mask = state := by
  obtain ⟨a, b, c, d, e⟩ := state
  cases a <;> cases b <;> cases c <;> cases d <;> cases e <;> rfl

theorem mask_ofMask_le {n : Nat} (h : n ≤ 9) : (ofMask n).mask ≤ 9 := by
  have hAll : ∀ n : Fin 10, (ofMask n.val).mask ≤ 9 := by decide
  exact hAll ⟨n, by omega⟩

end ParameterState

structure Parameter where
  name : Text
  type : ParameterType
  minValue : Int
  maxValue : Int
  storageMode : StorageMode
  writable : Bool
  immediateChanges : Int
  accessList : Option (List Text)
  notification : NotificationMode
  mandatoryNotification : Bool
  activeNotificationDenied : Bool
  loadingMode : Int
  state : ParameterState
  backValue : Option Text
  value : Option Text
  configKey : Option Text
  definition : Option Text
  deriving DecidableEq

def defaultAccessList : List Text := ["Subscriber".toList]

/-- A number coded by one digit, or `default`. -/
def digitOr (default : Nat) (attr : Text) : Nat := (charToInt (firstChar attr)).getD default

/-- A number coded by one digit, or a literal that stands for 1. -/
def digitOrLiteral (literal : Text) (attr : Text) : Nat :=
  digitOr (if attr = literal then 1 else 0) attr

def emptyAsNull (attr : Text) : Option Text := if attr = [] then none else some attr

def newAccessList (attr : Text) (ini : Bool) : Option (List Text) :=
  if attr = [] then (if ini then some defaultAccessList else none)
  else if attr = "Subscriber".toList then some defaultAccessList
  else some (splitCommaSeparatedList attr)

def newParameter (dmPrefix : Text) (attr : Nat → Text) (ini : Bool) : Option Parameter := do
  let (type, minValue, maxValue) ← ParameterType.stringToType (attr 1)
  return { name := dmPrefix ++ attr 0
           type
           minValue
           maxValue
           storageMode := .ofNumber (digitOr 0 (attr 2))
           writable := digitOrLiteral "W".toList (attr 3) ≠ 0
           immediateChanges := digitOrLiteral "Y".toList (attr 4)
           accessList := newAccessList (attr 8) ini
           notification := .ofNumber (digitOr 0 (attr 5))
           mandatoryNotification := digitOrLiteral "Y".toList (attr 6) ≠ 0
           activeNotificationDenied := digitOrLiteral "Y".toList (attr 7) ≠ 0
           loadingMode := digitOr 0 (attr 10)
           state := .ofMask (digitOr 0 (attr 11))
           backValue := emptyAsNull (attr 12)
           value := emptyAsNull (attr 9)
           configKey := emptyAsNull (attr 13)
           definition := emptyAsNull (attr 14) }

theorem digitOr_le {default : Nat} (h : default ≤ 9) (attr : Text) : digitOr default attr ≤ 9 := by
  rw [digitOr]
  cases hDigit : charToInt (firstChar attr) with
  | none => exact h
  | some n => exact charToInt_le hDigit

theorem digitOrLiteral_le (literal attr : Text) : digitOrLiteral literal attr ≤ 9 := by
  apply digitOr_le
  split <;> decide

theorem digitOr_showInt {n : Nat} (h : n ≤ 9) (default : Nat) :
    digitOr default (Decimal.showInt n) = n := by
  have hAll : ∀ n : Fin 10, charToInt (firstChar (Decimal.showInt n.val)) = some n.val := by decide
  have hDigit : charToInt (firstChar (Decimal.showInt n)) = some n := hAll ⟨n, by omega⟩
  rw [digitOr, hDigit, Option.getD_some]

end Tr069Agent.Engine
