import Mathlib.Data.Bool.Basic
import Tr069Agent.Engine.Parameter

/-! # The parameters held

No two parameters have the same name.
-/

namespace Tr069Agent.Engine

open Library

set_option autoImplicit false

inductive EntityType where
  | acs
  | selfcareApp
  | system
  | subscriber
  | any
  deriving DecidableEq

namespace Fault

def requestDenied : Int := 9001
def internalError : Int := 9002
def invalidArguments : Int := 9003
def invalidParameterName : Int := 9005
def invalidParameterValue : Int := 9007
def readOnlyParameter : Int := 9008
def notificationRequestRejected : Int := 9009

end Fault

structure ParameterStore where
  parameters : List Parameter
  nodup : (parameters.map (·.name)).Nodup

namespace ParameterStore

def names (store : ParameterStore) : List Text := store.parameters.map (·.name)

def getParameter (store : ParameterStore) (name : Text) : Option Parameter :=
  store.parameters.find? (·.name = name)

/-- The parameter of that name is replaced. -/
def put (store : ParameterStore) (prm : Parameter) : ParameterStore where
  parameters := store.parameters.map fun p => if p.name = prm.name then prm else p
  nodup := by
    have hNames (p : Parameter) : (if p.name = prm.name then prm else p).name = p.name := by
      split
      · exact Eq.symm ‹_›
      · rfl
    simpa [Function.comp_def, hNames] using store.nodup

theorem name_of_getParameter {store : ParameterStore} {name : Text} {prm : Parameter}
    (h : store.getParameter name = some prm) : prm.name = name := by
  simpa using List.find?_some h

theorem mem_names_of_getParameter {store : ParameterStore} {name : Text} {prm : Parameter}
    (h : store.getParameter name = some prm) : name ∈ store.names :=
  List.mem_map.mpr ⟨prm, List.mem_of_find?_eq_some h, name_of_getParameter h⟩

theorem exists_of_mem_names {store : ParameterStore} {name : Text} (h : name ∈ store.names) :
    ∃ prm, store.getParameter name = some prm := by
  obtain ⟨prm, hMem, hName⟩ := List.mem_map.mp h
  apply Option.isSome_iff_exists.mp
  exact List.find?_isSome.mpr ⟨prm, hMem, by simpa using hName⟩

theorem getParameter_put (store : ParameterStore) (prm : Parameter) (name : Text) :
    (store.put prm).getParameter name =
      if name = prm.name then (store.getParameter name).map fun _ => prm
      else store.getParameter name := by
  simp only [getParameter, put]
  induction store.parameters with
  | nil => simp
  | cons p rest ih =>
    simp only [List.map_cons, List.find?_cons, ih]
    grind

theorem getParameter_put_self {store : ParameterStore} {name : Text} {prm prm' : Parameter}
    (h : store.getParameter name = some prm) (hName : prm'.name = name) :
    (store.put prm').getParameter name = some prm' := by
  rw [getParameter_put, if_pos hName.symm, h]
  rfl

theorem getParameter_put_of_ne {store : ParameterStore} {name : Text} {prm : Parameter}
    (h : name ≠ prm.name) : (store.put prm).getParameter name = store.getParameter name := by
  rw [getParameter_put, if_neg h]

end ParameterStore

/-- `strlen(name)-1` is the place of a dot: an object, not a value. -/
def isNodeName (name : Text) : Bool := name.getLast? = some '.'

/-- Names with two dots are prototypes, from which instances are made. -/
def isProto (name : Text) : Bool := Text.strstr name "..".toList

namespace Parameter

def hiddenName : Text := "_".toList

def isHidden (prm : Parameter) : Bool := (prm.accessList.getD []).head? = some hiddenName

end Parameter

end Tr069Agent.Engine
