import Mathlib.Tactic.Common

/-! # Trees whose nodes are kept by owners

A name is there as long as it has an owner. The owner `none` is permanent, and the others come and go. A
tree is covered when a name is not left before those below it: whoever owns a name owns the names above it,
unless these are permanent. A covered tree is closed, since a name above another one has an owner when that
one has.
-/

namespace Tr069Agent.Library.OwnedTree

set_option autoImplicit false

variable {ν κ : Type*} (above : ν → ν → Prop)

/-- With a name, those above it are there. -/
def Closed (present : ν → Prop) : Prop := ∀ ⦃n m⦄, above n m → present m → present n

def Covered (owners : ν → Option κ → Prop) : Prop :=
  ∀ ⦃n m⦄, above n m → ∀ t, owners m t → owners n none ∨ owners n t

variable {above} {owners owners' : ν → Option κ → Prop}

theorem Covered.closed (h : Covered above owners) : Closed above fun n => ∃ t, owners n t := by
  rintro n m hAbove ⟨t, hOwner⟩
  obtain hNone | hSame := h hAbove t hOwner
  · exact ⟨none, hNone⟩
  · exact ⟨t, hSame⟩

/-- New owners of a region that reaches up to the top. -/
structure Grown (keys : κ → Prop) (region : ν → Prop) (owners owners' : ν → Option κ → Prop) : Prop where
  mono : ∀ x t, owners x t → owners' x t
  only : ∀ x t, owners' x t → owners x t ∨ region x ∧ ∃ k, keys k ∧ t = some k
  all : ∀ x, region x → owners' x none ∨ ∀ k, keys k → owners' x (some k)

theorem Covered.grow {keys : κ → Prop} {region : ν → Prop} (h : Covered above owners)
    (hGrown : Grown keys region owners owners') (hUp : ∀ n m, above n m → region m → region n) :
    Covered above owners' := by
  intro n m hAbove t hOwner
  obtain hOld | ⟨hRegion, k, hKey, rfl⟩ := hGrown.only m t hOwner
  · exact (h hAbove t hOld).imp (hGrown.mono n none) (hGrown.mono n t)
  · exact (hGrown.all n (hUp n m hAbove hRegion)).imp id fun hAll => hAll k hKey

theorem Grown.trans {keys : κ → Prop} {first second : ν → Prop} {mid : ν → Option κ → Prop}
    (h : Grown keys first owners mid) (h' : Grown keys second mid owners') :
    Grown keys (fun x => first x ∨ second x) owners owners' where
  mono x t hOwner := h'.mono x t (h.mono x t hOwner)
  only x t hOwner := by
    obtain hMid | ⟨hSecond, hKey⟩ := h'.only x t hOwner
    · exact (h.only x t hMid).imp id fun hFirst => ⟨.inl hFirst.1, hFirst.2⟩
    · exact .inr ⟨.inr hSecond, hKey⟩
  all x hRegion := by
    obtain hFirst | hSecond := hRegion
    · exact (h.all x hFirst).imp (h'.mono x none) fun hAll k hKey => h'.mono x _ (hAll k hKey)
    · exact h'.all x hSecond

theorem Grown.congr {keys : κ → Prop} {region region' : ν → Prop} (h : Grown keys region owners owners')
    (hRegion : ∀ x, region' x ↔ region x) : Grown keys region' owners owners' where
  mono := h.mono
  only x t hOwner := (h.only x t hOwner).imp id fun hNew => ⟨(hRegion x).mpr hNew.1, hNew.2⟩
  all x hX := h.all x ((hRegion x).mp hX)

theorem Grown.refl (keys : κ → Prop) (owners : ν → Option κ → Prop) :
    Grown keys (fun _ => False) owners owners where
  mono _ _ h := h
  only _ _ h := .inl h
  all _ h := h.elim

/-- Owners are withdrawn from a region that reaches down to the leaves: none, if a permanent one is. -/
theorem Covered.withdraw {region : ν → Prop} {left : Option κ → Prop} (h : Covered above owners)
    (hLeft : ∀ x t, owners' x t ↔ owners x t ∧ (region x → left t))
    (hDown : ∀ n m, above n m → region n → region m) (hNone : ∀ t, left t → left none) :
    Covered above owners' := by
  intro n m hAbove t hOwner
  obtain ⟨hOld, hStays⟩ := (hLeft m t).mp hOwner
  have hRegion : region n → left t := fun hN => hStays (hDown n m hAbove hN)
  obtain hPermanent | hSame := h hAbove t hOld
  · exact .inl ((hLeft n none).mpr ⟨hPermanent, fun hN => hNone t (hRegion hN)⟩)
  · exact .inr ((hLeft n t).mpr ⟨hSame, hRegion⟩)

/-- Where only names lose owners that are above no other, the tree stays covered. -/
theorem Covered.shrink (h : Covered above owners) (hLess : ∀ x t, owners' x t → owners x t)
    (hAbove : ∀ n m, above n m → ∀ t, owners n t → owners' n t) : Covered above owners' := by
  intro n m hNM t hOwner
  exact (h hNM t (hLess m t hOwner)).imp (hAbove n m hNM none) (hAbove n m hNM t)

end Tr069Agent.Library.OwnedTree
