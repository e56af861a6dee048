import Mathlib.Data.Set.Insert
import Mathlib.Logic.Relation
import Mathlib.Tactic.Common

/-! # Following links and removing marks

Each node has at most one link. A walk removes the mark of the node it is at and goes along the
link, and it ends at the first node without a mark. Walks that go over the same nodes, or round in
circles, together remove the marks of the nodes that marked paths lead to.
-/

namespace Tr069Agent.Library.Trail

open Relation

set_option autoImplicit false

variable {α : Type*} (next : α → Option α)

/-- From the marks `m`, the walk that starts at a node leaves the marks `m'`. -/
inductive Follows : Set α → α → Set α → Prop
  | stop {m : Set α} {a : α} (h : a ∉ m) : Follows m a m
  | last {m : Set α} {a : α} (h : a ∈ m) (hNext : next a = none) : Follows m a (m \ {a})
  | step {m m' : Set α} {a b : α} (h : a ∈ m) (hNext : next a = some b)
      (hRest : Follows (m \ {a}) b m') : Follows m a m'

inductive FollowsAll : Set α → List α → Set α → Prop
  | nil {m : Set α} : FollowsAll m [] m
  | cons {m m' m'' : Set α} {a : α} {as : List α} (h : Follows next m a m')
      (hRest : FollowsAll m' as m'') : FollowsAll m (a :: as) m''

def Link (m : Set α) (a b : α) : Prop := next a = some b ∧ b ∈ m

/-- The nodes that marked paths lead to, the start included. -/
def reach (m : Set α) (a : α) : Set α := {x | a ∈ m ∧ ReflTransGen (Link next m) a x}

variable {next}

theorem mem_reach_self {m : Set α} {a : α} (h : a ∈ m) : a ∈ reach next m a := ⟨h, .refl⟩

theorem reach_subset (m : Set α) (a : α) : reach next m a ⊆ m := by
  rintro x ⟨ha, hPath⟩
  cases hPath with
  | refl => exact ha
  | tail _ hLink => exact hLink.2

theorem reach_of_next {m : Set α} {a b : α} (ha : a ∈ m) (hNext : next a = some b) :
    reach next m b ⊆ reach next m a := by
  rintro x ⟨hb, hPath⟩
  exact ⟨ha, .head ⟨hNext, hb⟩ hPath⟩

theorem reach_tail {m : Set α} {a x y : α} (hx : x ∈ reach next m a) (hLink : Link next m x y) :
    y ∈ reach next m a := ⟨hx.1, hx.2.tail hLink⟩

theorem mem_reach_iff_of_next {m : Set α} {a b : α} (ha : a ∈ m) (hNext : next a = some b) (x : α) :
    x ∈ reach next m a ↔ x = a ∨ x ∈ reach next (m \ {a}) b := by
  constructor
  · rintro ⟨-, hPath⟩
    induction hPath with
    | refl => exact .inl rfl
    | @tail y z _ hLink ih =>
      rcases eq_or_ne z a with rfl | hne
      · exact .inl rfl
      have hz : z ∈ m \ {a} := ⟨hLink.2, hne⟩
      rcases ih with rfl | hy
      · obtain rfl : b = z := Option.some.inj (hNext.symm.trans hLink.1)
        exact .inr (mem_reach_self hz)
      · exact .inr (reach_tail hy ⟨hLink.1, hz⟩)
  · rintro (rfl | ⟨hb, hPath⟩)
    · exact mem_reach_self ha
    · have hMono : ReflTransGen (Link next m) b x := ReflTransGen.mono (fun _ _ h => ⟨h.1, h.2.1⟩) _ _ hPath
      exact ⟨ha, .head ⟨hNext, hb.1⟩ hMono⟩

theorem mem_reach_iff_of_end {m : Set α} {a : α} (ha : a ∈ m) (hNext : next a = none) (x : α) :
    x ∈ reach next m a ↔ x = a := by
  constructor
  · rintro ⟨-, hPath⟩
    rcases hPath.cases_head with rfl | ⟨b, hLink, -⟩
    · rfl
    · exact absurd (hNext.symm.trans hLink.1) (by simp)
  · rintro rfl
    exact mem_reach_self ha

theorem Follows.mem_iff {m m' : Set α} {a : α} (h : Follows next m a m') (x : α) :
    x ∈ m' ↔ x ∈ m ∧ x ∉ reach next m a := by
  induction h with
  | stop h => exact ⟨fun hx => ⟨hx, fun hReach => h hReach.1⟩, fun hx => hx.1⟩
  | last h hNext => rw [mem_reach_iff_of_end h hNext]; rfl
  | step h hNext _ ih =>
    rw [ih, mem_reach_iff_of_next h hNext]
    simp only [Set.mem_sdiff, Set.mem_singleton_iff, not_or, and_assoc]

theorem mem_reach_of_follows {m m' : Set α} {a : α} (h : Follows next m a m') {c x : α}
    (hOff : x ∉ reach next m a) : x ∈ reach next m' c ↔ x ∈ reach next m c := by
  constructor
  · rintro ⟨hc, hPath⟩
    refine ⟨((h.mem_iff c).mp hc).1, ReflTransGen.mono (fun _ z hLink => ?_) _ _ hPath⟩
    exact ⟨hLink.1, ((h.mem_iff z).mp hLink.2).1⟩
  · rintro ⟨hc, hPath⟩
    induction hPath with
    | refl => exact mem_reach_self ((h.mem_iff c).mpr ⟨hc, hOff⟩)
    | @tail y z _ hLink ih =>
      have hy : y ∉ reach next m a := fun hy => hOff (reach_tail hy hLink)
      exact reach_tail (ih hy) ⟨hLink.1, (h.mem_iff z).mpr ⟨hLink.2, hOff⟩⟩

theorem FollowsAll.mem_iff {m m' : Set α} {as : List α} (h : FollowsAll next m as m') (x : α) :
    x ∈ m' ↔ x ∈ m ∧ ∀ a ∈ as, x ∉ reach next m a := by
  induction h with
  | nil => simp
  | cons hFirst _ ih =>
    rw [ih, hFirst.mem_iff, and_assoc, List.forall_mem_cons]
    refine and_congr_right fun _ => and_congr_right fun hOff => ?_
    exact forall₂_congr fun c _ => not_congr (mem_reach_of_follows hFirst hOff)

end Tr069Agent.Library.Trail
