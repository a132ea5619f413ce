import Mathlib

set_option autoImplicit false

namespace RaftLog.Lib

variable {Member : Type} [DecidableEq Member]

structure Majority (members quorum : Finset Member) : Prop where
  within : quorum ⊆ members
  more : members.card / 2 < quorum.card

theorem majorities_meet (members left right : Finset Member) (leftMost : Majority members left)
    (rightMost : Majority members right) : ∃ member, member ∈ left ∧ member ∈ right := by
  by_contra apart
  have disjoint : Disjoint left right := by
    rw [Finset.disjoint_left]
    intro member inLeft inRight
    exact apart ⟨member, inLeft, inRight⟩
  have together : (left ∪ right).card ≤ members.card :=
    Finset.card_le_card (Finset.union_subset leftMost.within rightMost.within)
  rw [Finset.card_union_of_disjoint disjoint] at together
  have leftMore := leftMost.more
  have rightMore := rightMost.more
  omega

end RaftLog.Lib
