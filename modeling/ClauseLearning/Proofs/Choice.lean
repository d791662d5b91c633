import ClauseLearning.Random.Choice
import Mathlib.Data.List.Sort

namespace ClauseLearning

namespace Coins

theorem oneOver_one (coins : Coins) : (coins.oneOver 1).1 = true := by
  have flips : Nat.log2 1 = 0 := by decide
  have heads : (coins.allHeads (Nat.log2 1)).1 = true := by simp [allHeads, allHeads?, flips]
  unfold oneOver
  cases flipped : coins.allHeads (Nat.log2 1) with
  | mk answer rest =>
    rw [flipped] at heads
    simp only at heads
    subst heads
    rfl

variable {α : Type}

theorem mem_of_chooseFrom (coins : Coins) (k : Nat) (chosen : Option α) (items : List α) {a : α}
    (picked : (coins.chooseFrom k chosen items).1 = some a) : chosen = some a ∨ a ∈ items := by
  induction items generalizing coins k chosen with
  | nil => exact .inl picked
  | cons item rest ih =>
    simp only [chooseFrom] at picked
    rcases ih _ _ _ picked with same | member
    · split at same
      · obtain rfl := Option.some.inj same
        exact .inr List.mem_cons_self
      · exact .inl same
    · exact .inr (List.mem_cons_of_mem item member)

theorem isSome_chooseFrom (coins : Coins) (k : Nat) {chosen : Option α} (items : List α)
    (present : chosen.isSome = true) : (coins.chooseFrom k chosen items).1.isSome = true := by
  induction items generalizing coins k chosen with
  | nil => exact present
  | cons item rest ih =>
    simp only [chooseFrom]
    refine ih _ _ ?_
    split
    · rfl
    · exact present

end Coins

namespace Generator

variable {α : Type}

theorem mem_of_choose (g : Generator) (items : List α) {a : α}
    (picked : (g.choose items).1 = some a) : a ∈ items := by
  rcases Coins.mem_of_chooseFrom _ _ _ _ picked with none | member
  · cases none
  · exact member

theorem eq_nil_of_choose (g : Generator) {items : List α} (none : (g.choose items).1 = none) :
    items = [] := by
  cases items with
  | nil => rfl
  | cons item rest =>
    have first := Coins.oneOver_one ⟨0, 0, g⟩
    have chosen : (g.choose (item :: rest)).1.isSome = true := by
      simp only [choose, Coins.chooseFrom, first, if_true]
      exact Coins.isSome_chooseFrom _ _ rest rfl
    rw [none] at chosen
    cases chosen

end Generator

end ClauseLearning
