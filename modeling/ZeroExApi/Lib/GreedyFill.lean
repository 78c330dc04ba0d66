/-
# ZeroExApi.Lib.GreedyFill — an amount given out over capacities, one after the other

Each capacity takes as much as it can of what is left.  What is given out is the amount, or all
capacities where that is less (`sum_greedyFill`), and it is given to the first ones: whatever takes
something has only full capacities before it (`greedyFill_full_before`).
-/

import Mathlib.Algebra.Order.Group.MinMax
import Mathlib.Algebra.Order.BigOperators.Group.List
import Mathlib.Data.List.Forall2

namespace ZeroExApi.Lib.GreedyFill

universe u

variable {α : Type u} [AddCommGroup α] [LinearOrder α]

/-- What each capacity takes of an amount. -/
def greedyFill : List α → α → List α
  | [], _ => []
  | capacity :: capacities, remaining =>
    min capacity remaining :: greedyFill capacities (remaining - min capacity remaining)

/-- Of nothing, nothing is taken. -/
theorem greedyFill_zero {capacities : List α} (hcap : ∀ c ∈ capacities, 0 ≤ c) :
    ∀ fill ∈ greedyFill capacities 0, fill = 0 := by
  induction capacities with
  | nil =>
    intro fill hmem
    exact absurd hmem List.not_mem_nil
  | cons capacity capacities ih =>
    rw [List.forall_mem_cons] at hcap
    rw [greedyFill, min_eq_right hcap.1, sub_zero, List.forall_mem_cons]
    exact ⟨rfl, ih hcap.2⟩

/-- Before a capacity that takes something all capacities are full. -/
theorem greedyFill_full_before {capacities : List α} (hcap : ∀ c ∈ capacities, 0 ≤ c)
    (remaining : α) :
    ((greedyFill capacities remaining).zip capacities).Pairwise
      fun before after => after.1 ≠ 0 → before.1 = before.2 := by
  induction capacities generalizing remaining with
  | nil => exact .nil
  | cons capacity capacities ih =>
    rw [List.forall_mem_cons] at hcap
    rw [greedyFill, List.zip_cons_cons]
    refine .cons ?_ (ih hcap.2 _)
    intro after hafter htakes
    rcases le_total capacity remaining with hle | hle
    · exact min_eq_left hle
    · -- the first capacity takes all there is
      rw [min_eq_right hle, sub_self] at hafter
      exact absurd (greedyFill_zero hcap.2 _ (List.of_mem_zip hafter).1) htakes

variable [IsOrderedAddMonoid α]

theorem remaining_nonneg {capacity remaining : α} : 0 ≤ remaining - min capacity remaining :=
  sub_nonneg.mpr (min_le_right capacity remaining)

/-- Each capacity takes between nothing and itself. -/
theorem greedyFill_within {capacities : List α} (hcap : ∀ c ∈ capacities, 0 ≤ c) {remaining : α}
    (hremaining : 0 ≤ remaining) :
    List.Forall₂ (fun fill capacity => 0 ≤ fill ∧ fill ≤ capacity)
      (greedyFill capacities remaining) capacities := by
  induction capacities generalizing remaining with
  | nil => exact .nil
  | cons capacity capacities ih =>
    rw [List.forall_mem_cons] at hcap
    refine .cons ⟨le_min hcap.1 hremaining, min_le_left _ _⟩ (ih hcap.2 ?_)
    exact remaining_nonneg

/-- The amount is given out, or as much of it as there is room for. -/
theorem sum_greedyFill {capacities : List α} (hcap : ∀ c ∈ capacities, 0 ≤ c) {remaining : α}
    (hremaining : 0 ≤ remaining) :
    (greedyFill capacities remaining).sum = min remaining capacities.sum := by
  induction capacities generalizing remaining with
  | nil => exact (min_eq_right hremaining).symm
  | cons capacity capacities ih =>
    rw [List.forall_mem_cons] at hcap
    have hrest : 0 ≤ capacities.sum := List.sum_nonneg hcap.2
    rw [greedyFill, List.sum_cons, ih hcap.2 remaining_nonneg, List.sum_cons]
    rcases le_total capacity remaining with hle | hle
    · -- the first capacity is full, and the rest of the amount goes on
      rw [min_eq_left hle, ← min_add_add_left, add_sub_cancel]
    · rw [min_eq_right hle, sub_self, min_eq_left hrest, add_zero]
      exact (min_eq_left (hle.trans (le_add_of_nonneg_right hrest))).symm

end ZeroExApi.Lib.GreedyFill
