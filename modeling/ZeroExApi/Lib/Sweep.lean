/-
# ZeroExApi.Lib.Sweep — a walk from point to point

A sweep looks for the next point, flags it where it is a marked one, and goes on behind it until it
is done.  A search may stop at a point that is not marked, when it has looked far enough.

Where no search passes over a marked point (`Covers`), the points of a sweep are in order and all
marked points ahead of its start are among them (`Covers.visits`).
-/

import Mathlib.Data.Nat.Notation

namespace ZeroExApi.Lib

universe u v

variable {σ : Type u} {α : Type v}

structure Sweep (σ : Type u) (α : Type v) where
  next : σ → α × Bool
  after : σ → α → σ
  done : σ → Bool

namespace Sweep

/-- The state behind the next point. -/
def step (sweep : Sweep σ α) (state : σ) : σ := sweep.after state (sweep.next state).1

/-- The points of a sweep, and whether they are flagged. -/
def visited (sweep : Sweep σ α) : ℕ → σ → List (α × Bool)
  | 0, _ => []
  | turns + 1, state =>
    if sweep.done state then [] else sweep.next state :: sweep.visited turns (sweep.step state)

/-- No search passes over a marked point, and what is behind the next point is after it. -/
structure Covers (sweep : Sweep σ α) (valid : σ → Prop) (before : α → α → Prop)
    (ahead : σ → α → Prop) (marked : α → Prop) (remaining : σ → ℕ) : Prop where
  none_ahead : ∀ {state}, sweep.done state = true → ∀ point, ¬ ahead state point
  next_ahead : ∀ {state}, valid state → sweep.done state = false →
    ahead state (sweep.next state).1
  flagged : ∀ {state}, valid state → sweep.done state = false → marked (sweep.next state).1 →
    (sweep.next state).2 = true
  skips_none : ∀ {state}, valid state → sweep.done state = false → ∀ point, ahead state point →
    marked point → point = (sweep.next state).1 ∨ ahead (sweep.step state) point
  step_valid : ∀ {state}, valid state → sweep.done state = false → valid (sweep.step state)
  step_ahead : ∀ {state}, valid state → sweep.done state = false → ∀ point,
    ahead (sweep.step state) point → ahead state point ∧ before (sweep.next state).1 point
  remaining_step : ∀ {state}, valid state → sweep.done state = false →
    remaining (sweep.step state) < remaining state

/-- All marked points ahead of a state, in order. -/
structure Visits (before : α → α → Prop) (ahead : σ → α → Prop) (marked : α → Prop) (state : σ)
    (points : List (α × Bool)) : Prop where
  ordered : points.Pairwise fun point next => before point.1 next.1
  all_ahead : ∀ point ∈ points, ahead state point.1
  complete : ∀ point, marked point → ahead state point → (point, true) ∈ points

section Covers

variable {sweep : Sweep σ α} {valid : σ → Prop} {before : α → α → Prop} {ahead : σ → α → Prop}
  {marked : α → Prop} {remaining : σ → ℕ} (h : sweep.Covers valid before ahead marked remaining)
  {turns : ℕ} {state : σ} (hvalid : valid state)

include h hvalid

/-- A point that is visited was the next one of some state. -/
theorem Covers.exists_of_mem {point : α × Bool} (hmem : point ∈ sweep.visited turns state) :
    ∃ state', valid state' ∧ sweep.done state' = false ∧ sweep.next state' = point := by
  induction turns generalizing state with
  | zero => cases hmem
  | succ turns ih =>
    rw [visited] at hmem
    split at hmem
    · cases hmem
    · rename_i hdone
      rw [Bool.not_eq_true] at hdone
      rcases List.mem_cons.mp hmem with rfl | hrest
      · exact ⟨state, hvalid, hdone, rfl⟩
      · exact ih (h.step_valid hvalid hdone) hrest

theorem Covers.visits (hturns : remaining state < turns) :
    Visits before ahead marked state (sweep.visited turns state) := by
  induction turns generalizing state with
  | zero => exact absurd hturns (Nat.not_lt_zero _)
  | succ turns ih =>
    rw [visited]
    split
    · rename_i hdone
      exact ⟨.nil, fun _ hmem => absurd hmem List.not_mem_nil,
        fun point _ hahead => absurd hahead (h.none_ahead hdone point)⟩
    · rename_i hdone
      rw [Bool.not_eq_true] at hdone
      have hlt := h.remaining_step hvalid hdone
      have hrest := ih (h.step_valid hvalid hdone) (by omega)
      constructor
      · refine .cons (fun point hmem => ?_) hrest.ordered
        exact (h.step_ahead hvalid hdone _ (hrest.all_ahead point hmem)).2
      · rw [List.forall_mem_cons]
        refine ⟨h.next_ahead hvalid hdone, fun point hmem => ?_⟩
        exact (h.step_ahead hvalid hdone _ (hrest.all_ahead point hmem)).1
      · intro point hmarked hahead
        rcases h.skips_none hvalid hdone point hahead hmarked with rfl | hlater
        · rw [← h.flagged hvalid hdone hmarked]
          exact List.mem_cons_self
        · exact List.mem_cons_of_mem _ (hrest.complete point hmarked hlater)

end Covers

end Sweep

end ZeroExApi.Lib
