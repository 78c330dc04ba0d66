/-
# ZeroExApi.Lib.Arithmetic — what a program keeps of the numbers it computes

A program that divides with a decimal library keeps a quotient to a number of decimals, and one that
adds floating-point numbers keeps the nearest of them.  What is kept is an instance of `Arithmetic`,
with the laws that proofs about such a program use; the program is written once, over any instance.

The arithmetic that keeps everything is the one to be found by instance search, so that a statement
that names no other is about exact numbers.
-/

import Mathlib.Algebra.Order.Ring.Rat
import Mathlib.Data.Rat.Cast.Order
import Mathlib.Tactic.Linarith

namespace ZeroExApi.Lib

/-- What is kept of a quotient, and of a sum of floating-point numbers. -/
class Arithmetic where
  quotient : ℚ → ℚ
  /-- How far a quotient can be from what is kept of it. -/
  precision : ℚ
  float : ℚ → ℚ
  quotient_mono : Monotone quotient
  quotient_intCast : ∀ z : ℤ, quotient z = z
  abs_quotient_sub_le : ∀ q, |quotient q - q| ≤ precision
  /-- The numbers that are kept whole have their differences kept whole. -/
  quotient_sub : ∀ p q, quotient p = p → quotient q = q → quotient (p - q) = p - q
  float_mono : Monotone float
  float_zero : float 0 = 0
  float_one : float 1 = 1

namespace Arithmetic

/-- Everything is kept. -/
instance exact : Arithmetic where
  quotient := id
  precision := 0
  float := id
  quotient_mono := monotone_id
  quotient_intCast := fun _ => rfl
  abs_quotient_sub_le := fun q => by simp
  quotient_sub := fun _ _ _ _ => rfl
  float_mono := monotone_id
  float_zero := rfl
  float_one := rfl

section Laws

variable [Arithmetic]

@[simp]
theorem quotient_natCast (n : ℕ) : quotient (n : ℚ) = n := quotient_intCast n

@[simp]
theorem quotient_zero : quotient 0 = 0 := by simpa using quotient_intCast 0

@[simp]
theorem quotient_one : quotient 1 = 1 := by simpa using quotient_intCast 1

theorem quotient_nonneg {q : ℚ} (h : 0 ≤ q) : 0 ≤ quotient q := by
  simpa using quotient_mono h

/-- A number that is kept whole. -/
def Kept (q : ℚ) : Prop := quotient q = q

theorem kept_natCast (n : ℕ) : Kept (n : ℚ) := quotient_natCast n

theorem Kept.sub {p q : ℚ} (hp : Kept p) (hq : Kept q) : Kept (p - q) := quotient_sub p q hp hq

theorem Kept.min {p q : ℚ} (hp : Kept p) (hq : Kept q) : Kept (min p q) := by
  rcases min_choice p q with h | h
  · rwa [h]
  · rwa [h]

theorem precision_nonneg : (0 : ℚ) ≤ precision := (abs_nonneg _).trans (abs_quotient_sub_le 0)

/-- Quotients that are kept apart are apart. -/
theorem lt_of_quotient_lt {p q : ℚ} (h : quotient p < quotient q) : p < q :=
  quotient_mono.reflect_lt h

/-- Quotients far enough apart are kept apart. -/
theorem quotient_lt_of_lt {p q : ℚ} (h : p + 2 * precision < q) : quotient p < quotient q := by
  have hp := abs_le.mp (abs_quotient_sub_le p)
  have hq := abs_le.mp (abs_quotient_sub_le q)
  linarith [hp.2, hq.1]

theorem float_nonneg {q : ℚ} (h : 0 ≤ q) : 0 ≤ float q := by
  simpa [float_zero] using float_mono h

theorem one_le_float {q : ℚ} (h : 1 ≤ q) : 1 ≤ float q := by
  simpa [float_one] using float_mono h

end Laws

end Arithmetic

end ZeroExApi.Lib
