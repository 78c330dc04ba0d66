/-
# ZeroExApi.Lib.CheckedArith — one program, with arithmetic that wraps and arithmetic that stops

A program over unsigned words takes its arithmetic as a parameter, in whatever monad that lives.
`wrapping` is what a machine computes that does not look at overflow, and `checked` gives up where
something overflows.  A run over `checked` that gives a result has met no overflow, and the run over
`wrapping` gives the same: `Agrees` is that relation, with a rule for each way to build a program.
So a statement "barring overflow" has the success of the checked run as its hypothesis.
-/

import Mathlib.Algebra.Ring.Nat

namespace ZeroExApi.Lib

/-- Addition and multiplication of words. -/
structure Arith (m : Type → Type) where
  add : ℕ → ℕ → m ℕ
  mul : ℕ → ℕ → m ℕ

namespace Arith

/-- The words of 256 bits end here. -/
def bound : ℕ := 2 ^ 256

/-- Arithmetic modulo the word size. -/
def wrapping : Arith Id where
  add a b := (a + b) % bound
  mul a b := a * b % bound

/-- A result that is a word. -/
def word (n : ℕ) : Option ℕ := if n < bound then some n else none

/-- Arithmetic without a result where that is no word. -/
def checked : Arith Option where
  add a b := word (a + b)
  mul a b := word (a * b)

theorem word_eq_some {n k : ℕ} : word n = some k ↔ n < bound ∧ k = n := by
  unfold word
  split
  · rename_i h
    simp [h, eq_comm]
  · rename_i h
    simp [h]

theorem checked_add_eq_some {a b c : ℕ} :
    checked.add a b = some c ↔ a + b < bound ∧ c = a + b := word_eq_some

theorem checked_mul_eq_some {a b c : ℕ} :
    checked.mul a b = some c ↔ a * b < bound ∧ c = a * b := word_eq_some

/-! ## What a wrapped result gives away -/

/-- Dividing a wrapped product by one factor gives the other back only if nothing was wrapped. -/
theorem wrapping_mul_div_eq_iff {a b : ℕ} (ha : 0 < a) (hb : b < bound) :
    Id.run (wrapping.mul a b) / a = b ↔ a * b < bound := by
  show a * b % bound / a = b ↔ a * b < bound
  constructor
  · intro hdiv
    have hback : a * b ≤ a * b % bound := by
      calc a * b = a * (a * b % bound / a) := by rw [hdiv]
        _ ≤ a * b % bound := Nat.mul_div_le _ _
    have hlt : a * b % bound < bound := Nat.mod_lt _ (lt_of_le_of_lt (Nat.zero_le b) hb)
    exact lt_of_le_of_lt hback hlt
  · intro hlt
    rw [Nat.mod_eq_of_lt hlt, Nat.mul_div_cancel_left b ha]

/-- What is left of a sum that was wrapped is below either summand. -/
theorem wrapping_add_lt {a b : ℕ} (ha : a < bound) (hb : b < bound) (h : bound ≤ a + b) :
    Id.run (wrapping.add a b) < b := by
  show (a + b) % bound < b
  rw [Nat.mod_eq_sub_mod h, Nat.mod_eq_of_lt (by omega)]
  omega

/-! ## Two runs of one program -/

variable {α β : Type}

/-- Where the checked run has a result, the wrapping run has the same. -/
def Agrees (x : Option α) (y : Id α) : Prop := ∀ a, x = some a → y = a

theorem Agrees.pure (a : α) : Agrees (pure a) (pure a) := by
  intro b hb
  cases hb
  rfl

theorem Agrees.bind {x : Option α} {y : Id α} {f : α → Option β} {g : α → Id β}
    (h : Agrees x y) (hf : ∀ a, Agrees (f a) (g a)) : Agrees (x >>= f) (y >>= g) := by
  intro b hb
  obtain ⟨a, ha, hb⟩ := Option.bind_eq_some_iff.mp hb
  have hy : y = a := h a ha
  show g y = b
  rw [hy]
  exact hf a b hb

theorem Agrees.ite {c : Prop} [Decidable c] {x x' : Option α} {y y' : Id α} (h : Agrees x y)
    (h' : Agrees x' y') : Agrees (if c then x else x') (if c then y else y') := by
  split
  · exact h
  · exact h'

theorem agrees_add (a b : ℕ) : Agrees (checked.add a b) (wrapping.add a b) := by
  intro c hc
  obtain ⟨hlt, rfl⟩ := checked_add_eq_some.mp hc
  exact Nat.mod_eq_of_lt hlt

theorem agrees_mul (a b : ℕ) : Agrees (checked.mul a b) (wrapping.mul a b) := by
  intro c hc
  obtain ⟨hlt, rfl⟩ := checked_mul_eq_some.mp hc
  exact Nat.mod_eq_of_lt hlt

end Arith

end ZeroExApi.Lib
