/-
# ZeroExApi.Lib.InFlight — asynchronous calls that have been started and not settled

An asynchronous function is started at one moment and settles at a later one, and in between others
may be started and settle.  Each call gets the number of calls that were started before it, so a
smaller number is an earlier start.  What the call has to remember until it settles is kept under
its number; a call that has settled is no longer there.

A client reads the record through `call?` only: `call?_of_start` and `call?_of_settle` say where
what is in flight comes from.
-/

import Mathlib.Data.List.Basic
import Mathlib.Algebra.Order.Group.Nat

namespace ZeroExApi.Lib

universe u

/-- The calls of an asynchronous function, by number; `none` stands for one that has settled. -/
structure InFlight (α : Type u) where
  calls : List (Option α)
  deriving DecidableEq

namespace InFlight

variable {α : Type u}

/-- Nothing has been started. -/
def empty : InFlight α := ⟨[]⟩

/-- How many calls have been started, which is the number of the next one. -/
def started (f : InFlight α) : ℕ := f.calls.length

/-- What a call in flight remembers. -/
def call? (f : InFlight α) (n : ℕ) : Option α := f.calls[n]?.join

/-- A call is started. -/
def start (f : InFlight α) (a : α) : InFlight α := ⟨f.calls ++ [some a]⟩

/-- A call remembers something else, or settles. -/
def put (f : InFlight α) (n : ℕ) (a : Option α) : InFlight α := ⟨f.calls.set n a⟩

/-- A call settles. -/
def settle (f : InFlight α) (n : ℕ) : InFlight α := f.put n none

/-! ## What is in flight -/

@[simp]
theorem call?_empty (n : ℕ) : (empty : InFlight α).call? n = none := by
  simp [empty, call?]

@[simp]
theorem started_start (f : InFlight α) (a : α) : (f.start a).started = f.started + 1 := by
  simp [start, started]

theorem call?_start (f : InFlight α) (a : α) (n : ℕ) :
    (f.start a).call? n = if n = f.started then some a else f.call? n := by
  unfold call? start started
  rcases lt_trichotomy n f.calls.length with hlt | heq | hgt
  · rw [List.getElem?_append_left hlt, if_neg hlt.ne]
  · subst heq
    simp
  · -- behind the new call there is none
    rw [if_neg hgt.ne', List.getElem?_eq_none hgt.le, List.getElem?_eq_none]
    simp
    omega

/-- What is in flight after a call has been started is that call, or was so before. -/
theorem call?_of_start {f : InFlight α} {n : ℕ} {a b : α} (h : (f.start a).call? n = some b) :
    (n = f.started ∧ a = b) ∨ f.call? n = some b := by
  rw [call?_start] at h
  split at h
  · rename_i hnew
    exact .inl ⟨hnew, Option.some.inj h⟩
  · exact .inr h

theorem call?_settle (f : InFlight α) (m n : ℕ) :
    (f.settle m).call? n = if n = m then none else f.call? n := by
  unfold settle put call?
  rw [List.getElem?_set]
  split
  · rename_i heq
    subst heq
    rw [if_pos rfl]
    split <;> rfl
  · rename_i hne
    rw [if_neg (Ne.symm hne)]

/-- What is in flight after a call has settled was so before. -/
theorem call?_of_settle {f : InFlight α} {m n : ℕ} {a : α} (h : (f.settle m).call? n = some a) :
    n ≠ m ∧ f.call? n = some a := by
  rw [call?_settle] at h
  split at h
  · cases h
  · rename_i hne
    exact ⟨hne, h⟩

/-- What is in flight after a call has come to remember something else is that, or was so before. -/
theorem call?_of_put {f : InFlight α} {m n : ℕ} {a b : α}
    (h : (f.put m (some b)).call? n = some a) : (n = m ∧ a = b) ∨ f.call? n = some a := by
  unfold put call? at h
  rw [List.getElem?_set] at h
  split at h
  · rename_i heq
    split at h
    · exact .inl ⟨heq.symm, (Option.some.inj h).symm⟩
    · cases h
  · exact .inr h

end InFlight

end ZeroExApi.Lib
