/-
# ZeroExApi.Lib.Comparator — comparators that sort

A comparator returns a negative number, zero or a positive one.  Sorting by it has a meaning when it
is consistent: swapping the arguments changes the sign, and neither "not behind" nor "tied" depends
on what lies between.  A comparator that compares by a key in a linear order is consistent
(`consistentOn_of_key`), keys that are compared one after the other are one key in the lexicographic
order (`compareInt_toLex`), and what is sorted by a consistent comparator stands in its order
(`pairwise_sortBy`), so that the last one has the greatest key (`greatest_of_getLast?_sortBy`).

All of this is said on a class of elements, because a comparator may be meaningless outside of it.
-/

import ZeroExApi.Lib.JsArray
import Mathlib.Data.Prod.Lex
import Mathlib.Algebra.Order.Group.Defs
import Mathlib.Algebra.Order.Group.Unbundled.Basic

namespace ZeroExApi.Lib.Comparator

open ZeroExApi.Lib.JsArray

universe u v w

/-! ## Comparing by a linear order -/

section Order

variable {κ : Type u} {μ : Type v} [LinearOrder κ] [LinearOrder μ]

/-- -1, 0 or 1, as the first element is less than the second, equal to it or greater. -/
def compareInt (x y : κ) : ℤ := if x < y then -1 else if y < x then 1 else 0

theorem compareInt_lt (x y : κ) : compareInt x y < 0 ↔ x < y := by
  unfold compareInt
  split
  · rename_i h
    simp [h]
  · rename_i h
    split <;> simp [h]

theorem compareInt_swap (x y : κ) : compareInt y x = -compareInt x y := by
  unfold compareInt
  rcases lt_trichotomy x y with h | h | h
  · simp [h, h.not_gt]
  · simp [h]
  · simp [h, h.not_gt]

theorem compareInt_eq_zero (x y : κ) : compareInt x y = 0 ↔ x = y := by
  unfold compareInt
  rcases lt_trichotomy x y with h | h | h
  · simp [h, h.ne]
  · simp [h]
  · simp [h, h.ne', h.not_gt]

theorem compareInt_le (x y : κ) : compareInt x y ≤ 0 ↔ x ≤ y := by
  rw [← not_lt, ← not_lt, ← compareInt_lt y x, compareInt_swap x y]
  omega

/-- Two keys, one after the other. -/
theorem compareInt_toLex (x x' : κ) (y y' : μ) :
    compareInt (toLex (x, y)) (toLex (x', y')) =
      if x = x' then compareInt y y' else compareInt x x' := by
  unfold compareInt
  simp only [Prod.Lex.toLex_lt_toLex]
  by_cases h : x = x'
  · simp [h]
  · simp [h, Ne.symm h]

/-- The negated key turns the order round. -/
theorem compareInt_neg [AddGroup κ] [AddLeftMono κ] [AddRightMono κ] (x y : κ) :
    compareInt (-x) (-y) = compareInt y x := by
  simp [compareInt]

end Order

/-! ## Consistent comparators -/

section Consistent

variable {α : Type u} {κ : Type v} [LinearOrder κ]

/-- A comparator is consistent on a class of elements. -/
structure ConsistentOn (P : α → Prop) (compare : α → α → ℤ) : Prop where
  antisymm : ∀ a b, P a → P b → compare b a = -compare a b
  trans : ∀ a b c, P a → P b → P c → compare a b ≤ 0 → compare b c ≤ 0 → compare a c ≤ 0
  ties : ∀ a b c, P a → P b → P c → compare a b = 0 → compare b c = 0 → compare a c = 0

/-- A comparator by a key is consistent. -/
theorem consistentOn_of_key {P : α → Prop} {compare : α → α → ℤ} (key : α → κ)
    (h : ∀ a b, P a → P b → compare a b = compareInt (key a) (key b)) :
    ConsistentOn P compare := by
  refine ⟨fun a b ha hb => ?_, fun a b c ha hb hc hab hbc => ?_, fun a b c ha hb hc hab hbc => ?_⟩
  · rw [h a b ha hb, h b a hb ha, compareInt_swap]
  · rw [h a b ha hb, compareInt_le] at hab
    rw [h b c hb hc, compareInt_le] at hbc
    rw [h a c ha hc, compareInt_le]
    exact hab.trans hbc
  · rw [h a b ha hb, compareInt_eq_zero] at hab
    rw [h b c hb hc, compareInt_eq_zero] at hbc
    rw [h a c ha hc, compareInt_eq_zero]
    exact hab.trans hbc

/-- What is sorted by a consistent comparator stands in its order. -/
theorem pairwise_sortBy {P : α → Prop} {compare : α → α → ℤ} (h : ConsistentOn P compare)
    {xs : List α} (hxs : ∀ x ∈ xs, P x) :
    (sortBy compare xs).Pairwise fun a b => compare a b ≤ 0 := by
  -- the elements are sorted together with the proof that they are of the class
  let le : {x // P x} → {x // P x} → Bool := fun a b => decide (compare a b ≤ 0)
  let ys : List {x // P x} := xs.attachWith P hxs
  have hmap : (ys.mergeSort le).map Subtype.val = sortBy compare xs := by
    rw [sortBy, List.map_mergeSort (s := fun a b => decide (compare a b ≤ 0))]
    · rw [show ys.map Subtype.val = xs from List.attachWith_map_subtype_val hxs]
    · intro a _ b _
      rfl
  have htrans : ∀ a b c : {x // P x}, le a b → le b c → le a c := by
    intro a b c hab hbc
    exact decide_eq_true
      (h.trans a b c a.2 b.2 c.2 (of_decide_eq_true hab) (of_decide_eq_true hbc))
  have htotal : ∀ a b : {x // P x}, le a b || le b a := by
    intro a b
    have hswap := h.antisymm a b a.2 b.2
    simp only [le, Bool.or_eq_true, decide_eq_true_eq]
    omega
  rw [← hmap, List.pairwise_map]
  exact (List.pairwise_mergeSort htrans htotal ys).imp of_decide_eq_true

/-- The last one of what is sorted by a key has the greatest. -/
theorem greatest_of_getLast?_sortBy {P : α → Prop} {compare : α → α → ℤ} (key : α → κ)
    (h : ∀ a b, P a → P b → compare a b = compareInt (key a) (key b)) {xs : List α}
    (hxs : ∀ x ∈ xs, P x) {last : α} (hlast : (sortBy compare xs).getLast? = some last) :
    last ∈ xs ∧ ∀ x ∈ xs, key x ≤ key last := by
  have hsorted := pairwise_sortBy (consistentOn_of_key key h) hxs
  have hperm := sortBy_perm compare xs
  obtain ⟨before, heq⟩ := List.getLast?_eq_some_iff.mp hlast
  rw [heq] at hsorted hperm
  have hmem : last ∈ xs := hperm.subset (List.mem_append_right _ (List.mem_singleton_self _))
  refine ⟨hmem, fun x hx => ?_⟩
  rcases List.mem_append.mp (hperm.symm.subset hx) with hbefore | hself
  · have hle := (List.pairwise_append.mp hsorted).2.2 x hbefore last (List.mem_singleton_self _)
    rwa [h x last (hxs x hx) (hxs last hmem), compareInt_le] at hle
  · rw [List.mem_singleton.mp hself]

end Consistent

end ZeroExApi.Lib.Comparator
