/-
# ZeroExApi.Lib.JsArray — array methods whose callback sees the index, and slices

`filterIdx` is `Array.prototype.filter` with the index its callback is passed, `slice` is
`Array.prototype.slice` with its relative indices, and `sortBy` is the stable sort by a comparator.
The results say what an index-blind caller expects: when the index does not matter `filterIdx` is
`filter`, consecutive slices of one width tile the array, and sorting permutes.
-/

import Mathlib.Data.List.Basic
import Mathlib.Data.List.Perm.Basic
import Mathlib.Data.List.Nodup
import Mathlib.Data.List.InsertIdx
import Mathlib.Algebra.Order.Group.Nat
import Mathlib.Algebra.Order.Group.Int

namespace ZeroExApi.Lib.JsArray

universe u

variable {α : Type u}

/-! ## Filtering with the index -/

/-- `filter` from index `i` on; the callback gets the element and its index. -/
def filterFrom (f : α → ℕ → Bool) : ℕ → List α → List α
  | _, [] => []
  | i, x :: xs => if f x i then x :: filterFrom f (i + 1) xs else filterFrom f (i + 1) xs

/-- `Array.prototype.filter`. -/
def filterIdx (f : α → ℕ → Bool) (xs : List α) : List α := filterFrom f 0 xs

theorem filterFrom_sublist (f : α → ℕ → Bool) (i : ℕ) (xs : List α) :
    (filterFrom f i xs).Sublist xs := by
  induction xs generalizing i with
  | nil => exact List.Sublist.slnil
  | cons x xs ih =>
    simp only [filterFrom]
    split
    · exact (ih (i + 1)).cons_cons x
    · exact (ih (i + 1)).cons x

theorem filterIdx_sublist (f : α → ℕ → Bool) (xs : List α) : (filterIdx f xs).Sublist xs :=
  filterFrom_sublist f 0 xs

/-- Where the callback agrees at every position with a test that is blind to the index, `filterIdx`
is `filter`. -/
theorem filterFrom_eq_filter {f : α → ℕ → Bool} {p : α → Bool} (i : ℕ) (xs : List α)
    (h : ∀ (j : ℕ) (hj : j < xs.length), f xs[j] (i + j) = p xs[j]) :
    filterFrom f i xs = xs.filter p := by
  induction xs generalizing i with
  | nil => rfl
  | cons x xs ih =>
    have hhead : f x i = p x := h 0 (Nat.zero_lt_succ _)
    have htail : filterFrom f (i + 1) xs = xs.filter p := by
      refine ih (i + 1) ?_
      intro j hj
      have hstep := h (j + 1) (Nat.succ_lt_succ hj)
      rw [List.getElem_cons_succ] at hstep
      rw [← hstep]
      congr 1
      omega
    simp only [filterFrom, hhead, htail, List.filter_cons]

theorem filterIdx_eq_filter {f : α → ℕ → Bool} {p : α → Bool} {xs : List α}
    (h : ∀ (j : ℕ) (hj : j < xs.length), f xs[j] j = p xs[j]) : filterIdx f xs = xs.filter p := by
  refine filterFrom_eq_filter 0 xs ?_
  intro j hj
  rw [Nat.zero_add]
  exact h j hj

theorem filterFrom_append (f : α → ℕ → Bool) (i : ℕ) (xs ys : List α) :
    filterFrom f i (xs ++ ys) = filterFrom f i xs ++ filterFrom f (i + xs.length) ys := by
  induction xs generalizing i with
  | nil => simp [filterFrom]
  | cons x xs ih =>
    have hlen : i + 1 + xs.length = i + (x :: xs).length := by
      rw [List.length_cons]
      omega
    simp only [List.cons_append, filterFrom, ih (i + 1), hlen]
    split <;> simp

/-- Without repetitions, an element is kept exactly when the callback accepts it at its position. -/
theorem mem_filterIdx_getElem {f : α → ℕ → Bool} {xs : List α} (hnd : xs.Nodup) {j : ℕ}
    (hj : j < xs.length) : xs[j] ∈ filterIdx f xs ↔ f xs[j] j = true := by
  have hsplit : xs = xs.take j ++ xs[j] :: xs.drop (j + 1) := by
    rw [List.getElem_cons_drop, List.take_append_drop]
  have hnd' : (xs.take j ++ xs[j] :: xs.drop (j + 1)).Nodup := hsplit ▸ hnd
  have hleft : xs[j] ∉ xs.take j := by
    intro hmem
    exact (List.nodup_append.mp hnd').2.2 _ hmem _ List.mem_cons_self rfl
  have hright : xs[j] ∉ xs.drop (j + 1) := by
    exact (List.nodup_cons.mp (List.nodup_append.mp hnd').2.1).1
  have hfilter : filterIdx f xs =
      filterFrom f 0 (xs.take j) ++ filterFrom f j (xs[j] :: xs.drop (j + 1)) := by
    have hlen : (xs.take j).length = j := List.length_take_of_le hj.le
    conv_lhs => rw [hsplit]
    rw [filterIdx, filterFrom_append, Nat.zero_add, hlen]
  rw [hfilter, List.mem_append]
  constructor
  · rintro (hmem | hmem)
    · exact absurd ((filterFrom_sublist f 0 _).subset hmem) hleft
    · by_contra hrej
      simp only [filterFrom, hrej] at hmem
      exact hright ((filterFrom_sublist f (j + 1) _).subset hmem)
  · intro hacc
    right
    simp [filterFrom, hacc]

/-- Every position of a list can be given to any of its elements by a permutation. -/
theorem exists_perm_getElem {xs : List α} {x : α} (hx : x ∈ xs) {j : ℕ} (hj : j < xs.length) :
    ∃ ys : List α, ys.Perm xs ∧ ∃ h : j < ys.length, ys[j] = x := by
  obtain ⟨left, right, rfl⟩ := List.append_of_mem hx
  have hlen : j ≤ (left ++ right).length := by
    simp only [List.length_append, List.length_cons] at hj ⊢
    omega
  refine ⟨(left ++ right).insertIdx j x, ?_, ?_, ?_⟩
  · exact (List.perm_insertIdx x (left ++ right) hlen).trans List.perm_middle.symm
  · rw [List.length_insertIdx_of_le_length hlen]
    omega
  · exact List.getElem_insertIdx_self _

/-! ## Slices -/

/-- A relative index: negative ones count from the end, all are clamped to the array. -/
def relIndex (len : ℕ) (i : ℤ) : ℕ :=
  if i < 0 then (len + i).toNat else min i.toNat len

/-- `Array.prototype.slice` with both indices given. -/
def slice (xs : List α) (start stop : ℤ) : List α :=
  (xs.take (relIndex xs.length stop)).drop (relIndex xs.length start)

theorem slice_natCast (xs : List α) (start stop : ℕ) :
    slice xs start stop = (xs.take stop).drop start := by
  have hidx : ∀ i : ℕ, relIndex xs.length (i : ℤ) = min i xs.length := by
    intro i
    simp [relIndex]
  rw [slice, hidx, hidx]
  rcases le_total start xs.length with hstart | hstart
  · rw [min_eq_left hstart, List.take_eq_take_min (i := stop)]
  · have hshort : (xs.take stop).length ≤ start := (List.length_take_le' _ _).trans hstart
    rw [min_eq_right hstart, List.drop_eq_nil_of_le hshort, List.drop_eq_nil_of_le]
    exact List.length_take_le' _ _

/-- Consecutive slices of one width tile a prefix of the array. -/
theorem flatMap_slice (xs : List α) (width count : ℕ) :
    (List.range count).flatMap (fun i : ℕ => slice xs ((i : ℤ) * width) ((i + 1 : ℤ) * width)) =
      xs.take (count * width) := by
  induction count with
  | zero => simp
  | succ n ih =>
    have hcast : slice xs ((n : ℤ) * width) ((n + 1 : ℤ) * width) =
        (xs.take ((n + 1) * width)).drop (n * width) := by
      rw [← slice_natCast]
      push_cast
      rfl
    have hle : n * width ≤ (n + 1) * width := Nat.mul_le_mul_right _ (Nat.le_succ n)
    rw [List.range_succ, List.flatMap_append, ih]
    simp only [List.flatMap_cons, List.flatMap_nil, List.append_nil]
    rw [hcast]
    calc xs.take (n * width) ++ (xs.take ((n + 1) * width)).drop (n * width)
        = (xs.take ((n + 1) * width)).take (n * width) ++
            (xs.take ((n + 1) * width)).drop (n * width) := by
          rw [List.take_take, min_eq_left hle]
      _ = xs.take ((n + 1) * width) := List.take_append_drop _ _

/-! ## Sorting by a comparator -/

/-- The stable sort by a comparator, which puts the first argument first unless the result is
positive. -/
def sortBy (compare : α → α → ℤ) (xs : List α) : List α :=
  xs.mergeSort fun a b => decide (compare a b ≤ 0)

theorem sortBy_perm (compare : α → α → ℤ) (xs : List α) : (sortBy compare xs).Perm xs :=
  List.mergeSort_perm xs _

end ZeroExApi.Lib.JsArray
