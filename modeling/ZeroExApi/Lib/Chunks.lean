/-
# ZeroExApi.Lib.Chunks — long arrays worked through in groups

`chunk size xs` cuts an array into groups of `size`, and `zipChunks` pairs the groups of two arrays
as `zip` does, which pads the shorter one with nothing.  Arrays of one length are cut at the same
places (`zipChunks_eq`), so what is found out group by group about pairs is, put together again,
about the pairs of the arrays, in order (`forall₂_flatten_of_chunks`).
-/

import Mathlib.Data.List.Forall2
import Mathlib.Algebra.Order.Group.Nat

namespace ZeroExApi.Lib.Chunks

universe u v w

variable {α : Type u} {β : Type v} {γ : Type w}

/-- Groups of `size` as long as there are elements; the first argument bounds how many. -/
def chunkLoop (size : ℕ) : ℕ → List α → List (List α)
  | 0, _ => []
  | fuel + 1, xs => if xs.isEmpty then [] else xs.take size :: chunkLoop size fuel (xs.drop size)

/-- Groups of `size`, the last with what is left. -/
def chunk (size : ℕ) (xs : List α) : List (List α) :=
  if size = 0 then [] else chunkLoop size xs.length xs

@[simp]
theorem chunk_nil (size : ℕ) : chunk size ([] : List α) = [] := by
  unfold chunk chunkLoop
  split <;> rfl

/-- Any bound will do that is no less than the number of elements. -/
theorem chunkLoop_eq {size : ℕ} (hsize : 0 < size) {n m : ℕ} {xs : List α}
    (hn : xs.length ≤ n) (hm : xs.length ≤ m) : chunkLoop size n xs = chunkLoop size m xs := by
  induction n generalizing m xs with
  | zero =>
    have hnil : xs = [] := List.length_eq_zero_iff.mp (Nat.le_zero.mp hn)
    subst hnil
    cases m <;> rfl
  | succ n ih =>
    cases m with
    | zero =>
      have hnil : xs = [] := List.length_eq_zero_iff.mp (Nat.le_zero.mp hm)
      subst hnil
      rfl
    | succ m =>
      unfold chunkLoop
      rw [ih (m := m)]
      · rw [List.length_drop]
        omega
      · rw [List.length_drop]
        omega

theorem chunk_of_ne_nil {size : ℕ} (hsize : 0 < size) {xs : List α} (hxs : xs ≠ []) :
    chunk size xs = xs.take size :: chunk size (xs.drop size) := by
  obtain ⟨x, rest, rfl⟩ := List.exists_cons_of_ne_nil hxs
  have hdrop : ((x :: rest).drop size).length ≤ rest.length := by
    rw [List.length_drop, List.length_cons]
    omega
  unfold chunk
  rw [if_neg hsize.ne', if_neg hsize.ne', List.length_cons, chunkLoop,
    chunkLoop_eq hsize hdrop le_rfl]
  rfl

/-- The rule of induction: the first group, and what is behind it. -/
theorem chunk_induction {size : ℕ} (hsize : 0 < size) {motive : List α → Prop}
    (nil : motive []) (step : ∀ xs, xs ≠ [] → motive (xs.drop size) → motive xs) (xs : List α) :
    motive xs := by
  induction hlen : xs.length using Nat.strong_induction_on generalizing xs with
  | _ n ih =>
    by_cases hxs : xs = []
    · subst hxs
      exact nil
    · have hpos := List.length_pos_iff.mpr hxs
      apply step xs hxs
      apply ih (xs.drop size).length _ _ rfl
      rw [List.length_drop]
      omega

theorem flatten_chunk {size : ℕ} (hsize : 0 < size) (xs : List α) :
    (chunk size xs).flatten = xs := by
  induction xs using chunk_induction hsize with
  | nil => rw [chunk_nil, List.flatten_nil]
  | step xs hxs ih =>
    rw [chunk_of_ne_nil hsize hxs, List.flatten_cons, ih, List.take_append_drop]

/-! ## Two arrays -/

/-- The groups of two arrays, side by side. -/
def zipChunks (size : ℕ) (xs : List α) (ys : List β) : List (Option (List α) × Option (List β)) :=
  List.zipWithAll Prod.mk (chunk size xs) (chunk size ys)

/-- Arrays of one length are cut at the same places: the groups are those of the pairs. -/
theorem zipChunks_eq {size : ℕ} (hsize : 0 < size) {xs : List α} {ys : List β}
    (hlen : xs.length = ys.length) :
    zipChunks size xs ys = (chunk size (xs.zip ys)).map fun group =>
      (some (group.map Prod.fst), some (group.map Prod.snd)) := by
  unfold zipChunks
  induction xs using chunk_induction hsize generalizing ys with
  | nil =>
    have hys : ys = [] := List.length_eq_zero_iff.mp hlen.symm
    subst hys
    simp
  | step xs hxs ih =>
    have hys : ys ≠ [] := by
      rintro rfl
      exact hxs (List.length_eq_zero_iff.mp hlen)
    have hzip : xs.zip ys ≠ [] := by
      rw [Ne, List.zip_eq_nil_iff]
      rintro (h | h)
      · exact hxs h
      · exact hys h
    have hrest : (xs.drop size).length = (ys.drop size).length := by
      rw [List.length_drop, List.length_drop, hlen]
    have htake : (xs.take size).length = (ys.take size).length := by
      rw [List.length_take, List.length_take, hlen]
    have hdrop : (xs.zip ys).drop size = (xs.drop size).zip (ys.drop size) := List.drop_zipWith
    have hfirst : (xs.zip ys).take size = (xs.take size).zip (ys.take size) := List.take_zipWith
    rw [chunk_of_ne_nil hsize hxs, chunk_of_ne_nil hsize hys, chunk_of_ne_nil hsize hzip,
      List.zipWithAll_cons_cons, ih hrest, List.map_cons, hdrop, hfirst,
      List.map_fst_zip htake.le, List.map_snd_zip htake.ge]

/-- What each group is answered with, put together, answers the whole. -/
theorem forall₂_flatten_of_chunks {R : α → γ → Prop} {size : ℕ} (hsize : 0 < size) {xs : List α}
    {answers : List (List γ)} (h : List.Forall₂ (List.Forall₂ R) (chunk size xs) answers) :
    List.Forall₂ R xs answers.flatten := by
  have hflat : ∀ {groups : List (List α)} {answers : List (List γ)},
      List.Forall₂ (List.Forall₂ R) groups answers →
        List.Forall₂ R groups.flatten answers.flatten := by
    intro groups answers hall
    induction hall with
    | nil => exact .nil
    | cons hfirst _ ih =>
      rw [List.flatten_cons, List.flatten_cons]
      exact List.rel_append hfirst ih
  have hwhole := hflat h
  rwa [flatten_chunk hsize] at hwhole

end ZeroExApi.Lib.Chunks
