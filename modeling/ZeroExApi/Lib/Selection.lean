/-
# ZeroExApi.Lib.Selection — keeping the best, or the two best, in one pass

A pass over a list that keeps the first element of largest key ends with `List.argmax`.  A pass that
keeps two ends with `largestTwo`: the first element of largest key, and the first of largest key
among the others.  Both are said for one more element at the end of the list (`List.argmax_concat`,
`largestTwo_concat`), which is what an induction over the pass needs.
-/

import Mathlib.Data.List.MinMax

namespace ZeroExApi.Lib

universe u v

variable {α : Type u} {β : Type v} [DecidableEq α] [LinearOrder β]

/-- The better of what was kept and one more element; what was kept wins a tie. -/
def better (key : α → β) (kept : Option α) (x : α) : α :=
  match kept with
  | none => x
  | some c => if key c < key x then x else c

omit [DecidableEq α] in
theorem argmax_concat_eq (key : α → β) (xs : List α) (x : α) :
    (xs ++ [x]).argmax key = some (better key (xs.argmax key) x) := by
  rw [List.argmax_concat]
  cases xs.argmax key with
  | none => rfl
  | some c =>
    show (if key c < key x then some x else some c) = some (if key c < key x then x else c)
    exact (apply_ite some (key c < key x) x c).symm

/-- The two elements of largest key. -/
def largestTwo (key : α → β) (xs : List α) : Option α × Option α :=
  match xs.argmax key with
  | none => (none, none)
  | some c => (some c, (xs.erase c).argmax key)

/-- One more element takes the first place, the second, or none. -/
def insertTwo (key : α → β) (kept : Option α × Option α) (x : α) : Option α × Option α :=
  match kept.1 with
  | none => (some x, none)
  | some c =>
    if key c < key x then (some x, some c)
    else (some c, some (better key kept.2 x))

theorem largestTwo_concat (key : α → β) (xs : List α) (x : α) :
    largestTwo key (xs ++ [x]) = insertTwo key (largestTwo key xs) x := by
  unfold largestTwo
  rw [argmax_concat_eq]
  cases hc : xs.argmax key with
  | none =>
    obtain rfl := List.argmax_eq_none.mp hc
    simp [insertTwo, better]
  | some c =>
    have hmem : c ∈ xs := List.argmax_mem hc
    by_cases hlt : key c < key x
    · -- a new largest element was not there before, and leaves all the others
      have hnew : x ∉ xs := by
        intro hx
        exact absurd hlt (not_lt.mpr (List.le_of_mem_argmax hx hc))
      have hrest : (xs ++ [x]).erase x = xs := by
        rw [List.erase_append_right [x] hnew]
        simp
      simp only [better, insertTwo, if_pos hlt, hrest, hc]
    · have hrest : (xs ++ [x]).erase c = xs.erase c ++ [x] := List.erase_append_left [x] hmem
      simp only [better, insertTwo, if_neg hlt, hrest, argmax_concat_eq]

/-- Both are elements of the list. -/
theorem mem_of_largestTwo {key : α → β} {xs : List α} {c : α}
    (h : (largestTwo key xs).1 = some c ∨ (largestTwo key xs).2 = some c) : c ∈ xs := by
  unfold largestTwo at h
  split at h
  · simp at h
  · rename_i d hd
    rcases h with hfirst | hsecond
    · cases hfirst
      exact List.argmax_mem hd
    · exact List.mem_of_mem_erase (List.argmax_mem hsecond)

/-- There is no second without a first. -/
theorem largestTwo_snd_eq_none {key : α → β} {xs : List α} (h : (largestTwo key xs).1 = none) :
    (largestTwo key xs).2 = none := by
  unfold largestTwo at h ⊢
  split at h
  · rfl
  · cases h

end ZeroExApi.Lib
