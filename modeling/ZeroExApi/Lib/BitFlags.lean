/-
# ZeroExApi.Lib.BitFlags — sets of small numbers kept in the bits of one

A flag is a number with a single bit, a set of flags is the union `|||` of its members.  Everything
is read bit by bit: the bits of the union of a list of flags are the indices of the list
(`testBit_mergeFlags`), and from that come the two tests a caller makes, that the union is one given
flag (`mergeFlags_eq_flag_iff`) and that it adds nothing to a mask (`or_eq_left_iff`).
-/

import Mathlib.Data.Nat.Bitwise

namespace ZeroExApi.Lib.BitFlags

/-- The flag of an index. -/
def flag (i : ℕ) : ℕ := 1 <<< i

/-- The union of a list of flags. -/
def mergeFlags (flags : List ℕ) : ℕ := flags.foldl (fun merged current => merged ||| current) 0

@[simp]
theorem testBit_flag (i j : ℕ) : (flag i).testBit j = decide (i = j) := by
  rw [flag, Nat.one_shiftLeft, Nat.testBit_two_pow]

theorem testBit_foldl_or (flags : List ℕ) (merged i : ℕ) :
    (flags.foldl (fun merged current => merged ||| current) merged).testBit i =
      (merged.testBit i || flags.any fun f => f.testBit i) := by
  induction flags generalizing merged with
  | nil => simp
  | cons f fs ih => rw [List.foldl_cons, ih, Nat.testBit_or, List.any_cons, Bool.or_assoc]

/-- The bits of a union of flags are the indices of the flags. -/
theorem testBit_mergeFlags (is : List ℕ) (i : ℕ) :
    (mergeFlags (is.map flag)).testBit i = true ↔ i ∈ is := by
  rw [mergeFlags, testBit_foldl_or, Nat.zero_testBit, Bool.false_or, List.any_map]
  simp

/-- A union of flags is one flag when every member is that flag, and there is one. -/
theorem mergeFlags_eq_flag_iff {is : List ℕ} {i : ℕ} :
    mergeFlags (is.map flag) = flag i ↔ i ∈ is ∧ ∀ j ∈ is, j = i := by
  constructor
  · intro h
    have hbits : ∀ j, j ∈ is ↔ i = j := fun j => by
      rw [← testBit_mergeFlags, h, testBit_flag, decide_eq_true_iff]
    exact ⟨(hbits i).mpr rfl, fun j hj => ((hbits j).mp hj).symm⟩
  · rintro ⟨hi, hall⟩
    apply Nat.eq_of_testBit_eq
    intro j
    rw [Bool.eq_iff_iff, testBit_mergeFlags, testBit_flag, decide_eq_true_iff]
    constructor
    · intro hj
      exact (hall j hj).symm
    · rintro rfl
      exact hi

/-- A union adds nothing to a mask when each of its bits is one of the mask's. -/
theorem or_eq_left_iff {mask flags : ℕ} :
    mask ||| flags = mask ↔ ∀ i, flags.testBit i = true → mask.testBit i = true := by
  constructor
  · intro h i hi
    rw [← h, Nat.testBit_or, hi, Bool.or_true]
  · intro h
    apply Nat.eq_of_testBit_eq
    intro i
    rw [Nat.testBit_or]
    rcases Bool.eq_false_or_eq_true (flags.testBit i) with hi | hi
    · rw [hi, h i hi, Bool.or_true]
    · rw [hi, Bool.or_false]

/-- A union makes a mask into the mask and one further flag when it has that flag and otherwise
only bits of the mask. -/
theorem or_eq_or_flag_iff {mask flags i : ℕ} (hi : mask.testBit i = false) :
    mask ||| flags = mask ||| flag i ↔
      flags.testBit i = true ∧ ∀ j, flags.testBit j = true → j = i ∨ mask.testBit j = true := by
  constructor
  · intro h
    have hbits : ∀ j, (mask.testBit j || flags.testBit j) = (mask.testBit j || decide (i = j)) :=
      fun j => by rw [← testBit_flag, ← Nat.testBit_or, ← Nat.testBit_or, h]
    refine ⟨?_, fun j hj => ?_⟩
    · simpa [hi] using hbits i
    · have hj' := hbits j
      rw [hj, Bool.or_true, eq_comm, Bool.or_eq_true, decide_eq_true_iff] at hj'
      exact hj'.symm.imp Eq.symm id
  · rintro ⟨hset, hsub⟩
    apply Nat.eq_of_testBit_eq
    intro j
    rw [Nat.testBit_or, Nat.testBit_or, testBit_flag]
    rcases Bool.eq_false_or_eq_true (flags.testBit j) with hj | hj
    · rcases hsub j hj with rfl | hmask
      · simp [hj]
      · simp [hmask]
    · have hne : i ≠ j := fun heq => by
        rw [heq, hj] at hset
        exact absurd hset Bool.false_ne_true
      simp [hj, hne]

end ZeroExApi.Lib.BitFlags
