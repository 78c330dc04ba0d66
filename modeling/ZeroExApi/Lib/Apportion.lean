/-
# ZeroExApi.Lib.Apportion — an integer amount divided in proportion, each share rounded up

An amount is divided among weights; a share is the exact proportion rounded up to an integer.  The
shares cover the amount (`le_sum_ceilShare`), and they cover it exactly when no share had to be
rounded (`sum_ceilShare_eq_iff`).  What some shares, rounded in whatever way, have beyond the exact
proportions is their `shareExcess`, and it decides whether they leave something of the amount
(`sum_share_lt_iff`).

When the weights are taken one after the other, the shares of what has been taken so far
(`prefixShares`) rise to the whole amount.
-/

import Mathlib.Data.Rat.Floor
import Mathlib.Algebra.Order.Floor.Ring
import Mathlib.Algebra.Order.BigOperators.Group.List
import Mathlib.Algebra.BigOperators.Ring.List
import Mathlib.Tactic.Linarith
import Mathlib.Tactic.FieldSimp
import Mathlib.Tactic.Positivity
import Mathlib.Tactic.Push

namespace ZeroExApi.Lib.Apportion

/-- The share of a weight in a total, rounded up. -/
def ceilShare (amount : ℕ) (total weight : ℚ) : ℤ := ⌈amount * weight / total⌉

/-- The share of a weight is an integer before it is rounded. -/
def Exact (amount : ℕ) (total weight : ℚ) : Prop := ∃ n : ℤ, amount * weight = n * total

/-- What the shares of some weights have beyond the exact proportions. -/
def shareExcess (share : ℚ → ℤ) (amount : ℕ) (total : ℚ) (weights : List ℚ) : ℚ :=
  (weights.map fun w => (share w : ℚ) - amount * w / total).sum

/-- What rounding up adds to the shares of some weights. -/
def roundingExcess (amount : ℕ) (total : ℚ) (weights : List ℚ) : ℚ :=
  shareExcess (ceilShare amount total) amount total weights

variable {amount : ℕ} {total weight : ℚ}

/-! ## One share -/

theorem exact_iff (htotal : 0 < total) :
    Exact amount total weight ↔ (ceilShare amount total weight : ℚ) = amount * weight / total := by
  constructor
  · rintro ⟨n, hn⟩
    have hshare : (amount : ℚ) * weight / total = n := by
      rw [hn, mul_div_assoc, div_self htotal.ne', mul_one]
    rw [ceilShare, hshare, Int.ceil_intCast]
  · intro h
    exact ⟨ceilShare amount total weight, by rw [h]; field_simp⟩

theorem le_ceilShare : (amount : ℚ) * weight / total ≤ ceilShare amount total weight :=
  Int.le_ceil _

theorem ceilShare_nonneg (htotal : 0 < total) (hweight : 0 ≤ weight) :
    0 ≤ ceilShare amount total weight := by
  apply Int.ceil_nonneg
  positivity

theorem ceilShare_pos (htotal : 0 < total) (hamount : 0 < amount) (hweight : 0 < weight) :
    0 < ceilShare amount total weight := by
  apply Int.ceil_pos.mpr
  have : (0 : ℚ) < amount := by exact_mod_cast hamount
  positivity

/-- No share is larger than the amount. -/
theorem ceilShare_le (amount : ℕ) (htotal : 0 < total) (hweight : weight ≤ total) :
    ceilShare amount total weight ≤ amount := by
  apply Int.ceil_le.mpr
  rw [div_le_iff₀ htotal]
  push_cast
  exact mul_le_mul_of_nonneg_left hweight (Nat.cast_nonneg amount)

/-- A larger weight has no smaller share. -/
theorem ceilShare_mono (amount : ℕ) (htotal : 0 < total) {weight' : ℚ} (h : weight ≤ weight') :
    ceilShare amount total weight ≤ ceilShare amount total weight' := by
  apply Int.ceil_le_ceil
  apply div_le_div_of_nonneg_right _ htotal.le
  exact mul_le_mul_of_nonneg_left h (Nat.cast_nonneg amount)

/-- The whole weight has the whole amount. -/
theorem ceilShare_total (amount : ℕ) (htotal : 0 < total) :
    ceilShare amount total total = amount := by
  rw [ceilShare, mul_div_assoc, div_self htotal.ne', mul_one]
  exact Int.ceil_natCast amount

/-! ## The sum of the shares -/

/-- Shares are the exact proportion of their weights and what they have beyond it. -/
theorem sum_share (share : ℚ → ℤ) (amount : ℕ) (total : ℚ) (weights : List ℚ) :
    ((weights.map share).sum : ℚ) =
      amount * weights.sum / total + shareExcess share amount total weights := by
  induction weights with
  | nil => simp [shareExcess]
  | cons w ws ih =>
    simp only [shareExcess, List.map_cons, List.sum_cons, Int.cast_add] at ih ⊢
    rw [ih]
    ring

/-- The rounded shares are the exact share of their weights and what rounding added. -/
theorem sum_ceilShare (amount : ℕ) (total : ℚ) (weights : List ℚ) :
    ((weights.map (ceilShare amount total)).sum : ℚ) =
      amount * weights.sum / total + roundingExcess amount total weights :=
  sum_share _ amount total weights

theorem roundingExcess_nonneg (amount : ℕ) (total : ℚ) (weights : List ℚ) :
    0 ≤ roundingExcess amount total weights := by
  apply List.sum_nonneg
  intro x hx
  obtain ⟨w, _, rfl⟩ := List.mem_map.mp hx
  exact sub_nonneg.mpr le_ceilShare

theorem roundingExcess_eq_zero_iff (htotal : 0 < total) (weights : List ℚ) :
    roundingExcess amount total weights = 0 ↔ ∀ w ∈ weights, Exact amount total w := by
  induction weights with
  | nil => simp [roundingExcess, shareExcess]
  | cons w ws ih =>
    have hstep : roundingExcess amount total (w :: ws) =
        (ceilShare amount total w - amount * w / total) + roundingExcess amount total ws := rfl
    have hw : (0 : ℚ) ≤ ceilShare amount total w - amount * w / total :=
      sub_nonneg.mpr le_ceilShare
    rw [hstep, add_eq_zero_iff_of_nonneg hw (roundingExcess_nonneg amount total ws), ih,
      sub_eq_zero, ← exact_iff htotal, List.forall_mem_cons]

/-- The shares of all weights cover the amount. -/
theorem le_sum_ceilShare (amount : ℕ) {weights : List ℚ} (htotal : 0 < total)
    (hsum : weights.sum = total) :
    (amount : ℤ) ≤ (weights.map (ceilShare amount total)).sum := by
  have h := sum_ceilShare amount total weights
  have hshare : (amount : ℚ) * weights.sum / total = amount := by
    rw [hsum, mul_div_assoc, div_self htotal.ne', mul_one]
  have hexcess := roundingExcess_nonneg amount total weights
  have hle : (amount : ℚ) ≤ ((weights.map (ceilShare amount total)).sum : ℤ) := by
    rw [h, hshare]
    exact le_add_of_nonneg_right hexcess
  exact_mod_cast hle

/-- They cover it exactly when no share had to be rounded. -/
theorem sum_ceilShare_eq_iff (amount : ℕ) {weights : List ℚ} (htotal : 0 < total)
    (hsum : weights.sum = total) :
    (weights.map (ceilShare amount total)).sum = (amount : ℤ) ↔
      ∀ w ∈ weights, Exact amount total w := by
  have h := sum_ceilShare amount total weights
  have hshare : (amount : ℚ) * weights.sum / total = amount := by
    rw [hsum, mul_div_assoc, div_self htotal.ne', mul_one]
  rw [hshare] at h
  rw [← roundingExcess_eq_zero_iff htotal]
  constructor
  · intro heq
    have hcast : ((weights.map (ceilShare amount total)).sum : ℚ) = amount := by exact_mod_cast heq
    linarith
  · intro hzero
    rw [hzero, add_zero] at h
    exact_mod_cast h

/-- Some shares leave a part of the amount when they have less beyond their proportions than the
exact share of the remaining weight. -/
theorem sum_share_lt_iff (share : ℚ → ℤ) (amount : ℕ) {weights : List ℚ} (htotal : 0 < total) :
    (weights.map share).sum < (amount : ℤ) ↔
      shareExcess share amount total weights < amount * (total - weights.sum) / total := by
  have h := sum_share share amount total weights
  have hsplit : (amount : ℚ) * (total - weights.sum) / total =
      amount - amount * weights.sum / total := by
    field_simp
  rw [hsplit, ← Int.cast_lt (R := ℚ), h, Int.cast_natCast]
  constructor
  · intro hlt
    linarith
  · intro hlt
    linarith

/-! ## The shares of the first weights -/

/-- For each weight, the share of all weights up to and with it. -/
def prefixShares (amount : ℕ) (weights : List ℚ) : List ℤ :=
  (List.range weights.length).map fun i => ceilShare amount weights.sum (weights.take (i + 1)).sum

theorem length_prefixShares (amount : ℕ) (weights : List ℚ) :
    (prefixShares amount weights).length = weights.length := by
  simp [prefixShares]

section PrefixShares

variable {weights : List ℚ}

/-- Of positive weights, the sum of the first ones grows with their number. -/
theorem sum_take_mono (hpos : ∀ w ∈ weights, 0 < w) {i j : ℕ} (hij : i ≤ j) :
    (weights.take i).sum ≤ (weights.take j).sum := by
  apply (List.take_sublist_take_left hij).sum_le_sum
  intro w hw
  exact (hpos w (List.mem_of_mem_take hw)).le

theorem sum_take_pos (hpos : ∀ w ∈ weights, 0 < w) {i : ℕ} (hi : i < weights.length) :
    0 < (weights.take (i + 1)).sum := by
  apply List.sum_pos
  · intro w hw
    exact hpos w (List.mem_of_mem_take hw)
  · intro hnil
    have hlen := congrArg List.length hnil
    rw [List.length_take, List.length_nil] at hlen
    omega

theorem sum_take_le (hpos : ∀ w ∈ weights, 0 < w) (i : ℕ) : (weights.take i).sum ≤ weights.sum := by
  apply (List.take_sublist i weights).sum_le_sum
  intro w hw
  exact (hpos w hw).le

theorem total_pos (hpos : ∀ w ∈ weights, 0 < w) {i : ℕ} (hi : i < weights.length) :
    0 < weights.sum :=
  lt_of_lt_of_le (sum_take_pos hpos hi) (sum_take_le hpos (i + 1))

theorem sorted_prefixShares (amount : ℕ) (hpos : ∀ w ∈ weights, 0 < w) :
    (prefixShares amount weights).Pairwise (· ≤ ·) := by
  rw [prefixShares, List.pairwise_map]
  refine List.pairwise_lt_range.imp_of_mem ?_
  intro i j hi _ hij
  have htotal := total_pos hpos (List.mem_range.mp hi)
  exact ceilShare_mono amount htotal (sum_take_mono hpos (Nat.succ_le_succ hij.le))

theorem prefixShares_le (amount : ℕ) (hpos : ∀ w ∈ weights, 0 < w) :
    ∀ share ∈ prefixShares amount weights, share ≤ amount := by
  intro share hshare
  obtain ⟨i, hi, rfl⟩ := List.mem_map.mp hshare
  exact ceilShare_le amount (total_pos hpos (List.mem_range.mp hi)) (sum_take_le hpos (i + 1))

theorem prefixShares_nonneg (amount : ℕ) (hpos : ∀ w ∈ weights, 0 < w) :
    ∀ share ∈ prefixShares amount weights, 0 ≤ share := by
  intro share hshare
  obtain ⟨i, hi, rfl⟩ := List.mem_map.mp hshare
  have hi := List.mem_range.mp hi
  exact ceilShare_nonneg (total_pos hpos hi) (sum_take_pos hpos hi).le

theorem prefixShares_pos {amount : ℕ} (hamount : 0 < amount) (hpos : ∀ w ∈ weights, 0 < w) :
    ∀ share ∈ prefixShares amount weights, 0 < share := by
  intro share hshare
  obtain ⟨i, hi, rfl⟩ := List.mem_map.mp hshare
  have hi := List.mem_range.mp hi
  exact ceilShare_pos (total_pos hpos hi) hamount (sum_take_pos hpos hi)

/-- The last share is the whole amount. -/
theorem getLast?_prefixShares (amount : ℕ) (hne : weights ≠ []) (hpos : ∀ w ∈ weights, 0 < w) :
    (prefixShares amount weights).getLast? = some (amount : ℤ) := by
  obtain ⟨n, hn⟩ := Nat.exists_eq_succ_of_ne_zero (mt List.length_eq_zero_iff.mp hne)
  rw [prefixShares, hn, List.range_succ, List.map_append, List.map_singleton,
    List.getLast?_append_of_ne_nil _ (List.cons_ne_nil _ _), List.getLast?_singleton]
  rw [List.take_of_length_le hn.le,
    ceilShare_total amount (total_pos hpos (hn ▸ Nat.lt_succ_self n))]

end PrefixShares

end ZeroExApi.Lib.Apportion
