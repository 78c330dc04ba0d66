/-
# ZeroExApi.Lib.JsNumber — JavaScript's numbers, and the decimals they are written with

A number is kept to 53 binary digits (`double`, the nearest such number, ties to the even one), and
it is written with the fewest decimal digits that name it (`shortest`).  `number` is one after the
other: the decimal that stands for a sum.  Exponents are not bounded: there is no overflow and there
are no subnormal numbers.

Both steps keep the order of numbers, the second because the decimal of a number names it
(`double_shortest`).
-/

import Mathlib.Data.Int.Log
import Mathlib.Data.Rat.Floor
import Mathlib.Order.Monotone.Odd
import Mathlib.Tactic.Linarith
import Mathlib.Tactic.NormNum
import Mathlib.Tactic.Positivity
import Mathlib.Tactic.Ring

namespace ZeroExApi.Lib.JsNumber

/-! ## The nearest integer -/

/-- The nearest integer, of two the even one. -/
def roundEven (q : ℚ) : ℤ :=
  if Int.fract q < 1 / 2 then
    ⌊q⌋
  else if 1 / 2 < Int.fract q then
    ⌊q⌋ + 1
  else if ⌊q⌋ % 2 = 0 then
    ⌊q⌋
  else
    ⌊q⌋ + 1

@[simp]
theorem roundEven_intCast (z : ℤ) : roundEven z = z := by
  simp [roundEven]

theorem floor_le_roundEven (q : ℚ) : ⌊q⌋ ≤ roundEven q := by
  unfold roundEven
  split_ifs <;> omega

theorem roundEven_le_floor_add (q : ℚ) : roundEven q ≤ ⌊q⌋ + 1 := by
  unfold roundEven
  split_ifs <;> omega

theorem roundEven_mono {p q : ℚ} (hpq : p ≤ q) : roundEven p ≤ roundEven q := by
  rcases (Int.floor_mono hpq).lt_or_eq with hlt | heq
  · calc roundEven p ≤ ⌊p⌋ + 1 := roundEven_le_floor_add p
      _ ≤ ⌊q⌋ := Int.add_one_le_iff.mpr hlt
      _ ≤ roundEven q := floor_le_roundEven q
  · -- of the same whole part, the fractions decide
    have hfract : Int.fract p ≤ Int.fract q := by
      unfold Int.fract
      rw [heq]
      linarith
    unfold roundEven
    rw [heq]
    split_ifs <;> first | omega | (exfalso; linarith)

theorem roundEven_neg (q : ℚ) : roundEven (-q) = -roundEven q := by
  by_cases hint : Int.fract q = 0
  · obtain ⟨z, rfl⟩ := Int.fract_eq_zero_iff.mp hint
    rw [← Int.cast_neg, roundEven_intCast, roundEven_intCast]
  · have hfract := Int.fract_neg hint
    have hfloor : ⌊-q⌋ = -⌊q⌋ - 1 := by
      have h₁ := Int.self_sub_floor q
      have h₂ := Int.self_sub_floor (-q)
      have hcast : ((⌊-q⌋ : ℤ) : ℚ) = ((-⌊q⌋ - 1 : ℤ) : ℚ) := by
        push_cast
        linarith
      exact_mod_cast hcast
    unfold roundEven
    rw [hfract, hfloor]
    split_ifs <;> first | omega | (exfalso; linarith)

/-! ## 53 binary digits -/

/-- The unit in which a number of 53 digits is counted. -/
def ulp (q : ℚ) : ℚ := 2 ^ (Int.log 2 |q| - 52)

/-- The nearest number of 53 digits. -/
def double (q : ℚ) : ℚ := roundEven (q / ulp q) * ulp q

theorem ulp_pos (q : ℚ) : 0 < ulp q := zpow_pos two_pos _

theorem ulp_neg (q : ℚ) : ulp (-q) = ulp q := by rw [ulp, abs_neg, ulp]

theorem double_neg (q : ℚ) : double (-q) = -double q := by
  rw [double, ulp_neg, neg_div, roundEven_neg]
  push_cast
  rw [neg_mul, double]

@[simp]
theorem double_zero : double 0 = 0 := by
  rw [double, zero_div, ← Int.cast_zero, roundEven_intCast, Int.cast_zero, zero_mul]

section Positive

variable {q : ℚ}

/-- A positive number is between two powers of two. -/
theorem between_powers (hq : 0 < q) :
    (2 : ℚ) ^ Int.log 2 q ≤ q ∧ q < 2 ^ (Int.log 2 q + 1) :=
  ⟨by exact_mod_cast Int.zpow_log_le_self (b := 2) one_lt_two hq,
    by exact_mod_cast Int.lt_zpow_succ_log_self (b := 2) one_lt_two q⟩

theorem ulp_of_pos (hq : 0 < q) : ulp q = 2 ^ (Int.log 2 q - 52) := by rw [ulp, abs_of_pos hq]

/-- The count of a number is between 2^52 and 2^53. -/
theorem count_bounds (hq : 0 < q) :
    (2 : ℤ) ^ 52 ≤ roundEven (q / ulp q) ∧ roundEven (q / ulp q) ≤ 2 ^ 53 := by
  obtain ⟨hlow, hhigh⟩ := between_powers hq
  have hulp := ulp_pos q
  have heq := ulp_of_pos hq
  have htwo : (2 : ℚ) ≠ 0 := two_ne_zero
  have hlow' : (((2 : ℤ) ^ 52 : ℤ) : ℚ) ≤ q / ulp q := by
    rw [le_div_iff₀ hulp, heq]
    push_cast
    calc (2 : ℚ) ^ 52 * 2 ^ (Int.log 2 q - 52) = 2 ^ Int.log 2 q := by
          rw [← zpow_natCast, ← zpow_add₀ htwo]
          congr 1
          omega
      _ ≤ q := hlow
  have hhigh' : q / ulp q ≤ (((2 : ℤ) ^ 53 : ℤ) : ℚ) := by
    rw [div_le_iff₀ hulp, heq]
    push_cast
    calc q ≤ 2 ^ (Int.log 2 q + 1) := hhigh.le
      _ = (2 : ℚ) ^ 53 * 2 ^ (Int.log 2 q - 52) := by
          rw [← zpow_natCast, ← zpow_add₀ htwo]
          congr 1
          omega
  have h₁ := roundEven_mono hlow'
  have h₂ := roundEven_mono hhigh'
  rw [roundEven_intCast] at h₁ h₂
  exact ⟨h₁, h₂⟩

/-- A rounded number is between the same powers of two. -/
theorem double_bounds (hq : 0 < q) :
    (2 : ℚ) ^ Int.log 2 q ≤ double q ∧ double q ≤ 2 ^ (Int.log 2 q + 1) := by
  obtain ⟨hlow, hhigh⟩ := count_bounds hq
  have hulp := (ulp_pos q).le
  have htwo : (2 : ℚ) ≠ 0 := two_ne_zero
  have hlow' : ((2 : ℚ) ^ 52) ≤ roundEven (q / ulp q) := by exact_mod_cast hlow
  have hhigh' : (roundEven (q / ulp q) : ℚ) ≤ 2 ^ 53 := by exact_mod_cast hhigh
  have hdown : (2 : ℚ) ^ Int.log 2 q = 2 ^ 52 * ulp q := by
    rw [ulp_of_pos hq, ← zpow_natCast, ← zpow_add₀ htwo]
    congr 1
    omega
  have hup : (2 : ℚ) ^ (Int.log 2 q + 1) = 2 ^ 53 * ulp q := by
    rw [ulp_of_pos hq, ← zpow_natCast, ← zpow_add₀ htwo]
    congr 1
    omega
  rw [hdown, hup]
  exact ⟨mul_le_mul_of_nonneg_right hlow' hulp, mul_le_mul_of_nonneg_right hhigh' hulp⟩

theorem double_pos (hq : 0 < q) : 0 < double q :=
  (zpow_pos two_pos _).trans_le (double_bounds hq).1

end Positive

theorem double_mono : Monotone double := by
  apply monotone_of_odd_of_monotoneOn_nonneg double_neg
  intro p hp q _ hpq
  rcases (Set.mem_Ici.mp hp).lt_or_eq with hp | rfl
  · have hq := hp.trans_le hpq
    rcases (Int.log_mono_right (b := 2) hp hpq).lt_or_eq with hlt | heq
    · -- a power of two is between the two numbers
      calc double p ≤ 2 ^ (Int.log 2 p + 1) := (double_bounds hp).2
        _ ≤ 2 ^ Int.log 2 q := zpow_le_zpow_right₀ one_le_two hlt
        _ ≤ double q := (double_bounds hq).1
    · have hulp : ulp p = ulp q := by rw [ulp_of_pos hp, ulp_of_pos hq, heq]
      unfold double
      rw [hulp]
      apply mul_le_mul_of_nonneg_right _ (ulp_pos q).le
      exact_mod_cast roundEven_mono (div_le_div_of_nonneg_right hpq (ulp_pos q).le)
  · rw [double_zero]
    rcases hpq.lt_or_eq with hq | rfl
    · exact (double_pos hq).le
    · rw [double_zero]

/-- A number counted in its own unit is kept. -/
theorem double_of_count {q : ℚ} {m : ℤ} (h : q = m * ulp q) : double q = q := by
  have hcount : q / ulp q = m := by
    rw [div_eq_iff (ulp_pos q).ne']
    exact h
  rw [double, hcount, roundEven_intCast]
  exact h.symm

/-- What is rounded is kept as it is. -/
theorem double_double (q : ℚ) : double (double q) = double q := by
  rcases lt_trichotomy q 0 with hneg | rfl | hpos
  · have hpos : 0 < -q := neg_pos.mpr hneg
    have h := double_double_of_pos hpos
    rwa [double_neg, double_neg, neg_inj] at h
  · rw [double_zero, double_zero]
  · exact double_double_of_pos hpos
where
  double_double_of_pos {q : ℚ} (hq : 0 < q) : double (double q) = double q := by
    obtain ⟨hlow, hhigh⟩ := double_bounds hq
    have hpos := double_pos hq
    rcases hhigh.lt_or_eq with hlt | heq
    · -- the same power of two
      have hlog : Int.log 2 (double q) = Int.log 2 q := by
        apply le_antisymm
        · have h := (Int.lt_zpow_iff_log_lt (b := 2) one_lt_two hpos).mp (by exact_mod_cast hlt)
          omega
        · exact (Int.zpow_le_iff_le_log (b := 2) one_lt_two hpos).mp (by exact_mod_cast hlow)
      apply double_of_count (m := roundEven (q / ulp q))
      rw [ulp_of_pos hpos, hlog, ← ulp_of_pos hq]
      rfl
    · -- the next power of two, which is counted as 2^52
      have hlog : Int.log 2 (double q) = Int.log 2 q + 1 := by
        rw [heq]
        exact_mod_cast Int.log_zpow (R := ℚ) (b := 2) one_lt_two (Int.log 2 q + 1)
      apply double_of_count (m := 2 ^ 52)
      rw [ulp_of_pos hpos, hlog, heq]
      rw [Int.cast_pow, Int.cast_ofNat, ← zpow_natCast, ← zpow_add₀ two_ne_zero]
      congr 1
      omega

/-! ## The decimal that is written -/

/-- The decimals of so many digits next to a number, the nearest one first. -/
def candidates (x : ℚ) (digits : ℕ) : List ℚ :=
  let unit : ℚ := 10 ^ (Int.log 10 |x| + 1 - digits)
  [roundEven (x / unit), ⌊x / unit⌋, ⌈x / unit⌉].map fun s : ℤ => s * unit

/-- The decimal of the fewest digits, the nearest of these, that names the number; 17 digits always
do. -/
def shortest (x : ℚ) : ℚ :=
  (((List.range 17).flatMap fun i => candidates x (i + 1)).find? fun c => double c = x).getD x

theorem double_shortest {x : ℚ} (h : double x = x) : double (shortest x) = x := by
  unfold shortest
  cases hfind : ((List.range 17).flatMap fun i => candidates x (i + 1)).find?
      fun c => double c = x with
  | none => exact h
  | some c =>
    have hnames := List.find?_some hfind
    exact of_decide_eq_true hnames

/-- The decimal that stands for a number. -/
def number (q : ℚ) : ℚ := shortest (double q)

theorem number_mono : Monotone number := by
  intro p q hpq
  rcases (double_mono hpq).lt_or_eq with hlt | heq
  · -- decimals in the other order would name numbers in the other order
    by_contra hgt
    have hle := double_mono (not_le.mp hgt).le
    unfold number at hle
    rw [double_shortest (double_double p), double_shortest (double_double q)] at hle
    exact absurd hle (not_le.mpr hlt)
  · rw [number, heq, number]

theorem number_zero : number 0 = 0 := by decide +kernel

theorem number_one : number 1 = 1 := by decide +kernel

/-- What 1 - 0.9 and 1 - 0.7 are written as. -/
example : number (1 - double 0.9) = 0.09999999999999998 ∧
    number (1 - double 0.7) = 0.30000000000000004 := by decide +kernel

end ZeroExApi.Lib.JsNumber
