/-
# ZeroExApi.Lib.BigNumber — extended rationals with the arithmetic of an arbitrary-precision library

A number is a finite rational, one of two infinities, or `nan`, and every operation is total, as in
an arbitrary-precision decimal library whose division never raises: `0 / 0` is `nan`, `x / 0` is an
infinity, every comparison with `nan` is false.  Of the quotient of finite numbers the library keeps
what the `Arithmetic` says, such as a number of decimals (`decimalQuotient`); every other operation
is exact.  The sign of zero is not modelled (`x / 0` takes the sign of `x`).

The `fin` lemmas are the simp set: on finite numbers each operation is the rational one.
-/

import ZeroExApi.Lib.Arithmetic
import Mathlib.Data.Rat.Floor
import Mathlib.Algebra.Order.Floor.Ring
import Mathlib.Tactic.Linarith
import Mathlib.Tactic.NormNum
import Mathlib.Tactic.Ring
import Mathlib.Tactic.FieldSimp

namespace ZeroExApi.Lib

/-- A number of the library. -/
inductive BigNumber where
  | nan
  | inf (negative : Bool)
  | fin (value : ℚ)
  deriving DecidableEq

/-- The rounding modes of `integerValue`. -/
inductive RoundingMode where
  | up
  | down
  | ceil
  | floor
  | halfUp
  deriving DecidableEq

namespace BigNumber

/-! ## Construction and tests -/

instance : OfNat BigNumber n := ⟨fin (OfNat.ofNat n)⟩

instance : Inhabited BigNumber := ⟨0⟩

@[simp]
theorem zero_eq : (0 : BigNumber) = fin 0 := rfl

@[simp]
theorem one_eq : (1 : BigNumber) = fin 1 := rfl

/-- `isFinite`: neither infinite nor `nan`. -/
def isFinite : BigNumber → Bool
  | fin _ => true
  | _ => false

/-- `isNaN`. -/
def isNaN : BigNumber → Bool
  | nan => true
  | _ => false

@[simp] theorem isFinite_fin (q : ℚ) : (fin q).isFinite = true := rfl
@[simp] theorem isFinite_inf (b : Bool) : (inf b).isFinite = false := rfl
@[simp] theorem isFinite_nan : nan.isFinite = false := rfl

theorem isFinite_iff {x : BigNumber} : x.isFinite = true ↔ ∃ q, x = fin q := by
  cases x with
  | nan => simp
  | inf b => simp
  | fin q => simp

/-- The rational a finite number is, and zero otherwise. -/
def toRat : BigNumber → ℚ
  | fin q => q
  | _ => 0

@[simp] theorem toRat_fin (q : ℚ) : (fin q).toRat = q := rfl

/-- `isZero`. -/
def isZero : BigNumber → Bool
  | fin q => decide (q = 0)
  | _ => false

/-- Falsy as a JavaScript number: zero or `nan`. -/
def isFalsy (x : BigNumber) : Bool := x.isNaN || x.isZero

@[simp] theorem isFalsy_fin (q : ℚ) : (fin q).isFalsy = decide (q = 0) := by
  simp [isFalsy, isNaN, isZero]

@[simp] theorem isZero_fin (q : ℚ) : (fin q).isZero = decide (q = 0) := rfl

/-! ## Arithmetic -/

/-- `negated`. -/
def neg : BigNumber → BigNumber
  | nan => nan
  | inf b => inf !b
  | fin q => fin (-q)

/-- `plus`: infinities of opposite signs give `nan`. -/
def plus : BigNumber → BigNumber → BigNumber
  | nan, _ => nan
  | _, nan => nan
  | inf a, inf b => if a = b then inf a else nan
  | inf a, fin _ => inf a
  | fin _, inf b => inf b
  | fin p, fin q => fin (p + q)

/-- `minus`. -/
def minus (x y : BigNumber) : BigNumber := x.plus y.neg

/-- `times`: zero times an infinity is `nan`. -/
def times : BigNumber → BigNumber → BigNumber
  | nan, _ => nan
  | _, nan => nan
  | inf a, inf b => inf (a != b)
  | inf a, fin q => if q = 0 then nan else inf (a != decide (q < 0))
  | fin q, inf b => if q = 0 then nan else inf (decide (q < 0) != b)
  | fin p, fin q => fin (p * q)

/-- `dividedBy`. -/
def div [Arithmetic] : BigNumber → BigNumber → BigNumber
  | nan, _ => nan
  | _, nan => nan
  | inf _, inf _ => nan
  | inf a, fin q => inf (a != decide (q < 0))
  | fin _, inf _ => fin 0
  | fin p, fin q =>
    if q = 0 then
      (if p = 0 then nan else inf (decide (p < 0)))
    else
      fin (Arithmetic.quotient (p / q))

/-- `pow`, of a natural exponent. -/
def pow (x : BigNumber) : ℕ → BigNumber
  | 0 => 1
  | n + 1 => (pow x n).times x

/-- `absoluteValue`. -/
def abs : BigNumber → BigNumber
  | nan => nan
  | inf _ => inf false
  | fin q => fin |q|

/-- `sum` of the arguments, from the left; without arguments it is `nan`. -/
def sum : List BigNumber → BigNumber
  | [] => nan
  | x :: xs => xs.foldl plus x

@[simp] theorem neg_fin (q : ℚ) : (fin q).neg = fin (-q) := rfl
@[simp] theorem plus_fin (p q : ℚ) : (fin p).plus (fin q) = fin (p + q) := rfl
@[simp] theorem times_fin (p q : ℚ) : (fin p).times (fin q) = fin (p * q) := rfl
@[simp] theorem plus_nan (x : BigNumber) : x.plus nan = nan := by cases x <;> rfl
@[simp] theorem nan_plus (x : BigNumber) : nan.plus x = nan := by cases x <;> rfl
@[simp] theorem times_nan (x : BigNumber) : x.times nan = nan := by cases x <;> rfl
@[simp] theorem nan_times (x : BigNumber) : nan.times x = nan := by cases x <;> rfl

@[simp]
theorem minus_fin (p q : ℚ) : (fin p).minus (fin q) = fin (p - q) := by
  simp [minus, sub_eq_add_neg]

theorem plus_comm (x y : BigNumber) : x.plus y = y.plus x := by
  cases x with
  | nan => rw [nan_plus, plus_nan]
  | inf a =>
    cases y with
    | nan => rfl
    | inf b => cases a <;> cases b <;> rfl
    | fin q => rfl
  | fin p =>
    cases y with
    | nan => rfl
    | inf b => rfl
    | fin q => rw [plus_fin, plus_fin, add_comm]

theorem plus_assoc (x y z : BigNumber) : (x.plus y).plus z = x.plus (y.plus z) := by
  rcases x with _ | a | p
  · simp only [nan_plus]
  · rcases y with _ | b | q
    · simp only [nan_plus, plus_nan]
    · rcases z with _ | c | r
      · simp only [plus_nan]
      · cases a <;> cases b <;> cases c <;> rfl
      · cases a <;> cases b <;> rfl
    · rcases z with _ | c | r
      · simp only [plus_nan]
      · rfl
      · rfl
  · rcases y with _ | b | q
    · simp only [nan_plus, plus_nan]
    · rcases z with _ | c | r
      · simp only [plus_nan]
      · cases b <;> cases c <;> rfl
      · rfl
    · rcases z with _ | c | r
      · simp only [plus_nan]
      · rfl
      · simp only [plus_fin, add_assoc]

@[simp]
theorem plus_zero (x : BigNumber) : x.plus (fin 0) = x := by
  rcases x with _ | a | p
  · rfl
  · rfl
  · rw [plus_fin, add_zero]

@[simp]
theorem zero_plus (x : BigNumber) : (fin 0).plus x = x := by rw [plus_comm, plus_zero]

/-- A finite sum has finite parts. -/
theorem plus_eq_fin {x y : BigNumber} {r : ℚ} (h : x.plus y = fin r) :
    ∃ p q, x = fin p ∧ y = fin q ∧ p + q = r := by
  rcases x with _ | a | p
  · rw [nan_plus] at h
    cases h
  · rcases y with _ | b | q
    · cases h
    · simp only [plus] at h
      split at h <;> cases h
    · cases h
  · rcases y with _ | b | q
    · cases h
    · cases h
    · rw [plus_fin] at h
      exact ⟨p, q, rfl, rfl, fin.inj h⟩

/-- Adding a finite number changes a number unless it is zero or the number is not finite. -/
theorem fin_plus_eq_self_iff (q : ℚ) (x : BigNumber) :
    (fin q).plus x = x ↔ q = 0 ∨ x.isFinite = false := by
  cases x with
  | nan => simp
  | inf b => exact iff_of_true rfl (.inr rfl)
  | fin p => simp

theorem div_quotient [Arithmetic] (p : ℚ) {q : ℚ} (hq : q ≠ 0) :
    (fin p).div (fin q) = fin (Arithmetic.quotient (p / q)) := by
  simp [div, hq]

/-- Where everything is kept, the quotient is that of the rationals. -/
theorem div_fin (p : ℚ) {q : ℚ} (hq : q ≠ 0) : (fin p).div (fin q) = fin (p / q) :=
  div_quotient p hq

theorem div_fin_zero [Arithmetic] {p : ℚ} (hp : p ≠ 0) :
    (fin p).div (fin 0) = inf (decide (p < 0)) := by
  simp [div, hp]

@[simp]
theorem zero_div_zero [Arithmetic] : (fin 0).div (fin 0) = nan := rfl

@[simp]
theorem pow_fin (q : ℚ) (n : ℕ) : (fin q).pow n = fin (q ^ n) := by
  induction n with
  | zero => rw [pow, pow_zero, one_eq]
  | succ n ih => rw [pow, ih, times_fin, pow_succ]

/-- A finite list of finite numbers sums to the rational sum. -/
theorem foldl_plus_fin (a : ℚ) (qs : List ℚ) :
    (qs.map fin).foldl plus (fin a) = fin (a + qs.sum) := by
  induction qs generalizing a with
  | nil => simp
  | cons q qs ih => simp [ih, add_assoc]

theorem sum_fin_cons (a : ℚ) (qs : List ℚ) : sum (fin a :: qs.map fin) = fin (a + qs.sum) :=
  foldl_plus_fin a qs

theorem sum_fin {qs : List ℚ} (h : qs ≠ []) : sum (qs.map fin) = fin qs.sum := by
  cases qs with
  | nil => exact absurd rfl h
  | cons q qs => simp [sum, foldl_plus_fin]

/-! ## Sums from zero -/

/-- The sum of a list, from zero. -/
def sumAmounts (xs : List BigNumber) : BigNumber := xs.foldl plus (fin 0)

theorem foldl_plus_eq (x : BigNumber) (xs : List BigNumber) :
    xs.foldl plus x = x.plus (sumAmounts xs) := by
  induction xs generalizing x with
  | nil => exact (plus_zero x).symm
  | cons y ys ih =>
    have hsum : sumAmounts (y :: ys) = y.plus (sumAmounts ys) := by
      show ys.foldl plus ((fin 0).plus y) = y.plus (sumAmounts ys)
      rw [zero_plus, ih]
    rw [List.foldl_cons, ih, hsum, plus_assoc]

@[simp]
theorem sumAmounts_nil : sumAmounts [] = fin 0 := rfl

@[simp]
theorem sumAmounts_cons (x : BigNumber) (xs : List BigNumber) :
    sumAmounts (x :: xs) = x.plus (sumAmounts xs) := by
  show xs.foldl plus ((fin 0).plus x) = x.plus (sumAmounts xs)
  rw [zero_plus, foldl_plus_eq]

/-- `sum` of some numbers is their sum from zero. -/
theorem sum_cons (x : BigNumber) (xs : List BigNumber) :
    sum (x :: xs) = x.plus (sumAmounts xs) := foldl_plus_eq x xs

theorem sum_eq_sumAmounts {xs : List BigNumber} (h : xs ≠ []) : sum xs = sumAmounts xs := by
  cases xs with
  | nil => exact absurd rfl h
  | cons x xs => rw [sum_cons, sumAmounts_cons]

theorem sumAmounts_append (xs ys : List BigNumber) :
    sumAmounts (xs ++ ys) = (sumAmounts xs).plus (sumAmounts ys) := by
  show (xs ++ ys).foldl plus (fin 0) = (sumAmounts xs).plus (sumAmounts ys)
  rw [List.foldl_append, foldl_plus_eq]
  rfl

theorem sumAmounts_fin {α : Type*} (f : α → ℚ) (xs : List α) :
    sumAmounts (xs.map fun x => fin (f x)) = fin (xs.map f).sum := by
  have h := foldl_plus_fin 0 (xs.map f)
  rw [List.map_map, zero_add] at h
  exact h

/-- The order of the numbers does not matter. -/
theorem sumAmounts_perm {xs ys : List BigNumber} (h : xs.Perm ys) :
    sumAmounts xs = sumAmounts ys := by
  have : RightCommutative plus :=
    ⟨fun x y z => by rw [plus_assoc, plus_comm y z, ← plus_assoc]⟩
  exact h.foldl_eq (fin 0)

/-- A sum with a number that is none is none. -/
theorem sumAmounts_of_nan_mem {xs : List BigNumber} (h : nan ∈ xs) : sumAmounts xs = nan := by
  obtain ⟨ys, zs, rfl⟩ := List.append_of_mem h
  rw [sumAmounts_append, sumAmounts_cons, nan_plus, plus_nan]

/-- Some numbers, added up while there are any to add. -/
theorem foldlM_plus {α : Type*} (f : α → Option BigNumber) (xs : List α) (total : BigNumber) :
    xs.foldlM (fun total x => (f x).map total.plus) total =
      if ∀ x ∈ xs, (f x).isSome = true then some (total.plus (sumAmounts (xs.filterMap f)))
      else none := by
  induction xs generalizing total with
  | nil => simp [plus_zero]
  | cons x xs ih =>
    rw [List.foldlM_cons]
    cases hx : f x with
    | none => simp [hx]
    | some y => simp [hx, ih, plus_assoc]

/-- A first number that is finite and not negative, and a second one that is no smaller. -/
def AmountLe (x y : BigNumber) : Prop := ∃ p q : ℚ, x = fin p ∧ y = fin q ∧ 0 ≤ p ∧ p ≤ q

/-- A number that is finite and not negative. -/
def IsAmount (x : BigNumber) : Prop := ∃ q : ℚ, x = fin q ∧ 0 ≤ q

theorem isAmount_fin {q : ℚ} : IsAmount (fin q) ↔ 0 ≤ q := by
  constructor
  · rintro ⟨_, h, hq⟩
    cases h
    exact hq
  · intro hq
    exact ⟨q, rfl, hq⟩

theorem isAmount_zero : IsAmount (fin 0) := ⟨0, rfl, le_rfl⟩

theorem AmountLe.left {x y : BigNumber} (h : AmountLe x y) : IsAmount x := by
  obtain ⟨p, q, rfl, _, hp, _⟩ := h
  exact ⟨p, rfl, hp⟩

theorem AmountLe.right {x y : BigNumber} (h : AmountLe x y) : IsAmount y := by
  obtain ⟨p, q, _, rfl, hp, hpq⟩ := h
  exact ⟨q, rfl, hp.trans hpq⟩

theorem IsAmount.refl {x : BigNumber} (h : IsAmount x) : AmountLe x x := by
  obtain ⟨q, rfl, hq⟩ := h
  exact ⟨q, q, rfl, rfl, hq, le_rfl⟩

theorem IsAmount.zero_le {x : BigNumber} (h : IsAmount x) : AmountLe (fin 0) x := by
  obtain ⟨q, rfl, hq⟩ := h
  exact ⟨0, q, rfl, rfl, le_rfl, hq⟩

theorem AmountLe.plus {x y x' y' : BigNumber} (h : AmountLe x y) (h' : AmountLe x' y') :
    AmountLe (x.plus x') (y.plus y') := by
  obtain ⟨p, q, rfl, rfl, hp, hpq⟩ := h
  obtain ⟨p', q', rfl, rfl, hp', hpq'⟩ := h'
  exact ⟨p + p', q + q', rfl, rfl, add_nonneg hp hp', add_le_add hpq hpq'⟩

/-- Amounts that are no larger one by one are no larger in sum. -/
theorem amountLe_sumAmounts {α : Type*} {f g : α → BigNumber} {xs : List α}
    (h : ∀ x ∈ xs, AmountLe (f x) (g x)) :
    AmountLe (sumAmounts (xs.map f)) (sumAmounts (xs.map g)) := by
  induction xs with
  | nil => exact isAmount_zero.refl
  | cons x xs ih =>
    rw [List.map_cons, List.map_cons, sumAmounts_cons, sumAmounts_cons]
    exact (h x List.mem_cons_self).plus (ih fun y hy => h y (List.mem_cons_of_mem _ hy))

theorem IsAmount.plus {x y : BigNumber} (hx : IsAmount x) (hy : IsAmount y) :
    IsAmount (x.plus y) := (hx.refl.plus hy.refl).left

theorem IsAmount.times {x y : BigNumber} (hx : IsAmount x) (hy : IsAmount y) :
    IsAmount (x.times y) := by
  obtain ⟨p, rfl, hp⟩ := hx
  obtain ⟨q, rfl, hq⟩ := hy
  exact ⟨p * q, rfl, mul_nonneg hp hq⟩

theorem isAmount_sumAmounts {xs : List BigNumber} (h : ∀ x ∈ xs, IsAmount x) :
    IsAmount (sumAmounts xs) := by
  have hle := amountLe_sumAmounts fun x hx => (h x hx).refl
  rw [List.map_id'] at hle
  exact hle.left

theorem IsAmount.eq_fin {x : BigNumber} (h : IsAmount x) : x = fin x.toRat := by
  obtain ⟨q, rfl, _⟩ := h
  rfl

theorem IsAmount.toRat_nonneg {x : BigNumber} (h : IsAmount x) : 0 ≤ x.toRat := by
  obtain ⟨q, rfl, hq⟩ := h
  exact hq

/-- Amounts add up as the rationals they are. -/
theorem sumAmounts_toRat {xs : List BigNumber} (h : ∀ x ∈ xs, IsAmount x) :
    sumAmounts xs = fin (xs.map toRat).sum := by
  rw [← sumAmounts_fin, List.map_congr_left fun x hx => (h x hx).eq_fin.symm, List.map_id']

/-! ## Comparisons -/

/-- `lt`. -/
def lt : BigNumber → BigNumber → Bool
  | nan, _ => false
  | _, nan => false
  | inf a, inf b => a && !b
  | inf a, fin _ => a
  | fin _, inf b => !b
  | fin p, fin q => decide (p < q)

/-- `lte`. -/
def lte : BigNumber → BigNumber → Bool
  | nan, _ => false
  | _, nan => false
  | inf a, inf b => a || !b
  | inf a, fin _ => a
  | fin _, inf b => !b
  | fin p, fin q => decide (p ≤ q)

/-- `eq`: `nan` is not equal to itself. -/
def eq : BigNumber → BigNumber → Bool
  | nan, _ => false
  | x, y => decide (x = y)

/-- `gt`. -/
def gt (x y : BigNumber) : Bool := y.lt x

/-- `gte`. -/
def gte (x y : BigNumber) : Bool := y.lte x

/-- `comparedTo`: -1, 0 or 1, and `none` (the library's `null`) when either is `nan`. -/
def comparedTo (x y : BigNumber) : Option ℤ :=
  if x.lt y then some (-1) else if x.gt y then some 1 else if x.eq y then some 0 else none

/-- `min` of two numbers: `nan` when either is. -/
def min (x y : BigNumber) : BigNumber :=
  if y.isNaN then y else if x.gt y then y else x

/-- `max` of two numbers: `nan` when either is. -/
def max (x y : BigNumber) : BigNumber :=
  if y.isNaN then y else if x.lt y then y else x

@[simp] theorem lt_fin (p q : ℚ) : (fin p).lt (fin q) = decide (p < q) := rfl
@[simp] theorem lte_fin (p q : ℚ) : (fin p).lte (fin q) = decide (p ≤ q) := rfl
@[simp] theorem gt_fin (p q : ℚ) : (fin p).gt (fin q) = decide (q < p) := rfl
@[simp] theorem gte_fin (p q : ℚ) : (fin p).gte (fin q) = decide (q ≤ p) := rfl
@[simp] theorem lt_nan (x : BigNumber) : x.lt nan = false := by cases x <;> rfl
@[simp] theorem nan_lt (x : BigNumber) : nan.lt x = false := by cases x <;> rfl

/-- What exceeds a finite bound exceeds every smaller one. -/
theorem gt_fin_mono {x : BigNumber} {p q : ℚ} (hpq : p ≤ q) (h : x.gt (fin q) = true) :
    x.gt (fin p) = true := by
  cases x with
  | nan => exact h
  | inf b => exact h
  | fin r =>
    rw [gt_fin, decide_eq_true_iff] at h ⊢
    exact lt_of_le_of_lt hpq h

@[simp]
theorem eq_fin (p q : ℚ) : (fin p).eq (fin q) = decide (p = q) := by
  simp [eq]

@[simp]
theorem min_fin (p q : ℚ) : (fin p).min (fin q) = fin (Min.min p q) := by
  by_cases h : q < p
  · simp [min, isNaN, h, min_eq_right h.le]
  · simp [min, isNaN, h, min_eq_left (not_lt.mp h)]

@[simp]
theorem max_fin (p q : ℚ) : (fin p).max (fin q) = fin (Max.max p q) := by
  by_cases h : p < q
  · simp [max, isNaN, h, max_eq_right h.le]
  · simp [max, isNaN, h, max_eq_left (not_lt.mp h)]

@[simp]
theorem max_self (x : BigNumber) : x.max x = x := by
  unfold max
  split
  · rfl
  · split <;> rfl

/-- The largest of a first number and the rest: `max(...)` on a nonempty spread. -/
def maxOf (x : BigNumber) (xs : List BigNumber) : BigNumber := xs.foldl max x

/-- The largest of finite numbers is finite. -/
theorem maxOf_fin (q : ℚ) {xs : List BigNumber} (h : ∀ x ∈ xs, x = fin x.toRat) :
    ∃ m, maxOf (fin q) xs = fin m := by
  unfold maxOf
  induction xs generalizing q with
  | nil => exact ⟨q, rfl⟩
  | cons x xs ih =>
    rw [List.foldl_cons, h x List.mem_cons_self, max_fin]
    exact ih _ fun y hy => h y (List.mem_cons_of_mem _ hy)

/-! ## Rounding to an integer -/

/-- Rounding of a rational under a mode; `up` is away from zero, `down` is towards it, and `halfUp`
takes the nearest integer with ties away from zero. -/
def roundRat : RoundingMode → ℚ → ℤ
  | .up, q => if 0 ≤ q then ⌈q⌉ else ⌊q⌋
  | .down, q => if 0 ≤ q then ⌊q⌋ else ⌈q⌉
  | .ceil, q => ⌈q⌉
  | .floor, q => ⌊q⌋
  | .halfUp, q => if 0 ≤ q then ⌊q + 1 / 2⌋ else ⌈q - 1 / 2⌉

/-- `integerValue`: infinities and `nan` are left alone. -/
def integerValue (mode : RoundingMode) : BigNumber → BigNumber
  | fin q => fin (roundRat mode q)
  | x => x

/-- `dividedToIntegerBy`: the quotient, all of it, rounded towards zero. -/
def dividedToIntegerBy (x y : BigNumber) : BigNumber := (x.div y).integerValue .down

@[simp]
theorem integerValue_fin (mode : RoundingMode) (q : ℚ) :
    (fin q).integerValue mode = fin (roundRat mode q) := rfl

theorem roundRat_up_of_nonneg {q : ℚ} (hq : 0 ≤ q) : roundRat .up q = ⌈q⌉ := by
  simp [roundRat, hq]

theorem roundRat_down_of_nonneg {q : ℚ} (hq : 0 ≤ q) : roundRat .down q = ⌊q⌋ := by
  simp [roundRat, hq]

/-- Every mode leaves an integer alone. -/
theorem roundRat_intCast (mode : RoundingMode) (z : ℤ) : roundRat mode (z : ℚ) = z := by
  have hhalf : ⌊(1 / 2 : ℚ)⌋ = 0 := by norm_num
  have hup : ⌊(z : ℚ) + 1 / 2⌋ = z := by rw [Int.floor_intCast_add, hhalf, add_zero]
  have hdown : ⌈(z : ℚ) - 1 / 2⌉ = z := by
    rw [sub_eq_add_neg, Int.ceil_intCast_add]
    norm_num
  cases mode with
  | up => simp [roundRat]
  | down => simp [roundRat]
  | ceil => simp [roundRat]
  | floor => simp [roundRat]
  | halfUp => simp only [roundRat, hup, hdown, ite_self]

theorem roundRat_halfUp_of_nonneg {q : ℚ} (hq : 0 ≤ q) : roundRat .halfUp q = ⌊q + 1 / 2⌋ := by
  simp [roundRat, hq]

theorem roundRat_halfUp_of_neg {q : ℚ} (hq : ¬ 0 ≤ q) : roundRat .halfUp q = ⌈q - 1 / 2⌉ := by
  simp [roundRat, hq]

/-- Rounding to the nearest integer moves a number by a half at most. -/
theorem abs_roundRat_halfUp_sub_le (q : ℚ) : |(roundRat .halfUp q : ℚ) - q| ≤ 1 / 2 := by
  rw [abs_le]
  by_cases hq : 0 ≤ q
  · rw [roundRat_halfUp_of_nonneg hq]
    have hle := Int.floor_le (q + 1 / 2)
    have hlt := Int.lt_floor_add_one (q + 1 / 2)
    constructor
    · linarith
    · linarith
  · rw [roundRat_halfUp_of_neg hq]
    have hle := Int.le_ceil (q - 1 / 2)
    have hlt := Int.ceil_lt_add_one (q - 1 / 2)
    constructor
    · linarith
    · linarith

/-- The nearest integer is the next one up exactly for a fraction of a half or more. -/
theorem roundRat_halfUp_eq_floor_add {q : ℚ} (hq : 0 ≤ q) :
    roundRat .halfUp q = ⌊q⌋ + if 1 / 2 ≤ Int.fract q then 1 else 0 := by
  rw [roundRat_halfUp_of_nonneg hq, Int.floor_eq_iff]
  have hfract := Int.self_sub_floor q
  have hlt := Int.fract_lt_one q
  have hnonneg := Int.fract_nonneg q
  split
  · push_cast
    constructor <;> linarith
  · push_cast
    constructor <;> linarith

theorem roundRat_halfUp_nonneg {q : ℚ} (hq : 0 ≤ q) : 0 ≤ roundRat .halfUp q := by
  rw [roundRat_halfUp_of_nonneg hq]
  exact Int.floor_nonneg.mpr (by linarith)

/-- Rounding down keeps the sign of a finite number. -/
theorem isAmount_floor_iff {x : BigNumber} : IsAmount (x.integerValue .floor) ↔ IsAmount x := by
  rcases x with _ | b | q
  · rfl
  · rfl
  · rw [integerValue_fin, isAmount_fin, isAmount_fin]
    exact Int.cast_nonneg_iff.trans Int.floor_nonneg

/-- Every mode keeps the order of numbers. -/
theorem roundRat_mono (mode : RoundingMode) {p q : ℚ} (hpq : p ≤ q) :
    roundRat mode p ≤ roundRat mode q := by
  -- the modes that look at the sign do not cross zero
  have hcross : p < 0 → 0 ≤ q → ⌊p⌋ ≤ ⌈q⌉ ∧ ⌈p⌉ ≤ ⌊q⌋ ∧ ⌈p - 1 / 2⌉ ≤ ⌊q + 1 / 2⌋ := by
    intro hp hq
    have hfloor : ⌊p⌋ ≤ 0 := Int.floor_nonpos hp.le
    have hceil : ⌈p⌉ ≤ 0 := Int.ceil_le.mpr (by simpa using hp.le)
    have hhalf : ⌈p - 1 / 2⌉ ≤ 0 := Int.ceil_le.mpr (by push_cast; linarith)
    have hfloor' : 0 ≤ ⌊q⌋ := Int.floor_nonneg.mpr hq
    have hhalf' : 0 ≤ ⌊q + 1 / 2⌋ := Int.floor_nonneg.mpr (by linarith)
    exact ⟨hfloor.trans (Int.ceil_nonneg hq), hceil.trans hfloor', hhalf.trans hhalf'⟩
  unfold roundRat
  cases mode with
  | up =>
    dsimp only
    split <;> split
    · exact Int.ceil_mono hpq
    · linarith
    · exact (hcross (by linarith) (by linarith)).1
    · exact Int.floor_mono hpq
  | down =>
    dsimp only
    split <;> split
    · exact Int.floor_mono hpq
    · linarith
    · exact (hcross (by linarith) (by linarith)).2.1
    · exact Int.ceil_mono hpq
  | ceil => exact Int.ceil_mono hpq
  | floor => exact Int.floor_mono hpq
  | halfUp =>
    dsimp only
    split <;> split
    · exact Int.floor_mono (by linarith)
    · linarith
    · exact (hcross (by linarith) (by linarith)).2.2
    · exact Int.ceil_mono (by linarith)

theorem roundRat_nonneg (mode : RoundingMode) {q : ℚ} (hq : 0 ≤ q) : 0 ≤ roundRat mode q := by
  have hzero := roundRat_mono mode hq
  rwa [show roundRat mode 0 = 0 by simpa using roundRat_intCast mode 0] at hzero

theorem AmountLe.integerValue {x y : BigNumber} (mode : RoundingMode) (h : AmountLe x y) :
    AmountLe (x.integerValue mode) (y.integerValue mode) := by
  obtain ⟨p, q, rfl, rfl, hp, hpq⟩ := h
  exact ⟨_, _, rfl, rfl, Int.cast_nonneg_iff.mpr (roundRat_nonneg mode hp),
    Int.cast_le.mpr (roundRat_mono mode hpq)⟩

theorem IsAmount.integerValue {x : BigNumber} (mode : RoundingMode) (h : IsAmount x) :
    IsAmount (x.integerValue mode) := (h.refl.integerValue mode).left

/-! ## Decimals -/

/-- What is kept of a quotient to so many decimals. -/
def decimalQuotient (places : ℕ) (q : ℚ) : ℚ := roundRat .halfUp (q * 10 ^ places) / 10 ^ places

theorem decimalQuotient_mono (places : ℕ) : Monotone (decimalQuotient places) := by
  intro p q hpq
  have hpow : (0 : ℚ) < 10 ^ places := by positivity
  apply div_le_div_of_nonneg_right _ hpow.le
  exact_mod_cast roundRat_mono .halfUp (mul_le_mul_of_nonneg_right hpq hpow.le)

theorem decimalQuotient_intCast (places : ℕ) (z : ℤ) : decimalQuotient places z = z := by
  have hpow : (10 : ℚ) ^ places ≠ 0 := by positivity
  have hint : (z : ℚ) * 10 ^ places = ((z * 10 ^ places : ℤ) : ℚ) := by push_cast; rfl
  rw [decimalQuotient, hint, roundRat_intCast, ← hint, mul_div_cancel_right₀ _ hpow]

/-- A half of the last decimal is lost at most. -/
theorem abs_decimalQuotient_sub_le (places : ℕ) (q : ℚ) :
    |decimalQuotient places q - q| ≤ 1 / 2 / 10 ^ places := by
  have hpow : (0 : ℚ) < 10 ^ places := by positivity
  have hround := abs_roundRat_halfUp_sub_le (q * 10 ^ places)
  have heq : decimalQuotient places q - q =
      (roundRat .halfUp (q * 10 ^ places) - q * 10 ^ places) / 10 ^ places := by
    rw [decimalQuotient, sub_div, mul_div_cancel_right₀ _ hpow.ne']
  rw [heq, abs_div, abs_of_pos hpow]
  exact div_le_div_of_nonneg_right hround hpow.le

theorem decimalQuotient_eq_self_iff (places : ℕ) (q : ℚ) :
    decimalQuotient places q = q ↔ ∃ z : ℤ, q * 10 ^ places = z := by
  have hpow : (10 : ℚ) ^ places ≠ 0 := by positivity
  unfold decimalQuotient
  rw [div_eq_iff hpow]
  constructor
  · intro h
    exact ⟨_, h.symm⟩
  · rintro ⟨z, hz⟩
    rw [hz, roundRat_intCast]

/-- The numbers of so many decimals have their differences among them. -/
theorem decimalQuotient_sub (places : ℕ) (p q : ℚ) (hp : decimalQuotient places p = p)
    (hq : decimalQuotient places q = q) : decimalQuotient places (p - q) = p - q := by
  obtain ⟨y, hy⟩ := (decimalQuotient_eq_self_iff places p).mp hp
  obtain ⟨z, hz⟩ := (decimalQuotient_eq_self_iff places q).mp hq
  apply (decimalQuotient_eq_self_iff places (p - q)).mpr
  exact ⟨y - z, by rw [sub_mul, hy, hz, Int.cast_sub]⟩

/-- `decimalPlaces`: rounding to so many decimals. -/
def decimalPlaces (x : BigNumber) (places : ℕ) (mode : RoundingMode) : BigNumber :=
  match x with
  | fin q => fin (roundRat mode (q * 10 ^ places) / 10 ^ places)
  | x => x

@[simp]
theorem decimalPlaces_fin (q : ℚ) (places : ℕ) (mode : RoundingMode) :
    (fin q).decimalPlaces places mode = fin (roundRat mode (q * 10 ^ places) / 10 ^ places) := rfl

@[simp]
theorem roundRat_zero (mode : RoundingMode) : roundRat mode 0 = 0 := by
  simpa using roundRat_intCast mode 0

end BigNumber

end ZeroExApi.Lib
