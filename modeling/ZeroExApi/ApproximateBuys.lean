/-
# ZeroExApi.ApproximateBuys — buy quotes found by searching over sell quotes

`ApproximateBuys.sol` serves the sources that quote sells only.  For each maker amount it looks for
a sell amount whose quoted output is a little above it: an iteration scales the last sell amount by
what is wanted over what was quoted and adds five basis points, and the search ends when the quoted
output exceeds the maker amount by at most five basis points, or after five iterations.  The point
it ends at is where the next sample begins.

The contract does not check its additions and one of its products, so the model takes its arithmetic
as a parameter: `wrapping` is the contract's, and `NoOverflow` says that the run over `checked`
arithmetic succeeds.  One lemma for each function says what it can do, and inductions over the
iterations and over the samples carry that to runs.

The variable `eps` holds the error in whole basis points, and zero also means that there is none
yet.  So what is reported is sound (`sampleApproximateBuys_sound`), but a point whose error is below
one basis point is taken for no point (`reportsSuccess_iff`).
-/

import Mathlib.Data.Rat.Defs
import Mathlib.Algebra.Order.Field.Rat
import Mathlib.Data.Rat.Cast.Order
import Mathlib.Algebra.Order.Floor.Semiring
import Mathlib.Data.Rat.Floor
import Mathlib.Tactic.Ring
import Mathlib.Tactic.Tauto
import ZeroExApi.Lib.CheckedArith

namespace ZeroExApi.ApproximateBuys

open ZeroExApi.Lib ZeroExApi.Lib.Arith

/-- `ApproximateBuyQuoteOpts`; the token data are whatever the callback takes. -/
structure ApproximateBuyQuoteOpts (D : Type) where
  makerTokenData : D
  takerTokenData : D
  getSellQuoteCallback : D → D → ℕ → ℕ

def ONE_HUNDED_PERCENT_BPS : ℕ := 10 ^ 4
def APPROXIMATE_BUY_TARGET_EPSILON_BPS : ℕ := 5
def APPROXIMATE_BUY_MAX_ITERATIONS : ℕ := 5

namespace ApproximateBuyQuoteOpts

variable {D : Type}

/-- What selling taker tokens yields. -/
def takerToMaker (opts : ApproximateBuyQuoteOpts D) (sellAmount : ℕ) : ℕ :=
  opts.getSellQuoteCallback opts.takerTokenData opts.makerTokenData sellAmount

/-- What selling maker tokens yields. -/
def makerToTaker (opts : ApproximateBuyQuoteOpts D) (sellAmount : ℕ) : ℕ :=
  opts.getSellQuoteCallback opts.makerTokenData opts.takerTokenData sellAmount

end ApproximateBuyQuoteOpts

/-- The variables of the search: those of `_sampleApproximateBuys` that outlive an iteration. -/
structure Search where
  sellAmount : ℕ
  buyAmount : ℕ
  eps : ℕ
  deriving DecidableEq

/-- How an iteration ends: it leaves the loop without a quote, goes on, or leaves it at its goal. -/
inductive Ending where
  | noQuote
  | searching
  | onTarget
  deriving DecidableEq

/-! ## `ApproximateBuys.sol` -/

section Source

variable {m : Type → Type} [Monad m] (arith : Arith m) {D : Type} (opts : ApproximateBuyQuoteOpts D)

/-- `_safeGetPartialAmountCeil`. -/
def safeGetPartialAmountCeil (numerator denominator target : ℕ) : m ℕ :=
  if numerator = 0 ∨ target = 0 ∨ denominator = 0 then pure 0
  else do
    let c ← arith.mul numerator target
    if c / numerator ≠ target then pure 0
    else do
      let sum ← arith.add c (denominator - 1)
      pure (sum / denominator)

/-- The body of the inner loop.  `_buyAmount` is only kept when it is not zero. -/
def iteration (maker : ℕ) (s : Search) : m (Search × Ending) := do
  let sellAmount ← safeGetPartialAmountCeil arith maker s.buyAmount s.sellAmount
  if sellAmount = 0 then
    pure ({ s with sellAmount }, .noQuote)
  else do
    let sellAmount ← safeGetPartialAmountCeil arith
      (ONE_HUNDED_PERCENT_BPS + APPROXIMATE_BUY_TARGET_EPSILON_BPS) ONE_HUNDED_PERCENT_BPS
      sellAmount
    if sellAmount = 0 then
      pure ({ s with sellAmount }, .noQuote)
    else
      let buyAmount := opts.takerToMaker sellAmount
      if buyAmount = 0 then
        pure ({ s with sellAmount }, .noQuote)
      else if maker ≤ buyAmount then do
        -- the maker amount is not zero here, as the first scaling would have given zero
        let scaled ← arith.mul (buyAmount - maker) ONE_HUNDED_PERCENT_BPS
        let eps := scaled / maker
        let ending :=
          if eps ≤ APPROXIMATE_BUY_TARGET_EPSILON_BPS then Ending.onTarget else .searching
        pure ({ sellAmount, buyAmount, eps }, ending)
      else
        pure ({ sellAmount, buyAmount, eps := s.eps }, .searching)

/-- The inner loop, for a number of iterations. -/
def search (maker : ℕ) : ℕ → Search → m Search
  | 0, s => pure s
  | iters + 1, s => do
    let (s, ending) ← iteration arith opts maker s
    if ending = .searching then search maker iters s else pure s

/-- The body of the outer loop: the taker amount and the point the next sample begins at, or none
where the loop is left. -/
def sample (maker : ℕ) (s : Search) : m (Option (ℕ × Search)) := do
  let s ← search arith opts maker APPROXIMATE_BUY_MAX_ITERATIONS { s with eps := 0 }
  if s.eps = 0 ∨ s.eps > APPROXIMATE_BUY_TARGET_EPSILON_BPS then pure none
  else do
    let takerTokenAmount ← safeGetPartialAmountCeil arith maker s.buyAmount s.sellAmount
    pure (some (takerTokenAmount, s))

/-- The outer loop: the amounts of the samples it does not get to stay zero. -/
def samples : List ℕ → Search → m (List ℕ)
  | [], _ => pure []
  | maker :: makers, s => do
    match ← sample arith opts maker s with
    | none => pure (List.replicate (makers.length + 1) 0)
    | some (takerTokenAmount, s) => do
      let takerTokenAmounts ← samples makers s
      pure (takerTokenAmount :: takerTokenAmounts)

/-- The quotes before the loop, where neither is zero. -/
def start (maker : ℕ) : Option Search :=
  let sellAmount := opts.makerToTaker maker
  if sellAmount = 0 then none
  else
    let buyAmount := opts.takerToMaker sellAmount
    if buyAmount = 0 then none else some { sellAmount, buyAmount, eps := 0 }

/-- `_sampleApproximateBuys`. -/
def sampleApproximateBuys : List ℕ → m (List ℕ)
  | [] => pure []
  | maker :: makers =>
    match start opts maker with
    | none => pure (List.replicate (makers.length + 1) 0)
    | some s => samples arith opts (maker :: makers) s

end Source

/-! ## No overflow -/

section Overflow

variable {D : Type} (opts : ApproximateBuyQuoteOpts D)

/-- What the contract returns. -/
def takerTokenAmounts (makers : List ℕ) : List ℕ := (sampleApproximateBuys wrapping opts makers).run

/-- No sum and no product of the run is beyond a word. -/
def NoOverflow (makers : List ℕ) : Prop :=
  (sampleApproximateBuys checked opts makers).isSome = true

instance (makers : List ℕ) : Decidable (NoOverflow opts makers) :=
  inferInstanceAs (Decidable (_ = true))

theorem agrees_partialAmount (numerator denominator target : ℕ) :
    Agrees (safeGetPartialAmountCeil checked numerator denominator target)
      (safeGetPartialAmountCeil wrapping numerator denominator target) := by
  apply Agrees.ite (Agrees.pure 0)
  apply Agrees.bind (agrees_mul numerator target)
  intro c
  apply Agrees.ite (Agrees.pure 0)
  apply Agrees.bind (agrees_add c (denominator - 1))
  intro sum
  exact Agrees.pure _

theorem agrees_iteration (maker : ℕ) (s : Search) :
    Agrees (iteration checked opts maker s) (iteration wrapping opts maker s) := by
  apply Agrees.bind (agrees_partialAmount _ _ _)
  intro sellAmount
  apply Agrees.ite (Agrees.pure _)
  apply Agrees.bind (agrees_partialAmount _ _ _)
  intro sellAmount
  apply Agrees.ite (Agrees.pure _)
  apply Agrees.ite (Agrees.pure _)
  apply Agrees.ite
  · apply Agrees.bind (agrees_mul _ _)
    intro scaled
    exact Agrees.pure _
  · exact Agrees.pure _

theorem agrees_search (maker iters : ℕ) (s : Search) :
    Agrees (search checked opts maker iters s) (search wrapping opts maker iters s) := by
  induction iters generalizing s with
  | zero => exact Agrees.pure s
  | succ iters ih =>
    apply Agrees.bind (agrees_iteration opts maker s)
    rintro ⟨s', ending⟩
    exact Agrees.ite (ih s') (Agrees.pure s')

theorem agrees_sample (maker : ℕ) (s : Search) :
    Agrees (sample checked opts maker s) (sample wrapping opts maker s) := by
  apply Agrees.bind (agrees_search opts maker _ _)
  intro s'
  apply Agrees.ite (Agrees.pure none)
  apply Agrees.bind (agrees_partialAmount _ _ _)
  intro takerTokenAmount
  exact Agrees.pure _

theorem agrees_samples (makers : List ℕ) (s : Search) :
    Agrees (samples checked opts makers s) (samples wrapping opts makers s) := by
  induction makers generalizing s with
  | nil => exact Agrees.pure []
  | cons maker makers ih =>
    apply Agrees.bind (agrees_sample opts maker s)
    intro out
    cases out with
    | none => exact Agrees.pure _
    | some found =>
      apply Agrees.bind (ih found.2)
      intro takerTokenAmounts
      exact Agrees.pure _

/-- Barring overflow, the contract computes what checked arithmetic computes. -/
theorem checked_run {makers : List ℕ} (h : NoOverflow opts makers) :
    sampleApproximateBuys checked opts makers = some (takerTokenAmounts opts makers) := by
  obtain ⟨takers, htakers⟩ := Option.isSome_iff_exists.mp h
  have hagrees : Agrees (sampleApproximateBuys checked opts makers)
      (sampleApproximateBuys wrapping opts makers) := by
    cases makers with
    | nil => exact Agrees.pure []
    | cons maker makers =>
      simp only [sampleApproximateBuys]
      cases start opts maker with
      | none => exact Agrees.pure _
      | some s => exact agrees_samples opts _ s
  rw [htakers]
  exact congrArg some (hagrees takers htakers).symm

end Overflow

/-! ## What one step does -/

section Steps

variable {D : Type} {opts : ApproximateBuyQuoteOpts D}

/-- The rounded-up share, unless it is zero because one of the three is. -/
theorem partialAmount_spec {numerator denominator target v : ℕ}
    (h : safeGetPartialAmountCeil checked numerator denominator target = some v) :
    (v = 0 ∧ (numerator = 0 ∨ target = 0 ∨ denominator = 0)) ∨
      (0 < v ∧ 0 < numerator ∧ 0 < target ∧ 0 < denominator ∧
        numerator * target ≤ v * denominator ∧
        v * denominator < numerator * target + denominator) := by
  unfold safeGetPartialAmountCeil at h
  split at h
  · rename_i hzero
    exact Or.inl ⟨(Option.some.inj h).symm, hzero⟩
  · rename_i hpos
    have hnumerator : 0 < numerator := by omega
    have htarget : 0 < target := by omega
    have hdenominator : 0 < denominator := by omega
    obtain ⟨c, hc, h⟩ := Option.bind_eq_some_iff.mp h
    obtain ⟨-, rfl⟩ := checked_mul_eq_some.mp hc
    -- the product is exact, so dividing it gives the target back
    rw [if_neg (by simp [Nat.mul_div_cancel_left target hnumerator])] at h
    obtain ⟨sum, hsum, h⟩ := Option.bind_eq_some_iff.mp h
    obtain ⟨-, rfl⟩ := checked_add_eq_some.mp hsum
    have hv : (numerator * target + (denominator - 1)) / denominator = v := Option.some.inj h
    have hproduct : 0 < numerator * target := Nat.mul_pos hnumerator htarget
    have hle : v * denominator ≤ numerator * target + (denominator - 1) := by
      rw [← hv]
      exact Nat.div_mul_le_self _ _
    have hlt : numerator * target + (denominator - 1) < v * denominator + denominator := by
      rw [← hv]
      exact Nat.lt_div_mul_add hdenominator
    have hvpos : 0 < v := by
      rw [← hv]
      exact Nat.div_pos (by omega) hdenominator
    exact Or.inr ⟨hvpos, hnumerator, htarget, hdenominator, by omega, by omega⟩

/-- The rounded-up share as a ceiling of rationals. -/
theorem ceil_eq_of_bounds {product denominator v : ℕ} (hv : 0 < v) (hdenominator : 0 < denominator)
    (hle : product ≤ v * denominator) (hlt : v * denominator < product + denominator) :
    ⌈(product : ℚ) / denominator⌉₊ = v := by
  have hpos : (0 : ℚ) < denominator := Nat.cast_pos.mpr hdenominator
  rw [Nat.ceil_eq_iff hv.ne', lt_div_iff₀ hpos, div_le_iff₀ hpos]
  constructor
  · have hbelow : (v - 1) * denominator < product := by
      have hone : denominator ≤ v * denominator := Nat.le_mul_of_pos_left denominator hv
      rw [Nat.sub_mul, one_mul]
      omega
    exact_mod_cast hbelow
  · exact_mod_cast hle

/-- The steps behind the test for zero, over the contract's own arithmetic. -/
theorem partialAmount_wrapping {numerator denominator target : ℕ}
    (h : ¬ (numerator = 0 ∨ target = 0 ∨ denominator = 0)) :
    Id.run (safeGetPartialAmountCeil wrapping numerator denominator target) =
      if Id.run (wrapping.mul numerator target) / numerator ≠ target then 0
      else Id.run (wrapping.add (Id.run (wrapping.mul numerator target)) (denominator - 1)) /
        denominator := by
  have hguard : safeGetPartialAmountCeil wrapping numerator denominator target = _ := if_neg h
  rw [hguard]
  exact apply_ite Id.run _ _ _

/-- Over the contract's own arithmetic the share is zero exactly where one of the three is, or where
the product or the rounding sum is beyond a word; anywhere else it is the exact ceiling. -/
theorem safeGetPartialAmountCeil_spec {numerator denominator target : ℕ}
    (hdenominator : denominator < bound) (htarget : target < bound) :
    let partialAmount := Id.run (safeGetPartialAmountCeil wrapping numerator denominator target)
    (partialAmount = 0 ↔ numerator = 0 ∨ denominator = 0 ∨ target = 0 ∨
        bound ≤ numerator * target ∨ bound ≤ numerator * target + (denominator - 1)) ∧
      (partialAmount ≠ 0 → partialAmount = ⌈(numerator * target : ℚ) / denominator⌉₊) := by
  intro partialAmount
  by_cases hzero : numerator = 0 ∨ target = 0 ∨ denominator = 0
  · have hresult : partialAmount = 0 := if_pos hzero
    refine ⟨iff_of_true hresult ?_, fun hne => absurd hresult hne⟩
    tauto
  · have hpos : 0 < numerator := by omega
    have hunfold : partialAmount = _ := partialAmount_wrapping hzero
    by_cases hproduct : numerator * target < bound
    · have hc : Id.run (wrapping.mul numerator target) = numerator * target :=
        Nat.mod_eq_of_lt hproduct
      rw [if_neg (not_not.mpr ((wrapping_mul_div_eq_iff hpos htarget).mpr hproduct)), hc] at hunfold
      by_cases hsum : numerator * target + (denominator - 1) < bound
      · -- nothing is wrapped, and the checked run gives the same
        have hadd : Id.run (wrapping.add (numerator * target) (denominator - 1)) =
            numerator * target + (denominator - 1) := Nat.mod_eq_of_lt hsum
        have hchecked : safeGetPartialAmountCeil checked numerator denominator target =
            some partialAmount := by
          unfold safeGetPartialAmountCeil
          rw [if_neg hzero, checked_mul_eq_some.mpr ⟨hproduct, rfl⟩]
          show (if numerator * target / numerator ≠ target then _ else _) = _
          rw [if_neg (not_not.mpr (Nat.mul_div_cancel_left target hpos)),
            checked_add_eq_some.mpr ⟨hsum, rfl⟩, hunfold, hadd]
          rfl
        rcases partialAmount_spec hchecked with ⟨_, hbad⟩ | ⟨hv, -, -, hden, hle, hlt⟩
        · exact absurd hbad hzero
        · refine ⟨iff_of_false hv.ne' (by omega), fun _ => ?_⟩
          rw [← ceil_eq_of_bounds hv hden hle hlt, Nat.cast_mul]
      · -- what is left of the sum is below the denominator
        have hresult : partialAmount = 0 := by
          rw [hunfold]
          have hleft := wrapping_add_lt hproduct (lt_of_le_of_lt (Nat.sub_le denominator 1)
            hdenominator) (not_lt.mp hsum)
          exact Nat.div_eq_of_lt (lt_of_lt_of_le hleft (Nat.sub_le denominator 1))
        exact ⟨iff_of_true hresult (by omega), fun hne => absurd hresult hne⟩
    · have hresult : partialAmount = 0 := by
        rw [hunfold, if_pos]
        intro hdiv
        exact hproduct ((wrapping_mul_div_eq_iff hpos htarget).mp hdiv)
      exact ⟨iff_of_true hresult (by omega), fun hne => absurd hresult hne⟩

/-- A third of ten, and a sum whose rounding is beyond a word. -/
theorem safeGetPartialAmountCeil_spec_third :
    Id.run (safeGetPartialAmountCeil wrapping 10 3 1) = ⌈((10 : ℕ) * (1 : ℕ) : ℚ) / (3 : ℕ)⌉₊ ∧
      Id.run (safeGetPartialAmountCeil wrapping (bound - 1) 3 1) = 0 := by
  constructor
  · exact (safeGetPartialAmountCeil_spec (by decide) (by decide)).2 (by decide)
  · exact (safeGetPartialAmountCeil_spec (by decide) (by decide)).1.mpr (by decide)

/-- A point that was quoted. -/
structure Quoted (opts : ApproximateBuyQuoteOpts D) (maker : ℕ) (p : Search) : Prop where
  sell_pos : 0 < p.sellAmount
  buy_eq : p.buyAmount = opts.takerToMaker p.sellAmount
  maker_pos : 0 < maker

/-- The error of a quoted output in whole basis points. -/
def errorBps (maker buyAmount : ℕ) : ℕ := (buyAmount - maker) * ONE_HUNDED_PERCENT_BPS / maker

/-- What an iteration can do: end without a quote and without an error; or quote a point, of which
it measures the error where that point yields enough. -/
theorem iteration_cases {maker : ℕ} {s p : Search} {ending : Ending}
    (h : iteration checked opts maker s = some (p, ending)) :
    (ending = .noQuote ∧ p.eps = s.eps) ∨
      (Quoted opts maker p ∧ p.buyAmount < maker ∧ p.eps = s.eps ∧ ending = .searching) ∨
      (Quoted opts maker p ∧ maker ≤ p.buyAmount ∧ p.eps = errorBps maker p.buyAmount ∧
        ending =
          if p.eps ≤ APPROXIMATE_BUY_TARGET_EPSILON_BPS then Ending.onTarget else .searching) := by
  unfold iteration at h
  obtain ⟨first, hfirst, h⟩ := Option.bind_eq_some_iff.mp h
  split at h
  · cases Option.some.inj h
    exact Or.inl ⟨rfl, rfl⟩
  rename_i hfirst0
  -- no share is taken of a maker amount of zero
  have hmaker : 0 < maker := by
    rcases partialAmount_spec hfirst with ⟨hzero, -⟩ | ⟨-, hmaker, -⟩
    · exact absurd hzero hfirst0
    · exact hmaker
  obtain ⟨sellAmount, hsell, h⟩ := Option.bind_eq_some_iff.mp h
  split at h
  · cases Option.some.inj h
    exact Or.inl ⟨rfl, rfl⟩
  rename_i hsell0
  dsimp only at h
  split at h
  · cases Option.some.inj h
    exact Or.inl ⟨rfl, rfl⟩
  split at h
  · rename_i henough
    obtain ⟨scaled, hscaled, h⟩ := Option.bind_eq_some_iff.mp h
    obtain ⟨-, rfl⟩ := checked_mul_eq_some.mp hscaled
    cases Option.some.inj h
    exact Or.inr (Or.inr ⟨⟨Nat.pos_of_ne_zero hsell0, rfl, hmaker⟩, henough, rfl, rfl⟩)
  · rename_i hshort
    cases Option.some.inj h
    exact Or.inr (Or.inl ⟨⟨Nat.pos_of_ne_zero hsell0, rfl, hmaker⟩, not_le.mp hshort, rfl, rfl⟩)

/-- A point the search may end at with success. -/
structure OnTarget (opts : ApproximateBuyQuoteOpts D) (maker : ℕ) (p : Search) : Prop
    extends Quoted opts maker p where
  enough : maker ≤ p.buyAmount
  eps_eq : p.eps = errorBps maker p.buyAmount
  eps_le : p.eps ≤ APPROXIMATE_BUY_TARGET_EPSILON_BPS

/-- The error says nothing yet: there is none, or it is too large. -/
def OffTarget (eps : ℕ) : Prop := eps = 0 ∨ APPROXIMATE_BUY_TARGET_EPSILON_BPS < eps

/-- The search ends on target or with an error that says nothing.  The error survives iterations
that do not measure one, so what the loop keeps is that it is off target. -/
theorem search_spec {maker iters : ℕ} {s r : Search}
    (h : search checked opts maker iters s = some r) (hs : OffTarget s.eps) :
    OnTarget opts maker r ∨ OffTarget r.eps := by
  induction iters generalizing s with
  | zero =>
    cases Option.some.inj h
    exact Or.inr hs
  | succ iters ih =>
    unfold search at h
    obtain ⟨⟨p, ending⟩, hp, h⟩ := Option.bind_eq_some_iff.mp h
    rcases iteration_cases hp with ⟨rfl, heps⟩ | ⟨-, -, heps, rfl⟩ | ⟨hquoted, henough, heps, hend⟩
    · -- the loop is left with the error it had
      cases Option.some.inj h
      exact Or.inr (heps ▸ hs)
    · exact ih h (heps ▸ hs)
    · by_cases hle : p.eps ≤ APPROXIMATE_BUY_TARGET_EPSILON_BPS
      · rw [if_pos hle] at hend
        subst hend
        cases Option.some.inj h
        exact Or.inl ⟨hquoted, henough, heps, hle⟩
      · rw [if_neg hle] at hend
        subst hend
        exact ih h (Or.inr (not_le.mp hle))

/-- A reported sample: the search ended on target with an error of at least one basis point, and the
taker amount is the share of the sell amount that the maker amount is of the quoted output. -/
structure Reported (opts : ApproximateBuyQuoteOpts D) (maker taker : ℕ) (r : Search) : Prop
    extends OnTarget opts maker r where
  eps_pos : 0 < r.eps
  taker_pos : 0 < taker
  covers : maker * r.sellAmount ≤ taker * r.buyAmount
  tight : taker * r.buyAmount < maker * r.sellAmount + r.buyAmount

theorem sample_spec {maker taker : ℕ} {s r : Search}
    (h : sample checked opts maker s = some (some (taker, r))) : Reported opts maker taker r := by
  unfold sample at h
  obtain ⟨r', hsearch, h⟩ := Option.bind_eq_some_iff.mp h
  split at h
  · cases Option.some.inj h
  · rename_i htested
    obtain ⟨taker', htaker, h⟩ := Option.bind_eq_some_iff.mp h
    cases Option.some.inj h
    have hontarget : OnTarget opts maker r := by
      rcases search_spec hsearch (Or.inl rfl) with hontarget | hoff
      · exact hontarget
      · exact absurd hoff htested
    have hbuy : 0 < r.buyAmount := lt_of_lt_of_le hontarget.maker_pos hontarget.enough
    rcases partialAmount_spec htaker with ⟨-, hzero⟩ | ⟨hpos, -, -, -, hcovers, htight⟩
    · have hmaker := hontarget.maker_pos
      have hsell := hontarget.sell_pos
      omega
    · exact ⟨hontarget, by omega, hpos, hcovers, htight⟩

end Steps

/-! ## What is reported covers what was asked for -/

section Soundness

variable {D : Type} {opts : ApproximateBuyQuoteOpts D}

/-- The average rate of a quote does not increase with the amount. -/
def NonIncreasingRate (out : ℕ → ℕ) : Prop :=
  ∀ a b, 0 < a → a ≤ b → (out b : ℚ) / b ≤ out a / a

theorem NonIncreasingRate.mul_le {out : ℕ → ℕ} (h : NonIncreasingRate out) {a b : ℕ} (ha : 0 < a)
    (hab : a ≤ b) : out b * a ≤ out a * b := by
  have hapos : (0 : ℚ) < a := Nat.cast_pos.mpr ha
  have hbpos : (0 : ℚ) < b := Nat.cast_pos.mpr (lt_of_lt_of_le ha hab)
  have hrate := h a b ha hab
  rw [div_le_div_iff₀ hbpos hapos] at hrate
  exact_mod_cast hrate

/-- Selling less than the sell amount of a reported sample, by the share the taker amount is, yields
the maker amount: the rate is no worse there. -/
theorem Reported.yields {maker taker : ℕ} {r : Search} (h : Reported opts maker taker r)
    (hrate : NonIncreasingRate opts.takerToMaker) : maker ≤ opts.takerToMaker taker := by
  have hbuy : 0 < r.buyAmount := lt_of_lt_of_le h.maker_pos h.enough
  have hle : taker ≤ r.sellAmount := by
    have hlt : taker * r.buyAmount < (r.sellAmount + 1) * r.buyAmount := by
      calc taker * r.buyAmount < maker * r.sellAmount + r.buyAmount := h.tight
        _ ≤ r.buyAmount * r.sellAmount + r.buyAmount := by
          have := Nat.mul_le_mul_right r.sellAmount h.enough
          omega
        _ = (r.sellAmount + 1) * r.buyAmount := by ring
    exact Nat.le_of_lt_succ (Nat.lt_of_mul_lt_mul_right hlt)
  have hmul : r.buyAmount * taker ≤ opts.takerToMaker taker * r.sellAmount := by
    rw [h.buy_eq]
    exact hrate.mul_le h.taker_pos hle
  have hchain : maker * r.sellAmount ≤ opts.takerToMaker taker * r.sellAmount := by
    calc maker * r.sellAmount ≤ taker * r.buyAmount := h.covers
      _ = r.buyAmount * taker := Nat.mul_comm _ _
      _ ≤ opts.takerToMaker taker * r.sellAmount := hmul
  exact Nat.le_of_mul_le_mul_right hchain h.sell_pos

/-- The results cover the amounts they are for, and those that are not zero come first. -/
def Sound (opts : ApproximateBuyQuoteOpts D) (makers takers : List ℕ) : Prop :=
  List.Forall₂ (fun maker taker => taker ≠ 0 → maker ≤ opts.takerToMaker taker) makers takers ∧
    ∃ reported rest, takers = reported ++ List.replicate rest 0 ∧ ∀ taker ∈ reported, taker ≠ 0

theorem sound_zeros (opts : ApproximateBuyQuoteOpts D) (makers : List ℕ) :
    Sound opts makers (List.replicate makers.length 0) := by
  constructor
  · induction makers with
    | nil => exact List.Forall₂.nil
    | cons maker makers ih =>
      apply List.Forall₂.cons _ ih
      intro hne
      exact absurd rfl hne
  · exact ⟨[], makers.length, rfl, by simp⟩

theorem Sound.cons {maker taker : ℕ} {makers takers : List ℕ} {r : Search}
    (h : Reported opts maker taker r) (hrate : NonIncreasingRate opts.takerToMaker)
    (hrest : Sound opts makers takers) : Sound opts (maker :: makers) (taker :: takers) := by
  obtain ⟨hcovers, reported, rest, htakers, hreported⟩ := hrest
  constructor
  · exact List.Forall₂.cons (fun _ => h.yields hrate) hcovers
  · have hall : ∀ t ∈ taker :: reported, t ≠ 0 :=
      List.forall_mem_cons.mpr ⟨h.taker_pos.ne', hreported⟩
    exact ⟨taker :: reported, rest, by simp [htakers], hall⟩

theorem samples_sound (hrate : NonIncreasingRate opts.takerToMaker) {makers takers : List ℕ}
    {s : Search} (h : samples checked opts makers s = some takers) : Sound opts makers takers := by
  induction makers generalizing s takers with
  | nil =>
    cases Option.some.inj h
    exact sound_zeros opts []
  | cons maker makers ih =>
    unfold samples at h
    obtain ⟨out, hout, h⟩ := Option.bind_eq_some_iff.mp h
    cases out with
    | none =>
      cases Option.some.inj h
      exact sound_zeros opts (maker :: makers)
    | some found =>
      obtain ⟨taker, r⟩ := found
      obtain ⟨rest, hrest, h⟩ := Option.bind_eq_some_iff.mp h
      cases Option.some.inj h
      exact Sound.cons (sample_spec hout) hrate (ih hrest)

/-- Where the quote of the taker token has a non-increasing average rate and nothing overflows, each
taker amount that is reported yields at least the maker amount it is for, and the amounts that are
reported are a prefix. -/
theorem sampleApproximateBuys_sound (opts : ApproximateBuyQuoteOpts D)
    (hrate : NonIncreasingRate opts.takerToMaker) (makers : List ℕ)
    (hfits : NoOverflow opts makers) :
    Sound opts makers (takerTokenAmounts opts makers) := by
  have hrun := checked_run opts hfits
  generalize takerTokenAmounts opts makers = takers at hrun ⊢
  cases makers with
  | nil =>
    cases Option.some.inj hrun
    exact sound_zeros opts []
  | cons maker makers =>
    simp only [sampleApproximateBuys] at hrun
    split at hrun
    · cases Option.some.inj hrun
      exact sound_zeros opts (maker :: makers)
    · exact samples_sound hrate hrun

/-- A market of two tokens at par. -/
def parMarket : ApproximateBuyQuoteOpts Bool where
  makerTokenData := true
  takerTokenData := false
  getSellQuoteCallback := fun _ _ sellAmount => sellAmount

theorem parMarket_rate : NonIncreasingRate parMarket.takerToMaker := by
  intro a b ha hab
  have hapos : (a : ℚ) ≠ 0 := Nat.cast_ne_zero.mpr (by omega)
  have hbpos : (b : ℚ) ≠ 0 := Nat.cast_ne_zero.mpr (by omega)
  show (b : ℚ) / b ≤ (a : ℚ) / a
  rw [div_self hapos, div_self hbpos]

theorem sampleApproximateBuys_sound_par :
    takerTokenAmounts parMarket [1000000, 2000000, 3] = [1000000, 2000000, 0] ∧
      Sound parMarket [1000000, 2000000, 3] (takerTokenAmounts parMarket [1000000, 2000000, 3]) :=
  ⟨by decide +kernel,
    sampleApproximateBuys_sound parMarket parMarket_rate [1000000, 2000000, 3] (by decide +kernel)⟩

end Soundness

/-! ## When a success is reported -/

section Completeness

variable {D : Type} {opts : ApproximateBuyQuoteOpts D}

/-- `p` is a point that one of the next iterations quotes. -/
def QuotesPoint (opts : ApproximateBuyQuoteOpts D) (maker : ℕ) : ℕ → Search → Search → Prop
  | 0, _, _ => False
  | iters + 1, s, p =>
    ∃ s' ending, iteration checked opts maker s = some (s', ending) ∧
      ((ending ≠ .noQuote ∧ p = s') ∨
        (ending = .searching ∧ QuotesPoint opts maker iters s' p))

/-- The samples are reported one after the other, and leave the search at `s'`. -/
def ReportsAll (opts : ApproximateBuyQuoteOpts D) : List ℕ → Search → Search → Prop
  | [], s, s' => s' = s
  | maker :: makers, s, s' =>
    ∃ taker r, sample checked opts maker s = some (some (taker, r)) ∧ ReportsAll opts makers r s'

/-- The search gets to sample `i`, and begins it at `s`. -/
def BeginsAt (opts : ApproximateBuyQuoteOpts D) (makers : List ℕ) (i : ℕ) (s : Search) : Prop :=
  ∃ maker s₀, makers.head? = some maker ∧ start opts maker = some s₀ ∧
    ReportsAll opts (makers.take i) s₀ s

/-- In some iteration for sample `i` the search holds the quoted point `p`. -/
def HoldsAt (opts : ApproximateBuyQuoteOpts D) (makers : List ℕ) (i maker : ℕ) (p : Search) :
    Prop :=
  makers[i]? = some maker ∧ ∃ s, BeginsAt opts makers i s ∧
    QuotesPoint opts maker APPROXIMATE_BUY_MAX_ITERATIONS { s with eps := 0 } p

/-- The quoted output is enough and exceeds the maker amount by five basis points at most. -/
def WithinTarget (maker : ℕ) (p : Search) : Prop :=
  maker ≤ p.buyAmount ∧
    (p.buyAmount - maker) * ONE_HUNDED_PERCENT_BPS ≤ APPROXIMATE_BUY_TARGET_EPSILON_BPS * maker

/-- The quoted output is enough and exceeds the maker amount by less than one basis point. -/
def BelowOneBps (maker : ℕ) (p : Search) : Prop :=
  maker ≤ p.buyAmount ∧ (p.buyAmount - maker) * ONE_HUNDED_PERCENT_BPS < maker

/-- If all earlier samples were reported and the search for sample `i` holds a point within the
target, the sample is reported and the search goes on to the next. -/
def ReportsSuccess (opts : ApproximateBuyQuoteOpts D) (makers : List ℕ) (i : ℕ) : Prop :=
  (∀ j < i, (takerTokenAmounts opts makers).getD j 0 ≠ 0) →
    ∀ maker p, HoldsAt opts makers i maker p → WithinTarget maker p →
      (takerTokenAmounts opts makers).getD i 0 ≠ 0 ∧ ∃ s, BeginsAt opts makers (i + 1) s

theorem errorBps_le_iff {maker buyAmount : ℕ} (hmaker : 0 < maker) :
    errorBps maker buyAmount ≤ APPROXIMATE_BUY_TARGET_EPSILON_BPS ↔
      (buyAmount - maker) * ONE_HUNDED_PERCENT_BPS <
        (APPROXIMATE_BUY_TARGET_EPSILON_BPS + 1) * maker := by
  rw [errorBps, ← Nat.lt_succ_iff, Nat.div_lt_iff_lt_mul hmaker]

theorem errorBps_eq_zero_iff {maker buyAmount : ℕ} (hmaker : 0 < maker) :
    errorBps maker buyAmount = 0 ↔ (buyAmount - maker) * ONE_HUNDED_PERCENT_BPS < maker := by
  rw [errorBps, Nat.div_eq_zero_iff]
  constructor
  · rintro (hzero | hlt)
    · omega
    · exact hlt
  · exact Or.inr

/-- The search stops at the first point within the target that it quotes. -/
theorem search_of_quotesPoint {maker iters : ℕ} {s p : Search}
    (h : QuotesPoint opts maker iters s p) (hp : WithinTarget maker p) :
    search checked opts maker iters s = some p ∧ p.eps = errorBps maker p.buyAmount ∧
      p.eps ≤ APPROXIMATE_BUY_TARGET_EPSILON_BPS := by
  induction iters generalizing s with
  | zero => exact h.elim
  | succ iters ih =>
    obtain ⟨s', ending, hiteration, hquoted⟩ := h
    have hstep : search checked opts maker (iters + 1) s =
        if ending = .searching then search checked opts maker iters s' else some s' := by
      rw [search, hiteration]
      rfl
    rw [hstep]
    rcases hquoted with ⟨hquote, rfl⟩ | ⟨rfl, hlater⟩
    · rcases iteration_cases hiteration with ⟨hno, -⟩ | ⟨-, hshort, -⟩ | ⟨hq, -, heps, hending⟩
      · exact absurd hno hquote
      · exact absurd hp.1 (not_le.mpr hshort)
      · have hle : p.eps ≤ APPROXIMATE_BUY_TARGET_EPSILON_BPS := by
          rw [heps, errorBps_le_iff hq.maker_pos]
          have hmaker := hq.maker_pos
          have herror := hp.2
          rw [Nat.add_mul]
          omega
        rw [if_pos hle] at hending
        subst hending
        exact ⟨rfl, heps, hle⟩
    · rw [if_pos rfl]
      exact ih hlater

/-- What a sample does whose search holds a point within the target: it is left unreported exactly
where the error of the point is below one basis point. -/
theorem sample_of_quotesPoint {maker : ℕ} {s p : Search} {out : Option (ℕ × Search)}
    (h : QuotesPoint opts maker APPROXIMATE_BUY_MAX_ITERATIONS { s with eps := 0 } p)
    (hp : WithinTarget maker p) (hout : sample checked opts maker s = some out)
    (hmaker : 0 < maker) : out = none ↔ BelowOneBps maker p := by
  obtain ⟨hsearch, heps, hle⟩ := search_of_quotesPoint h hp
  have hbelow : BelowOneBps maker p ↔ p.eps = 0 := by
    rw [heps, errorBps_eq_zero_iff hmaker]
    exact and_iff_right hp.1
  rw [hbelow]
  unfold sample at hout
  rw [hsearch, Option.bind_eq_bind, Option.bind_some] at hout
  split at hout
  · rename_i htest
    cases Option.some.inj hout
    have hzero : p.eps = 0 := by omega
    exact iff_of_true rfl hzero
  · rename_i htest
    obtain ⟨taker, -, hout⟩ := Option.bind_eq_some_iff.mp hout
    cases Option.some.inj hout
    have hne : p.eps ≠ 0 := fun hzero => htest (Or.inl hzero)
    exact iff_of_false (Option.some_ne_none _) hne

theorem reportsAll_append {before : List ℕ} {maker : ℕ} {s s' : Search} :
    ReportsAll opts (before ++ [maker]) s s' ↔
      ∃ r taker, ReportsAll opts before s r ∧
        sample checked opts maker r = some (some (taker, s')) := by
  induction before generalizing s with
  | nil =>
    constructor
    · rintro ⟨taker, r, hsample, rfl⟩
      exact ⟨s, taker, rfl, hsample⟩
    · rintro ⟨r, taker, rfl, hsample⟩
      exact ⟨taker, s', hsample, rfl⟩
  | cons first before ih =>
    constructor
    · rintro ⟨taker, r, hsample, hrest⟩
      obtain ⟨r', taker', hbefore, hlast⟩ := ih.mp hrest
      exact ⟨r', taker', ⟨taker, r, hsample, hbefore⟩, hlast⟩
    · rintro ⟨r', taker', ⟨taker, r, hsample, hbefore⟩, hlast⟩
      exact ⟨taker, r, hsample, ih.mpr ⟨r', taker', hbefore, hlast⟩⟩

/-- What the outer loop writes, where it gets to sample `i`: the earlier results are not zero, and
the result at `i` is the sample's, or zero where that leaves the loop. -/
theorem samples_at {makers takers : List ℕ} {i maker : ℕ} {s s' : Search}
    (h : samples checked opts makers s = some takers) (hi : makers[i]? = some maker)
    (hreach : ReportsAll opts (makers.take i) s s') :
    (∀ j < i, takers.getD j 0 ≠ 0) ∧
      ∃ out, sample checked opts maker s' = some out ∧
        takers.getD i 0 = (out.map Prod.fst).getD 0 := by
  induction i generalizing makers takers s with
  | zero =>
    cases makers with
    | nil => cases hi
    | cons first makers =>
      cases Option.some.inj hi
      cases hreach
      unfold samples at h
      obtain ⟨out, hout, h⟩ := Option.bind_eq_some_iff.mp h
      -- no result stands before this one
      refine ⟨fun j hj => absurd hj (Nat.not_lt_zero j), out, hout, ?_⟩
      cases out with
      | none =>
        cases Option.some.inj h
        rfl
      | some found =>
        obtain ⟨rest, -, h⟩ := Option.bind_eq_some_iff.mp h
        cases Option.some.inj h
        rfl
  | succ i ih =>
    cases makers with
    | nil => cases hi
    | cons first makers =>
      -- the first sample was reported, and the rest is a shorter run
      obtain ⟨taker, r, hsample, hrest⟩ := hreach
      unfold samples at h
      rw [hsample, Option.bind_eq_bind, Option.bind_some] at h
      obtain ⟨rest, hrun, h⟩ := Option.bind_eq_some_iff.mp h
      cases Option.some.inj h
      obtain ⟨hearlier, hat⟩ := ih hrun hi hrest
      refine ⟨?_, hat⟩
      intro j hj
      cases j with
      | zero => exact (sample_spec hsample).taker_pos.ne'
      | succ j => exact hearlier j (Nat.lt_of_succ_lt_succ hj)

/-- Barring overflow and for positive maker amounts, sample `i` is reported and the search goes on
whenever it holds a point within the target, if and only if no iteration for it quotes a point whose
error is below one basis point. -/
theorem reportsSuccess_iff (opts : ApproximateBuyQuoteOpts D) (makers : List ℕ)
    (hfits : NoOverflow opts makers) (hpos : ∀ maker ∈ makers, 0 < maker) (i : ℕ) :
    ReportsSuccess opts makers i ↔
      ∀ maker p, HoldsAt opts makers i maker p → ¬ BelowOneBps maker p := by
  have hsample : ∀ {maker p}, HoldsAt opts makers i maker p → WithinTarget maker p →
      (∀ j < i, (takerTokenAmounts opts makers).getD j 0 ≠ 0) ∧
        (((takerTokenAmounts opts makers).getD i 0 ≠ 0 ∧ ∃ s, BeginsAt opts makers (i + 1) s) ↔
          ¬ BelowOneBps maker p) := by
    rintro maker p ⟨hi, s, ⟨first, s₀, hhead, hstart, hreach⟩, hquotes⟩ hp
    have hmaker : 0 < maker := hpos maker (List.mem_of_getElem? hi)
    have hrun : samples checked opts makers s₀ = some (takerTokenAmounts opts makers) := by
      rw [← checked_run opts hfits]
      cases makers with
      | nil => cases hhead
      | cons maker' makers =>
        cases Option.some.inj hhead
        simp only [sampleApproximateBuys, hstart]
    obtain ⟨hearlier, out, hout, hwritten⟩ := samples_at hrun hi hreach
    refine ⟨hearlier, ?_⟩
    -- the sample decides: what it writes, and whether the search goes on
    rw [← sample_of_quotesPoint hquotes hp hout hmaker, hwritten]
    cases out with
    | none => simp
    | some found =>
      obtain ⟨taker, r⟩ := found
      have htaker : taker ≠ 0 := (sample_spec hout).taker_pos.ne'
      have hnext : BeginsAt opts makers (i + 1) r := by
        refine ⟨first, s₀, hhead, hstart, ?_⟩
        rw [List.take_add_one, hi]
        exact reportsAll_append.mpr ⟨s, taker, hreach, hout⟩
      exact iff_of_true ⟨htaker, r, hnext⟩ (Option.some_ne_none _)
  constructor
  · intro h maker p hholds hbelow
    -- an error below one basis point is within the target too
    have hp : WithinTarget maker p := by
      refine ⟨hbelow.1, hbelow.2.le.trans ?_⟩
      exact Nat.le_mul_of_pos_left maker (by decide)
    obtain ⟨hearlier, hiff⟩ := hsample hholds hp
    exact hiff.mp (h hearlier maker p hholds hp) hbelow
  · intro h hearlier maker p hholds hp
    exact (hsample hholds hp).2.mpr (h maker p hholds)

theorem reportsSuccess_iff_par :
    ReportsSuccess parMarket [1000000, 2000000] 1 ↔
      ∀ maker p, HoldsAt parMarket [1000000, 2000000] 1 maker p → ¬ BelowOneBps maker p :=
  reportsSuccess_iff parMarket [1000000, 2000000] (by decide +kernel) (by decide) 1

/-- A market that has a hundred maker tokens to give. -/
def cappedMarket : ApproximateBuyQuoteOpts Bool where
  makerTokenData := true
  takerTokenData := false
  getSellQuoteCallback := fun sellsMaker _ sellAmount =>
    if sellsMaker then sellAmount else min sellAmount 100

/-- An exact hit: selling 101 is quoted to yield the hundred that are asked for, and nothing is
reported. -/
theorem cappedMarket_misses : ¬ ReportsSuccess cappedMarket [100] 0 := by
  intro h
  have hquotes : QuotesPoint cappedMarket 100 APPROXIMATE_BUY_MAX_ITERATIONS
      { sellAmount := 100, buyAmount := 100, eps := 0 }
      { sellAmount := 101, buyAmount := 100, eps := 0 } :=
    ⟨_, .onTarget, by decide +kernel, Or.inl ⟨by decide, rfl⟩⟩
  have hholds : HoldsAt cappedMarket [100] 0 100
      { sellAmount := 101, buyAmount := 100, eps := 0 } :=
    ⟨rfl, { sellAmount := 100, buyAmount := 100, eps := 0 },
      ⟨100, _, rfl, by decide +kernel, rfl⟩, hquotes⟩
  have hreported := (h (fun j hj => absurd hj (Nat.not_lt_zero j)) 100 _ hholds (by
    constructor
    · decide
    · decide)).1
  exact hreported (by decide +kernel)

end Completeness

end ZeroExApi.ApproximateBuys
