/-
# ZeroExApi.ElasticStraight — libraries of Kyber Elastic that do what is relied on

What is relied on of the libraries can be had: ticks on straight lines, checked liquidity
arithmetic, and a swap step along a curve without rounding errors.

At the price of one and a liquidity of 2048 * 2047, downwards and without a fee, a unit of token1 is
received for each step of the price.  The first 2046 units cost one unit of token0 each, and the one
after that costs two: 2047 units end at the price 1 - 1 / 2048 and cost 2048, as in `SwapMath`.
-/

import ZeroExApi.ElasticTrack
import ZeroExApi.StraightCurve

namespace ZeroExApi.ElasticStraight

open ZeroExApi.Lib ZeroExApi.KyberElastic
open ZeroExApi.MultiQuoter (InTick Revert specified calculated)

/-! ## The curve -/

/-- The liquidity that the curve is for. -/
def liquidityUnits : ℕ := 4192256

/-- The units of token1 that have been received below the price of one. -/
def units (z : ℤ) : ℕ := ((2 ^ 96 + z) * liquidityUnits / 2 ^ 96).toNat

/-- What so many units have cost. -/
def worth (n : ℕ) : ℕ := if n < 2047 then n else n + 1

/-- The units that cost so much. -/
def unitsFor (paid : ℕ) : ℕ := if paid < 2047 then paid else paid - 1

/-- The first price at which there are so many units. -/
def priceOf (n : ℕ) : ℕ := 2 ^ 96 - (n * 2 ^ 96 + (liquidityUnits - 1)) / liquidityUnits

theorem units_mono {x y : ℤ} (h : x ≤ y) : units x ≤ units y := by
  unfold units liquidityUnits
  omega

theorem worth_mono {m n : ℕ} (h : m ≤ n) : worth m ≤ worth n := by
  unfold worth
  split_ifs <;> omega

theorem worth_inj {m n : ℕ} : worth m = worth n ↔ m = n := by
  unfold worth
  split_ifs <;> omega

theorem unitsFor_worth (n : ℕ) : unitsFor (worth n) = n := by
  unfold unitsFor worth
  split_ifs <;> omega

/-- Units between those of two places are those of a place between them. -/
theorem exists_units {x y : ℤ} {n : ℕ} (hlt : units x < n) (hle : n ≤ units y) :
    ∃ z, x ≤ z ∧ z ≤ y ∧ units z = n := by
  refine ⟨(n * 2 ^ 96 + (liquidityUnits - 1)) / liquidityUnits - 2 ^ 96, ?_⟩
  unfold units liquidityUnits at *
  omega

/-- Units between those of two prices are those of a price between them. -/
theorem priceOf_between {p target n : ℕ} (hlt : units (-p) < n) (hle : n ≤ units (-target)) :
    target ≤ priceOf n ∧ priceOf n ≤ p ∧ units (-priceOf n) = n := by
  unfold units priceOf liquidityUnits at *
  omega

/-- What the curve is for. -/
def Applies (fee : ℕ) (up : Bool) (liquidity : ℕ) : Prop :=
  fee = 0 ∧ up = false ∧ liquidity = liquidityUnits

instance (fee : ℕ) (up : Bool) (liquidity : ℕ) : Decidable (Applies fee up liquidity) :=
  inferInstanceAs (Decidable (_ ∧ _))

/-- The curve; along any other there is no liquidity. -/
def curve (fee : ℕ) (up : Bool) : Curve ℕ where
  paid liquidity x y := if Applies fee up liquidity then worth (units y) - worth (units x) else 0
  received liquidity x y := if Applies fee up liquidity then units y - units x else 0
  after liquidity _ _ := liquidity

theorem curve_exact (fee : ℕ) (up : Bool) : (curve fee up).Exact where
  after_self _ _ := rfl
  after_trans _ {_ _ _} _ _ := rfl
  paid_add liquidity {x y z} hxy hyz := by
    have hfirst := worth_mono (units_mono hxy)
    have hsecond := worth_mono (units_mono hyz)
    unfold curve
    dsimp only
    split <;> omega
  received_add liquidity {x y z} hxy hyz := by
    have hfirst := units_mono hxy
    have hsecond := units_mono hyz
    unfold curve
    dsimp only
    split <;> omega
  free_iff liquidity {x y} hxy := by
    have hworth := worth_mono (units_mono hxy)
    have hunits := units_mono hxy
    have hinj := @worth_inj (units x) (units y)
    unfold curve
    dsimp only
    split <;> omega

/-! ## Swap steps -/

/-- Where a swap step along the curve goes: to the target if the amount is enough for it, and
otherwise to the first price where the amount is exhausted. -/
def nextOf (fee : ℕ) (up isExactInput : Bool) (liquidity price target amount : ℕ) : ℕ :=
  let start := ahead up price
  if specifiedAlong (curve fee up) isExactInput liquidity start (ahead up target) ≤ amount then
    target
  else
    priceOf (if isExactInput then unitsFor (worth (units start) + amount) else units start + amount)

/-- A swap step along the curve to a price. -/
def stepTo (fee : ℕ) (up isExactInput : Bool) (liquidity price next : ℕ) : SwapStep where
  usedAmount := specified isExactInput
    (specifiedAlong (curve fee up) isExactInput liquidity (ahead up price) (ahead up next))
  returnedAmount := calculated isExactInput
    (returnedAlong (curve fee up) isExactInput liquidity (ahead up price) (ahead up next))
  deltaL := 0
  nextSqrtP := next

/-- A swap step along the curve of its direction. -/
def computeSwapStep (liquidity price target fee : ℕ) (specifiedAmount : ℤ)
    (isExactInput isToken0 : Bool) : SwapStep :=
  let up := isExactInput != isToken0
  stepTo fee up isExactInput liquidity price
    (nextOf fee up isExactInput liquidity price target specifiedAmount.natAbs)

/-- The libraries. -/
def library : Library where
  tickMath := StraightCurve.tickMath
  MAX_TICK_DISTANCE := 480
  computeSwapStep := computeSwapStep
  applyLiquidityDelta liquidity delta isAddLiquidity :=
    if isAddLiquidity then
      checkedUint128 (liquidity + delta)
    else if delta ≤ liquidity then
      .ok (liquidity - delta)
    else
      .error .noReason

theorem library_lawful : library.Lawful where
  tickMath := StraightCurve.tickMath_lawful
  tickDistance_pos := by decide
  addLiquidity hlt := if_pos hlt
  subLiquidity hle _ := if_pos hle

/-- Short of the target, the swap step goes to where the amount is exhausted. -/
theorem next_eq {isExactInput : Bool} {liquidity price target amount : ℕ} (hpos : 0 < amount)
    (hliquidity : liquidity = liquidityUnits) {z : ℤ} (hle : z ≤ -target)
    (hz : specifiedAlong (curve 0 false) isExactInput liquidity (-price) z = amount) :
    let n := if isExactInput then unitsFor (worth (units (-price)) + amount)
      else units (-price) + amount
    n = units z ∧ units (-price) < n ∧ n ≤ units (-target) := by
  have happlies : Applies 0 false liquidity := ⟨rfl, rfl, hliquidity⟩
  have hmono := units_mono hle
  cases isExactInput with
  | true =>
    change (if Applies 0 false liquidity then worth (units z) - worth (units (-price)) else 0)
      = amount at hz
    rw [if_pos happlies] at hz
    have hworth : worth (units (-price)) + amount = worth (units z) := by omega
    have hlt : units (-price) < units z := by
      by_contra hnot
      have hge := worth_mono (not_lt.mp hnot)
      omega
    show unitsFor (worth (units (-price)) + amount) = _ ∧ _ < unitsFor _ ∧ unitsFor _ ≤ _
    rw [hworth, unitsFor_worth]
    exact ⟨rfl, hlt, hmono⟩
  | false =>
    change (if Applies 0 false liquidity then units z - units (-price) else 0) = amount at hz
    rw [if_pos happlies] at hz
    show units (-price) + amount = _ ∧ _ < units (-price) + amount ∧ units (-price) + amount ≤ _
    omega

theorem ahead_down (price : ℕ) : ahead false price = -(price : ℤ) := if_neg Bool.false_ne_true

/-- What a move comes to depends on the units only. -/
theorem specifiedAlong_congr (fee : ℕ) (up isExactInput : Bool) (liquidity : ℕ) (x : ℤ) {y y' : ℤ}
    (h : units y = units y') :
    specifiedAlong (curve fee up) isExactInput liquidity x y =
      specifiedAlong (curve fee up) isExactInput liquidity x y' := by
  unfold specifiedAlong curve
  cases isExactInput <;> simp [h]

/-- A swap step goes to the target, or to where the amount is exhausted. -/
theorem nextOf_spec {fee : ℕ} {up isExactInput : Bool} {liquidity price target amount : ℕ}
    (hpos : 0 < amount) (hahead : ahead up price ≤ ahead up target)
    (hlands : Lands (curve fee up) up isExactInput liquidity price target amount) :
    let next := nextOf fee up isExactInput liquidity price target amount
    let along := specifiedAlong (curve fee up) isExactInput liquidity (ahead up price)
    ahead up price ≤ ahead up next ∧ ahead up next ≤ ahead up target ∧
      along (ahead up next) = min amount (along (ahead up target)) ∧
      (along (ahead up target) ≤ amount → next = target) := by
  dsimp only
  unfold nextOf
  dsimp only
  by_cases henough : specifiedAlong (curve fee up) isExactInput liquidity (ahead up price)
      (ahead up target) ≤ amount
  · rw [if_pos henough]
    exact ⟨hahead, le_rfl, (min_eq_right henough).symm, fun _ => rfl⟩
  · rw [if_neg henough]
    obtain ⟨z, hxz, hzy, hz⟩ := hlands
    rw [min_eq_left (not_le.mp henough).le] at hz ⊢
    have happlies : Applies fee up liquidity := by
      by_contra hnot
      apply henough
      unfold specifiedAlong curve
      cases isExactInput <;> simp [hnot]
    obtain ⟨rfl, rfl, hliquidity⟩ := happlies
    simp only [ahead_down] at hzy hz henough ⊢
    obtain ⟨hn, hlt, hle⟩ := next_eq hpos hliquidity hzy hz
    rw [hn] at hlt hle ⊢
    obtain ⟨htarget, hprice, hunits⟩ := priceOf_between hlt hle
    refine ⟨by omega, by omega, ?_, fun hcontra => absurd hcontra henough⟩
    rw [← hz]
    exact specifiedAlong_congr 0 false _ _ _ hunits

theorem attained {fee : ℕ} {up : Bool} {liquidity a : ℕ} {x y : ℤ} (hxy : x ≤ y)
    (hle : a ≤ (curve fee up).received liquidity x y) :
    ∃ z, x ≤ z ∧ z ≤ y ∧ (curve fee up).received liquidity x z = a := by
  unfold curve at *
  dsimp only at *
  have hmono := units_mono hxy
  rcases Nat.eq_zero_or_pos a with rfl | ha
  · refine ⟨x, le_rfl, hxy, ?_⟩
    split <;> omega
  · by_cases happlies : Applies fee up liquidity
    · rw [if_pos happlies] at hle
      obtain ⟨z, hxz, hzy, hz⟩ := @exists_units x y (units x + a) (by omega) (by omega)
      refine ⟨z, hxz, hzy, ?_⟩
      rw [if_pos happlies]
      omega
    · rw [if_neg happlies] at hle
      omega

/-- Swap steps along the curve are exact. -/
theorem exactStep (fee : ℕ) (up : Bool) : ExactStep library fee up (curve fee up) where
  exact := curve_exact fee up
  grows liquidity {_ _} _ := le_rfl
  fits _ hlt := hlt
  attained := attained
  step {isExactInput liquidity price target amount} hpos _ hahead hlands := by
    have hup : (isExactInput != (isExactInput != up)) = up := by
      cases isExactInput <;> cases up <;> rfl
    have habs : (specified isExactInput amount).natAbs = amount := by
      unfold specified
      split <;> omega
    obtain ⟨hforward, hle, hexhausts, hreaches⟩ := nextOf_spec hpos hahead hlands
    show MovesAlong _ _ _ _ _ _ _ (computeSwapStep _ _ _ _ _ _ _)
    unfold computeSwapStep
    dsimp only
    rw [hup, habs]
    exact ⟨hforward, hle, rfl, rfl, rfl, hexhausts, hreaches⟩

/-! ## Pools -/

/-- A pool at a price, whose only position is over the whole range. -/
def poolAt (sqrtP : ℕ) (currentTick : ℤ) : KyberElastic.Pool where
  sqrtP := sqrtP
  currentTick := currentTick
  nearestCurrentTick := -887272
  baseL := 4092256
  reinvestL := 100000
  swapFeeUnits := 0
  initializedTicks _ := (-887272, 887272)
  liquidityNet tick := if tick = -887272 then 4092256 else if tick = 887272 then -4092256 else 0

theorem tickAt_eq (sqrtP : ℕ) (currentTick : ℤ) (up : Bool) (k : ℕ) :
    (poolAt sqrtP currentTick).tickAt up k = if up then 887272 else -887272 := by
  cases up <;> cases k <;> rfl

theorem poolAt_sound {sqrtP : ℕ} {currentTick : ℤ}
    (hin : InTick library.tickMath currentTick sqrtP) :
    (poolAt sqrtP currentTick).Sound library.tickMath where
  inTick := hin
  tick_le := hin.minTick_le
  lt_tick := hin.tick_lt
  tick_mem up k := by
    rw [tickAt_eq]
    cases up <;> decide
  tick_lt k _ hlt := by
    rw [tickAt_eq] at hlt
    exact absurd hlt (by decide)
  lt_tick_down k hlt _ := by
    rw [tickAt_eq] at hlt
    exact absurd hlt (by decide)
  net tick := by
    unfold poolAt
    dsimp only
    split_ifs <;> omega
  base up k hinside := by
    cases k with
    | zero =>
      show (0 : ℤ) ≤ 4092256 ∧ (4092256 : ℤ) < 2 ^ 128
      decide
    | succ k =>
      obtain ⟨hmin, hmax⟩ := hinside k (Nat.lt_succ_self k)
      rw [tickAt_eq] at hmin hmax
      cases up with
      | true => exact absurd hmax (by decide)
      | false => exact absurd hmin (by decide)

/-- A pool at the price of one. -/
def pool : KyberElastic.Pool := poolAt (2 ^ 96) 0

theorem pool_sound : pool.Sound library.tickMath :=
  poolAt_sound {
    minTick_le := by decide
    tick_lt := by decide
    ratio_le := by decide
    le_ratio := by decide
    price_lt := by decide }

/-- A pool close to the lowest price: 1285 units of token1 are left before the limit. -/
def lowPool : KyberElastic.Pool := poolAt 24287997596993823354307475 (-887000)

theorem lowPool_sound : lowPool.Sound library.tickMath :=
  poolAt_sound {
    minTick_le := by decide
    tick_lt := by decide
    ratio_le := by decide
    le_ratio := by decide
    price_lt := by decide }

end ZeroExApi.ElasticStraight
