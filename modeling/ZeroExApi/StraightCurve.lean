/-
# ZeroExApi.StraightCurve — libraries that do what is relied on

What is relied on of the libraries can be had: ticks on two straight lines through the first, the
middle and the last price, and a swap step along a curve without rounding errors.

At the price of one and a liquidity of 2 ^ 96 the swap step is that of `SwapMath` without a fee, as
long as the amounts are less than 2 ^ 48: of token1 exactly what the price moves by, and of token0
one more where it is paid, and one less where it is received.
-/

import ZeroExApi.PoolWalk
import ZeroExApi.TickBitmap

namespace ZeroExApi.StraightCurve

open ZeroExApi.Lib ZeroExApi.TickBitmap ZeroExApi.MultiQuoter

/-- Prices on two straight lines. -/
def tickMath : TickMath where
  MIN_TICK := -887272
  MAX_TICK := 887272
  MIN_SQRT_RATIO := 4295128739
  MAX_SQRT_RATIO := 1461446703485210103287273052203988822378723970342
  getSqrtRatioAtTick tick :=
    if tick < 0 then
      (4295128739 + (tick + 887272) * 89294108812477275952863).toNat
    else if tick < 887272 then
      (2 ^ 96 + tick * 1647123659357232171428879632953282065460399).toNat
    else
      1461446703485210103287273052203988822378723970342
  getTickAtSqrtRatio price :=
    if price < 2 ^ 96 then
      min ((price - 4295128739) / 89294108812477275952863 - 887272) (-1)
    else
      min ((price - 2 ^ 96) / 1647123659357232171428879632953282065460399) 887271

theorem tickMath_lawful : tickMath.Lawful where
  ratio_lt {a b} ha hlt hb := by
    change -887272 ≤ a at ha
    change b ≤ 887272 at hb
    unfold tickMath
    dsimp only
    split <;> split <;> (try split) <;> (try split) <;> omega
  ratio_min := by decide
  ratio_max := by decide
  tick_mem {p} hmin hmax := by
    change 4295128739 ≤ p at hmin
    change p < 1461446703485210103287273052203988822378723970342 at hmax
    unfold tickMath
    dsimp only
    split <;> omega
  tick_price {p} hmin hmax := by
    change 4295128739 ≤ p at hmin
    change p < 1461446703485210103287273052203988822378723970342 at hmax
    unfold tickMath
    dsimp only
    by_cases hone : p < 2 ^ 96
    · rw [if_pos hone]
      constructor
      · rw [if_pos (by omega)]
        omega
      · split
        · omega
        · rw [if_pos (by omega)]
          omega
    · rw [if_neg hone]
      constructor
      · rw [if_neg (by omega), if_pos (by omega)]
        omega
      · rw [if_neg (by omega)]
        split <;> omega

/-! ## Steps along a line -/

/-- A price that has moved by a distance towards a target. -/
def toward (price target distance : ℕ) : ℕ :=
  if target ≤ price then price - distance else price + distance

/-- How far a target is away. -/
def distance (price target : ℕ) : ℕ := if target ≤ price then price - target else target - price

section Line

variable {price target m k : ℕ}

theorem toward_distance : toward price target (distance price target) = target := by
  unfold toward distance
  split_ifs <;> omega

theorem toward_eq_target (h : m ≤ distance price target) :
    toward price target m = target ↔ m = distance price target := by
  unfold distance at h
  unfold toward distance
  split_ifs at h ⊢ <;> omega

theorem distance_toward (h : m < distance price target) :
    distance (toward price target m) target = distance price target - m := by
  unfold distance at h
  unfold toward distance
  split_ifs at h ⊢ <;> omega

theorem toward_toward (h : k ≤ distance price target - m) :
    toward (toward price target m) target k = toward price target (m + k) := by
  unfold distance at h
  unfold toward
  split_ifs at h ⊢ <;> omega

theorem toward_between (h : m ≤ distance price target) :
    (target ≤ price → target ≤ toward price target m ∧ toward price target m ≤ price) ∧
      (price ≤ target → price ≤ toward price target m ∧ toward price target m ≤ target) := by
  unfold distance at h
  unfold toward
  split_ifs at h ⊢ <;> omega

end Line

/-- What a step along a line does, if the line applies: the price moves by what is used, and what is
made is what the price is worth more.  Everything else leads to the target for nothing. -/
structure AlongLine (exactInput : Bool) (applies : ℕ → ℕ → ℕ → Prop) (worth : ℕ → ℕ)
    (computeSwapStep : ℕ → ℕ → ℕ → ℤ → ℕ → SwapStep) : Prop where
  on : ∀ {price target liquidity a fee}, 0 < a → applies price target liquidity →
    let step := computeSwapStep price target liquidity (specified exactInput a) fee
    step.sqrtRatioNextX96 = toward price target (min a (distance price target)) ∧
      step.used exactInput = min a (distance price target) ∧
        step.made exactInput = worth step.sqrtRatioNextX96 - worth price
  off : ∀ {price target liquidity a fee}, 0 < a → ¬ applies price target liquidity →
    computeSwapStep price target liquidity (specified exactInput a) fee = ⟨target, 0, 0, 0⟩
  applies_toward : ∀ {price target liquidity m}, applies price target liquidity →
    m ≤ distance price target → applies (toward price target m) target liquidity
  worth_le : ∀ {price target liquidity m}, applies price target liquidity →
    m ≤ distance price target → worth price ≤ worth (toward price target m)
  worth_lt : ∀ price, worth price < 2 ^ 255

/-- Steps along a line are exact. -/
theorem AlongLine.exactStep {exactInput : Bool} {applies : ℕ → ℕ → ℕ → Prop} {worth : ℕ → ℕ}
    {computeSwapStep : ℕ → ℕ → ℕ → ℤ → ℕ → SwapStep}
    (h : AlongLine exactInput applies worth computeSwapStep) :
    ExactStep exactInput computeSwapStep where
  between price target liquidity a fee ha := by
    by_cases happlies : applies price target liquidity
    · obtain ⟨hprice, _⟩ := h.on ha happlies
      dsimp only
      rw [hprice]
      exact toward_between (Nat.min_le_right _ _)
    · rw [h.off ha happlies]
      exact ⟨fun hle => ⟨le_rfl, hle⟩, fun hle => ⟨hle, le_rfl⟩⟩
  fits price target liquidity a fee ha := by
    by_cases happlies : applies price target liquidity
    · obtain ⟨_, _, hmade⟩ := h.on ha happlies
      rw [hmade]
      exact lt_of_le_of_lt (Nat.sub_le _ _) (h.worth_lt _)
    · rw [h.off ha happlies]
      cases exactInput <;> exact Nat.two_pow_pos 255
  used_le price target liquidity a fee ha := by
    by_cases happlies : applies price target liquidity
    · obtain ⟨_, hused, _⟩ := h.on ha happlies
      rw [hused]
      exact Nat.min_le_left _ _
    · rw [h.off ha happlies]
      cases exactInput <;> exact Nat.zero_le _
  used_eq price target liquidity a fee ha := by
    by_cases happlies : applies price target liquidity
    · obtain ⟨hprice, hused, _⟩ := h.on ha happlies
      dsimp only
      intro hshort
      rw [hprice, Ne, toward_eq_target (Nat.min_le_right _ _)] at hshort
      rw [hused]
      omega
    · rw [h.off ha happlies]
      exact fun hshort => absurd rfl hshort
  reached price target liquidity a fee ha := by
    dsimp only
    intro htarget b hb hle
    by_cases happlies : applies price target liquidity
    · obtain ⟨hprice, hused, hmade⟩ := h.on ha happlies
      obtain ⟨hprice', hused', hmade'⟩ := h.on hb happlies
      rw [hprice, toward_eq_target (Nat.min_le_right _ _)] at htarget
      rw [hused, htarget] at hle
      have hsame : min b (distance price target) = min a (distance price target) := by omega
      rw [hmade', hmade, hused', hused, hprice', hprice, hsame, htarget]
      exact ⟨toward_distance, rfl, rfl⟩
    · rw [h.off ha happlies, h.off hb happlies]
      exact ⟨rfl, rfl, rfl⟩
  additive price target liquidity a fee ha := by
    dsimp only
    intro hshort b hb
    by_cases happlies : applies price target liquidity
    · obtain ⟨hprice, hused, hmade⟩ := h.on ha happlies
      obtain ⟨hprice', hused', hmade'⟩ := h.on (Nat.add_pos_left ha b) happlies
      rw [hprice, Ne, toward_eq_target (Nat.min_le_right _ _)] at hshort
      have ha_lt : a < distance price target := by omega
      have hmin : min a (distance price target) = a := by omega
      rw [hmin] at hprice hused
      rw [hprice]
      -- the rest goes on along the line
      obtain ⟨hrest, hused_rest, hmade_rest⟩ :=
        h.on hb (h.applies_toward happlies ha_lt.le)
      rw [distance_toward ha_lt] at hrest hused_rest
      rw [toward_toward (Nat.min_le_right _ _)] at hrest
      have hsum : min (a + b) (distance price target) =
          a + min b (distance price target - a) := by omega
      rw [hsum] at hprice' hused'
      have hpart := h.worth_le happlies ha_lt.le
      have hwhole := h.worth_le (h.applies_toward happlies ha_lt.le)
        (show min b (distance price target - a) ≤ distance (toward price target a) target by
          rw [distance_toward ha_lt]
          exact Nat.min_le_right _ _)
      rw [toward_toward (Nat.min_le_right _ _)] at hwhole
      rw [hused', hused, hused_rest, hmade', hmade, hmade_rest, hprice', hprice, hrest]
      exact ⟨rfl, rfl, by omega⟩
    · rw [h.off ha happlies] at hshort
      exact absurd rfl hshort

/-! ## Swap steps -/

/-- What has been paid of token0 at a price, up to what is the same for every price. -/
def paid (price : ℕ) : ℕ := 2 ^ 160 - price + if price < 2 ^ 96 then 1 else 0

/-- What has been received of token0 at a price, up to what is the same for every price. -/
def received (price : ℕ) : ℕ := min price (2 ^ 160) - if 2 ^ 96 < price then 1 else 0

/-- Where the curve is a line. -/
def OnCurve (price target liquidity : ℕ) : Prop :=
  liquidity = 2 ^ 96 ∧ price ≤ 2 ^ 160 ∧ target ≤ 2 ^ 160

instance (price target liquidity : ℕ) : Decidable (OnCurve price target liquidity) :=
  inferInstanceAs (Decidable (_ ∧ _))

/-- A swap step for an exact output of token1 or an exact input of it, within the curve.  Everything
else leads to the target for nothing, as without liquidity. -/
def computeSwapStep (price target liquidity : ℕ) (amountRemaining : ℤ) (_fee : ℕ) : SwapStep :=
  let next := toward price target (min amountRemaining.natAbs (distance price target))
  if OnCurve price target liquidity ∧ target ≤ price ∧ amountRemaining < 0 then
    ⟨next, paid next - paid price, price - next, 0⟩
  else if OnCurve price target liquidity ∧ price ≤ target ∧ 0 ≤ amountRemaining then
    ⟨next, next - price, received next - received price, 0⟩
  else
    ⟨target, 0, 0, 0⟩

/-- Exact outputs go along a line to the left. -/
theorem alongLine_output : AlongLine false
    (fun price target liquidity => OnCurve price target liquidity ∧ target ≤ price) paid
      computeSwapStep where
  on {price target liquidity a fee} ha happlies := by
    have hneg : specified false a < 0 := by
      show -(a : ℤ) < 0
      omega
    have habs : (specified false a).natAbs = a := by
      show (-(a : ℤ)).natAbs = a
      omega
    unfold computeSwapStep
    dsimp only
    rw [if_pos ⟨happlies.1, happlies.2, hneg⟩, habs]
    refine ⟨rfl, ?_, rfl⟩
    show price - toward price target (min a (distance price target)) = _
    unfold toward distance
    rw [if_pos happlies.2, if_pos happlies.2]
    omega
  off {price target liquidity a fee} ha happlies := by
    have hneg : specified false a < 0 := by
      show -(a : ℤ) < 0
      omega
    unfold computeSwapStep
    dsimp only
    rw [if_neg fun h => happlies ⟨h.1, h.2.1⟩, if_neg fun h => absurd h.2.2 (not_le.mpr hneg)]
  applies_toward {price target liquidity m} happlies hm := by
    have hbetween := (toward_between hm).1 happlies.2
    obtain ⟨⟨hliquidity, hprice, htarget⟩, _⟩ := happlies
    exact ⟨⟨hliquidity, hbetween.2.trans hprice, htarget⟩, hbetween.1⟩
  worth_le {price target liquidity m} happlies hm := by
    have hbetween := (toward_between hm).1 happlies.2
    have hprice := happlies.1.2.1
    unfold paid
    split_ifs <;> omega
  worth_lt price := by
    unfold paid
    split <;> omega

/-- Exact inputs go along a line to the right. -/
theorem alongLine_input : AlongLine true
    (fun price target liquidity => OnCurve price target liquidity ∧ price ≤ target) received
      computeSwapStep where
  on {price target liquidity a fee} ha happlies := by
    have hnonneg : ¬ specified true a < 0 := not_lt.mpr (Int.natCast_nonneg a)
    have habs : (specified true a).natAbs = a := Int.natAbs_natCast a
    unfold computeSwapStep
    dsimp only
    rw [if_neg fun h => hnonneg h.2.2, if_pos ⟨happlies.1, happlies.2, not_lt.mp hnonneg⟩, habs]
    refine ⟨rfl, ?_, rfl⟩
    show toward price target (min a (distance price target)) - price + 0 = _
    have hle := happlies.2
    unfold toward distance
    split_ifs <;> omega
  off {price target liquidity a fee} ha happlies := by
    have hnonneg : ¬ specified true a < 0 := not_lt.mpr (Int.natCast_nonneg a)
    unfold computeSwapStep
    dsimp only
    rw [if_neg fun h => hnonneg h.2.2, if_neg fun h => happlies ⟨h.1, h.2.1⟩]
  applies_toward {price target liquidity m} happlies hm := by
    have hbetween := (toward_between hm).2 happlies.2
    obtain ⟨⟨hliquidity, _, htarget⟩, _⟩ := happlies
    exact ⟨⟨hliquidity, hbetween.2.trans htarget, htarget⟩, hbetween.2⟩
  worth_le {price target liquidity m} happlies hm := by
    have hbetween := (toward_between hm).2 happlies.2
    have htarget := happlies.1.2.2
    unfold received
    split_ifs <;> omega
  worth_lt price := by
    unfold received
    omega

theorem received_mono {p p' : ℕ} (h : p ≤ p') : received p ≤ received p' := by
  unfold received
  split_ifs <;> omega

/-- No exact input is worth more than what the price is worth more. -/
theorem made_input_le (price target liquidity a fee : ℕ) (ha : 0 < a) :
    let step := computeSwapStep price target liquidity (specified true a) fee
    step.made true ≤ received step.sqrtRatioNextX96 - received price := by
  dsimp only
  by_cases happlies : OnCurve price target liquidity ∧ price ≤ target
  · obtain ⟨_, _, hmade⟩ :=
      @AlongLine.on _ _ _ _ alongLine_input price target liquidity a fee ha happlies
    exact hmade.le
  · rw [alongLine_input.off ha happlies]
    exact Nat.zero_le _

/-- Exact outputs are paid for. -/
theorem stepPaid (price target liquidity a fee : ℕ) (ha : 0 < a) :
    let step := computeSwapStep price target liquidity (specified false a) fee
    0 < step.used false → 0 < step.made false := by
  dsimp only
  intro hused
  by_cases happlies : OnCurve price target liquidity ∧ target ≤ price
  · obtain ⟨hprice, hused', hmade⟩ :=
      @AlongLine.on _ _ _ _ alongLine_output price target liquidity a fee ha happlies
    rw [hused'] at hused
    rw [hmade, hprice]
    obtain ⟨⟨_, hprice_le, _⟩, hle⟩ := happlies
    unfold toward distance at *
    rw [if_pos hle] at hused ⊢
    rw [if_pos hle]
    unfold paid
    split_ifs <;> omega
  · rw [alongLine_output.off ha happlies] at hused
    exact absurd hused (lt_irrefl 0)

/-! ## A pool -/

/-- A pool at the price of one whose only position is over the whole range. -/
def pool : Pool where
  sqrtPriceX96 := 2 ^ 96
  tick := 0
  tickSpacing := 4504
  fee := 0
  liquidity := 2 ^ 96
  tickBitmap word := if word = -1 then .twoPow 256 59 else if word = 0 then .twoPow 256 197 else 0
  liquidityNet tick := if tick = -887272 then 2 ^ 96 else if tick = 887272 then -2 ^ 96 else 0

theorem pool_sound : pool.Sound tickMath where
  tickSpacing_pos := by decide
  inTick := {
    minTick_le := by decide
    tick_lt := by decide
    ratio_le := by decide
    le_ratio := by decide
    price_lt := by decide }
  min_lt := by decide

end ZeroExApi.StraightCurve
