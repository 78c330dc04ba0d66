/-
# ZeroExApi.FeeConversion — an amount of ETH in output tokens, with and without a price for them

`ethToOutputAmount` of `market_operation_utils/fills.ts` converts at the price of the output token,
or, where that is not known, at the price of the input token and the rate of the trade.  The rate is
cut off to an integer before it is multiplied, so that of the converted amount everything is lost
that the fraction of the rate stands for.

The two conversions are within a base unit of each other exactly if that is no more than what
rounding leaves room for (`penaltiesAgree_iff`), and the penalties of fills and of the overhead with
them.
-/

import ZeroExApi.Path

namespace ZeroExApi.FeeConversion

open ZeroExApi.Lib ZeroExApi.Lib.BigNumber ZeroExApi.Fills

/-! ## Agreement -/

/-- Two finite numbers that differ by at most one base unit. -/
def WithinUnit (x y : BigNumber) : Prop := ∃ p q : ℚ, x = .fin p ∧ y = .fin q ∧ |p - q| ≤ 1

/-- What output is worth in ETH when the input is, at the rate of the trade. -/
def consistentPrice (input output inputAmountPerEth : ℚ) : ℚ := inputAmountPerEth * (output / input)

/-- An amount of ETH that is charged for a trade is the same up to a base unit, whether the price of
the output token is known or not: by itself, and as the penalty of a sample, of a native order, and
of a path for the overhead. -/
structure PenaltiesAgree (input output eth inputAmountPerEth : ℚ) : Prop where
  conversions : WithinUnit
    (ethToOutputAmount (.fin input) (.fin output) (.fin eth) (.fin inputAmountPerEth)
      (.fin (consistentPrice input output inputAmountPerEth)))
    (ethToOutputAmount (.fin input) (.fin output) (.fin eth) (.fin inputAmountPerEth) (.fin 0))
  dexSample : ∀ (side : MarketOperation) (sample : DexSample) (fees : FeeSchedule),
    sample.input = .fin input → sample.output = .fin output →
      (fees sample.source sample.fillData).fee = .fin eth →
        WithinUnit
          (dexSampleToFill side sample (.fin (consistentPrice input output inputAmountPerEth))
            (.fin inputAmountPerEth) fees).adjustedOutput
          (dexSampleToFill side sample (.fin 0) (.fin inputAmountPerEth) fees).adjustedOutput
  nativeOrder : ∀ (side : MarketOperation) (order : NativeOrderWithFillableAmounts)
    (targetInput : BigNumber) (fees : FeeSchedule) (filterNegativeAdjustedRateOrders : Bool)
    (fill fill' : Fill),
    nativeOrderToNormalizedAmounts side order = (.fin input, .fin output) →
      (fees .native (.native order)).fee = .fin eth →
        (targetInput.min (.fin input)).isFinite = true →
          nativeOrderToFill side order targetInput
              (.fin (consistentPrice input output inputAmountPerEth)) (.fin inputAmountPerEth) fees
              filterNegativeAdjustedRateOrders = some fill →
            nativeOrderToFill side order targetInput (.fin 0) (.fin inputAmountPerEth) fees
                filterNegativeAdjustedRateOrders = some fill' →
              WithinUnit fill.adjustedOutput fill'.adjustedOutput
  overhead : ∀ (side : MarketOperation) (exchangeProxyOverhead : ExchangeProxyOverhead)
    (sourceFlags : ℕ), exchangeProxyOverhead sourceFlags = .fin eth →
      WithinUnit
        (Path.applyExchangeProxyOverhead side
          ⟨.fin (consistentPrice input output inputAmountPerEth), .fin inputAmountPerEth,
            exchangeProxyOverhead⟩ sourceFlags ⟨.fin input, .fin output⟩).output
        (Path.applyExchangeProxyOverhead side
          ⟨.fin 0, .fin inputAmountPerEth, exchangeProxyOverhead⟩ sourceFlags
          ⟨.fin input, .fin output⟩).output

/-- Cutting the rate off loses no more of the amount than rounding leaves room for. -/
def RateHardlyCut (input output eth inputAmountPerEth : ℚ) : Prop :=
  inputAmountPerEth * eth * Int.fract (output / input) ≤
    1 / 2 + Int.fract (inputAmountPerEth * eth * (output / input) + 1 / 2)

/-! ## Rounding late and rounding early -/

/-- The rounded product against the product with the rounded factor. -/
theorem round_mul_sub_mul_floor {x r : ℚ} (hx : 0 ≤ x) (hr : 0 ≤ r) :
    (roundRat .halfUp (x * r) : ℚ) - x * ⌊r⌋ =
      1 / 2 - Int.fract (x * r + 1 / 2) + x * Int.fract r := by
  have hround : (roundRat .halfUp (x * r) : ℚ) = ⌊x * r + 1 / 2⌋ := by
    rw [roundRat_halfUp_of_nonneg (mul_nonneg hx hr)]
  rw [hround, ← Int.self_sub_floor (x * r + 1 / 2), ← Int.self_sub_floor r]
  ring

theorem abs_round_mul_sub_le_iff {x r : ℚ} (hx : 0 ≤ x) (hr : 0 ≤ r) :
    |(roundRat .halfUp (x * r) : ℚ) - x * ⌊r⌋| ≤ 1 ↔
      x * Int.fract r ≤ 1 / 2 + Int.fract (x * r + 1 / 2) := by
  have hcut := mul_nonneg hx (Int.fract_nonneg r)
  have hfract := Int.fract_lt_one (x * r + 1 / 2)
  rw [round_mul_sub_mul_floor hx hr, abs_le]
  constructor
  · rintro ⟨_, hle⟩
    linarith
  · intro hle
    constructor <;> linarith

/-! ## Penalties -/

/-- Penalties that are close leave adjusted outputs that are. -/
theorem WithinUnit.adjustOutput {x y : BigNumber} (h : WithinUnit x y) (side : MarketOperation)
    {output : BigNumber} (houtput : output.isFinite = true) :
    WithinUnit (adjustOutput side output x) (adjustOutput side output y) := by
  obtain ⟨p, q, rfl, rfl, hpq⟩ := h
  obtain ⟨b, rfl⟩ := isFinite_iff.mp houtput
  cases side with
  | sell =>
    refine ⟨b - p, b - q, minus_fin b p, minus_fin b q, ?_⟩
    rw [abs_sub_comm] at hpq
    rwa [sub_sub_sub_cancel_left]
  | buy =>
    refine ⟨b + p, b + q, rfl, rfl, ?_⟩
    rwa [add_sub_add_left_eq_sub]

/-- The penalty of a native order that is not filtered out. -/
theorem nativeOrderToFill_adjustedOutput {side : MarketOperation}
    {order : NativeOrderWithFillableAmounts}
    {targetInput outputAmountPerEth inputAmountPerEth : BigNumber} {fees : FeeSchedule}
    {filterNegativeAdjustedRateOrders : Bool} {fill : Fill}
    (h : nativeOrderToFill side order targetInput outputAmountPerEth inputAmountPerEth fees
      filterNegativeAdjustedRateOrders = some fill) :
    fill.adjustedOutput =
      adjustOutput side
        (((targetInput.min (nativeOrderToNormalizedAmounts side order).1).div
          (nativeOrderToNormalizedAmounts side order).1).times
            (nativeOrderToNormalizedAmounts side order).2)
        (ethToOutputAmount (nativeOrderToNormalizedAmounts side order).1
          (nativeOrderToNormalizedAmounts side order).2 (fees .native (.native order)).fee
          inputAmountPerEth outputAmountPerEth) := by
  unfold nativeOrderToFill at h
  dsimp only at h
  rw [Option.ite_none_left_eq_some] at h
  rw [← Option.some.inj h.2]

variable {input output eth inputAmountPerEth : ℚ}

/-- The two conversions are close exactly if the rate is hardly cut. -/
theorem conversions_iff (hinput : 0 < input) (houtput : 0 < output) (heth : 0 < eth)
    (hprice : 0 < inputAmountPerEth) :
    WithinUnit
        (ethToOutputAmount (.fin input) (.fin output) (.fin eth) (.fin inputAmountPerEth)
          (.fin (consistentPrice input output inputAmountPerEth)))
        (ethToOutputAmount (.fin input) (.fin output) (.fin eth) (.fin inputAmountPerEth)
          (.fin 0)) ↔
      RateHardlyCut input output eth inputAmountPerEth := by
  have hrate : 0 < output / input := div_pos houtput hinput
  have hconsistent : consistentPrice input output inputAmountPerEth ≠ 0 :=
    (mul_pos hprice hrate).ne'
  have hproduct : consistentPrice input output inputAmountPerEth * eth =
      inputAmountPerEth * eth * (output / input) := by
    unfold consistentPrice
    ring
  rw [ethToOutputAmount_fin hconsistent, ethToOutputAmount_fallback hinput houtput.le, hproduct]
  have hiff := abs_round_mul_sub_le_iff (mul_pos hprice heth).le hrate.le
  constructor
  · rintro ⟨_, _, hp, hq, hle⟩
    cases hp
    cases hq
    exact hiff.mp hle
  · intro hcut
    exact ⟨_, _, rfl, rfl, hiff.mpr hcut⟩

/-- Where the conversions are close, so are all penalties. -/
theorem penaltiesAgree_of_conversions
    (h : WithinUnit
      (ethToOutputAmount (.fin input) (.fin output) (.fin eth) (.fin inputAmountPerEth)
        (.fin (consistentPrice input output inputAmountPerEth)))
      (ethToOutputAmount (.fin input) (.fin output) (.fin eth) (.fin inputAmountPerEth) (.fin 0)))
    (hinput : 0 < input) : PenaltiesAgree input output eth inputAmountPerEth where
  conversions := h
  dexSample := by
    intro side sample fees hin hout hfee
    unfold dexSampleToFill
    dsimp only
    rw [hin, hout, hfee]
    exact h.adjustOutput side rfl
  nativeOrder := by
    intro side order targetInput fees filter fill fill' hamounts hfee htarget hfill hfill'
    obtain ⟨c, hc⟩ := isFinite_iff.mp htarget
    rw [nativeOrderToFill_adjustedOutput hfill, nativeOrderToFill_adjustedOutput hfill', hamounts]
    dsimp only
    rw [hc, hfee, div_fin _ hinput.ne', times_fin]
    exact h.adjustOutput side rfl
  overhead := by
    intro side exchangeProxyOverhead sourceFlags hoverhead
    unfold Path.applyExchangeProxyOverhead
    dsimp only
    rw [hoverhead]
    exact h.adjustOutput side rfl

/-- A missing price for the output token leaves the penalties as they are, up to a base unit,
exactly if the rate of the trade is hardly cut. -/
theorem penaltiesAgree_iff (hinput : 0 < input) (houtput : 0 < output) (heth : 0 < eth)
    (hprice : 0 < inputAmountPerEth) :
    PenaltiesAgree input output eth inputAmountPerEth ↔
      RateHardlyCut input output eth inputAmountPerEth := by
  rw [← conversions_iff hinput houtput heth hprice]
  exact ⟨PenaltiesAgree.conversions, fun h => penaltiesAgree_of_conversions h hinput⟩

/-- At a rate of three nothing is cut off. -/
theorem penaltiesAgree_of_three : PenaltiesAgree 2 6 5 1 := by
  refine (penaltiesAgree_iff (by norm_num) (by norm_num) (by norm_num) (by norm_num)).mpr ?_
  have hrate : (6 / 2 : ℚ) = (3 : ℕ) := by norm_num
  unfold RateHardlyCut
  rw [hrate, Int.fract_natCast, mul_zero]
  exact add_nonneg (by norm_num) (Int.fract_nonneg _)

/-- A token of 18 decimals that is sold for one of 6: a fee of a hundredth of an ETH is twenty
million units with the price of the output token, and nothing without. -/
theorem fee_lost_without_price :
    ethToOutputAmount (.fin (10 ^ 18)) (.fin (2 * 10 ^ 9)) (.fin (10 ^ 16)) (.fin 1)
        (.fin (consistentPrice (10 ^ 18) (2 * 10 ^ 9) 1)) = .fin 20000000 ∧
      ethToOutputAmount (.fin (10 ^ 18)) (.fin (2 * 10 ^ 9)) (.fin (10 ^ 16)) (.fin 1) (.fin 0) =
        .fin 0 ∧
      ¬ PenaltiesAgree (10 ^ 18) (2 * 10 ^ 9) (10 ^ 16) 1 := by
  have hprice : ethToOutputAmount (.fin (10 ^ 18)) (.fin (2 * 10 ^ 9)) (.fin (10 ^ 16)) (.fin 1)
      (.fin (consistentPrice (10 ^ 18) (2 * 10 ^ 9) 1)) = .fin 20000000 := by
    have hexact : consistentPrice (10 ^ 18) (2 * 10 ^ 9) 1 * 10 ^ 16 = (20000000 : ℤ) := by
      norm_num [consistentPrice]
    rw [ethToOutputAmount_fin (by norm_num [consistentPrice]), hexact, roundRat_intCast]
    norm_num
  have hfallback : ethToOutputAmount (.fin (10 ^ 18)) (.fin (2 * 10 ^ 9)) (.fin (10 ^ 16))
      (.fin 1) (.fin 0) = .fin 0 := by
    rw [ethToOutputAmount_fallback (by norm_num) (by norm_num)]
    norm_num
  refine ⟨hprice, hfallback, fun h => ?_⟩
  obtain ⟨p, q, hp, hq, hle⟩ := h.conversions
  rw [hprice] at hp
  rw [hfallback] at hq
  cases hp
  cases hq
  norm_num at hle

end ZeroExApi.FeeConversion
