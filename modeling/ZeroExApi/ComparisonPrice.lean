/-
# ZeroExApi.ComparisonPrice — the price RFQ makers are given to beat

`getComparisonPrices` of `market_operation_utils/comparison_price.ts`, with the fee schedule of
`swap_quoter.ts` and the row for native orders of `DEFAULT_GAS_SCHEDULE`.  The comparison price
turns the rate of the path found without RFQ back into an order for the whole amount, which pays the
fee of one native order and the overhead the exchange proxy has for it.

The order is as good as the path up to roundings, of its amounts, of the penalties and of the rate
that is kept (`PhaseOne.rfqOutput_sub_le`).  But on a buy the taker amount is rounded down, and
where less than one unit of it is left the price is infinite (`half_unit_price_is_infinite`).
-/

import ZeroExApi.Path
import ZeroExApi.SwapService

namespace ZeroExApi.ComparisonPrice

open ZeroExApi.Lib ZeroExApi.Lib.BigNumber ZeroExApi.Fills ZeroExApi.SwapService

/-! ## Schedules -/

/-- The row of `DEFAULT_GAS_SCHEDULE` for native orders; `PROTOCOL_FEE_MULTIPLIER` is zero. -/
def nativeGas : FillQuoteTransformerOrderType → ℚ
  | .limit => 0 + 100000
  | .rfq | .bridge => 100000
  | .otc => 85000

/-- A gas schedule with that row, the others as given. -/
def gasSchedule (others : GasSchedule) : GasSchedule
  | .native, .native order => nativeGas order.type
  | source, fillData => others source fillData

/-- `feeSchedule` of `getSwapQuoteAsync`: gas at the gas price. -/
def feeSchedule (gasPrice : BigNumber) (others : GasSchedule) : FeeSchedule :=
  fun source fillData =>
    { gas := gasSchedule others source fillData
      fee := gasPrice.times (.fin (gasSchedule others source fillData)) }

/-- The fee estimate of the native row, which is called with a type only; it could throw. -/
def nativeOrderFeeEstimate (gasPrice : BigNumber) (type : FillQuoteTransformerOrderType) :
    Option FeeEstimate :=
  some ⟨nativeGas type, gasPrice.times (.fin (nativeGas type))⟩

/-- `exchangeProxyOverhead` of `getSwapQuoteAsync`: what is configured, at the gas price. -/
def exchangeProxyOverhead (gasPrice : BigNumber) (overhead : ExchangeProxyOverhead) :
    ExchangeProxyOverhead :=
  fun flags => gasPrice.times (overhead flags)

/-! ## The comparison price -/

/-- `MarketSideLiquidity`, what the price is made of. -/
structure MarketSideLiquidity where
  side : MarketOperation
  outputAmountPerEth : BigNumber
  inputAmountPerEth : BigNumber
  makerTokenDecimals : ℕ
  takerTokenDecimals : ℕ

/-- The amounts of an order for the whole amount at the adjusted rate, before they are rounded. -/
structure OrderAmounts where
  orderMakerAmount : BigNumber
  orderTakerAmount : BigNumber

/-- The penalty for the fee of a native order, in output units. -/
def feePenalty [Arithmetic] (adjustedRate : BigNumber) (marketSideLiquidity : MarketSideLiquidity)
    (feeInEth : BigNumber) : BigNumber :=
  if !marketSideLiquidity.outputAmountPerEth.isZero then
    marketSideLiquidity.outputAmountPerEth.times feeInEth
  else
    (marketSideLiquidity.inputAmountPerEth.times feeInEth).times
      (match marketSideLiquidity.side with
        | .sell => adjustedRate
        | .buy => (1 : BigNumber).div adjustedRate)

/-- The adjusted rate is maker over taker; the input is the taker token on a sell and the maker
token on a buy. -/
def orderAmounts [Arithmetic] (adjustedRate amount : BigNumber)
    (marketSideLiquidity : MarketSideLiquidity) (feeInEth : BigNumber) : OrderAmounts :=
  let feePenalty := feePenalty adjustedRate marketSideLiquidity feeInEth
  match marketSideLiquidity.side with
  | .sell => ⟨(adjustedRate.times amount).plus feePenalty, amount⟩
  | .buy => ⟨amount, (amount.div adjustedRate).minus feePenalty⟩

/-- The fee of a native RFQ order with the overhead of the exchange proxy for it; nothing when the
estimate throws. -/
def rfqFeeInEth (nativeOrderFeeEstimate : FillQuoteTransformerOrderType → Option FeeEstimate)
    (exchangeProxyOverhead : ExchangeProxyOverhead) : Option BigNumber :=
  (nativeOrderFeeEstimate .rfq).map fun estimate =>
    estimate.fee.plus (exchangeProxyOverhead (SOURCE_FLAGS .rfqOrder))

/-- `COMPARISON_PRICE_DECIMALS`. -/
def COMPARISON_PRICE_DECIMALS : ℕ := 10

/-- `wholeOrder`, for an order whose amounts are positive: the maker amount is rounded up and the
taker amount down, to err to the more competitive price. -/
def wholeOrder [Arithmetic] (amounts : OrderAmounts) (marketSideLiquidity : MarketSideLiquidity) :
    Option BigNumber :=
  if amounts.orderTakerAmount.gt 0 && amounts.orderMakerAmount.gt 0 then
    let optimalMakerUnitAmount :=
      toUnitAmount (amounts.orderMakerAmount.integerValue .up)
        marketSideLiquidity.makerTokenDecimals
    let optimalTakerUnitAmount :=
      toUnitAmount (amounts.orderTakerAmount.integerValue .down)
        marketSideLiquidity.takerTokenDecimals
    some ((optimalMakerUnitAmount.div optimalTakerUnitAmount).decimalPlaces
      COMPARISON_PRICE_DECIMALS .halfUp)
  else
    none

/-- `getComparisonPrices`: its `wholeOrder`. -/
def getComparisonPrices [Arithmetic] (adjustedRate amount : BigNumber)
    (marketSideLiquidity : MarketSideLiquidity)
    (nativeOrderFeeEstimate : FillQuoteTransformerOrderType → Option FeeEstimate)
    (exchangeProxyOverhead : ExchangeProxyOverhead) : Option BigNumber :=
  match rfqFeeInEth nativeOrderFeeEstimate exchangeProxyOverhead with
  | none => none
  | some feeInEth =>
    wholeOrder (orderAmounts adjustedRate amount marketSideLiquidity feeInEth) marketSideLiquidity

/-! ## The order the price stands for -/

/-- The size of a path that is one native fill: an RFQ order for the whole amount, turned into a
fill and charged the overhead of the exchange proxy. -/
def rfqSize [Arithmetic] (side : MarketOperation) (order : NativeOrderWithFillableAmounts)
    (targetInput : BigNumber) (pathPenaltyOpts : PathPenaltyOpts) (fees : FeeSchedule) :
    Option PathSize :=
  (nativeOrderToFill side order targetInput pathPenaltyOpts.outputAmountPerEth
    pathPenaltyOpts.inputAmountPerEth fees false).map fun fill =>
      Path.applyExchangeProxyOverhead side pathPenaltyOpts (BitFlags.mergeFlags [fill.flags])
        (createAdjustedSize targetInput [fill])

/-- An RFQ order for the whole amount, with the rounded amounts the price is made of. -/
structure IsWholeOrder (amounts : OrderAmounts)
    (order : NativeOrderWithFillableAmounts) : Prop where
  type_eq : order.type = .rfq
  makerAmount_eq : order.fillableMakerAmount = amounts.orderMakerAmount.integerValue .up
  takerAmount_eq : order.fillableTakerAmount = amounts.orderTakerAmount.integerValue .down
  takerFeeAmount_eq : order.fillableTakerFeeAmount = ZERO_AMOUNT

/-! ## Fees and roundings -/

/-- What a native RFQ order pays in the native token. -/
def rfqFee (gasPrice : ℚ) (overhead : ℕ → ℚ) : ℚ :=
  gasPrice * nativeGas .rfq + gasPrice * overhead (SOURCE_FLAGS .rfqOrder)

theorem rfqFeeInEth_eq (gasPrice : ℚ) (overhead : ℕ → ℚ) :
    rfqFeeInEth (nativeOrderFeeEstimate (.fin gasPrice))
        (exchangeProxyOverhead (.fin gasPrice) fun flags => .fin (overhead flags))
      = some (.fin (rfqFee gasPrice overhead)) := rfl

/-- `adjustOutput` on finite numbers. -/
def charge (side : MarketOperation) (output penalty : ℚ) : ℚ :=
  match side with
  | .sell => output - penalty
  | .buy => output + penalty

theorem adjustOutput_fin (side : MarketOperation) (output penalty : ℚ) :
    adjustOutput side (.fin output) (.fin penalty) = .fin (charge side output penalty) := by
  cases side with
  | sell => exact minus_fin output penalty
  | buy => exact plus_fin output penalty

/-- Rounding away from zero moves a number by less than one, and so does rounding towards it. -/
theorem abs_roundRat_up_sub_lt (q : ℚ) : |(roundRat .up q : ℚ) - q| < 1 := by
  rw [abs_lt]
  by_cases hq : 0 ≤ q
  · rw [roundRat_up_of_nonneg hq]
    have hle := Int.le_ceil q
    have hlt := Int.ceil_lt_add_one q
    constructor <;> linarith
  · have heq : roundRat .up q = ⌊q⌋ := by simp [roundRat, hq]
    rw [heq]
    have hle := Int.floor_le q
    have hlt := Int.lt_floor_add_one q
    constructor <;> linarith

theorem abs_roundRat_down_sub_lt (q : ℚ) : |(roundRat .down q : ℚ) - q| < 1 := by
  rw [abs_lt]
  by_cases hq : 0 ≤ q
  · rw [roundRat_down_of_nonneg hq]
    have hle := Int.floor_le q
    have hlt := Int.lt_floor_add_one q
    constructor <;> linarith
  · have heq : roundRat .down q = ⌈q⌉ := by simp [roundRat, hq]
    rw [heq]
    have hle := Int.le_ceil q
    have hlt := Int.ceil_lt_add_one q
    constructor <;> linarith

/-- Two penalties rounded to the nearest integer are within one of both together. -/
theorem abs_sub_two_halfUp_le (p q : ℚ) :
    |p + q - (roundRat .halfUp p + roundRat .halfUp q)| ≤ 1 := by
  have hp := abs_le.mp (abs_roundRat_halfUp_sub_le p)
  have hq := abs_le.mp (abs_roundRat_halfUp_sub_le q)
  rw [abs_le]
  constructor <;> linarith

/-- Two penalties in place of one that is within one of both move an output by one at most. -/
theorem abs_charge_charge_sub_le (side : MarketOperation) {o output penalty p q : ℚ}
    (hpenalty : |penalty - (p + q)| ≤ 1) (h : |charge side o penalty - output| < 1) :
    |charge side (charge side o p) q - output| ≤ 2 := by
  have hp := abs_le.mp hpenalty
  have ho := abs_lt.mp h
  rw [abs_le]
  cases side with
  | sell =>
    simp only [charge] at ho ⊢
    constructor <;> linarith
  | buy =>
    simp only [charge] at ho ⊢
    constructor <;> linarith

section

variable [Arithmetic]

/-! ## What breaks even -/

/-- A path of the first phase that covers the amount at a positive rate, with what it was made
under: the gas price, the overhead of the exchange proxy in gas, and the price of the native token
in the output token. -/
structure PhaseOne (path : Path) (marketSideLiquidity : MarketSideLiquidity)
    (gasPrice outputAmountPerEth : ℚ) (overhead : ℕ → ℚ) (amount : ℕ) (rate : ℚ) : Prop where
  side_eq : path.context.side = marketSideLiquidity.side
  outputAmountPerEth_eq : marketSideLiquidity.outputAmountPerEth = .fin outputAmountPerEth
  outputAmountPerEth_ne : outputAmountPerEth ≠ 0
  pathPenaltyOpts_eq : path.pathPenaltyOpts =
    { outputAmountPerEth := marketSideLiquidity.outputAmountPerEth
      inputAmountPerEth := marketSideLiquidity.inputAmountPerEth
      exchangeProxyOverhead :=
        exchangeProxyOverhead (.fin gasPrice) fun flags => .fin (overhead flags) }
  amount_pos : 0 < amount
  covers : path.adjustedSize.input = .fin amount
  rate_eq : path.adjustedRate = .fin rate
  rate_pos : 0 < rate

/-- What an amount at a rate can be away from the output that the rate was made of: the rate is a
quotient of which so much is kept, and on a buy what the amount comes to is another. -/
def rateLoss (side : MarketOperation) (amount rate output : ℚ) : ℚ :=
  match side with
  | .sell => Arithmetic.precision * amount
  | .buy => Arithmetic.precision * (1 + output / rate)

/-- So far apart at most. -/
def Within (bound : ℚ) (x y : BigNumber) : Prop :=
  ∃ p q : ℚ, x = .fin p ∧ y = .fin q ∧ |p - q| ≤ bound

/-- More than nothing and less than a unit. -/
def PartOfUnit (x : BigNumber) : Prop := x.gt 0 = true ∧ x.lt 1 = true

/-- The comparison price breaks even: it is a finite price that is not negative, where the taker
amount of a buy is not a part of a unit, and an order for the whole amount at that price is worth
what the path is, up to two base units and what the rate lost. -/
structure BreakEven (path : Path) (marketSideLiquidity : MarketSideLiquidity) (gasPrice : ℚ)
    (others : GasSchedule) (amount : ℕ) (rate : ℚ) : Prop where
  finite : ∀ feeInEth,
    rfqFeeInEth (nativeOrderFeeEstimate (.fin gasPrice)) path.pathPenaltyOpts.exchangeProxyOverhead
      = some feeInEth →
    (marketSideLiquidity.side = .buy →
      ¬ PartOfUnit (orderAmounts path.adjustedRate (.fin amount) marketSideLiquidity
        feeInEth).orderTakerAmount) →
    ∀ price,
      getComparisonPrices path.adjustedRate (.fin amount) marketSideLiquidity
        (nativeOrderFeeEstimate (.fin gasPrice)) path.pathPenaltyOpts.exchangeProxyOverhead
          = some price → IsAmount price
  adjustedOutput : ∀ feeInEth,
    rfqFeeInEth (nativeOrderFeeEstimate (.fin gasPrice)) path.pathPenaltyOpts.exchangeProxyOverhead
      = some feeInEth →
    ∀ order,
      IsWholeOrder (orderAmounts path.adjustedRate (.fin amount) marketSideLiquidity feeInEth)
        order →
      ∃ size,
        rfqSize marketSideLiquidity.side order (.fin amount) path.pathPenaltyOpts
          (feeSchedule (.fin gasPrice) others) = some size ∧
        Within (2 + rateLoss marketSideLiquidity.side amount rate
            path.getExchangeProxyOverheadAppliedSize.output.toRat)
          size.output path.getExchangeProxyOverheadAppliedSize.output

/-! ## Rates and sizes as rationals -/

theorem feePenalty_fin {outputAmountPerEth : ℚ} (h : outputAmountPerEth ≠ 0)
    (adjustedRate : BigNumber) {marketSideLiquidity : MarketSideLiquidity}
    (heq : marketSideLiquidity.outputAmountPerEth = .fin outputAmountPerEth) (eth : ℚ) :
    feePenalty adjustedRate marketSideLiquidity (.fin eth) = .fin (outputAmountPerEth * eth) := by
  unfold feePenalty
  rw [heq, isZero_fin, decide_eq_false h]
  rfl

/-- The output an amount has at a rate. -/
def outputAtRate (side : MarketOperation) (rate amount : ℚ) : ℚ :=
  match side with
  | .sell => rate * amount
  | .buy => Arithmetic.quotient (amount / rate)

/-- What is kept of a number is positive only where the number is. -/
theorem pos_of_quotient_pos {q : ℚ} (h : 0 < Arithmetic.quotient q) : 0 < q :=
  Arithmetic.lt_of_quotient_lt (by rwa [Arithmetic.quotient_zero])

/-- An amount divided by what is kept of its quotient by an output. -/
theorem abs_quotient_div_quotient_sub_le {amount o : ℚ} (hamount : 0 < amount)
    (hrate : 0 < Arithmetic.quotient (amount / o)) :
    |Arithmetic.quotient (amount / Arithmetic.quotient (amount / o)) - o|
      ≤ Arithmetic.precision * (1 + o / Arithmetic.quotient (amount / o)) := by
  have ho : 0 < o := by
    have hpos := pos_of_quotient_pos hrate
    exact (div_pos_iff_of_pos_left hamount).mp hpos
  have hkept := Arithmetic.abs_quotient_sub_le (amount / o)
  have hagain :=
    Arithmetic.abs_quotient_sub_le (amount / Arithmetic.quotient (amount / o))
  generalize Arithmetic.quotient (amount / o) = rate at *
  have hoff : |amount / rate - o| ≤ Arithmetic.precision * (o / rate) := by
    have heq : amount / rate - o = (amount / o - rate) * (o / rate) := by
      field_simp
    rw [heq, abs_mul, abs_of_pos (div_pos ho hrate), abs_sub_comm]
    exact mul_le_mul_of_nonneg_right hkept (div_pos ho hrate).le
  calc |Arithmetic.quotient (amount / rate) - o|
      ≤ |Arithmetic.quotient (amount / rate) - amount / rate| + |amount / rate - o| :=
        abs_sub_le _ _ _
    _ ≤ Arithmetic.precision + Arithmetic.precision * (o / rate) := add_le_add hagain hoff
    _ = Arithmetic.precision * (1 + o / rate) := by ring

/-- A positive rate of a finite input is made of a finite output, to which the input at that rate
comes up to what the rate lost. -/
theorem output_of_getRate {side : MarketOperation} {amount rate : ℚ} {output : BigNumber}
    (hamount : 0 < amount) (hrate : 0 < rate)
    (h : Path.getRate side (.fin amount) output = .fin rate) :
    ∃ o : ℚ, output = .fin o ∧
      |outputAtRate side rate amount - o| ≤ rateLoss side amount rate o := by
  have hamount₀ : ((fin amount).eq 0) = false := by
    rw [zero_eq, eq_fin]
    exact decide_eq_false hamount.ne'
  unfold Path.getRate at h
  rw [hamount₀, Bool.false_or] at h
  rcases output with _ | b | o
  · cases side <;> cases h
  · cases side with
    | sell => cases h
    | buy =>
      obtain rfl : (0 : ℚ) = rate := fin.inj h
      exact absurd hrate (lt_irrefl 0)
  · rw [zero_eq, eq_fin] at h
    by_cases ho : o = 0
    · rw [if_pos (decide_eq_true ho)] at h
      obtain rfl : (0 : ℚ) = rate := fin.inj h
      exact absurd hrate (lt_irrefl 0)
    · rw [if_neg (by simpa using ho)] at h
      refine ⟨o, rfl, ?_⟩
      cases side with
      | sell =>
        dsimp only at h
        rw [div_quotient _ hamount.ne'] at h
        obtain rfl : Arithmetic.quotient (o / amount) = rate := fin.inj h
        have hkept := Arithmetic.abs_quotient_sub_le (o / amount)
        calc |Arithmetic.quotient (o / amount) * amount - o|
            = |(Arithmetic.quotient (o / amount) - o / amount) * amount| := by
              rw [sub_mul, div_mul_cancel₀ _ hamount.ne']
          _ = |Arithmetic.quotient (o / amount) - o / amount| * amount := by
              rw [abs_mul, abs_of_pos hamount]
          _ ≤ Arithmetic.precision * amount := mul_le_mul_of_nonneg_right hkept hamount.le
      | buy =>
        dsimp only at h
        rw [div_quotient _ ho] at h
        obtain rfl : Arithmetic.quotient (amount / o) = rate := fin.inj h
        exact abs_quotient_div_quotient_sub_le hamount hrate

/-- The amounts of an order for an amount that brings an output and pays a penalty. -/
def rationalAmounts (side : MarketOperation) (amount output penalty : ℚ) : OrderAmounts :=
  match side with
  | .sell => ⟨.fin (output + penalty), .fin amount⟩
  | .buy => ⟨.fin amount, .fin (output - penalty)⟩

/-- What the path of the first phase brings, and the raw amounts of an order as good as it. -/
theorem PhaseOne.amounts {path : Path} {marketSideLiquidity : MarketSideLiquidity}
    {gasPrice outputAmountPerEth : ℚ} {overhead : ℕ → ℚ} {amount : ℕ} {rate : ℚ}
    (h : PhaseOne path marketSideLiquidity gasPrice outputAmountPerEth overhead amount rate) :
    (∃ output : ℚ, path.getExchangeProxyOverheadAppliedSize.output = .fin output ∧
        |outputAtRate marketSideLiquidity.side rate amount - output|
          ≤ rateLoss marketSideLiquidity.side amount rate output) ∧
      orderAmounts path.adjustedRate (.fin amount) marketSideLiquidity
          (.fin (rfqFee gasPrice overhead))
        = rationalAmounts marketSideLiquidity.side amount
            (outputAtRate marketSideLiquidity.side rate amount)
            (outputAmountPerEth * rfqFee gasPrice overhead) := by
  have hrate : Path.getRate path.context.side (.fin amount)
      path.getExchangeProxyOverheadAppliedSize.output = .fin rate := by
    rw [← h.covers]
    exact h.rate_eq
  rw [h.side_eq] at hrate
  refine ⟨output_of_getRate (Nat.cast_pos.mpr h.amount_pos) h.rate_pos hrate, ?_⟩
  unfold orderAmounts
  rw [feePenalty_fin h.outputAmountPerEth_ne _ h.outputAmountPerEth_eq, h.rate_eq]
  cases marketSideLiquidity.side with
  | sell => rfl
  | buy =>
    show (⟨_, ((fin amount).div (fin rate)).minus _⟩ : OrderAmounts) = _
    rw [div_quotient _ h.rate_pos.ne', minus_fin]
    rfl

/-- A path that is one fill of the whole amount has its size. -/
theorem createAdjustedSize_singleton {targetInput : ℚ} {fill : Fill}
    (h : fill.input = .fin targetInput) :
    createAdjustedSize (.fin targetInput) [fill] = ⟨.fin targetInput, fill.adjustedOutput⟩ := by
  show (if ((fin 0).plus fill.input).gt (fin targetInput) then _ else _) = _
  rw [h, zero_plus, gt_fin, if_neg (by simp)]
  exact congrArg₂ PathSize.mk (zero_plus _) (zero_plus _)

omit [Arithmetic] in
/-- The overhead a finite size is charged. -/
theorem applyExchangeProxyOverhead_fin {side : MarketOperation} {outputAmountPerEth : ℚ}
    (h : outputAmountPerEth ≠ 0) (inputAmountPerEth : BigNumber) (gasPrice : ℚ)
    (overhead : ℕ → ℚ) (sourceFlags : ℕ) (input : BigNumber) (output : ℚ) :
    (Path.applyExchangeProxyOverhead side
        { outputAmountPerEth := .fin outputAmountPerEth
          inputAmountPerEth := inputAmountPerEth
          exchangeProxyOverhead :=
            exchangeProxyOverhead (.fin gasPrice) fun flags => .fin (overhead flags) }
        sourceFlags ⟨input, .fin output⟩).output
      = .fin (charge side output
          (roundRat .halfUp (outputAmountPerEth * (gasPrice * overhead sourceFlags)))) := by
  show adjustOutput side (.fin output) (ethToOutputAmount input (.fin output)
    (.fin (gasPrice * overhead sourceFlags)) inputAmountPerEth (.fin outputAmountPerEth)) = _
  rw [ethToOutputAmount_fin h, adjustOutput_fin]

/-- A native fill of an RFQ order whose input is the target: its output, less its penalty. -/
theorem rfqSize_eq {marketSideLiquidity : MarketSideLiquidity}
    {outputAmountPerEth : ℚ} (gasPrice : ℚ) (overhead : ℕ → ℚ) (others : GasSchedule)
    (hne : outputAmountPerEth ≠ 0) (inputAmountPerEth : BigNumber)
    {order : NativeOrderWithFillableAmounts} (htype : order.type = .rfq) {amount output : ℚ}
    (hamount : 0 < amount)
    (hamounts : nativeOrderToNormalizedAmounts marketSideLiquidity.side order
      = (.fin amount, .fin output)) :
    ∃ size,
      rfqSize marketSideLiquidity.side order (.fin amount)
          { outputAmountPerEth := .fin outputAmountPerEth
            inputAmountPerEth := inputAmountPerEth
            exchangeProxyOverhead :=
              exchangeProxyOverhead (.fin gasPrice) fun flags => .fin (overhead flags) }
          (feeSchedule (.fin gasPrice) others) = some size ∧
        size.output = .fin (charge marketSideLiquidity.side
          (charge marketSideLiquidity.side output
            (roundRat .halfUp (outputAmountPerEth * (gasPrice * nativeGas .rfq))))
          (roundRat .halfUp
            (outputAmountPerEth * (gasPrice * overhead (SOURCE_FLAGS .rfqOrder))))) := by
  -- the input is the target, so the fill is neither clipped nor scaled
  have hclipped : (fin amount).min (fin amount) = fin amount := by rw [min_fin, min_self]
  have houtput : ((fin amount).div (fin amount)).times (fin output) = fin output := by
    rw [div_quotient _ hamount.ne', div_self hamount.ne', Arithmetic.quotient_one, times_fin,
      one_mul]
  have hgas : (feeSchedule (fin gasPrice) others .native (.native order)).fee
      = fin (gasPrice * nativeGas .rfq) := by
    rw [← htype]
    rfl
  unfold rfqSize nativeOrderToFill
  rw [hamounts]
  dsimp only
  rw [Bool.false_and, if_neg Bool.false_ne_true, Option.map_some, hgas, hclipped, houtput,
    ethToOutputAmount_fin hne, adjustOutput_fin, createAdjustedSize_singleton rfl, htype]
  have hflags : BitFlags.mergeFlags [SOURCE_FLAGS (toNativeSourceFlagKey .rfq)]
      = SOURCE_FLAGS .rfqOrder := by
    decide
  refine ⟨_, rfl, ?_⟩
  dsimp only
  rw [hflags]
  exact applyExchangeProxyOverhead_fin hne inputAmountPerEth gasPrice overhead
    (SOURCE_FLAGS .rfqOrder) (fin amount) _

omit [Arithmetic] in
/-- The rounded amounts of an order: the whole amount, and an output that is less than one away from
what pays the penalty and brings the output asked for. -/
theorem wholeOrder_normalizedAmounts {side : MarketOperation} {amount : ℕ} {output penalty : ℚ}
    {order : NativeOrderWithFillableAmounts}
    (h : IsWholeOrder (rationalAmounts side amount output penalty) order) :
    ∃ o : ℚ, nativeOrderToNormalizedAmounts side order = (.fin amount, .fin o) ∧
      |charge side o penalty - output| < 1 := by
  have hcast : ∀ mode, (fin (amount : ℚ)).integerValue mode = fin (amount : ℚ) := by
    intro mode
    rw [integerValue_fin]
    exact congrArg fin (mod_cast congrArg (Int.cast : ℤ → ℚ) (roundRat_intCast mode amount))
  unfold nativeOrderToNormalizedAmounts
  rw [h.makerAmount_eq, h.takerAmount_eq, h.takerFeeAmount_eq]
  cases side with
  | sell =>
    refine ⟨roundRat .up (output + penalty), ?_, ?_⟩
    · show (((fin (amount : ℚ)).integerValue .down).plus (fin 0),
        (fin (output + penalty)).integerValue .up) = _
      rw [hcast, plus_zero, integerValue_fin]
    · have hround := abs_roundRat_up_sub_lt (output + penalty)
      show |(roundRat .up (output + penalty) : ℚ) - penalty - output| < 1
      rw [abs_lt] at hround ⊢
      constructor <;> linarith
  | buy =>
    refine ⟨roundRat .down (output - penalty), ?_, ?_⟩
    · show ((fin (amount : ℚ)).integerValue .up,
        ((fin (output - penalty)).integerValue .down).plus (fin 0)) = _
      rw [hcast, plus_zero, integerValue_fin]
    · have hround := abs_roundRat_down_sub_lt (output - penalty)
      show |(roundRat .down (output - penalty) : ℚ) + penalty - output| < 1
      rw [abs_lt] at hround ⊢
      constructor <;> linarith

/-- An order with the rounded amounts brings what the path brings, up to two base units and what the
rate lost. -/
theorem PhaseOne.rfqOutput_sub_le {path : Path} {marketSideLiquidity : MarketSideLiquidity}
    {gasPrice outputAmountPerEth : ℚ} {overhead : ℕ → ℚ} {amount : ℕ} {rate : ℚ}
    (h : PhaseOne path marketSideLiquidity gasPrice outputAmountPerEth overhead amount rate)
    (others : GasSchedule) {order : NativeOrderWithFillableAmounts}
    (horder : IsWholeOrder (orderAmounts path.adjustedRate (.fin amount) marketSideLiquidity
      (.fin (rfqFee gasPrice overhead))) order) :
    ∃ size,
      rfqSize marketSideLiquidity.side order (.fin amount) path.pathPenaltyOpts
        (feeSchedule (.fin gasPrice) others) = some size ∧
      Within (2 + rateLoss marketSideLiquidity.side amount rate
          path.getExchangeProxyOverheadAppliedSize.output.toRat)
        size.output path.getExchangeProxyOverheadAppliedSize.output := by
  obtain ⟨⟨output, houtput, hnear⟩, hamounts⟩ := h.amounts
  rw [hamounts] at horder
  obtain ⟨o, hnormalized, ho⟩ := wholeOrder_normalizedAmounts horder
  rw [houtput, h.pathPenaltyOpts_eq, h.outputAmountPerEth_eq]
  obtain ⟨size, hsize, hsizeOutput⟩ := rfqSize_eq gasPrice overhead others
    h.outputAmountPerEth_ne marketSideLiquidity.inputAmountPerEth horder.type_eq
    (Nat.cast_pos.mpr h.amount_pos) hnormalized
  have hfee : outputAmountPerEth * rfqFee gasPrice overhead
      = outputAmountPerEth * (gasPrice * nativeGas .rfq)
        + outputAmountPerEth * (gasPrice * overhead (SOURCE_FLAGS .rfqOrder)) :=
    mul_add _ _ _
  have htwo := abs_charge_charge_sub_le _
    (hfee ▸ abs_sub_two_halfUp_le (outputAmountPerEth * (gasPrice * nativeGas .rfq))
      (outputAmountPerEth * (gasPrice * overhead (SOURCE_FLAGS .rfqOrder)))) ho
  refine ⟨size, hsize, _, output, hsizeOutput, rfl, ?_⟩
  rw [toRat_fin]
  exact (abs_sub_le _ _ _).trans (add_le_add htwo hnear)

/-! ## When the price is one -/

/-- The price of an order with rational amounts is an amount, unless a part of a unit is taken, for
a taker token of so few decimals that something is kept of its unit. -/
theorem wholeOrder_isAmount {maker taker : ℚ} {marketSideLiquidity : MarketSideLiquidity}
    (hdecimals : 0 < Arithmetic.quotient (1 / 10 ^ marketSideLiquidity.takerTokenDecimals))
    (hunit : ¬ PartOfUnit (.fin taker)) {price : BigNumber}
    (h : wholeOrder ⟨.fin maker, .fin taker⟩ marketSideLiquidity = some price) :
    IsAmount price := by
  unfold wholeOrder at h
  dsimp only at h
  rw [zero_eq, gt_fin, gt_fin] at h
  by_cases hpos : 0 < taker ∧ 0 < maker
  · obtain ⟨htaker, hmaker⟩ := hpos
    have hone : 1 ≤ taker := by
      by_contra hlt
      apply hunit
      unfold PartOfUnit
      rw [zero_eq, one_eq, gt_fin, lt_fin]
      exact ⟨decide_eq_true htaker, decide_eq_true (not_le.mp hlt)⟩
    have htoUnit : ∀ z : ℤ, ∀ n,
        toUnitAmount (fin (z : ℚ)) n = fin (Arithmetic.quotient ((z : ℚ) / 10 ^ n)) :=
      fun z n => div_quotient _ (pow_ne_zero n (by norm_num))
    rw [decide_eq_true htaker, decide_eq_true hmaker, Bool.and_self, if_pos rfl,
      integerValue_fin, integerValue_fin, htoUnit, htoUnit, roundRat_up_of_nonneg hmaker.le,
      roundRat_down_of_nonneg htaker.le] at h
    -- at least one unit is taken, of which something is kept
    have hden : 0 < Arithmetic.quotient
        ((⌊taker⌋ : ℚ) / 10 ^ marketSideLiquidity.takerTokenDecimals) := by
      have hfloor : (1 : ℚ) ≤ ⌊taker⌋ := by
        have hle : (1 : ℤ) ≤ ⌊taker⌋ := Int.le_floor.mpr (by exact_mod_cast hone)
        exact_mod_cast hle
      refine hdecimals.trans_le (Arithmetic.quotient_mono ?_)
      exact div_le_div_of_nonneg_right hfloor (by positivity)
    have hnum : 0 ≤ Arithmetic.quotient
        ((⌈maker⌉ : ℚ) / 10 ^ marketSideLiquidity.makerTokenDecimals) := by
      have hceil : (0 : ℚ) ≤ ⌈maker⌉ := by exact_mod_cast (Int.ceil_pos.mpr hmaker).le
      exact Arithmetic.quotient_nonneg (by positivity)
    rw [div_quotient _ hden.ne', decimalPlaces_fin] at h
    obtain rfl := Option.some.inj h
    rw [isAmount_fin]
    have hquotient := Arithmetic.quotient_nonneg (div_nonneg hnum hden.le)
    have hround : (0 : ℚ) ≤ roundRat .halfUp (Arithmetic.quotient
        (Arithmetic.quotient ((⌈maker⌉ : ℚ) / 10 ^ marketSideLiquidity.makerTokenDecimals)
          / Arithmetic.quotient ((⌊taker⌋ : ℚ) / 10 ^ marketSideLiquidity.takerTokenDecimals))
        * 10 ^ COMPARISON_PRICE_DECIMALS) := by
      exact_mod_cast roundRat_halfUp_nonneg (mul_nonneg hquotient (by positivity))
    positivity
  · have hnone : (decide (0 < taker) && decide (0 < maker)) = false := by
      rw [← Bool.decide_and]
      exact decide_eq_false hpos
    rw [hnone, if_neg Bool.false_ne_true] at h
    cases h

/-- On every path of the first phase the comparison price breaks even. -/
theorem comparisonPrice_breaksEven {path : Path} {marketSideLiquidity : MarketSideLiquidity}
    {gasPrice outputAmountPerEth : ℚ} {overhead : ℕ → ℚ} {amount : ℕ} {rate : ℚ}
    (h : PhaseOne path marketSideLiquidity gasPrice outputAmountPerEth overhead amount rate)
    (hdecimals : 0 < Arithmetic.quotient (1 / 10 ^ marketSideLiquidity.takerTokenDecimals))
    (others : GasSchedule) :
    BreakEven path marketSideLiquidity gasPrice others amount rate := by
  have hfees : ∀ {feeInEth},
      rfqFeeInEth (nativeOrderFeeEstimate (.fin gasPrice))
        path.pathPenaltyOpts.exchangeProxyOverhead = some feeInEth →
      feeInEth = .fin (rfqFee gasPrice overhead) := by
    intro feeInEth hfee
    rw [h.pathPenaltyOpts_eq, rfqFeeInEth_eq] at hfee
    exact (Option.some.inj hfee).symm
  constructor
  case finite =>
    intro feeInEth hfee hunit price hprice
    unfold getComparisonPrices at hprice
    rw [hfee] at hprice
    dsimp only at hprice
    obtain rfl := hfees hfee
    rw [h.amounts.2] at hprice hunit
    cases hside : marketSideLiquidity.side with
    | sell =>
      rw [hside] at hprice
      refine wholeOrder_isAmount hdecimals ?_ hprice
      -- a sell is of a whole unit at least
      rintro ⟨_, hlt⟩
      rw [one_eq, lt_fin, decide_eq_true_iff] at hlt
      have hone : (1 : ℚ) ≤ amount := by exact_mod_cast h.amount_pos
      exact absurd hlt (not_lt.mpr hone)
    | buy =>
      rw [hside] at hprice hunit
      exact wholeOrder_isAmount hdecimals (hunit rfl) hprice
  case adjustedOutput =>
    intro feeInEth hfee order horder
    obtain rfl := hfees hfee
    exact h.rfqOutput_sub_le others horder

end

/-! ## A fill of one sample -/

section Code

attribute [local instance] codeArithmetic

/-- Of every unit of a token of at most 78 decimals all is kept. -/
theorem unit_kept {decimals : ℕ} (h : decimals ≤ 78) :
    0 < Arithmetic.quotient (1 / 10 ^ decimals) := by
  have hkept : decimalQuotient 78 (1 / 10 ^ decimals) = 1 / 10 ^ decimals := by
    refine (decimalQuotient_eq_self_iff 78 _).mpr ⟨10 ^ (78 - decimals), ?_⟩
    rw [← Nat.sub_add_cancel h, pow_add, Nat.add_sub_cancel]
    push_cast
    field_simp
  show 0 < decimalQuotient 78 (1 / 10 ^ decimals)
  rw [hkept]
  positivity

theorem uniswapV2_sampled : (FillData.uniswapV2 ["input", "output"] "router").Sampled .uniswapV2 :=
  ⟨rfl, trivial⟩

theorem uniswapV2_ne_native : ERC20BridgeSource.uniswapV2 ≠ .native := nofun

/-- What Uniswap V2 gives or takes for an amount. -/
def sample (amount output : ℚ) : DexSample where
  source := .uniswapV2
  fillData := .uniswapV2 ["input", "output"] "router"
  input := .fin amount
  output := .fin output
  sampled := uniswapV2_sampled
  notNative := uniswapV2_ne_native

/-- A market in which half a unit of the output token pays the fee of an RFQ order. -/
def liquidity (side : MarketOperation) (takerTokenDecimals : ℕ) : MarketSideLiquidity where
  side := side
  outputAmountPerEth := .fin (1 / 200000)
  inputAmountPerEth := .fin 1
  makerTokenDecimals := 0
  takerTokenDecimals := takerTokenDecimals

/-- The penalties in that market, at a gas price of one and without overhead. -/
def penaltyOpts : PathPenaltyOpts where
  outputAmountPerEth := .fin (1 / 200000)
  inputAmountPerEth := .fin 1
  exchangeProxyOverhead := exchangeProxyOverhead (.fin 1) fun _ => .fin 0

/-- The path that is the sample, where nothing but native orders costs gas. -/
def samplePath (side : MarketOperation) (amount output : ℚ) : Except JsError Path :=
  Path.create ⟨side, "output", "input"⟩
    [dexSampleToFill side (sample amount output) (.fin (1 / 200000)) (.fin 1)
      (feeSchedule (.fin 1) fun _ _ => 0)]
    (.fin amount) penaltyOpts

/-- Such a path is one of the first phase. -/
theorem samplePath_phaseOne (side : MarketOperation) (amount : ℕ) (output rate : ℚ)
    (takerTokenDecimals : ℕ) (hamount : 0 < amount) (hrate : 0 < rate)
    (hrun : Fallible.okAnd (samplePath side amount output) (fun path =>
      decide (path.context.side = side ∧ path.adjustedSize.input = .fin amount ∧
        path.adjustedRate = .fin rate)) = true) :
    ∃ path, samplePath side amount output = .ok path ∧
      PhaseOne path (liquidity side takerTokenDecimals) 1 (1 / 200000) (fun _ => 0) amount
        rate := by
  obtain ⟨path, hpath, hcheck⟩ := Fallible.exists_of_okAnd hrun
  obtain ⟨hside, hcovers, hrate_eq⟩ := of_decide_eq_true hcheck
  obtain ⟨_, hopts, _, _⟩ := Path.create_sizes hpath
  exact ⟨path, hpath, hside, rfl, by norm_num, hopts, hamount, hcovers, hrate_eq, hrate⟩

/-- Where ten units cost two, one and a half are left after the fee. -/
theorem two_units_break_even :
    ∃ path, samplePath .buy 10 2 = .ok path ∧
      BreakEven path (liquidity .buy 0) 1 (fun _ _ => 0) 10 5 := by
  obtain ⟨path, hpath, hphase⟩ :=
    samplePath_phaseOne .buy 10 2 5 0 (by norm_num) (by norm_num) (by decide +kernel)
  exact ⟨path, hpath, comparisonPrice_breaksEven hphase (unit_kept (Nat.zero_le _)) fun _ _ => 0⟩

/-- An order with the rounded amounts. -/
def wholeOrderOf (amounts : OrderAmounts) : NativeOrderWithFillableAmounts where
  order := ⟨"maker", "output", "input", amounts.orderMakerAmount.integerValue .up,
    amounts.orderTakerAmount.integerValue .down, ZERO_AMOUNT⟩
  type := .rfq
  signature := ⟨2, "r", "s", 27⟩
  fillableMakerAmount := amounts.orderMakerAmount.integerValue .up
  fillableTakerAmount := amounts.orderTakerAmount.integerValue .down
  fillableTakerFeeAmount := ZERO_AMOUNT

/-- On the path that is a sample, the order for the whole amount is more than two units away. -/
def OrderAway (side : MarketOperation) (amount : ℕ) (output : ℚ) : Prop :=
  ∃ path rate, samplePath side amount output = .ok path ∧
    PhaseOne path (liquidity side 0) 1 (1 / 200000) (fun _ => 0) amount rate ∧
    ∃ order, IsWholeOrder (orderAmounts path.adjustedRate (.fin amount) (liquidity side 0)
        (.fin (rfqFee 1 fun _ => 0))) order ∧
      ∀ size, rfqSize side order (.fin amount) path.pathPenaltyOpts
          (feeSchedule (.fin 1) fun _ _ => 0) = some size →
        ¬ Within 2 size.output path.getExchangeProxyOverheadAppliedSize.output

theorem orderAway {side : MarketOperation} {amount : ℕ} {output : ℚ} (rate : ℚ)
    (hamount : 0 < amount) (hrate : 0 < rate)
    (hrun : Fallible.okAnd (samplePath side amount output) (fun path =>
      decide (path.context.side = side ∧ path.adjustedSize.input = .fin amount ∧
        path.adjustedRate = .fin rate)) = true)
    (haway : Fallible.okAnd (samplePath side amount output) (fun path =>
      ((rfqSize side (wholeOrderOf (orderAmounts path.adjustedRate (.fin amount)
        (liquidity side 0) (.fin (rfqFee 1 fun _ => 0)))) (.fin amount) path.pathPenaltyOpts
          (feeSchedule (.fin 1) fun _ _ => 0)).all fun size =>
        decide (2 < |size.output.toRat
          - path.getExchangeProxyOverheadAppliedSize.output.toRat|))) = true) :
    OrderAway side amount output := by
  obtain ⟨path, hpath, hphase⟩ :=
    samplePath_phaseOne side amount output rate 0 hamount hrate hrun
  refine ⟨path, rate, hpath, hphase, wholeOrderOf _, ⟨rfl, rfl, rfl, rfl⟩, ?_⟩
  rintro size hsize ⟨p, q, hp, hq, hle⟩
  rw [hpath] at haway
  unfold Fallible.okAnd at haway
  dsimp only at haway
  rw [hsize, Option.all_some, decide_eq_true_iff, hp, hq, toRat_fin, toRat_fin] at haway
  exact absurd hle (not_le.mpr haway)

/-- On the path that is a sample, the comparison price is infinite. -/
def PriceInfinite (side : MarketOperation) (amount : ℕ) (output : ℚ) (takerTokenDecimals : ℕ) :
    Prop :=
  ∃ path rate, samplePath side amount output = .ok path ∧
    PhaseOne path (liquidity side takerTokenDecimals) 1 (1 / 200000) (fun _ => 0) amount rate ∧
    getComparisonPrices path.adjustedRate (.fin amount) (liquidity side takerTokenDecimals)
      (nativeOrderFeeEstimate (.fin 1)) path.pathPenaltyOpts.exchangeProxyOverhead
        = some (.inf false)

theorem priceInfinite {side : MarketOperation} {amount : ℕ} {output : ℚ} {decimals : ℕ} (rate : ℚ)
    (hamount : 0 < amount) (hrate : 0 < rate)
    (hrun : Fallible.okAnd (samplePath side amount output) (fun path =>
      decide (path.context.side = side ∧ path.adjustedSize.input = .fin amount ∧
        path.adjustedRate = .fin rate)) = true)
    (hprice : getComparisonPrices (.fin rate) (.fin amount) (liquidity side decimals)
      (nativeOrderFeeEstimate (.fin 1)) penaltyOpts.exchangeProxyOverhead = some (.inf false)) :
    PriceInfinite side amount output decimals := by
  obtain ⟨path, hpath, hphase⟩ :=
    samplePath_phaseOne side amount output rate decimals hamount hrate hrun
  refine ⟨path, rate, hpath, hphase, ?_⟩
  rw [hphase.rate_eq, hphase.pathPenaltyOpts_eq]
  exact hprice

/-- Where ten units cost one, half a unit is left, which is rounded to none, and the price is
infinite. -/
theorem half_unit_price_is_infinite : PriceInfinite .buy 10 1 0 :=
  priceInfinite 10 (by norm_num) (by norm_num) (by decide +kernel) (by decide +kernel)

/-- The rate of a third that is kept is a third of the last decimal off, which a long amount makes
more than two units of, half a unit is rounded to none, and of a unit with 79 decimals nothing is
kept. -/
theorem not_always_break_even :
    OrderAway .sell (3 * 10 ^ 80) (10 ^ 80) ∧ OrderAway .buy 1 (3 * 10 ^ 40) ∧
      PriceInfinite .buy 10 1 0 ∧ PriceInfinite .buy 10 2 79 := by
  refine ⟨?_, ?_, half_unit_price_is_infinite, ?_⟩
  · exact orderAway (decimalQuotient 78 (1 / 3)) (by norm_num) (by decide +kernel)
      (by decide +kernel) (by decide +kernel)
  · exact orderAway (decimalQuotient 78 (1 / (3 * 10 ^ 40))) (by norm_num) (by decide +kernel)
      (by decide +kernel) (by decide +kernel)
  · exact priceInfinite 5 (by norm_num) (by norm_num) (by decide +kernel) (by decide +kernel)

end Code

end ZeroExApi.ComparisonPrice
