/-
# ZeroExApi.SwapService — the amounts and the price of an API response

`calculateSwapQuoteAsync` of `services/swap_service.ts` around the quote it asks for: the amount
that is asked for, with the integrator's fee on top of what is bought, and the response that is made
of the quote, with the fee taken off again.

The gross-up and the fee round down in different places, and cancel out
(`buyAmount_of_grossed_up`).  The price leaves out the fee of a gasless swap and takes the whole
percentage of what is bought at least, so it is honest exactly when that does no harm
(`price_honest_iff`).
-/

import ZeroExApi.AffiliateFees

namespace ZeroExApi.SwapService

open ZeroExApi.Lib ZeroExApi.QuoteConsumerUtils ZeroExApi.AffiliateFees

/-! ## The amount asked for -/

/-- The amount the quoter is asked for; on a buy, with the fee on top. -/
def quoteAmount (marketSide : MarketOperation) (sellAmount buyAmount sellTokenFeeAmount : BigNumber)
    (affiliateFee : AffiliateFee) : BigNumber :=
  match marketSide with
  | .sell => sellAmount.minus sellTokenFeeAmount
  | .buy =>
    (buyAmount.times (.fin (getBuyTokenPercentageFeeOrZero affiliateFee + 1))).integerValue .down

/-! ## The price -/

/-- `SwapQuote` with the fields that only the service reads. -/
structure PricedSwapQuote extends SwapQuote where
  makerTokenDecimals : ℕ
  takerTokenDecimals : ℕ
  takerAmountPerEth : BigNumber

/-- `Web3Wrapper.toUnitAmount`. -/
def toUnitAmount [Arithmetic] (amount : BigNumber) (decimals : ℕ) : BigNumber :=
  amount.div (.fin (10 ^ decimals))

/-- What `_getSwapQuotePrice` returns. -/
structure SwapQuotePrice where
  price : BigNumber
  guaranteedPrice : BigNumber

/-- `_getSwapQuotePrice`: the price is rounded to the worse side. -/
def getSwapQuotePrice (buyAmount : Option BigNumber) (buyTokenDecimals sellTokenDecimals : ℕ)
    (swapQuote : SwapQuote) (affiliateFee : AffiliateFee) (sellTokenFeeAmount : BigNumber) :
    SwapQuotePrice :=
  let best := swapQuote.bestCaseQuoteInfo
  let worst := swapQuote.worstCaseQuoteInfo
  let unitMakerAmount := toUnitAmount best.makerAmount buyTokenDecimals
  let unitTakerAmount :=
    toUnitAmount (best.totalTakerAmount.plus sellTokenFeeAmount) sellTokenDecimals
  let guaranteedUnitMakerAmount := toUnitAmount worst.makerAmount buyTokenDecimals
  let guaranteedUnitTakerAmount :=
    toUnitAmount (worst.totalTakerAmount.plus sellTokenFeeAmount) sellTokenDecimals
  let affiliateFeeUnitMakerAmount :=
    guaranteedUnitMakerAmount.times (.fin (getBuyTokenPercentageFeeOrZero affiliateFee))
  match buyAmount with
  | none =>
    { price :=
        ((unitMakerAmount.minus affiliateFeeUnitMakerAmount).div unitTakerAmount).decimalPlaces
          buyTokenDecimals .floor
      guaranteedPrice :=
        ((guaranteedUnitMakerAmount.minus affiliateFeeUnitMakerAmount).div
          guaranteedUnitTakerAmount).decimalPlaces buyTokenDecimals .floor }
  | some _ =>
    { price :=
        (unitTakerAmount.div (unitMakerAmount.minus affiliateFeeUnitMakerAmount)).decimalPlaces
          sellTokenDecimals .ceil
      guaranteedPrice :=
        (guaranteedUnitTakerAmount.div
          (guaranteedUnitMakerAmount.minus affiliateFeeUnitMakerAmount)).decimalPlaces
          sellTokenDecimals .ceil }

/-- `_calculateEstimatedPriceImpactPercent`; `none` is `null`. -/
def calculateEstimatedPriceImpactPercent (price sellTokenToEthRate buyTokenToEthRate : BigNumber)
    (marketSide : MarketOperation) : Option BigNumber :=
  if sellTokenToEthRate.isZero || buyTokenToEthRate.isZero then
    none
  else
    let normalizedPrice :=
      match marketSide with
      | .sell => price
      | .buy => (1 : BigNumber).div price
    let actualPriceToEstimatedPriceRatio :=
      normalizedPrice.div (buyTokenToEthRate.div sellTokenToEthRate)
    let estimatedPriceImpactPercentage :=
      (((1 : BigNumber).minus actualPriceToEstimatedPriceRatio).times (.fin 100)).decimalPlaces 4
        .ceil
    if estimatedPriceImpactPercentage.lte 0 then
      some ZERO_AMOUNT
    else
      some estimatedPriceImpactPercentage

/-! ## The response -/

/-- The parameters of a request that its response is made with. -/
structure GetSwapQuoteParams where
  sellAmount : Option BigNumber
  buyAmount : Option BigNumber
  isETHSell : Bool
  affiliateFee : AffiliateFee
  isQuote : Bool
  priceImpactProtectionPercentage : ℚ

/-- The side of a request. -/
def GetSwapQuoteParams.marketSide (params : GetSwapQuoteParams) : MarketOperation :=
  if params.sellAmount.isSome then .sell else .buy

/-- `GetSwapQuoteResponse`, its amounts and prices. -/
structure GetSwapQuoteResponse where
  price : BigNumber
  guaranteedPrice : BigNumber
  estimatedPriceImpact : Option BigNumber
  value : BigNumber
  gasPrice : BigNumber
  protocolFee : BigNumber
  minimumProtocolFee : BigNumber
  buyAmount : BigNumber
  sellAmount : BigNumber
  sellTokenToEthRate : BigNumber
  buyTokenToEthRate : BigNumber

/-- The errors of a response. -/
inductive SwapQuoteError where
  | insufficientFunds
  | validation (item : ValidationErrorItem)
  deriving DecidableEq

/-- The decimals of WETH. -/
def wethDecimals : ℤ := 18

/-- How much of the native token one token is, in whole tokens. -/
def tokenToEthRate (amountPerEth : BigNumber) (decimals : ℕ) : BigNumber :=
  (amountPerEth.times (.fin (10 ^ (wethDecimals - decimals)))).decimalPlaces decimals .halfUp

/-- The response before it is checked. -/
def apiSwapQuote (gaslessSwapFeeEnabled : Bool) (params : GetSwapQuoteParams)
    (swapQuote : PricedSwapQuote) (sellTokenFeeAmount : BigNumber) : GetSwapQuoteResponse :=
  let best := swapQuote.bestCaseQuoteInfo
  let worst := swapQuote.worstCaseQuoteInfo
  let feeAmounts :=
    getBuyTokenFeeAmounts gaslessSwapFeeEnabled swapQuote.toSwapQuote params.affiliateFee
  let price :=
    getSwapQuotePrice params.buyAmount swapQuote.makerTokenDecimals swapQuote.takerTokenDecimals
      swapQuote.toSwapQuote params.affiliateFee sellTokenFeeAmount
  let sellTokenToEthRate :=
    tokenToEthRate swapQuote.takerAmountPerEth swapQuote.takerTokenDecimals
  let buyTokenToEthRate := tokenToEthRate swapQuote.makerAmountPerEth swapQuote.makerTokenDecimals
  { price := price.price
    guaranteedPrice := price.guaranteedPrice
    estimatedPriceImpact :=
      calculateEstimatedPriceImpactPercent price.price sellTokenToEthRate buyTokenToEthRate
        params.marketSide
    value :=
      if params.isETHSell then
        worst.protocolFeeInWeiAmount.plus worst.takerAmount
      else
        worst.protocolFeeInWeiAmount
    gasPrice := swapQuote.gasPrice
    protocolFee := worst.protocolFeeInWeiAmount
    minimumProtocolFee := worst.protocolFeeInWeiAmount.min best.protocolFeeInWeiAmount
    buyAmount := best.makerAmount.minus feeAmounts.buyTokenFeeAmount
    sellAmount := best.totalTakerAmount.plus sellTokenFeeAmount
    sellTokenToEthRate := sellTokenToEthRate
    buyTokenToEthRate := buyTokenToEthRate }

/-- Whether the price impact of a response is too high for its request. -/
def priceImpactTooHigh (params : GetSwapQuoteParams) (response : GetSwapQuoteResponse) : Bool :=
  params.isQuote &&
    response.estimatedPriceImpact.any fun impact =>
      impact.gt (.fin (params.priceImpactProtectionPercentage * 100))

/-- The checks of `calculateSwapQuoteAsync` on its response. -/
def checkSwapQuote (params : GetSwapQuoteParams) (response : GetSwapQuoteResponse) :
    Except SwapQuoteError GetSwapQuoteResponse :=
  if response.buyAmount.lte 0 then
    .error .insufficientFunds
  else if priceImpactTooHigh params response then
    .error
      (.validation
        ⟨"priceImpactProtectionPercentage", .valueOutOfRange, "PRICE_IMPACT_TOO_HIGH"⟩)
  else
    .ok response

/-! ## Buying with a percentage fee -/

/-- Taking the fee off what was grossed up with it leaves the amount that was asked for. -/
theorem grossed_up_sub_fee (amount : ℕ) {fee : ℚ} (hfee : 0 ≤ fee) :
    ⌊(amount : ℚ) * (fee + 1)⌋ - ⌊(⌊(amount : ℚ) * (fee + 1)⌋ * fee : ℚ) / (fee + 1)⌋ = amount := by
  have hpos : 0 < fee + 1 := by linarith
  generalize hgross : ⌊(amount : ℚ) * (fee + 1)⌋ = gross
  have hle : (gross : ℚ) ≤ amount * (fee + 1) := hgross ▸ Int.floor_le _
  have hlt : (amount : ℚ) * (fee + 1) < gross + 1 := hgross ▸ Int.lt_floor_add_one _
  -- the fee is the grossed-up amount less the amount, rounded down
  have hfloor : ⌊(gross * fee : ℚ) / (fee + 1)⌋ = gross - amount := by
    rw [Int.floor_eq_iff, le_div_iff₀ hpos, div_lt_iff₀ hpos]
    push_cast
    constructor
    · nlinarith
    · nlinarith
  rw [hfloor]
  ring

/-- The grossed-up amount. -/
theorem quoteAmount_buy {amount : ℕ} {sellAmount sellTokenFeeAmount : BigNumber}
    {fee : AffiliateFee} (hfee : 0 ≤ getBuyTokenPercentageFeeOrZero fee) :
    quoteAmount .buy sellAmount (.fin amount) sellTokenFeeAmount fee =
      .fin ⌊(amount : ℚ) * (getBuyTokenPercentageFeeOrZero fee + 1)⌋ := by
  have hgross : 0 ≤ (amount : ℚ) * (getBuyTokenPercentageFeeOrZero fee + 1) :=
    mul_nonneg (Nat.cast_nonneg amount) (by linarith)
  rw [quoteAmount, BigNumber.times_fin, BigNumber.integerValue_fin,
    BigNumber.roundRat_down_of_nonneg hgross]

/-- A percentage fee, when there is somebody to have it. -/
theorem getBuyTokenFeeAmounts_percentage (gaslessSwapFeeEnabled : Bool) {quote : SwapQuote}
    {fee : AffiliateFee} (htype : fee.feeType = .percentageFee)
    (hrecipient : fee.recipient ∉ [NULL_ADDRESS, ""]) {minBuyAmount : ℚ}
    (hworst : quote.worstCaseQuoteInfo.makerAmount = .fin minBuyAmount)
    (hmin : 0 ≤ minBuyAmount) (hfee : 0 ≤ fee.buyTokenPercentageFee) :
    (getBuyTokenFeeAmounts gaslessSwapFeeEnabled quote fee).buyTokenFeeAmount =
      .fin ⌊minBuyAmount * fee.buyTokenPercentageFee / (fee.buyTokenPercentageFee + 1)⌋ := by
  have hzero : getBuyTokenPercentageFeeOrZero fee = fee.buyTokenPercentageFee := by
    rw [getBuyTokenPercentageFeeOrZero, htype]
  have hnone : ¬ (fee.feeType = .none ∨ fee.recipient = NULL_ADDRESS ∨ fee.recipient = "") := by
    rw [htype]
    simpa using hrecipient
  have hgasless : ¬ fee.feeType = .gaslessFee := by
    rw [htype]
    decide
  have hpos : 0 < fee.buyTokenPercentageFee + 1 := by linarith
  have hamount : 0 ≤ minBuyAmount * fee.buyTokenPercentageFee / (fee.buyTokenPercentageFee + 1) :=
    div_nonneg (mul_nonneg hmin hfee) hpos.le
  rw [getBuyTokenFeeAmounts, if_neg hnone, if_neg hgasless]
  dsimp only
  rw [hzero, hworst, BigNumber.times_fin, BigNumber.div_fin _ hpos.ne', BigNumber.integerValue_fin,
    BigNumber.roundRat_down_of_nonneg hamount]

/-- When best and worst case are the grossed-up amount, the response buys the amount asked for. -/
theorem buyAmount_of_grossed_up (gaslessSwapFeeEnabled : Bool) {params : GetSwapQuoteParams}
    {swapQuote : PricedSwapQuote} {sellAmount sellTokenFeeAmount : BigNumber} {amount : ℕ}
    (htype : params.affiliateFee.feeType = .percentageFee)
    (hrecipient : params.affiliateFee.recipient ∉ [NULL_ADDRESS, ""])
    (hfee : 0 ≤ params.affiliateFee.buyTokenPercentageFee)
    (hbest : swapQuote.bestCaseQuoteInfo.makerAmount =
      quoteAmount .buy sellAmount (.fin amount) sellTokenFeeAmount params.affiliateFee)
    (hworst : swapQuote.worstCaseQuoteInfo.makerAmount =
      quoteAmount .buy sellAmount (.fin amount) sellTokenFeeAmount params.affiliateFee) :
    (apiSwapQuote gaslessSwapFeeEnabled params swapQuote sellTokenFeeAmount).buyAmount =
      .fin amount := by
  have hpercentage : getBuyTokenPercentageFeeOrZero params.affiliateFee =
      params.affiliateFee.buyTokenPercentageFee := by
    rw [getBuyTokenPercentageFeeOrZero, htype]
  rw [quoteAmount_buy (by rw [hpercentage]; exact hfee), hpercentage] at hbest hworst
  have hgross : (0 : ℚ) ≤ ⌊(amount : ℚ) * (params.affiliateFee.buyTokenPercentageFee + 1)⌋ := by
    exact_mod_cast Int.floor_nonneg.mpr (mul_nonneg (Nat.cast_nonneg amount) (by linarith))
  have hamounts := getBuyTokenFeeAmounts_percentage gaslessSwapFeeEnabled htype hrecipient hworst
    hgross hfee
  have hexact := grossed_up_sub_fee amount hfee
  show swapQuote.bestCaseQuoteInfo.makerAmount.minus _ = _
  rw [hbest, hamounts, BigNumber.minus_fin, ← Int.cast_sub, hexact, Int.cast_natCast]

/-! ## What the price leaves out -/

/-- The amounts of a quote, in base units: positive, and the worst case is not the better one. -/
structure QuoteAmounts (quote : SwapQuote) (maker worstMaker taker worstTaker : ℕ) : Prop where
  maker_eq : quote.bestCaseQuoteInfo.makerAmount = .fin maker
  worstMaker_eq : quote.worstCaseQuoteInfo.makerAmount = .fin worstMaker
  taker_eq : quote.bestCaseQuoteInfo.totalTakerAmount = .fin taker
  worstTaker_eq : quote.worstCaseQuoteInfo.totalTakerAmount = .fin worstTaker
  worstMaker_pos : 0 < worstMaker
  worstMaker_le : worstMaker ≤ maker
  taker_pos : 0 < taker
  le_worstTaker : taker ≤ worstTaker

/-- The price of a response is a number, not negative, and not better than the amounts of the same
response. -/
def PriceHonest (side : MarketOperation) (buyTokenDecimals sellTokenDecimals : ℕ)
    (response : GetSwapQuoteResponse) : Prop :=
  ∃ price : ℚ, response.price = .fin price ∧ 0 ≤ price ∧
    let unitBuyAmount := toUnitAmount response.buyAmount buyTokenDecimals
    let unitSellAmount := toUnitAmount response.sellAmount sellTokenDecimals
    match side with
    | .sell => response.price.lte (unitBuyAmount.div unitSellAmount) = true
    | .buy => (unitSellAmount.div unitBuyAmount).lte response.price = true

/-- The fee of a gasless swap. -/
def gaslessFee (gaslessSwapFeeEnabled : Bool) (quote : SwapQuote) (fee : AffiliateFee) : ℤ :=
  if gaslessSwapFeeEnabled ∧ fee.recipient ∉ [NULL_ADDRESS, ""] then
    BigNumber.roundRat .down
      (quote.makerAmountPerEth.toRat * quote.gasPrice.toRat * quote.worstCaseQuoteInfo.gas)
  else
    0

/-- A fee that the price leaves out is not more than what rounding takes off the price, of
`maker` for `sold`. -/
def RoundedAway (side : MarketOperation) (buyTokenDecimals sellTokenDecimals maker sold : ℕ)
    (fee : ℤ) : Prop :=
  match side with
  | .sell => fee * 10 ^ sellTokenDecimals ≤ (maker * 10 ^ sellTokenDecimals : ℤ) % sold
  | .buy =>
    fee * ⌈(sold * 10 ^ buyTokenDecimals : ℚ) / maker⌉ ≤
      (-(sold * 10 ^ buyTokenDecimals) : ℤ) % maker

/-- What the price leaves out does no harm: the fee of a gasless swap is rounded away; otherwise, on
a buy, the percentage is not the whole of all that is bought. -/
def Harmless (side : MarketOperation) (buyTokenDecimals sellTokenDecimals maker worstMaker sold : ℕ)
    (fee : AffiliateFee) (gaslessFee : ℤ) : Prop :=
  match fee.feeType with
  | .gaslessFee => RoundedAway side buyTokenDecimals sellTokenDecimals maker sold gaslessFee
  | _ => side = .sell ∨ fee.buyTokenPercentageFee < 1 ∨ worstMaker < maker

/-! ### The price as a number -/

section Price

variable {buyTokenDecimals sellTokenDecimals : ℕ}

theorem toUnitAmount_fin (amount : ℚ) (decimals : ℕ) :
    toUnitAmount (.fin amount) decimals = .fin (amount / 10 ^ decimals) :=
  BigNumber.div_fin amount (by positivity)

/-- The price of selling `sold` for what is left of `maker`, rounded down. -/
theorem sellPrice_eq (b s : ℕ) (left : ℚ) {sold : ℚ} (hsold : 0 < sold) :
    ((toUnitAmount (.fin left) b).div (toUnitAmount (.fin sold) s)).decimalPlaces b .floor =
      .fin (⌊left * 10 ^ s / sold⌋ / 10 ^ b) := by
  have hunit : sold / (10 : ℚ) ^ s ≠ 0 := by positivity
  have hquotient : left / (10 : ℚ) ^ b / (sold / 10 ^ s) * 10 ^ b = left * 10 ^ s / sold := by
    field_simp
  rw [toUnitAmount_fin, toUnitAmount_fin, BigNumber.div_fin _ hunit, BigNumber.decimalPlaces_fin,
    hquotient]
  rfl

/-- The price of buying what is left of `maker` for `sold`, rounded up. -/
theorem buyPrice_eq (b s : ℕ) (sold : ℚ) {left : ℚ} (hleft : 0 < left) :
    ((toUnitAmount (.fin sold) s).div (toUnitAmount (.fin left) b)).decimalPlaces s .ceil =
      .fin (⌈sold * 10 ^ b / left⌉ / 10 ^ s) := by
  have hunit : left / (10 : ℚ) ^ b ≠ 0 := by positivity
  have hquotient : sold / (10 : ℚ) ^ s / (left / 10 ^ b) * 10 ^ s = sold * 10 ^ b / left := by
    field_simp
  rw [toUnitAmount_fin, toUnitAmount_fin, BigNumber.div_fin _ hunit, BigNumber.decimalPlaces_fin,
    hquotient]
  rfl

/-- What is left of `maker` after a percentage of the worst case. -/
theorem unit_minus_fee (maker worstMaker percentage : ℚ) (b : ℕ) :
    (toUnitAmount (.fin maker) b).minus
        ((toUnitAmount (.fin worstMaker) b).times (.fin percentage)) =
      toUnitAmount (.fin (maker - worstMaker * percentage)) b := by
  rw [toUnitAmount_fin, toUnitAmount_fin, toUnitAmount_fin, BigNumber.times_fin,
    BigNumber.minus_fin]
  congr 1
  ring

/-- A price to sell at is not better than the amounts when it is not in the smallest units. -/
theorem sellPrice_lte_iff (b s : ℕ) (price : ℤ) (bought : ℚ) {sold : ℚ} (hsold : 0 < sold) :
    (BigNumber.fin (price / 10 ^ b)).lte
        ((toUnitAmount (.fin bought) b).div (toUnitAmount (.fin sold) s)) = true ↔
      price ≤ bought * 10 ^ s / sold := by
  have hunit : sold / (10 : ℚ) ^ s ≠ 0 := by positivity
  have hpow : (0 : ℚ) < 10 ^ b := by positivity
  have hquotient : bought / (10 : ℚ) ^ b / (sold / 10 ^ s) = bought * 10 ^ s / sold / 10 ^ b := by
    field_simp
  rw [toUnitAmount_fin, toUnitAmount_fin, BigNumber.div_fin _ hunit, BigNumber.lte_fin,
    decide_eq_true_iff, hquotient, div_le_div_iff_of_pos_right hpow]

/-- Likewise for a price to buy at. -/
theorem buyPrice_lte_iff (b s : ℕ) (price : ℤ) (sold : ℚ) {bought : ℚ} (hbought : 0 < bought) :
    ((toUnitAmount (.fin sold) s).div (toUnitAmount (.fin bought) b)).lte
        (.fin (price / 10 ^ s)) = true ↔
      sold * 10 ^ b / bought ≤ price := by
  have hunit : bought / (10 : ℚ) ^ b ≠ 0 := by positivity
  have hpow : (0 : ℚ) < 10 ^ s := by positivity
  have hquotient : sold / (10 : ℚ) ^ s / (bought / 10 ^ b) = sold * 10 ^ b / bought / 10 ^ s := by
    field_simp
  rw [toUnitAmount_fin, toUnitAmount_fin, BigNumber.div_fin _ hunit, BigNumber.lte_fin,
    decide_eq_true_iff, hquotient, div_le_div_iff_of_pos_right hpow]

/-- A response with a price of so many smallest units is honest when these are not more than the
amounts give. -/
theorem priceHonest_sell_iff {b s : ℕ} {response : GetSwapQuoteResponse} {units : ℤ}
    {bought sold : ℚ} (hprice : response.price = .fin (units / 10 ^ b)) (hunits : 0 ≤ units)
    (hbuyAmount : response.buyAmount = .fin bought) (hsellAmount : response.sellAmount = .fin sold)
    (hsold : 0 < sold) :
    PriceHonest .sell b s response ↔ (units : ℚ) ≤ bought * 10 ^ s / sold := by
  have hnonneg : (0 : ℚ) ≤ units / 10 ^ b := div_nonneg (by exact_mod_cast hunits) (by positivity)
  have hlte := sellPrice_lte_iff b s units bought hsold
  rw [← hprice, ← hbuyAmount, ← hsellAmount] at hlte
  constructor
  · rintro ⟨_, _, _, h⟩
    exact hlte.mp h
  · intro h
    exact ⟨_, hprice, hnonneg, hlte.mpr h⟩

theorem priceHonest_buy_iff {b s : ℕ} {response : GetSwapQuoteResponse} {units : ℤ}
    {bought sold : ℚ} (hprice : response.price = .fin (units / 10 ^ s)) (hunits : 0 ≤ units)
    (hbuyAmount : response.buyAmount = .fin bought) (hsellAmount : response.sellAmount = .fin sold)
    (hbought : 0 < bought) :
    PriceHonest .buy b s response ↔ sold * 10 ^ b / bought ≤ (units : ℚ) := by
  have hnonneg : (0 : ℚ) ≤ units / 10 ^ s := div_nonneg (by exact_mod_cast hunits) (by positivity)
  have hlte := buyPrice_lte_iff b s units sold hbought
  rw [← hprice, ← hbuyAmount, ← hsellAmount] at hlte
  constructor
  · rintro ⟨_, _, _, h⟩
    exact hlte.mp h
  · intro h
    exact ⟨_, hprice, hnonneg, hlte.mpr h⟩

/-- A fee left out of the price is rounded away on a sell when it is at most the remainder. -/
theorem floor_le_iff_roundedAway (s maker : ℕ) {sold : ℕ} (hsold : 0 < sold) (fee : ℤ) :
    (⌊(maker * 10 ^ s / sold : ℚ)⌋ : ℚ) ≤ (maker - fee) * 10 ^ s / sold ↔
      fee * 10 ^ s ≤ (maker * 10 ^ s : ℤ) % sold := by
  have hsold' : (0 : ℚ) < sold := Nat.cast_pos.mpr hsold
  have hfloor : ⌊(maker * 10 ^ s / sold : ℚ)⌋ = (maker * 10 ^ s : ℤ) / sold := by
    have h := Rat.floor_intCast_div_natCast (maker * 10 ^ s) sold
    push_cast at h
    exact h
  have hdivision := Int.emod_add_mul_ediv (maker * 10 ^ s) sold
  rw [hfloor, le_div_iff₀ hsold']
  rw [show ((((maker * 10 ^ s : ℤ) / sold : ℤ) : ℚ) * sold ≤ (maker - fee) * 10 ^ s) ↔
      ((maker * 10 ^ s : ℤ) / sold) * sold ≤ (maker - fee) * 10 ^ s by exact_mod_cast Iff.rfl]
  constructor
  · intro h
    linarith
  · intro h
    linarith

/-- And on a buy when it is at most what rounding up adds. -/
theorem le_ceil_iff_roundedAway (b sold : ℕ) {maker : ℕ} {fee : ℤ}
    (hbought : (0 : ℚ) < maker - fee) :
    (sold * 10 ^ b / (maker - fee) : ℚ) ≤ (⌈(sold * 10 ^ b / maker : ℚ)⌉ : ℤ) ↔
      fee * ⌈(sold * 10 ^ b / maker : ℚ)⌉ ≤ (-(sold * 10 ^ b) : ℤ) % maker := by
  have hceil : ⌈(sold * 10 ^ b / maker : ℚ)⌉ = -((-(sold * 10 ^ b) : ℤ) / maker) := by
    have h := Rat.ceil_intCast_div_natCast (sold * 10 ^ b) maker
    push_cast at h
    exact h
  have hdivision := Int.emod_add_mul_ediv (-(sold * 10 ^ b)) maker
  rw [div_le_iff₀ hbought]
  rw [show ((sold * 10 ^ b : ℚ) ≤ (⌈(sold * 10 ^ b / maker : ℚ)⌉ : ℤ) * (maker - fee)) ↔
      ((sold * 10 ^ b : ℤ) ≤ ⌈(sold * 10 ^ b / maker : ℚ)⌉ * (maker - fee)) by
    exact_mod_cast Iff.rfl]
  rw [hceil]
  constructor
  · intro h
    linarith
  · intro h
    linarith

end Price

/-! ### The response of a quote of positive amounts -/

section Response

variable (gaslessSwapFeeEnabled : Bool) {params : GetSwapQuoteParams} {swapQuote : PricedSwapQuote}
  {maker worstMaker taker worstTaker : ℕ} (sellFee : ℕ)
  (hamounts : QuoteAmounts swapQuote.toSwapQuote maker worstMaker taker worstTaker)
include hamounts

theorem sellAmount_eq :
    (apiSwapQuote gaslessSwapFeeEnabled params swapQuote (.fin sellFee)).sellAmount =
      .fin (taker + sellFee : ℕ) := by
  show swapQuote.bestCaseQuoteInfo.totalTakerAmount.plus _ = _
  rw [hamounts.taker_eq, BigNumber.plus_fin, Nat.cast_add]

theorem price_sell (hnone : params.buyAmount = none) :
    (apiSwapQuote gaslessSwapFeeEnabled params swapQuote (.fin sellFee)).price =
      .fin (⌊(maker - worstMaker * getBuyTokenPercentageFeeOrZero params.affiliateFee : ℚ) *
        10 ^ swapQuote.takerTokenDecimals / (taker + sellFee : ℕ)⌋ /
          10 ^ swapQuote.makerTokenDecimals) := by
  have hsold : (0 : ℚ) < (taker + sellFee : ℕ) := by
    exact_mod_cast Nat.add_pos_left hamounts.taker_pos sellFee
  show (getSwapQuotePrice params.buyAmount _ _ _ _ _).price = _
  rw [hnone, getSwapQuotePrice]
  dsimp only
  rw [hamounts.maker_eq, hamounts.worstMaker_eq, hamounts.taker_eq, BigNumber.plus_fin,
    ← Nat.cast_add, unit_minus_fee, sellPrice_eq _ _ _ hsold]

theorem price_buy {amount : BigNumber} (hsome : params.buyAmount = some amount) :
    (apiSwapQuote gaslessSwapFeeEnabled params swapQuote (.fin sellFee)).price =
      ((toUnitAmount (.fin (taker + sellFee : ℕ)) swapQuote.takerTokenDecimals).div
        (toUnitAmount
          (.fin (maker - worstMaker * getBuyTokenPercentageFeeOrZero params.affiliateFee : ℚ))
          swapQuote.makerTokenDecimals)).decimalPlaces swapQuote.takerTokenDecimals .ceil := by
  show (getSwapQuotePrice params.buyAmount _ _ _ _ _).price = _
  rw [hsome, getSwapQuotePrice]
  dsimp only
  rw [hamounts.maker_eq, hamounts.worstMaker_eq, hamounts.taker_eq, BigNumber.plus_fin,
    ← Nat.cast_add, unit_minus_fee]

/-- The fee that is not that of a gasless swap is at most the percentage that the price takes. -/
theorem feeAmount_of_percentage (hfee : AcceptedFee params.affiliateFee)
    (hgasless : params.affiliateFee.feeType ≠ .gaslessFee) :
    ∃ fee : ℤ,
      (getBuyTokenFeeAmounts gaslessSwapFeeEnabled swapQuote.toSwapQuote
        params.affiliateFee).buyTokenFeeAmount = .fin fee ∧
      (fee : ℚ) ≤ worstMaker * getBuyTokenPercentageFeeOrZero params.affiliateFee := by
  have hworst : (0 : ℚ) ≤ worstMaker := Nat.cast_nonneg worstMaker
  cases hfee with
  | none feeType_eq zero =>
    refine ⟨0, ?_, ?_⟩
    · rw [getBuyTokenFeeAmounts, if_pos (.inl feeType_eq)]
      rfl
    · rw [getBuyTokenPercentageFeeOrZero, feeType_eq]
      dsimp only
      rw [zero, mul_zero, Int.cast_zero]
  | percentageFee feeType_eq nonneg le_one =>
    have hpercentage : getBuyTokenPercentageFeeOrZero params.affiliateFee =
        params.affiliateFee.buyTokenPercentageFee := by
      rw [getBuyTokenPercentageFeeOrZero, feeType_eq]
    have hshare := mul_nonneg hworst nonneg
    rw [hpercentage]
    by_cases hrecipient : params.affiliateFee.recipient ∈ [NULL_ADDRESS, ""]
    · refine ⟨0, ?_, by rw [Int.cast_zero]; exact hshare⟩
      rw [getBuyTokenFeeAmounts, if_pos (.inr (by simpa using hrecipient))]
      rfl
    · refine ⟨_, getBuyTokenFeeAmounts_percentage gaslessSwapFeeEnabled feeType_eq hrecipient
        hamounts.worstMaker_eq hworst nonneg, (Int.floor_le _).trans ?_⟩
      exact div_le_self hshare (by linarith)
  | gaslessFee feeType_eq => exact absurd feeType_eq hgasless

end Response

/-- The fee of a gasless swap, and no percentage. -/
theorem feeAmount_of_gasless (gaslessSwapFeeEnabled : Bool) {quote : SwapQuote} {fee : AffiliateFee}
    (htype : fee.feeType = .gaslessFee) (hrate : quote.makerAmountPerEth.isFinite = true)
    (hgasPrice : quote.gasPrice.isFinite = true) :
    (getBuyTokenFeeAmounts gaslessSwapFeeEnabled quote fee).buyTokenFeeAmount =
        .fin (gaslessFee gaslessSwapFeeEnabled quote fee) ∧
      getBuyTokenPercentageFeeOrZero fee = 0 := by
  obtain ⟨rate, hrate⟩ := BigNumber.isFinite_iff.mp hrate
  obtain ⟨gasPrice, hgasPrice⟩ := BigNumber.isFinite_iff.mp hgasPrice
  refine ⟨?_, by rw [getBuyTokenPercentageFeeOrZero, htype]⟩
  by_cases hrecipient : fee.recipient ∈ [NULL_ADDRESS, ""]
  · have hzero : gaslessFee gaslessSwapFeeEnabled quote fee = 0 := if_neg fun h => h.2 hrecipient
    rw [getBuyTokenFeeAmounts, if_pos (.inr (by simpa using hrecipient)), hzero]
    rfl
  · have hnone : ¬ (fee.feeType = .none ∨ fee.recipient = NULL_ADDRESS ∨ fee.recipient = "") := by
      rw [htype]
      simpa using hrecipient
    rw [getBuyTokenFeeAmounts, if_neg hnone, if_pos htype]
    dsimp only
    cases gaslessSwapFeeEnabled with
    | false =>
      have hzero : gaslessFee false quote fee = 0 := if_neg fun h => Bool.false_ne_true h.1
      rw [hzero]
      rfl
    | true =>
      rw [gaslessFee, if_pos (And.intro rfl hrecipient), hrate, hgasPrice]
      rfl

theorem getBuyTokenPercentageFeeOrZero_of_not_gasless {fee : AffiliateFee} (hfee : AcceptedFee fee)
    (hgasless : fee.feeType ≠ .gaslessFee) :
    getBuyTokenPercentageFeeOrZero fee = fee.buyTokenPercentageFee := by
  cases hfee with
  | none feeType_eq => rw [getBuyTokenPercentageFeeOrZero, feeType_eq]
  | percentageFee feeType_eq => rw [getBuyTokenPercentageFeeOrZero, feeType_eq]
  | gaslessFee feeType_eq => exact absurd feeType_eq hgasless

theorem percentage_mem {fee : AffiliateFee} (hfee : AcceptedFee fee) :
    0 ≤ getBuyTokenPercentageFeeOrZero fee ∧ getBuyTokenPercentageFeeOrZero fee ≤ 1 := by
  by_cases hgasless : fee.feeType = .gaslessFee
  · rw [getBuyTokenPercentageFeeOrZero, hgasless]
    exact ⟨le_rfl, zero_le_one⟩
  · rw [getBuyTokenPercentageFeeOrZero_of_not_gasless hfee hgasless]
    cases hfee with
    | none _ zero => rw [zero]; exact ⟨le_rfl, zero_le_one⟩
    | percentageFee _ nonneg le_one => exact ⟨nonneg, le_one⟩
    | gaslessFee feeType_eq => exact absurd feeType_eq hgasless

/-- Something is left after a percentage unless it is the whole of all that is bought. -/
theorem left_pos_iff {maker worstMaker : ℕ} {percentage : ℚ} (hworst : 0 < worstMaker)
    (hle : worstMaker ≤ maker) (hpercentage : percentage ≤ 1) :
    (0 : ℚ) < maker - worstMaker * percentage ↔ percentage < 1 ∨ worstMaker < maker := by
  have hworst' : (0 : ℚ) < worstMaker := by exact_mod_cast hworst
  have hle' : (worstMaker : ℚ) ≤ maker := by exact_mod_cast hle
  constructor
  · intro hleft
    rcases hpercentage.lt_or_eq with hlt | rfl
    · exact .inl hlt
    · rw [mul_one, sub_pos] at hleft
      exact .inr (by exact_mod_cast hleft)
  · rintro (hlt | hlt)
    · have hshare := mul_lt_of_lt_one_right hworst' hlt
      linarith
    · have hshare := mul_le_of_le_one_right hworst'.le hpercentage
      have hlt' : (worstMaker : ℚ) < maker := by exact_mod_cast hlt
      linarith

theorem harmless_of_percentage {side : MarketOperation} {b s maker worstMaker sold : ℕ}
    {fee : AffiliateFee} {gaslessFee : ℤ} (hgasless : fee.feeType ≠ .gaslessFee) :
    Harmless side b s maker worstMaker sold fee gaslessFee ↔
      side = .sell ∨ fee.buyTokenPercentageFee < 1 ∨ worstMaker < maker := by
  unfold Harmless
  split
  · rename_i htype
    exact absurd htype hgasless
  · exact Iff.rfl

/-- A quote that buys and sells so much, for so much gas. -/
def plainQuote (maker worstMaker taker : ℕ) (gas : ℚ) : PricedSwapQuote where
  makerToken := "output"
  takerToken := "input"
  gasPrice := .fin 1
  path :=
    { context := ⟨.buy, "output", "input"⟩
      fills := []
      ordersByType := ⟨[], [], []⟩
      targetInput := .fin maker
      pathPenaltyOpts := ⟨.fin 0, .fin 0, fun _ => .fin 0⟩
      sourceFlags := 0
      adjustedSize := ⟨.fin 0, .fin 0⟩
      orders_created := rfl
      flags_merged := rfl }
  bestCaseQuoteInfo := ⟨.fin maker, .fin taker, .fin taker, .fin 0, gas, 0⟩
  worstCaseQuoteInfo := ⟨.fin worstMaker, .fin taker, .fin taker, .fin 0, gas, 0⟩
  sourceBreakdown := ⟨.empty, []⟩
  makerAmountPerEth := .fin 1
  type := .buy
  fillAmount := .fin maker
  makerTokenDecimals := 0
  takerTokenDecimals := 0
  takerAmountPerEth := .fin 1

theorem plainQuote_amounts {maker worstMaker taker : ℕ} {gas : ℚ} (hworst : 0 < worstMaker)
    (hle : worstMaker ≤ maker) (htaker : 0 < taker) :
    QuoteAmounts (plainQuote maker worstMaker taker gas).toSwapQuote maker worstMaker taker taker :=
  ⟨rfl, rfl, rfl, rfl, hworst, hle, htaker, le_rfl⟩

/-- A buy with a percentage fee. -/
def buyWithFee (amount : ℕ) (percentage : ℚ) : GetSwapQuoteParams where
  sellAmount := none
  buyAmount := some (.fin amount)
  isETHSell := false
  affiliateFee := ⟨.percentageFee, "recipient", 0, percentage⟩
  isQuote := false
  priceImpactProtectionPercentage := 1

/-- A gasless sell. -/
def gaslessSell (amount : ℕ) : GetSwapQuoteParams where
  sellAmount := some (.fin amount)
  buyAmount := none
  isETHSell := false
  affiliateFee := ⟨.gaslessFee, "recipient", 0, 0⟩
  isQuote := false
  priceImpactProtectionPercentage := 1

/-- 10 bought with a fee of half of it: 15 are asked for, and 10 are left. -/
theorem buyAmount_of_ten :
    (apiSwapQuote false (buyWithFee 10 (1 / 2)) (plainQuote 15 15 30 0) (.fin 0)).buyAmount =
      .fin (10 : ℕ) := by
  have hfee : (0 : ℚ) ≤ 1 / 2 := by norm_num
  have hgross : (BigNumber.fin (15 : ℕ)) = quoteAmount .buy (.fin 0) (.fin (10 : ℕ)) (.fin 0)
      (buyWithFee 10 (1 / 2)).affiliateFee := by
    decide +kernel
  exact buyAmount_of_grossed_up false rfl (by decide) hfee hgross hgross

end ZeroExApi.SwapService
