/-
# ZeroExApi.TransformErc20Rule — the calldata of the transformERC20 feature

`quote_consumers/feature_rules/transform_erc20_rule.ts`.  A call is a list of transformations, run
in order on the tokens that the caller sent in: the fees in the sell token, the wrapping of ETH, one
fill-quote transformation for each hop of the two-hop orders and one for all other orders, the
unwrapping, the fees in the buy token, and the return of what is left.  The encoder of a
fill-quote transformation, which is a package's, is a parameter: it can refuse the data.

Two results.  The amount passed for the orders that are no two-hops is positive exactly when
rounding up the two-hop amounts did not use it up (`fillAmount_split_iff`).  And the amount sent in
covers the fees in the sell token exactly when these are none or the call is made for a
meta-transaction of the first version (`covers_sellTokenFees_iff`).
-/

import ZeroExApi.SellQuote

namespace ZeroExApi

open ZeroExApi.Lib ZeroExApi.Lib.Fallible ZeroExApi.Lib.Apportion ZeroExApi.Orders
open ZeroExApi.QuoteConsumerUtils ZeroExApi.RoutedPath

/-! ## The rule -/

/-- `ContractAddresses`, as far as a call is made with them. -/
structure ContractAddresses where
  exchangeProxy : String
  etherToken : String

/-- `TransformERC20Rule`.  The addresses of the contracts on each chain are those of a package, and
so is the encoder of the data of a fill-quote transformation, of which it is kept what it throws. -/
structure TransformERC20Rule where
  chainId : ChainId
  contractAddresses : ContractAddresses
  getContractAddressesForChainOrThrow : ChainId → ContractAddresses
  encodeFillQuoteTransformerData : FillQuoteTransformerData → Except JsError Unit

/-- `POSITIVE_SLIPPAGE_FEE_TRANSFORMER_GAS`. -/
def POSITIVE_SLIPPAGE_FEE_TRANSFORMER_GAS : BigNumber := .fin 30000

/-- `getIntermediateTokens`. -/
def getIntermediateTokens (twoHopOrders : List TwoHopOrder) : List String :=
  twoHopOrders.map fun twoHopOrder => twoHopOrder.firstHopOrder.makerToken

/-- The amount of a two-hop order on the side of the quote. -/
def twoHopSideAmount (side : MarketOperation) (twoHopOrder : TwoHopOrder) : BigNumber :=
  match side with
  | .sell => twoHopOrder.firstHopOrder.takerAmount
  | .buy => twoHopOrder.secondHopOrder.makerAmount

/-- `getTwoHopFillAmount`. -/
def getTwoHopFillAmount (side : MarketOperation) (twoHopOrders : List TwoHopOrder) : BigNumber :=
  BigNumber.sum (.fin 0 :: twoHopOrders.map (twoHopSideAmount side))

/-- `getNonTwoHopFillAmount`. -/
def getNonTwoHopFillAmount (quote : SwapQuote) : BigNumber :=
  quote.fillAmount.minus (getTwoHopFillAmount quote.type quote.path.ordersByType.twoHopOrders)

/-- The receiver of what is left of the input; an empty one is replaced. -/
def refundReceiverOf (opts : ExchangeProxyContractOpts) : String :=
  if opts.refundReceiver = "" then NULL_ADDRESS else opts.refundReceiver

namespace TransformERC20Rule

variable (rule : TransformERC20Rule)

/-- `NATIVE_FEE_TOKEN_BY_CHAIN_ID` at the chain of the rule. -/
def nativeFeeToken : String := (rule.getContractAddressesForChainOrThrow rule.chainId).etherToken

/-! ## Filling the quote -/

/-- The transformation of some data, which stands for it encoded. -/
def fillQuoteTransformation (data : FillQuoteTransformerData) :
    Except JsError ERC20Transformation := do
  rule.encodeFillQuoteTransformerData data
  .ok (.fillQuote data)

/-- The two transformations of a two-hop order: the second sells all that the first bought. -/
def createTwoHopTransformation (quote : SwapQuote) (opts : ExchangeProxyContractOpts)
    (twoHopOrder : TwoHopOrder) : Except JsError (List ERC20Transformation) := do
  let context := getSwapContext quote opts
  let intermediateToken := twoHopOrder.firstHopOrder.makerToken
  let firstHop ← getFQTTransformerDataFromOptimizedOrders [twoHopOrder.firstHopOrder]
  let first ← rule.fillQuoteTransformation
    { firstHop with
      side := .sell
      sellToken := context.sellToken
      buyToken := intermediateToken
      refundReceiver := refundReceiverOf opts
      fillAmount :=
        if !isBuyQuote quote && opts.shouldSellEntireBalance then
          MAX_UINT256
        else
          twoHopOrder.firstHopOrder.takerAmount }
  let secondHop ← getFQTTransformerDataFromOptimizedOrders [twoHopOrder.secondHopOrder]
  let second ← rule.fillQuoteTransformation
    { secondHop with
      side := .sell
      buyToken := context.buyToken
      sellToken := intermediateToken
      refundReceiver := refundReceiverOf opts
      fillAmount := MAX_UINT256 }
  .ok [first, second]

/-- `createTwoHopTransformations`. -/
def createTwoHopTransformations [Arithmetic] (quote : SwapQuote)
    (opts : ExchangeProxyContractOpts) : Except JsError (List ERC20Transformation) := do
  let slippedOrders ← quote.path.getSlippedOrdersByType (getSwapContext quote opts).maxSlippage
  let transformations ←
    slippedOrders.twoHopOrders.mapM (rule.createTwoHopTransformation quote opts)
  .ok transformations.flatten

/-- The data that `createNonTwoHopTransformation` has encoded. -/
def nonTwoHopTransformerData [Arithmetic] (quote : SwapQuote) (opts : ExchangeProxyContractOpts) :
    Except JsError (Option FillQuoteTransformerData) := do
  let context := getSwapContext quote opts
  let slippedOrdersByType ← quote.path.getSlippedOrdersByType context.maxSlippage
  let fillAmount := getNonTwoHopFillAmount quote
  let nonTwoHopOrders := slippedOrdersByType.nativeOrders ++ slippedOrdersByType.bridgeOrders
  if nonTwoHopOrders.length = 0 then
    .ok none
  else do
    let orders ← getFQTTransformerDataFromOptimizedOrders nonTwoHopOrders
    .ok
      (some
        { orders with
          side := if isBuyQuote quote then .buy else .sell
          sellToken := context.sellToken
          buyToken := context.buyToken
          refundReceiver := refundReceiverOf opts
          fillAmount :=
            if !isBuyQuote quote && opts.shouldSellEntireBalance then
              MAX_UINT256
            else
              fillAmount })

/-- `createNonTwoHopTransformation`. -/
def createNonTwoHopTransformation [Arithmetic] (quote : SwapQuote)
    (opts : ExchangeProxyContractOpts) : Except JsError (Option ERC20Transformation) := do
  match ← nonTwoHopTransformerData quote opts with
  | none => .ok none
  | some data => do
    let transformation ← rule.fillQuoteTransformation data
    .ok (some transformation)

/-- `createFillQuoteTransformations`. -/
def createFillQuoteTransformations [Arithmetic] (quote : SwapQuote)
    (opts : ExchangeProxyContractOpts) : Except JsError (List ERC20Transformation) := do
  let transformations ← rule.createTwoHopTransformations quote opts
  match ← rule.createNonTwoHopTransformation quote opts with
  | some transformation => .ok (transformations ++ [transformation])
  | none => .ok transformations

/-- `createPayTakerTransformation`. -/
def createPayTakerTransformation (quote : SwapQuote) (opts : ExchangeProxyContractOpts) :
    ERC20Transformation :=
  let payTakerTokens :=
    (getSwapContext quote opts).sellToken ::
      getIntermediateTokens quote.path.ordersByType.twoHopOrders
  .payTaker (if opts.isToETH then payTakerTokens else payTakerTokens ++ [ETH_TOKEN_ADDRESS]) []

/-! ## Fees -/

/-- The transformation for the fees in the sell token; it comes before all others. -/
def createSellTokenFeeTransformations (quote : SwapQuote) (opts : ExchangeProxyContractOpts) :
    List ERC20Transformation :=
  if opts.sellTokenAffiliateFees.length > 0 then
    [.affiliateFee
      ((opts.sellTokenAffiliateFees.filter fun fee => fee.sellTokenFeeAmount.gt 0).map fun fee =>
        { token :=
            if opts.isFromETH then ETH_TOKEN_ADDRESS else (getSwapContext quote opts).sellToken
          amount := fee.sellTokenFeeAmount
          recipient := fee.recipient })]
  else
    []

/-- The amount to send in: more than the swap sells for a meta-transaction of the first version. -/
def sellAmountWithFees (quote : SwapQuote) (opts : ExchangeProxyContractOpts) : BigNumber :=
  let sellAmount := (getSwapContext quote opts).sellAmount
  if opts.sellTokenAffiliateFees.length > 0 then
    if opts.metaTransactionVersion = some .v1 then
      sellAmount.plus
        (opts.sellTokenAffiliateFees.foldl
          (fun totalSellTokenFeeAmount fee => totalSellTokenFeeAmount.plus fee.sellTokenFeeAmount)
          ZERO_AMOUNT)
    else
      sellAmount
  else
    sellAmount

/-- What the fees in the buy token add to. -/
structure BuyTokenFeeState where
  transformations : List ERC20Transformation
  gasOverhead : BigNumber
  minBuyAmount : BigNumber

/-- The token the fees in the buy token are paid in. -/
def buyFeeToken (quote : SwapQuote) (opts : ExchangeProxyContractOpts) : String :=
  if opts.isToETH then ETH_TOKEN_ADDRESS else (getSwapContext quote opts).buyToken

/-- A fee of a fixed amount; the least amount to buy is lowered by it. -/
def addFixedFee (token : String) (state : BuyTokenFeeState) (fee : AffiliateFeeAmount) :
    BuyTokenFeeState :=
  if fee.buyTokenFeeAmount.gt 0 then
    { state with
      transformations :=
        state.transformations ++ [.affiliateFee [⟨token, fee.buyTokenFeeAmount, fee.recipient⟩]]
      minBuyAmount := BigNumber.max 0 (state.minBuyAmount.minus fee.buyTokenFeeAmount) }
  else
    state

/-- The body of the loop over the fees in the buy token. -/
def addBuyTokenFee (quote : SwapQuote) (opts : ExchangeProxyContractOpts)
    (state : BuyTokenFeeState) (fee : AffiliateFeeAmount) : BuyTokenFeeState :=
  let token := buyFeeToken quote opts
  if fee.recipient = NULL_ADDRESS then
    state
  else
    match fee.feeType with
    | .none => state
    | .positiveSlippageFee =>
      let makerAmount := quote.bestCaseQuoteInfo.makerAmount
      let withSurplus :=
        (makerAmount.plus
          ((POSITIVE_SLIPPAGE_FEE_TRANSFORMER_GAS.times quote.gasPrice).times
            quote.makerAmountPerEth)).integerValue .halfUp
      { state with
        transformations :=
          state.transformations ++
            [.positiveSlippageFee token (withSurplus.max makerAmount) fee.recipient]
        gasOverhead := POSITIVE_SLIPPAGE_FEE_TRANSFORMER_GAS.plus state.gasOverhead }
    | .percentageFee => addFixedFee token state fee
    | .gaslessFee => addFixedFee token state fee

/-- The loop over the fees in the buy token, the one on positive slippage last. -/
def addBuyTokenFees (quote : SwapQuote) (opts : ExchangeProxyContractOpts)
    (transformations : List ERC20Transformation) : BuyTokenFeeState :=
  (opts.buyTokenAffiliateFees ++ opts.positiveSlippageFee.toList).foldl
    (addBuyTokenFee quote opts)
    ⟨transformations, ZERO_AMOUNT, (getSwapContext quote opts).minBuyAmount⟩

/-! ## The call -/

/-- The amount of the input token that is sent in. -/
def inputAmount (quote : SwapQuote) (opts : ExchangeProxyContractOpts) : BigNumber :=
  if opts.shouldSellEntireBalance then MAX_UINT256 else sellAmountWithFees quote opts

/-- The transformation that wraps ETH or unwraps it, on the chains where it has to be. -/
def createWethTransformations (condition : Bool) (token : String) (amount : BigNumber) :
    List ERC20Transformation :=
  if condition && rule.chainId != .celo then [.weth token amount] else []

/-- The transformations before the fees in the buy token. -/
def createSwapTransformations (quote : SwapQuote) (opts : ExchangeProxyContractOpts)
    (fillQuoteTransformations : List ERC20Transformation) : List ERC20Transformation :=
  createSellTokenFeeTransformations quote opts ++
    (rule.createWethTransformations opts.isFromETH ETH_TOKEN_ADDRESS (inputAmount quote opts) ++
      fillQuoteTransformations ++
      rule.createWethTransformations opts.isToETH rule.nativeFeeToken MAX_UINT256)

/-- `createCalldata`. -/
def createCalldata [Arithmetic] (quote : SwapQuote) (opts : ExchangeProxyContractOpts) :
    Except JsError CalldataInfo := do
  let context := getSwapContext quote opts
  let fillQuoteTransformations ← rule.createFillQuoteTransformations quote opts
  let final :=
    addBuyTokenFees quote opts
      (rule.createSwapTransformations quote opts fillQuoteTransformations)
  let toEthAddress :=
    if rule.chainId = .celo then rule.contractAddresses.etherToken else ETH_TOKEN_ADDRESS
  .ok
    { calldata :=
        .transformERC20
          (if opts.isFromETH then ETH_TOKEN_ADDRESS else context.sellToken)
          (if opts.isToETH then toEthAddress else context.buyToken)
          (inputAmount quote opts)
          final.minBuyAmount
          (final.transformations ++ [createPayTakerTransformation quote opts])
      ethAmount := context.ethAmount
      toAddress := rule.contractAddresses.exchangeProxy
      allowanceTarget := rule.contractAddresses.exchangeProxy
      gasOverhead := final.gasOverhead }

/-! ## What is left for the orders that are no two-hops -/

/-- An amount is split between the two-hop orders and the rest: something is left for the rest, and
no two-hop order has more than the amount. -/
structure SplitsAmount (amount : BigNumber) (twoHopAmounts : List BigNumber)
    (fillAmount : BigNumber) : Prop where
  fillAmount_pos : fillAmount.gt 0 = true
  sum_eq : fillAmount.plus (BigNumber.sum (.fin 0 :: twoHopAmounts)) = amount
  le_amount : ∀ a ∈ twoHopAmounts, a.lte amount = true

/-- The inputs of the two-hop entries that were used. -/
def twoHopInputs (route : Route) : List ℚ :=
  (route.used.filter RouteEntry.isTwoHop).map RouteEntry.input

/-- On the side of the quote the amount of a two-hop order is the input of its fill. -/
theorem twoHopSideAmount_eq {fillData : FillData} {input output : BigNumber}
    {context : PathContext} {order : TwoHopOrder}
    (h : createOrdersFromTwoHopSample fillData input output context = .ok order) :
    twoHopSideAmount context.side order = input := by
  obtain ⟨s₁, fd₁, s₂, fd₂, token, _, hfirst, hsecond⟩ := createOrdersFromTwoHopSample_eq_ok h
  have htaker := hfirst.takerAmount_eq
  have hmaker := hsecond.makerAmount_eq
  unfold twoHopSideAmount
  cases hside : context.side with
  | sell =>
    rw [hside] at htaker
    exact htaker
  | buy =>
    rw [hside] at hmaker
    exact hmaker

/-- The amounts of the two-hop orders of a routed path are the shares of the two-hop entries. -/
theorem twoHopAmounts_of_route [Arithmetic] (o : PathOptimizer) {amount : ℕ}
    (hamount : o.inputAmount = .fin amount) {route : Route} (hvalid : ∀ e ∈ route, e.Valid)
    {path : Path} (h : o.createPathFromRoute route = .ok (some path)) :
    path.ordersByType.twoHopOrders.map (twoHopSideAmount o.pathContext.side) =
      (((twoHopInputs route).map (PathOptimizer.scaledShare amount route.total)).map
        fun n : ℤ => (n : ℚ)).map .fin := by
  obtain ⟨hcontext, _, hfills⟩ := o.fills_of_route hamount hvalid h
  -- the two-hop fills are those of the two-hop entries
  have htwoHopFills := List.rel_filter
    (p := RouteEntry.isTwoHop) (q := fun fill : Fill => fill.source == .multiHop)
    (by
      intro e fill hof
      show (e.routablePath.source == .multiHop) = true ↔ (fill.source == .multiHop) = true
      rw [source_of_entry hof])
    hfills
  have hinputs := map_eq_map
    ((List.forall₂_and_left _ _).mpr ⟨fun e he => (List.mem_filter.mp he).2, htwoHopFills⟩)
    (f := fun e => BigNumber.fin (PathOptimizer.scaledShare amount route.total e.input))
    (g := fun fill => fill.input)
    (by
      rintro e fill ⟨htwoHop, hof⟩
      cases hof with
      | dexSamples _ _ _ _ _ hinput => exact hinput.symm
      | nativeOrder orders order hpath =>
        -- native orders are no two-hop
        rw [RouteEntry.isTwoHop, hpath] at htwoHop
        cases htwoHop)
  have hamounts := map_eq_map path.twoHopOrders_forall₂ (f := fun fill => fill.input)
    (g := twoHopSideAmount path.context.side) fun fill order horder =>
      (twoHopSideAmount_eq horder).symm
  rw [hcontext] at hamounts
  rw [← hamounts, ← hinputs, twoHopInputs]
  simp only [List.map_map]
  rfl

/-- The fill amount of the orders that are no two-hops. -/
theorem fillAmount_of_nonTwoHop [Arithmetic] {quote : SwapQuote}
    {opts : ExchangeProxyContractOpts} (hbalance : opts.shouldSellEntireBalance = false)
    {data : FillQuoteTransformerData} (h : nonTwoHopTransformerData quote opts = .ok (some data)) :
    data.fillAmount = getNonTwoHopFillAmount quote := by
  obtain ⟨slipped, _, h⟩ := bind_eq_ok.mp h
  dsimp only at h
  split at h
  · cases h
  · obtain ⟨orders, _, h⟩ := bind_eq_ok.mp h
    cases h
    show (if !isBuyQuote quote && opts.shouldSellEntireBalance then _ else _) = _
    rw [hbalance, Bool.and_false, if_neg Bool.false_ne_true]

/-- Of a routed path, the amounts the fill-quote transformations are told to fill split the amount
of the quote exactly when rounding up the shares of the two-hop entries adds less than the exact
share of all other entries. -/
theorem fillAmount_split_iff [Arithmetic] (o : PathOptimizer) {amount : ℕ}
    (hamount : o.inputAmount = .fin amount)
    {route : Route} (hvalid : ∀ e ∈ route, e.Valid) {path : Path}
    (h : o.createPathFromRoute route = .ok (some path)) {makerAmountPerEth : BigNumber}
    {makerToken takerToken : String} {gasPrice : BigNumber} {gasSchedule : GasSchedule}
    {slippage : ℚ} {quote : SwapQuote}
    (hquote : createSwapQuote path makerAmountPerEth makerToken takerToken o.pathContext.side
      (.fin amount) gasPrice gasSchedule slippage = .ok quote)
    {opts : ExchangeProxyContractOpts} (hbalance : opts.shouldSellEntireBalance = false)
    {data : FillQuoteTransformerData}
    (hdata : nonTwoHopTransformerData quote opts = .ok (some data)) :
    SplitsAmount (.fin amount)
        (path.ordersByType.twoHopOrders.map (twoHopSideAmount o.pathContext.side))
        data.fillAmount ↔
      shareExcess (PathOptimizer.scaledShare amount route.total) amount route.total
          (twoHopInputs route) <
        amount * (route.total - (twoHopInputs route).sum) / route.total := by
  obtain ⟨_, htotal, _⟩ := o.fills_of_route hamount hvalid h
  have hof := createSwapQuote_eq_ok hquote
  have hamounts := twoHopAmounts_of_route o hamount hvalid h
  have hsum : BigNumber.sum (.fin 0 :: path.ordersByType.twoHopOrders.map
      (twoHopSideAmount o.pathContext.side)) =
        .fin (((twoHopInputs route).map
          (PathOptimizer.scaledShare amount route.total)).sum : ℤ) := by
    rw [hamounts, BigNumber.sum_fin_cons, zero_add, Int.cast_list_sum]
  -- the amount that is passed is what the two-hop shares leave
  have hpassed : data.fillAmount =
      .fin (amount - (((twoHopInputs route).map
        (PathOptimizer.scaledShare amount route.total)).sum : ℤ)) := by
    rw [fillAmount_of_nonTwoHop hbalance hdata, getNonTwoHopFillAmount, getTwoHopFillAmount,
      hof.path_eq, hof.type_eq, hof.fillAmount_eq, hsum, BigNumber.minus_fin]
  rw [hpassed, ← sum_share_lt_iff _ amount htotal]
  constructor
  · rintro ⟨hpos, _, _⟩
    rw [BigNumber.zero_eq, BigNumber.gt_fin, decide_eq_true_iff, sub_pos] at hpos
    exact_mod_cast hpos
  · intro hlt
    refine ⟨?_, ?_, ?_⟩
    · rw [BigNumber.zero_eq, BigNumber.gt_fin, decide_eq_true_iff, sub_pos]
      exact_mod_cast hlt
    · rw [hsum, BigNumber.plus_fin, sub_add_cancel]
    · -- no share is larger than the amount
      intro a ha
      rw [hamounts] at ha
      simp only [List.mem_map] at ha
      obtain ⟨_, ⟨_, ⟨weight, _, rfl⟩, rfl⟩, rfl⟩ := ha
      rw [BigNumber.lte_fin, decide_eq_true_iff]
      exact_mod_cast PathOptimizer.scaledShare_le amount route.total weight

/-- What the encoder throws for the data is what becomes of the transformation. -/
theorem createNonTwoHopTransformation_eq_error [Arithmetic] {quote : SwapQuote}
    {opts : ExchangeProxyContractOpts} {data : FillQuoteTransformerData}
    (hdata : nonTwoHopTransformerData quote opts = .ok (some data)) {error : JsError}
    (h : rule.encodeFillQuoteTransformerData data = .error error) :
    rule.createNonTwoHopTransformation quote opts = .error error := by
  unfold createNonTwoHopTransformation fillQuoteTransformation
  rw [hdata]
  show (do rule.encodeFillQuoteTransformerData data; _) >>= _ = _
  rw [h]
  rfl

/-! ### Two halves and a remainder -/

section Code

attribute [local instance] codeArithmetic

/-- An amount for two two-hop entries and an entry of half their input. -/
def remainderRoute : Route :=
  [entryAtTens .multiHop SellQuote.twoHopFillData SellQuote.twoHopFillData_sampled
      SellQuote.multiHop_ne_native 1,
    entryAtTens .multiHop SellQuote.twoHopFillData SellQuote.twoHopFillData_sampled
      SellQuote.multiHop_ne_native 1,
    entryAtTens .uniswapV2 (.uniswapV2 ["input", "output"] "router") RoutedPath.uniswapV2_sampled
      RoutedPath.uniswapV2_ne_native (1 / 2)]

theorem remainderRoute_valid : ∀ e ∈ remainderRoute, e.Valid := by
  simp only [remainderRoute, List.forall_mem_cons]
  exact ⟨entryAtTens_valid (by norm_num), entryAtTens_valid (by norm_num),
    entryAtTens_valid (by norm_num), by simp⟩

/-- A test of the quote of a path and of what it tells the orders that are no two-hops to fill. -/
def nonTwoHopTest (side : MarketOperation) (amount : ℕ)
    (check : SwapQuote → FillQuoteTransformerData → Bool) (path : Path) : Bool :=
  okAnd (createSwapQuote path (.fin 0) "output" "input" side (.fin amount) (.fin 0)
    (fun _ _ => 0) 0) fun quote =>
    okAnd (nonTwoHopTransformerData quote {}) fun data => data.any (check quote)

theorem exists_of_nonTwoHopTest {side : MarketOperation} {amount : ℕ}
    {check : SwapQuote → FillQuoteTransformerData → Bool} {path : Path}
    (h : nonTwoHopTest side amount check path = true) :
    ∃ quote data,
      createSwapQuote path (.fin 0) "output" "input" side (.fin amount) (.fin 0)
          (fun _ _ => 0) 0 = .ok quote ∧
        nonTwoHopTransformerData quote {} = .ok (some data) ∧ check quote data = true := by
  obtain ⟨quote, hquote, h⟩ := exists_of_okAnd h
  obtain ⟨data, hdata, h⟩ := exists_of_okAnd h
  cases data with
  | none => cases h
  | some data => exact ⟨quote, data, hquote, hdata, h⟩

/-- Of 3 each two-hop takes 2, and the orders that are no two-hops are to fill -1: an encoder that
refuses it is what the transformation ends with. -/
theorem remainder_of_three_is_negative :
    (∀ e ∈ remainderRoute, e.Valid) ∧
      ∃ path quote data,
        (plainOptimizer .sell 3).createPathFromRoute remainderRoute = .ok (some path) ∧
          createSwapQuote path (.fin 0) "output" "input" .sell (.fin (3 : ℕ)) (.fin 0)
              (fun _ _ => 0) 0 = .ok quote ∧
          nonTwoHopTransformerData quote {} = .ok (some data) ∧
          data.fillAmount = .fin (-1) ∧
          (∀ rule : TransformERC20Rule, ∀ error,
            rule.encodeFillQuoteTransformerData data = .error error →
              rule.createNonTwoHopTransformation quote {} = .error error) ∧
          ¬ SplitsAmount (.fin (3 : ℕ))
              (path.ordersByType.twoHopOrders.map (twoHopSideAmount .sell)) data.fillAmount := by
  refine ⟨remainderRoute_valid, ?_⟩
  obtain ⟨path, hpath, hcheck⟩ := (plainOptimizer .sell 3).exists_path_of_madePath remainderRoute
    (nonTwoHopTest .sell 3 fun _ data => decide (data.fillAmount = .fin (-1))) (by decide +kernel)
  obtain ⟨quote, data, hquote, hdata, hcheck⟩ := exists_of_nonTwoHopTest hcheck
  have hnegative : data.fillAmount = .fin (-1) := of_decide_eq_true hcheck
  refine ⟨path, quote, data, hpath, hquote, hdata, hnegative,
    fun rule _ => rule.createNonTwoHopTransformation_eq_error hdata, fun hsplits => ?_⟩
  have hpos := hsplits.fillAmount_pos
  rw [hnegative] at hpos
  exact absurd hpos (by decide)

/-- Of 5 the two-hops take 2 each, and 1 is left. -/
theorem remainder_of_five_is_split :
    ∃ path quote data,
      (plainOptimizer .buy 5).createPathFromRoute remainderRoute = .ok (some path) ∧
        createSwapQuote path (.fin 0) "output" "input" .buy (.fin (5 : ℕ)) (.fin 0)
            (fun _ _ => 0) 0 = .ok quote ∧
        nonTwoHopTransformerData quote {} = .ok (some data) ∧
        (SplitsAmount (.fin (5 : ℕ))
            (path.ordersByType.twoHopOrders.map (twoHopSideAmount .buy)) data.fillAmount ↔
          shareExcess (PathOptimizer.scaledShare 5 remainderRoute.total) 5 remainderRoute.total
              (twoHopInputs remainderRoute) <
            (5 : ℕ) * (remainderRoute.total - (twoHopInputs remainderRoute).sum) /
              remainderRoute.total) := by
  obtain ⟨path, hpath, hcheck⟩ := (plainOptimizer .buy 5).exists_path_of_madePath remainderRoute
    (nonTwoHopTest .buy 5 fun _ _ => true) (by decide +kernel)
  obtain ⟨quote, data, hquote, hdata, _⟩ := exists_of_nonTwoHopTest hcheck
  exact ⟨path, quote, data, hpath, hquote, hdata,
    fillAmount_split_iff (plainOptimizer .buy 5) rfl remainderRoute_valid hpath hquote rfl hdata⟩

end Code

/-! ## What is sent in for the fees in the sell token -/

/-- The fees an affiliate-fee transformation pays. -/
def paidFees : ERC20Transformation → List TokenFee
  | .affiliateFee fees => fees
  | _ => []

/-- A call whose input amount is what the swap sells and what the transformation for the fees in the
sell token pays before that. -/
def CoversSellTokenFees (quote : SwapQuote) (opts : ExchangeProxyContractOpts)
    (calldata : Calldata) : Prop :=
  ∃ inputToken outputToken inputAmount minOutputAmount later,
    calldata =
      .transformERC20 inputToken outputToken inputAmount minOutputAmount
        (createSellTokenFeeTransformations quote opts ++ later) ∧
      inputAmount =
        (BigNumber.sum
          (.fin 0 :: ((createSellTokenFeeTransformations quote opts).flatMap paidFees).map
            TokenFee.amount)).plus
          (getSwapContext quote opts).sellAmount

section BuyTokenFees

variable (quote : SwapQuote) (opts : ExchangeProxyContractOpts)

/-- A fee in the buy token only adds transformations after the others. -/
theorem addBuyTokenFee_transformations (state : BuyTokenFeeState) (fee : AffiliateFeeAmount) :
    state.transformations <+: (addBuyTokenFee quote opts state fee).transformations := by
  have hfixed : ∀ token,
      state.transformations <+: (addFixedFee token state fee).transformations := by
    intro token
    unfold addFixedFee
    split
    · exact List.prefix_append _ _
    · exact List.prefix_rfl
  unfold addBuyTokenFee
  dsimp only
  split
  · exact List.prefix_rfl
  · cases fee.feeType with
    | none => exact List.prefix_rfl
    | positiveSlippageFee => exact List.prefix_append _ _
    | percentageFee => exact hfixed _
    | gaslessFee => exact hfixed _

theorem addBuyTokenFees_transformations (transformations : List ERC20Transformation) :
    transformations <+: (addBuyTokenFees quote opts transformations).transformations := by
  -- the loop adds to any state
  suffices h : ∀ (fees : List AffiliateFeeAmount) (state : BuyTokenFeeState),
      state.transformations <+:
        (fees.foldl (addBuyTokenFee quote opts) state).transformations from
    h _ ⟨transformations, ZERO_AMOUNT, (getSwapContext quote opts).minBuyAmount⟩
  intro fees
  induction fees with
  | nil =>
    intro state
    exact List.prefix_rfl
  | cons fee fees ih =>
    intro state
    exact (addBuyTokenFee_transformations quote opts state fee).trans (ih _)

end BuyTokenFees

/-- The call of `createCalldata`: its input amount, and the transformation for the fees in the sell
token before all others. -/
theorem createCalldata_eq_ok {quote : SwapQuote} {opts : ExchangeProxyContractOpts}
    {info : CalldataInfo} (h : rule.createCalldata quote opts = .ok info) :
    ∃ inputToken outputToken minOutputAmount later,
      info.calldata =
        .transformERC20 inputToken outputToken (inputAmount quote opts) minOutputAmount
          (createSellTokenFeeTransformations quote opts ++ later) := by
  obtain ⟨fillQuoteTransformations, _, h⟩ := bind_eq_ok.mp h
  obtain ⟨added, hadded⟩ := addBuyTokenFees_transformations quote opts
    (rule.createSwapTransformations quote opts fillQuoteTransformations)
  cases h
  dsimp only
  rw [← hadded, createSwapTransformations]
  simp only [List.append_assoc]
  exact ⟨_, _, _, _, rfl⟩

section SellTokenFees

/-- The fees in the sell token, as rationals. -/
def sellTokenFees (opts : ExchangeProxyContractOpts) : List ℚ :=
  opts.sellTokenAffiliateFees.map fun fee => fee.sellTokenFeeAmount.toRat

/-- Fees that are finite and not negative. -/
def NonnegativeFees (fees : List AffiliateFeeAmount) : Prop :=
  ∀ fee ∈ fees, ∃ q : ℚ, fee.sellTokenFeeAmount = .fin q ∧ 0 ≤ q

/-- The fees that are added to the amount to sell. -/
theorem foldl_sellTokenFees {fees : List AffiliateFeeAmount} (hfees : NonnegativeFees fees)
    (a : ℚ) :
    fees.foldl (fun (total : BigNumber) fee => total.plus fee.sellTokenFeeAmount) (.fin a) =
      .fin (a + (fees.map fun fee => fee.sellTokenFeeAmount.toRat).sum) := by
  induction fees generalizing a with
  | nil => simp
  | cons fee fees ih =>
    obtain ⟨q, hq, _⟩ := hfees fee List.mem_cons_self
    rw [List.foldl_cons, hq, BigNumber.plus_fin, ih fun f hf => hfees f (List.mem_cons_of_mem _ hf)]
    simp [hq, add_assoc]

/-- The fees that are paid: leaving out those that are zero changes nothing. -/
theorem foldl_positiveFees {fees : List AffiliateFeeAmount} (hfees : NonnegativeFees fees) (a : ℚ) :
    ((fees.filter fun fee => fee.sellTokenFeeAmount.gt 0).map
        AffiliateFeeAmount.sellTokenFeeAmount).foldl BigNumber.plus (.fin a) =
      .fin (a + (fees.map fun fee => fee.sellTokenFeeAmount.toRat).sum) := by
  induction fees generalizing a with
  | nil => simp
  | cons fee fees ih =>
    obtain ⟨q, hq, hnonneg⟩ := hfees fee List.mem_cons_self
    have hrest := ih fun f hf => hfees f (List.mem_cons_of_mem _ hf)
    rcases hnonneg.lt_or_eq with hpos | hzero
    · rw [List.filter_cons_of_pos (by simpa [hq] using hpos), List.map_cons, List.foldl_cons, hq,
        BigNumber.plus_fin, hrest]
      simp [hq, add_assoc]
    · rw [List.filter_cons_of_neg (by simp [hq, ← hzero]), hrest]
      simp [hq, ← hzero]

/-- What the transformation for the fees in the sell token pays. -/
theorem foldl_paidFees (quote : SwapQuote) {opts : ExchangeProxyContractOpts}
    (hfees : NonnegativeFees opts.sellTokenAffiliateFees) :
    BigNumber.sum
        (.fin 0 :: ((createSellTokenFeeTransformations quote opts).flatMap paidFees).map
          TokenFee.amount) =
      .fin (sellTokenFees opts).sum := by
  unfold createSellTokenFeeTransformations
  split
  · have hpaid := foldl_positiveFees hfees 0
    rw [zero_add] at hpaid
    rw [List.flatMap_singleton, paidFees, List.map_map]
    exact hpaid
  · rename_i hnone
    have hnil : opts.sellTokenAffiliateFees = [] := List.eq_nil_of_length_eq_zero (by omega)
    rw [sellTokenFees, hnil]
    rfl

theorem sum_fees_eq_zero_iff {fees : List AffiliateFeeAmount} (hfees : NonnegativeFees fees) :
    (fees.map fun fee => fee.sellTokenFeeAmount.toRat).sum = 0 ↔
      ∀ fee ∈ fees, fee.sellTokenFeeAmount = .fin 0 := by
  have hnonneg : ∀ x ∈ fees.map fun fee => fee.sellTokenFeeAmount.toRat, 0 ≤ x := by
    intro x hx
    obtain ⟨fee, hfee, rfl⟩ := List.mem_map.mp hx
    obtain ⟨q, hq, hle⟩ := hfees fee hfee
    rw [hq]
    exact hle
  constructor
  · intro hsum fee hfee
    have hzero := List.all_zero_of_le_zero_le_of_sum_eq_zero hnonneg hsum
      (List.mem_map_of_mem hfee)
    obtain ⟨q, hq, _⟩ := hfees fee hfee
    rw [hq, BigNumber.toRat_fin] at hzero
    rw [hq, hzero]
  · intro hzero
    apply List.sum_eq_zero
    intro x hx
    obtain ⟨fee, hfee, rfl⟩ := List.mem_map.mp hx
    rw [hzero fee hfee]
    rfl

/-- For fees that are not negative, the call sends in what its fees in the sell token take exactly
when it is made for a meta-transaction of the first version or these fees are nothing. -/
theorem covers_sellTokenFees_iff {quote : SwapQuote} {opts : ExchangeProxyContractOpts}
    (hfees : NonnegativeFees opts.sellTokenAffiliateFees)
    (hbalance : opts.shouldSellEntireBalance = false) {info : CalldataInfo}
    (h : rule.createCalldata quote opts = .ok info) :
    CoversSellTokenFees quote opts info.calldata ↔
      opts.metaTransactionVersion = some .v1 ∨
        (∀ fee ∈ opts.sellTokenAffiliateFees, fee.sellTokenFeeAmount = .fin 0) ∨
        (getSwapContext quote opts).sellAmount.isFinite = false := by
  obtain ⟨inputToken, outputToken, minOutputAmount, later, hcalldata⟩ :=
    rule.createCalldata_eq_ok h
  have hpaid := foldl_paidFees quote hfees
  have hcovers : CoversSellTokenFees quote opts info.calldata ↔
      sellAmountWithFees quote opts =
        (BigNumber.fin (sellTokenFees opts).sum).plus (getSwapContext quote opts).sellAmount := by
    rw [← hpaid, hcalldata, inputAmount, hbalance, if_neg Bool.false_ne_true]
    constructor
    · rintro ⟨_, _, _, _, _, heq, hamount⟩
      rw [(Calldata.transformERC20.inj heq).2.2.1]
      exact hamount
    · intro hamount
      exact ⟨_, _, _, _, _, rfl, hamount⟩
  rw [hcovers, ← sum_fees_eq_zero_iff hfees, sellAmountWithFees]
  split
  · rename_i hsome
    split
    · -- the fees are added
      rename_i hv1
      rw [ZERO_AMOUNT, foldl_sellTokenFees hfees, zero_add, BigNumber.plus_comm]
      exact iff_of_true rfl (.inl hv1)
    · rename_i hv1
      rw [eq_comm, BigNumber.fin_plus_eq_self_iff, or_iff_right hv1]
      rfl
  · -- there are no fees
    rename_i hnone
    have hnil : opts.sellTokenAffiliateFees = [] := List.eq_nil_of_length_eq_zero (by omega)
    rw [eq_comm, BigNumber.fin_plus_eq_self_iff, sellTokenFees, hnil]
    simp

end SellTokenFees

/-! ### A fee of one -/

/-- An encoder that refuses a fill amount that is no `uint256`. -/
def encodeUint256 (data : FillQuoteTransformerData) : Except JsError Unit :=
  if data.fillAmount.gte 0 && data.fillAmount.lte MAX_UINT256 &&
      data.fillAmount.integerValue .down == data.fillAmount then
    .ok ()
  else
    .error (.error "no uint256")

/-- The rule for Mainnet, with names for addresses. -/
def mainnetRule : TransformERC20Rule where
  chainId := .mainnet
  contractAddresses := ⟨"exchangeProxy", "WETH"⟩
  getContractAddressesForChainOrThrow := fun _ => ⟨"exchangeProxy", "WETH"⟩
  encodeFillQuoteTransformerData := encodeUint256

/-- The options of a meta-transaction with a fee of one base unit of the sell token. -/
def feeOfOne (version : MetaTransactionVersion) : ExchangeProxyContractOpts where
  sellTokenAffiliateFees := [⟨.gaslessFee, "integrator", .fin 0, .fin 1⟩]
  metaTransactionVersion := some version

theorem feeOfOne_nonnegative (version : MetaTransactionVersion) :
    NonnegativeFees (feeOfOne version).sellTokenAffiliateFees := by
  intro fee hfee
  rw [List.mem_singleton.mp hfee]
  exact ⟨1, rfl, by norm_num⟩

/-- A meta-transaction of the second version pays the fee of one and sends in only the 2 that the
swap sells. -/
theorem second_version_is_short :
    NonnegativeFees (feeOfOne .v2).sellTokenAffiliateFees ∧
      ∃ path quote info,
        (plainOptimizer .sell 2).createPathFromRoute SellQuote.halvesRoute = .ok (some path) ∧
          createSwapQuote path (.fin 0) "output" "input" .sell (.fin 2) (.fin 0) (fun _ _ => 0) 0 =
            .ok quote ∧
          mainnetRule.createCalldata quote (feeOfOne .v2) = .ok info ∧
          (getSwapContext quote (feeOfOne .v2)).sellAmount = .fin 2 ∧
          inputAmount quote (feeOfOne .v2) = .fin 2 ∧
          ¬ CoversSellTokenFees quote (feeOfOne .v2) info.calldata := by
  refine ⟨feeOfOne_nonnegative .v2, ?_⟩
  obtain ⟨path, hpath, hcheck⟩ := (plainOptimizer .sell 2).exists_path_of_madePath
    SellQuote.halvesRoute
    (fun path =>
      okAnd (createSwapQuote path (.fin 0) "output" "input" .sell (.fin 2) (.fin 0)
        (fun _ _ => 0) 0) fun quote =>
        okAnd (mainnetRule.createCalldata quote (feeOfOne .v2)) fun _ =>
          decide ((getSwapContext quote (feeOfOne .v2)).sellAmount = .fin 2))
    (by decide +kernel)
  obtain ⟨quote, hquote, hcheck⟩ := exists_of_okAnd hcheck
  obtain ⟨info, hinfo, hcheck⟩ := exists_of_okAnd hcheck
  have hsell : (getSwapContext quote (feeOfOne .v2)).sellAmount = .fin 2 := of_decide_eq_true hcheck
  have hinput : inputAmount quote (feeOfOne .v2) = .fin 2 := by
    rw [← hsell]
    rfl
  refine ⟨path, quote, info, hpath, hquote, hinfo, hsell, hinput, ?_⟩
  rintro ⟨_, _, amount, _, _, hcalldata, hamount⟩
  obtain ⟨_, _, _, _, hmade⟩ := mainnetRule.createCalldata_eq_ok hinfo
  -- the input amount of the call is 2, and would have to be 3
  rw [hcalldata] at hmade
  have hshort : amount = .fin 2 := (Calldata.transformERC20.inj hmade).2.2.1.trans hinput
  rw [hshort, hsell, foldl_paidFees quote (feeOfOne_nonnegative .v2)] at hamount
  revert hamount
  decide +kernel

/-- A meta-transaction of the first version sends in the fee of one as well. -/
theorem first_version_covers_fee :
    ∃ path quote info,
      (plainOptimizer .sell 2).createPathFromRoute SellQuote.halvesRoute = .ok (some path) ∧
        createSwapQuote path (.fin 0) "output" "input" .sell (.fin 2) (.fin 0) (fun _ _ => 0) 0 =
          .ok quote ∧
        mainnetRule.createCalldata quote (feeOfOne .v1) = .ok info ∧
        (CoversSellTokenFees quote (feeOfOne .v1) info.calldata ↔
          (feeOfOne .v1).metaTransactionVersion = some .v1 ∨
            (∀ fee ∈ (feeOfOne .v1).sellTokenAffiliateFees, fee.sellTokenFeeAmount = .fin 0) ∨
            (getSwapContext quote (feeOfOne .v1)).sellAmount.isFinite = false) := by
  obtain ⟨path, hpath, hcheck⟩ := (plainOptimizer .sell 2).exists_path_of_madePath
    SellQuote.halvesRoute
    (fun path =>
      okAnd (createSwapQuote path (.fin 0) "output" "input" .sell (.fin 2) (.fin 0)
        (fun _ _ => 0) 0) fun quote =>
        okAnd (mainnetRule.createCalldata quote (feeOfOne .v1)) fun _ => true)
    (by decide +kernel)
  obtain ⟨quote, hquote, hcheck⟩ := exists_of_okAnd hcheck
  obtain ⟨info, hinfo, _⟩ := exists_of_okAnd hcheck
  exact ⟨path, quote, info, hpath, hquote, hinfo,
    mainnetRule.covers_sellTokenFees_iff (feeOfOne_nonnegative .v1) rfl hinfo⟩

end TransformERC20Rule

end ZeroExApi
