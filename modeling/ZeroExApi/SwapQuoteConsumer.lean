/-
# ZeroExApi.SwapQuoteConsumer — which call of the exchange proxy a quote becomes

`quote_consumers/exchange_proxy_swap_quote_consumer.ts` with `feature_rules/uniswap_v2_rule.ts`.
The routes are tried in order: the single-order features, the multiplex ones, and last the general
transformERC20.  The consumer reads the fill data of an order as the shape it expects of the order's
source; where it is not of that shape the call cannot be encoded.

The last sections say when a route can be encoded.  The orders of a path made of samples have the
fill data the consumer expects (`getOrders_fit`), a batch becomes one sub-call for each order
(`encodeSubcalls_of_known`), and so the call is a transformERC20 exactly when no test of another
route holds (`avoidsTransformERC20_iff`).
-/

import ZeroExApi.TransformErc20Rule

namespace ZeroExApi

open ZeroExApi.Lib ZeroExApi.Lib.Fallible ZeroExApi.Orders ZeroExApi.QuoteConsumerUtils
open ZeroExApi.RoutedPath

/-! ## Reading fill data -/

/-- `fillData.tokenAddressPath`. -/
def readTokenAddressPath : FillData → Except JsError (List String)
  | .uniswapV2 tokenAddressPath _ => .ok tokenAddressPath
  | .tickDexMultiPath tokenAddressPath _ _ => .ok tokenAddressPath
  | .finalTickDexMultiPath tokenAddressPath _ _ _ => .ok tokenAddressPath
  | .kyberDmm tokenAddressPath _ _ => .ok tokenAddressPath
  | .gmx _ _ _ tokenAddressPath => .ok tokenAddressPath
  | .platypus _ _ tokenAddressPath => .ok tokenAddressPath
  | _ => .error .typeError

/-- `fillData.path` of a Uniswap V3 order. -/
def readPath : FillData → Except JsError String
  | .finalTickDexMultiPath _ _ path _ => .ok path
  | _ => .error .typeError

/-- `fillData` as that of a Curve order: the two indices and the pool. -/
def readCurve : FillData → Except JsError (ℕ × ℕ × CurveInfo)
  | .curve fromTokenIdx toTokenIdx pool => .ok (fromTokenIdx, toTokenIdx, pool)
  | _ => .error .typeError

/-- The first of some orders. -/
def firstOrder : List OptimizedOrder → Except JsError OptimizedOrder
  | order :: _ => .ok order
  | [] => .error .typeError

/-- Token addresses with ETH in place of the ends. -/
def withEthEnds (tokens : List String) (opts : ExchangeProxyContractOpts) : List String :=
  tokens.mapIdx fun i a =>
    if i = 0 ∧ opts.isFromETH then
      ETH_TOKEN_ADDRESS
    else if i = tokens.length - 1 ∧ opts.isToETH then
      ETH_TOKEN_ADDRESS
    else
      a

/-! ## The consumer -/

/-- `ExchangeProxySwapQuoteConsumer`. -/
structure ExchangeProxySwapQuoteConsumer where
  chainId : ChainId
  contractAddresses : ContractAddresses
  getContractAddressesForChainOrThrow : ChainId → ContractAddresses
  encodeFillQuoteTransformerData : FillQuoteTransformerData → Except JsError Unit

/-- `CURVE_LIQUIDITY_PROVIDER_BY_CHAIN_ID`. -/
def CURVE_LIQUIDITY_PROVIDER_BY_CHAIN_ID : ChainId → String
  | .mainnet => "0x561b94454b65614ae3db0897b74303f4acf7cc75"
  | _ => NULL_ADDRESS

/-- `PANCAKE_SWAP_FORKS`. -/
def PANCAKE_SWAP_FORKS : List ERC20BridgeSource :=
  [.pancakeSwap, .pancakeSwapV2, .bakerySwap, .sushiSwap, .apeSwap]

namespace ExchangeProxySwapQuoteConsumer

variable (consumer : ExchangeProxySwapQuoteConsumer)

/-- `NATIVE_FEE_TOKEN_BY_CHAIN_ID` at Mainnet. -/
def mainnetFeeToken : String := (consumer.getContractAddressesForChainOrThrow .mainnet).etherToken

/-- `getTransformErc20Rule`. -/
def transformErc20Rule : TransformERC20Rule :=
  ⟨consumer.chainId, consumer.contractAddresses, consumer.getContractAddressesForChainOrThrow,
    consumer.encodeFillQuoteTransformerData⟩

/-- A call without gas overhead. -/
def callInfo (calldata : Calldata) (ethAmount : BigNumber) : CalldataInfo where
  calldata := calldata
  ethAmount := ethAmount
  toAddress := consumer.contractAddresses.exchangeProxy
  allowanceTarget := consumer.contractAddresses.exchangeProxy
  gasOverhead := ZERO_AMOUNT

/-! ## Single orders -/

/-- `UniswapV2Rule.createCalldata`. -/
def uniswapV2Calldata (context : SwapContext) (opts : ExchangeProxyContractOpts)
    (slippedOrders : List OptimizedOrder) : Except JsError Calldata := do
  let order ← firstOrder slippedOrders
  let tokens ← readTokenAddressPath order.fillData
  .ok
    (.sellToUniswap (withEthEnds tokens opts) context.sellAmount context.minBuyAmount
      (order.source == .sushiSwap))

/-- The Uniswap V3 call. -/
def uniswapV3Calldata (context : SwapContext) (opts : ExchangeProxyContractOpts)
    (slippedOrders : List OptimizedOrder) : Except JsError Calldata := do
  let order ← firstOrder slippedOrders
  let path ← readPath order.fillData
  if opts.isFromETH then
    .ok (.sellEthForTokenToUniswapV3 path context.minBuyAmount NULL_ADDRESS)
  else if opts.isToETH then
    .ok (.sellTokenForEthToUniswapV3 path context.sellAmount context.minBuyAmount NULL_ADDRESS)
  else
    .ok (.sellTokenForTokenToUniswapV3 path context.sellAmount context.minBuyAmount NULL_ADDRESS)

/-- The call of PancakeSwap and its forks. -/
def pancakeSwapCalldata (context : SwapContext) (opts : ExchangeProxyContractOpts)
    (slippedOrders : List OptimizedOrder) : Except JsError Calldata := do
  let order ← firstOrder slippedOrders
  let tokens ← readTokenAddressPath order.fillData
  .ok
    (.sellToPancakeSwap (withEthEnds tokens opts) context.sellAmount context.minBuyAmount
      (PANCAKE_SWAP_FORKS.idxOf order.source))

/-- The Curve call. -/
def curveCalldata (context : SwapContext) (opts : ExchangeProxyContractOpts)
    (slippedOrders : List OptimizedOrder) : Except JsError Calldata := do
  let order ← firstOrder slippedOrders
  let (fromTokenIdx, toTokenIdx, pool) ← readCurve order.fillData
  .ok
    (.sellToLiquidityProvider
      (if opts.isFromETH then ETH_TOKEN_ADDRESS else context.sellToken)
      (if opts.isToETH then ETH_TOKEN_ADDRESS else context.buyToken)
      (CURVE_LIQUIDITY_PROVIDER_BY_CHAIN_ID consumer.chainId) NULL_ADDRESS context.sellAmount
      context.minBuyAmount pool fromTokenIdx toTokenIdx)

/-- What each order is filled with: at most what remains of the amount to sell. -/
def fillAmountPerOrder : List OptimizedOrder → BigNumber → List BigNumber
  | [], _ => []
  | order :: orders, remaining =>
    let fillAmount := order.takerAmount.min remaining
    fillAmount :: fillAmountPerOrder orders (remaining.minus fillAmount)

/-- The call for RFQ orders. -/
def rfqCalldata (context : SwapContext) (slippedOrders : List OptimizedOrder) :
    Except JsError Calldata := do
  let rfqOrdersData ← slippedOrders.mapM nativeFillData
  let fillAmounts := fillAmountPerOrder slippedOrders context.sellAmount
  match rfqOrdersData, fillAmounts with
  | [data], [fillAmount] => .ok (.fillRfqOrder data.order data.signature fillAmount)
  | _, _ =>
    .ok
      (.batchFillRfqOrders (rfqOrdersData.map NativeOrderWithFillableAmounts.order)
        (rfqOrdersData.map NativeOrderWithFillableAmounts.signature) fillAmounts true)

/-- The call for an OTC order. -/
def otcCalldata (context : SwapContext) (opts : ExchangeProxyContractOpts)
    (slippedOrders : List OptimizedOrder) : Except JsError Calldata := do
  let order ← firstOrder slippedOrders
  let data ← nativeFillData order
  if opts.isFromETH then
    .ok (.fillOtcOrderWithEth data.order data.signature)
  else if opts.isToETH then
    .ok (.fillOtcOrderForEth data.order data.signature context.sellAmount)
  else
    .ok (.fillOtcOrder data.order data.signature context.sellAmount)

/-! ## Multiplex batch fill -/

/-- The transformations of the sub-call that sells the rest of the orders. -/
def fallbackTransformations (quote : SwapQuote) (orders : FillQuoteTransformerOrders) :
    List ERC20Transformation :=
  [.fillQuote
    { orders with
      side := .sell
      sellToken := quote.takerToken
      buyToken := quote.makerToken
      refundReceiver := NULL_ADDRESS
      fillAmount := MAX_UINT256 },
    .payTaker [quote.takerToken] []]

/-- The loop over the orders of a batch; an order of another source ends it with a sub-call for all
that are left. -/
def encodeSubcalls (quote : SwapQuote) :
    List OptimizedOrder → Except JsError (List MultiplexBatchSubcall)
  | [] => .ok []
  | order :: orders =>
    match order.source with
    | .native => do
      if order.type ≠ .rfq ∧ order.type ≠ .otc then
        .error (.error "Multiplex batch fill only supported for RFQ native orders and OTC Orders")
      else
        let data ← nativeFillData order
        let subcall : MultiplexData :=
          if order.type ≠ .otc then
            .rfq data.order data.signature
          else
            .otc data.order data.signature
        let subcalls ← encodeSubcalls quote orders
        .ok (⟨subcall, order.takerAmount⟩ :: subcalls)
    | .uniswapV2 | .sushiSwap => do
      let tokens ← readTokenAddressPath order.fillData
      let subcalls ← encodeSubcalls quote orders
      .ok (⟨.uniswapV2 tokens (order.source == .sushiSwap), order.takerAmount⟩ :: subcalls)
    | .uniswapV3 => do
      let path ← readPath order.fillData
      let subcalls ← encodeSubcalls quote orders
      .ok (⟨.uniswapV3 path, order.takerAmount⟩ :: subcalls)
    | _ => do
      let rest ← getFQTTransformerDataFromOptimizedOrders (order :: orders)
      .ok
        [⟨.transformERC20 (fallbackTransformations quote rest),
          BigNumber.sum ((order :: orders).map OptimizedOrder.takerAmount)⟩]

/-- `encodeMultiplexBatchFillCalldata`. -/
def encodeMultiplexBatchFillCalldata [Arithmetic] (quote : SwapQuote)
    (opts : ExchangeProxyContractOpts) : Except JsError Calldata := do
  let slippedOrders ← quote.path.getSlippedOrders (getMaxQuoteSlippageRate quote)
  let subcalls ← encodeSubcalls quote slippedOrders
  let worst := quote.worstCaseQuoteInfo
  if opts.isFromETH then
    .ok (.multiplexBatchSellEthForToken quote.makerToken subcalls worst.makerAmount)
  else if opts.isToETH then
    .ok
      (.multiplexBatchSellTokenForEth quote.takerToken subcalls worst.totalTakerAmount
        worst.makerAmount)
  else
    .ok
      (.multiplexBatchSellTokenForToken quote.takerToken quote.makerToken subcalls
        worst.totalTakerAmount worst.makerAmount)

/-! ## Multiplex multi-hop -/

/-- The sub-call of a hop; the text of the error names the source. -/
def encodeHop (order : OptimizedOrder) : Except JsError MultiplexData :=
  match order.source with
  | .uniswapV2 | .sushiSwap => do
    let tokens ← readTokenAddressPath order.fillData
    .ok (.uniswapV2 tokens (order.source == .sushiSwap))
  | .uniswapV3 => do
    let path ← readPath order.fillData
    .ok (.uniswapV3 path)
  | source => .error (.error s!"Multiplex multi-hop unsupported source: {source.value}")

/-- `encodeMultiplexMultiHopFillCalldata`. -/
def encodeMultiplexMultiHopFillCalldata [Arithmetic] (quote : SwapQuote)
    (opts : ExchangeProxyContractOpts) : Except JsError Calldata := do
  let orders ← quote.path.getSlippedOrdersByType (getMaxQuoteSlippageRate quote)
  if orders.nativeOrders.length ≠ 0 ∨ orders.bridgeOrders.length ≠ 0 then
    .error (.error "non-multihop should not go through multiplexMultihop")
  else
    match orders.twoHopOrders with
    | [twoHopOrder] => do
      let tokens := [quote.takerToken, twoHopOrder.firstHopOrder.makerToken, quote.makerToken]
      let subcalls ← [twoHopOrder.firstHopOrder, twoHopOrder.secondHopOrder].mapM encodeHop
      let worst := quote.worstCaseQuoteInfo
      if opts.isFromETH then
        .ok (.multiplexMultiHopSellEthForToken tokens subcalls worst.makerAmount)
      else if opts.isToETH then
        .ok
          (.multiplexMultiHopSellTokenForEth tokens subcalls worst.totalTakerAmount
            worst.makerAmount)
      else
        .ok
          (.multiplexMultiHopSellTokenForToken tokens subcalls worst.totalTakerAmount
            worst.makerAmount)
    | _ => .error (.error "multiplexMultiHop only supports single multihop order ")

/-! ## Which call -/

/-- `getCalldataOrThrow`. -/
def getCalldataOrThrow [Arithmetic] (quote : SwapQuote) (opts : ExchangeProxyContractOpts) :
    Except JsError CalldataInfo := do
  let context := getSwapContext quote opts
  let protocolFee := quote.worstCaseQuoteInfo.protocolFeeInWeiAmount
  let ethAmount := if opts.isFromETH then protocolFee.plus context.sellAmount else protocolFee
  let soldEth := if opts.isFromETH then context.sellAmount else ZERO_AMOUNT
  let slippedOrders ← quote.path.getSlippedOrders context.maxSlippage
  if consumer.chainId = .mainnet ∧
      isDirectSwapCompatible quote.path opts [.uniswapV2, .sushiSwap] then
    (uniswapV2Calldata context opts slippedOrders).map fun c => consumer.callInfo c soldEth
  else if consumer.chainId = .mainnet ∧ isDirectSwapCompatible quote.path opts [.uniswapV3] then
    (uniswapV3Calldata context opts slippedOrders).map fun c => consumer.callInfo c soldEth
  else if consumer.chainId = .bsc ∧
      isDirectSwapCompatible quote.path opts PANCAKE_SWAP_FORKS then
    (pancakeSwapCalldata context opts slippedOrders).map fun c => consumer.callInfo c soldEth
  else if consumer.chainId = .mainnet ∧ isDirectSwapCompatible quote.path opts [.curve] ∧
      consumer.mainnetFeeToken ∉ [quote.takerToken, quote.makerToken] then
    (consumer.curveCalldata context opts slippedOrders).map fun c => consumer.callInfo c soldEth
  else if consumer.chainId ∈ [ChainId.mainnet, .polygon] ∧ !opts.isToETH ∧ !opts.isFromETH ∧
      (slippedOrders.all fun o => o.type == .rfq) ∧ !requiresTransformERC20 opts then
    (rfqCalldata context slippedOrders).map fun c => consumer.callInfo c ZERO_AMOUNT
  else if consumer.chainId ∈ [ChainId.mainnet, .polygon, .polygonMumbai] ∧
      (slippedOrders.all fun o => o.type == .otc) ∧ !requiresTransformERC20 opts ∧
      slippedOrders.length = 1 then
    (otcCalldata context opts slippedOrders).map fun c => consumer.callInfo c soldEth
  else if consumer.chainId = .mainnet ∧ isMultiplexBatchFillCompatible quote opts then
    (encodeMultiplexBatchFillCalldata quote opts).map fun c => consumer.callInfo c ethAmount
  else if consumer.chainId = .mainnet ∧ isMultiplexMultiHopFillCompatible quote.path opts then
    (encodeMultiplexMultiHopFillCalldata quote opts).map fun c => consumer.callInfo c ethAmount
  else
    consumer.transformErc20Rule.createCalldata quote opts

/-! ## Orders with the fill data that is expected of them -/

/-- An order whose fill data is of the shape that its source is read with. -/
inductive OrderFits (order : OptimizedOrder) : Prop
  | native (nativeOrder : NativeOrderWithFillableAmounts) (source_eq : order.source = .native)
      (type_ne : order.type ≠ .bridge) (fillData_eq : order.fillData = .native nativeOrder)
  | bridge (isHop : order.source.isHop = true) (type_eq : order.type = .bridge)
      (shape_eq : order.fillData.shape = orderShape order.source)

theorem orderFits_of_bridgeOrderOf {fill : Fill} {makerToken takerToken : String}
    {side : MarketOperation} {order : OptimizedOrder} (hhop : fill.source.isHop = true)
    (hshape : fill.fillData.shape = fill.source.sampledShape)
    (h : BridgeOrderOf fill makerToken takerToken side order) : OrderFits order := by
  have hfinal := h.shape_eq hshape
  rw [← h.source_eq] at hhop hfinal
  exact .bridge hhop h.type_eq hfinal

/-- The orders of a path made of samples fit. -/
theorem getOrders_fit {path : Path} (hsampled : ∀ f ∈ path.fills, SampledFill f) :
    ∀ order ∈ path.getOrders, OrderFits order := by
  intro order horder
  simp only [Path.getOrders, List.mem_append, List.mem_flatMap] at horder
  rcases horder with (hnative | hbridge) | ⟨twoHopOrder, htwoHop, horder⟩
  · obtain ⟨fill, _, h⟩ := exists_of_mem_right path.nativeOrders_forall₂ hnative
    have hof := createNativeOptimizedOrder_eq_ok h
    obtain ⟨nativeOrder, hdata⟩ := hof.native
    exact .native nativeOrder hof.source_eq hof.type_ne hdata
  · obtain ⟨fill, hfill, h⟩ := exists_of_mem_right path.bridgeOrders_forall₂ hbridge
    obtain ⟨hmem, hhop⟩ := List.mem_filter.mp hfill
    have hne : fill.source ≠ .native := fun heq => by
      rw [heq] at hhop
      exact absurd hhop (by decide)
    exact orderFits_of_bridgeOrderOf hhop (hsampled fill hmem hne).1 (createBridgeOrder_eq_ok h)
  · obtain ⟨fill, hfill, h⟩ := exists_of_mem_right path.twoHopOrders_forall₂ htwoHop
    obtain ⟨hmem, hsource⟩ := List.mem_filter.mp hfill
    have heq : fill.source = .multiHop := beq_iff_eq.mp hsource
    have hdata := hsampled fill hmem (by rw [heq]; decide)
    rw [heq] at hdata
    obtain ⟨s₁, fd₁, s₂, fd₂, token, hfillData, hfirst, hsecond⟩ :=
      createOrdersFromTwoHopSample_eq_ok h
    rw [hfillData] at hdata
    obtain ⟨_, hhop₁, hshape₁, hhop₂, hshape₂⟩ := hdata
    rcases List.mem_pair.mp horder with rfl | rfl
    · unfold firstHopFill at hfirst
      cases hside : path.context.side <;> rw [hside] at hfirst
      · exact orderFits_of_bridgeOrderOf hhop₁ hshape₁ hfirst
      · exact orderFits_of_bridgeOrderOf hhop₁ hshape₁ hfirst
    · unfold secondHopFill at hsecond
      cases hside : path.context.side <;> rw [hside] at hsecond
      · exact orderFits_of_bridgeOrderOf hhop₂ hshape₂ hsecond
      · exact orderFits_of_bridgeOrderOf hhop₂ hshape₂ hsecond

/-- Slipping keeps what the consumer reads. -/
theorem slipOrder_fits [Arithmetic] {order : OptimizedOrder} (h : OrderFits order) (maxSlippage : ℚ)
    (side : MarketOperation) : OrderFits (Path.createSlipOrderFunction maxSlippage side order) := by
  have hsource := Path.slipOrder_source maxSlippage side order
  have htype := Path.slipOrder_type maxSlippage side order
  have hdata := Path.slipOrder_fillData maxSlippage side order
  cases h with
  | native nativeOrder source_eq type_ne fillData_eq =>
    exact .native nativeOrder (hsource.trans source_eq) (by rw [htype]; exact type_ne)
      (hdata.trans fillData_eq)
  | bridge isHop type_eq shape_eq =>
    exact .bridge (by rw [hsource]; exact isHop) (htype.trans type_eq)
      (by rw [hdata, hsource]; exact shape_eq)

theorem readTokenAddressPath_of_shape {fillData : FillData} (h : fillData.shape = .uniswapV2) :
    ∃ tokens, readTokenAddressPath fillData = .ok tokens := by
  cases fillData <;> first | exact ⟨_, rfl⟩ | cases h

theorem readPath_of_shape {fillData : FillData} (h : fillData.shape = .finalTickDexMultiPath) :
    ∃ path, readPath fillData = .ok path := by
  cases fillData <;> first | exact ⟨_, rfl⟩ | cases h

theorem readCurve_of_shape {fillData : FillData} (h : fillData.shape = .curve) :
    ∃ curve, readCurve fillData = .ok curve := by
  cases fillData <;> first | exact ⟨_, rfl⟩ | cases h

/-- The shape of a bridge order's fill data. -/
theorem OrderFits.shape {order : OptimizedOrder} (h : OrderFits order)
    (hhop : order.source.isHop = true) : order.fillData.shape = orderShape order.source := by
  cases h with
  | native nativeOrder source_eq =>
    rw [source_eq] at hhop
    exact absurd hhop (by decide)
  | bridge _ _ shape_eq => exact shape_eq

/-! ## A batch -/

/-- The data of the sub-call for an order that the batch encoder knows. -/
inductive SubcallOf (order : OptimizedOrder) : MultiplexData → Prop
  | rfq (nativeOrder : NativeOrderWithFillableAmounts) (source_eq : order.source = .native)
      (type_eq : order.type = .rfq) (fillData_eq : order.fillData = .native nativeOrder) :
      SubcallOf order (.rfq nativeOrder.order nativeOrder.signature)
  | otc (nativeOrder : NativeOrderWithFillableAmounts) (source_eq : order.source = .native)
      (type_eq : order.type = .otc) (fillData_eq : order.fillData = .native nativeOrder) :
      SubcallOf order (.otc nativeOrder.order nativeOrder.signature)
  | uniswapV2 (tokens : List String)
      (source_eq : order.source = .uniswapV2 ∨ order.source = .sushiSwap)
      (read_eq : readTokenAddressPath order.fillData = .ok tokens) :
      SubcallOf order (.uniswapV2 tokens (order.source == .sushiSwap))
  | uniswapV3 (path : String) (source_eq : order.source = .uniswapV3)
      (read_eq : readPath order.fillData = .ok path) : SubcallOf order (.uniswapV3 path)

/-- One turn of the loop over the orders of a batch. -/
theorem encodeSubcalls_cons {quote : SwapQuote} {order : OptimizedOrder} {data : MultiplexData}
    (h : SubcallOf order data) (orders : List OptimizedOrder) :
    encodeSubcalls quote (order :: orders) =
      (encodeSubcalls quote orders).map fun subcalls => ⟨data, order.takerAmount⟩ :: subcalls := by
  rw [encodeSubcalls]
  cases h with
  | rfq nativeOrder source_eq type_eq fillData_eq =>
    rw [source_eq]
    dsimp only
    rw [type_eq, nativeFillData, fillData_eq]
    rfl
  | otc nativeOrder source_eq type_eq fillData_eq =>
    rw [source_eq]
    dsimp only
    rw [type_eq, nativeFillData, fillData_eq]
    rfl
  | uniswapV2 tokens source_eq read_eq =>
    rcases source_eq with source_eq | source_eq
    · rw [source_eq]
      dsimp only
      rw [read_eq]
      rfl
    · rw [source_eq]
      dsimp only
      rw [read_eq]
      rfl
  | uniswapV3 path source_eq read_eq =>
    rw [source_eq]
    dsimp only
    rw [read_eq]
    rfl

/-- The batch has one sub-call for each order, in order. -/
theorem encodeSubcalls_of_known (quote : SwapQuote) (orders : List OptimizedOrder)
    (h : ∀ order ∈ orders, ∃ data, SubcallOf order data) :
    ∃ subcalls, encodeSubcalls quote orders = .ok subcalls ∧
      List.Forall₂
        (fun order subcall =>
          SubcallOf order subcall.data ∧ subcall.sellAmount = order.takerAmount)
        orders subcalls := by
  induction orders with
  | nil => exact ⟨[], rfl, .nil⟩
  | cons order orders ih =>
    obtain ⟨data, hdata⟩ := h order List.mem_cons_self
    obtain ⟨subcalls, hsubcalls, hforall⟩ := ih fun o ho => h o (List.mem_cons_of_mem _ ho)
    refine ⟨⟨data, order.takerAmount⟩ :: subcalls, ?_, .cons ⟨hdata, rfl⟩ hforall⟩
    rw [encodeSubcalls_cons hdata, hsubcalls]
    rfl

/-- The batch encoder knows each order that fits and passes the tests for a batch. -/
theorem subcallOf_of_fits {order : OptimizedOrder} (h : OrderFits order)
    (hsource : order.source ∈ MULTIPLEX_BATCH_FILL_SOURCES) (htype : order.type ≠ .limit) :
    ∃ data, SubcallOf order data := by
  cases h with
  | native nativeOrder source_eq type_ne fillData_eq =>
    cases hcase : order.type with
    | bridge => exact absurd hcase type_ne
    | limit => exact absurd hcase htype
    | rfq => exact ⟨_, .rfq nativeOrder source_eq hcase fillData_eq⟩
    | otc => exact ⟨_, .otc nativeOrder source_eq hcase fillData_eq⟩
  | bridge isHop type_eq shape_eq =>
    simp only [MULTIPLEX_BATCH_FILL_SOURCES, List.mem_cons, List.not_mem_nil, or_false] at hsource
    rcases hsource with heq | heq | heq | heq
    · obtain ⟨tokens, htokens⟩ := readTokenAddressPath_of_shape (by rw [shape_eq, heq]; rfl)
      exact ⟨_, .uniswapV2 tokens (.inl heq) htokens⟩
    · obtain ⟨tokens, htokens⟩ := readTokenAddressPath_of_shape (by rw [shape_eq, heq]; rfl)
      exact ⟨_, .uniswapV2 tokens (.inr heq) htokens⟩
    · rw [heq] at isHop
      exact absurd isHop (by decide)
    · obtain ⟨path, hpath⟩ := readPath_of_shape (by rw [shape_eq, heq]; rfl)
      exact ⟨_, .uniswapV3 path heq hpath⟩

/-! ## Whether a call is a transformERC20 -/

/-- A call of the general feature. -/
def isTransformERC20 : Calldata → Bool
  | .transformERC20 .. => true
  | _ => false

/-- A call is encoded, and it is not a transformERC20. -/
def EncodesOther (x : Except JsError Calldata) : Prop :=
  ∃ calldata, x = .ok calldata ∧ isTransformERC20 calldata = false

/-- The result of the consumer is a call that is not a transformERC20. -/
def AvoidsTransformERC20 (x : Except JsError CalldataInfo) : Prop :=
  ∃ info, x = .ok info ∧ isTransformERC20 info.calldata = false

theorem avoids_of_encodesOther {x : Except JsError Calldata} (h : EncodesOther x)
    (ethAmount : BigNumber) :
    AvoidsTransformERC20 (x.map fun c => consumer.callInfo c ethAmount) := by
  obtain ⟨calldata, rfl, hother⟩ := h
  exact ⟨_, rfl, hother⟩

theorem encodesOther_bind {α : Type} {x : Except JsError α} {a : α}
    {f : α → Except JsError Calldata} (hx : x = .ok a) (hf : EncodesOther (f a)) :
    EncodesOther (x >>= f) := by
  obtain ⟨calldata, hcalldata, hother⟩ := hf
  exact ⟨calldata, bind_eq_ok.mpr ⟨a, hx, hcalldata⟩, hother⟩

/-- Of three calls that depend on the native token's side, each is one of its own feature. -/
theorem encodesOther_bySide {fromEth toEth : Bool} {c₁ c₂ c₃ : Calldata}
    (h₁ : isTransformERC20 c₁ = false) (h₂ : isTransformERC20 c₂ = false)
    (h₃ : isTransformERC20 c₃ = false) :
    EncodesOther (if fromEth then .ok c₁ else if toEth then .ok c₂ else .ok c₃) := by
  cases fromEth with
  | true => exact ⟨c₁, rfl, h₁⟩
  | false =>
    cases toEth with
    | true => exact ⟨c₂, rfl, h₂⟩
    | false => exact ⟨c₃, rfl, h₃⟩

section Routes

variable {context : SwapContext} {opts : ExchangeProxyContractOpts}
  {order : OptimizedOrder} {orders : List OptimizedOrder}

theorem uniswapV2Calldata_encodes (hfits : OrderFits order)
    (hsource : order.source = .uniswapV2 ∨ order.source = .sushiSwap) :
    EncodesOther (uniswapV2Calldata context opts (order :: orders)) := by
  have hshape : order.fillData.shape = .uniswapV2 := by
    rcases hsource with heq | heq
    · rw [hfits.shape (by rw [heq]; rfl), heq]
      rfl
    · rw [hfits.shape (by rw [heq]; rfl), heq]
      rfl
  obtain ⟨tokens, htokens⟩ := readTokenAddressPath_of_shape hshape
  exact encodesOther_bind rfl (encodesOther_bind htokens ⟨_, rfl, rfl⟩)

theorem uniswapV3Calldata_encodes (hfits : OrderFits order) (hsource : order.source = .uniswapV3) :
    EncodesOther (uniswapV3Calldata context opts (order :: orders)) := by
  obtain ⟨path, hpath⟩ := readPath_of_shape
    (by rw [hfits.shape (by rw [hsource]; rfl), hsource]; rfl)
  exact encodesOther_bind rfl (encodesOther_bind hpath (encodesOther_bySide rfl rfl rfl))

theorem curveCalldata_encodes (hfits : OrderFits order) (hsource : order.source = .curve) :
    EncodesOther (consumer.curveCalldata context opts (order :: orders)) := by
  obtain ⟨curve, hcurve⟩ := readCurve_of_shape
    (by rw [hfits.shape (by rw [hsource]; rfl), hsource]; rfl)
  exact encodesOther_bind rfl (encodesOther_bind hcurve ⟨_, rfl, rfl⟩)

/-- An order that fits and is no bridge order is a native one. -/
theorem nativeFillData_of_fits (hfits : OrderFits order) (htype : order.type ≠ .bridge) :
    ∃ nativeOrder, nativeFillData order = .ok nativeOrder := by
  cases hfits with
  | native nativeOrder _ _ fillData_eq =>
    exact ⟨nativeOrder, by rw [nativeFillData, fillData_eq]⟩
  | bridge _ type_eq => exact absurd type_eq htype

theorem rfqCalldata_encodes (hfits : ∀ o ∈ orders, OrderFits o)
    (htype : ∀ o ∈ orders, o.type = .rfq) : EncodesOther (rfqCalldata context orders) := by
  have hread : Succeeds (orders.mapM nativeFillData) := mapM_succeeds_iff.mpr fun o ho =>
    nativeFillData_of_fits (hfits o ho) (by rw [htype o ho]; decide)
  obtain ⟨data, hdata⟩ := hread
  apply encodesOther_bind hdata
  dsimp only
  split
  · exact ⟨_, rfl, rfl⟩
  · exact ⟨_, rfl, rfl⟩

theorem otcCalldata_encodes (hfits : OrderFits order) (htype : order.type = .otc) :
    EncodesOther (otcCalldata context opts (order :: orders)) := by
  obtain ⟨data, hdata⟩ := nativeFillData_of_fits hfits (by rw [htype]; decide)
  exact encodesOther_bind rfl (encodesOther_bind hdata (encodesOther_bySide rfl rfl rfl))

end Routes

section Multiplex

variable {quote : SwapQuote} {opts : ExchangeProxyContractOpts}

/-- A hop of a multiplex source is encoded. -/
theorem encodeHop_of_fits {order : OptimizedOrder} (hfits : OrderFits order)
    (hsource : order.source ∈ MULTIPLEX_MULTIHOP_FILL_SOURCES) :
    Succeeds (encodeHop order) := by
  have hhop : order.source.isHop = true := by
    revert hsource
    cases order.source <;> decide
  have hshape := hfits.shape hhop
  simp only [MULTIPLEX_MULTIHOP_FILL_SOURCES, List.mem_cons, List.not_mem_nil, or_false] at hsource
  unfold encodeHop
  rcases hsource with heq | heq | heq
  · obtain ⟨tokens, htokens⟩ := readTokenAddressPath_of_shape (by rw [hshape, heq]; rfl)
    rw [heq]
    exact succeeds_bind.mpr ⟨tokens, htokens, succeeds_ok _⟩
  · obtain ⟨tokens, htokens⟩ := readTokenAddressPath_of_shape (by rw [hshape, heq]; rfl)
    rw [heq]
    exact succeeds_bind.mpr ⟨tokens, htokens, succeeds_ok _⟩
  · obtain ⟨path, hpath⟩ := readPath_of_shape (by rw [hshape, heq]; rfl)
    rw [heq]
    exact succeeds_bind.mpr ⟨path, hpath, succeeds_ok _⟩

/-- A batch is encoded for every quote that is compatible with one. -/
theorem batchCalldata_encodes (hfits : ∀ o ∈ quote.path.getOrders, OrderFits o)
    (h₀ : 0 ≤ getMaxQuoteSlippageRate quote) (h₁ : getMaxQuoteSlippageRate quote ≤ 1)
    (h : isMultiplexBatchFillCompatible quote opts = true) :
    EncodesOther (encodeMultiplexBatchFillCalldata quote opts) := by
  obtain ⟨_, _, hknown⟩ := isMultiplexBatchFillCompatible_iff.mp h
  obtain ⟨subcalls, hsubcalls, _⟩ := encodeSubcalls_of_known quote
    (quote.path.getOrders.map
      (Path.createSlipOrderFunction (getMaxQuoteSlippageRate quote) quote.path.context.side))
    (by
      intro order horder
      obtain ⟨o, ho, rfl⟩ := List.mem_map.mp horder
      obtain ⟨hsource, htype⟩ := hknown o ho
      exact subcallOf_of_fits (slipOrder_fits (hfits o ho) _ _)
        (by rw [Path.slipOrder_source]; exact hsource) (by rw [Path.slipOrder_type]; exact htype))
  exact encodesOther_bind (quote.path.getSlippedOrders_of_mem h₀ h₁)
    (encodesOther_bind hsubcalls (encodesOther_bySide rfl rfl rfl))

/-- A multi-hop is encoded for every path that is compatible with one. -/
theorem multiHopCalldata_encodes (hfits : ∀ o ∈ quote.path.getOrders, OrderFits o)
    (h₀ : 0 ≤ getMaxQuoteSlippageRate quote) (h₁ : getMaxQuoteSlippageRate quote ≤ 1)
    (h : isMultiplexMultiHopFillCompatible quote.path opts = true) :
    EncodesOther (encodeMultiplexMultiHopFillCalldata quote opts) := by
  obtain ⟨_, hbridge, hnative, twoHopOrder, htwoHop, hfirst, hsecond⟩ :=
    isMultiplexMultiHopFillCompatible_iff.mp h
  have hmem : ∀ o ∈ [twoHopOrder.firstHopOrder, twoHopOrder.secondHopOrder], OrderFits o := by
    intro o ho
    apply hfits
    rw [Path.getOrders, htwoHop]
    exact List.mem_append_right _ (List.mem_flatMap.mpr
      ⟨twoHopOrder, List.mem_singleton_self _, ho⟩)
  have hhops : Succeeds
      ([Path.createSlipOrderFunction (getMaxQuoteSlippageRate quote) quote.path.context.side
            twoHopOrder.firstHopOrder,
          Path.createSlipOrderFunction (getMaxQuoteSlippageRate quote) quote.path.context.side
            twoHopOrder.secondHopOrder].mapM encodeHop) := by
    rw [mapM_succeeds_iff, List.forall_mem_cons, List.forall_mem_singleton]
    refine ⟨encodeHop_of_fits (slipOrder_fits (hmem _ (by simp)) _ _) ?_,
      encodeHop_of_fits (slipOrder_fits (hmem _ (by simp)) _ _) ?_⟩
    · rw [Path.slipOrder_source]
      exact hfirst
    · rw [Path.slipOrder_source]
      exact hsecond
  obtain ⟨subcalls, hsubcalls⟩ := hhops
  apply encodesOther_bind (quote.path.getSlippedOrdersByType_of_mem h₀ h₁)
  dsimp only
  rw [hbridge, hnative, htwoHop]
  exact encodesOther_bind hsubcalls (encodesOther_bySide rfl rfl rfl)

/-- The tests of the routes that are not transformERC20, on Mainnet, for options that force no
special handling. -/
inductive OtherRoute (quote : SwapQuote) (opts : ExchangeProxyContractOpts) : Prop
  | uniswapV2 (order : OptimizedOrder) (orders_eq : quote.path.getOrders = [order])
      (source_eq : order.source = .uniswapV2 ∨ order.source = .sushiSwap)
  | uniswapV3 (order : OptimizedOrder) (orders_eq : quote.path.getOrders = [order])
      (source_eq : order.source = .uniswapV3)
  | curve (order : OptimizedOrder) (orders_eq : quote.path.getOrders = [order])
      (source_eq : order.source = .curve)
      (tokens_ne : consumer.mainnetFeeToken ∉ [quote.takerToken, quote.makerToken])
  | rfq (toEth_eq : opts.isToETH = false) (fromEth_eq : opts.isFromETH = false)
      (types_eq : ∀ order ∈ quote.path.getOrders, order.type = .rfq)
  | otc (order : OptimizedOrder) (orders_eq : quote.path.getOrders = [order])
      (type_eq : order.type = .otc)
  | batch (compatible : isMultiplexBatchFillCompatible quote opts = true)
  | multiHop (compatible : isMultiplexMultiHopFillCompatible quote.path opts = true)

end Multiplex

/-- A slipped list is of one order when the list is. -/
theorem slipped_eq_singleton {orders : List OptimizedOrder} {order : OptimizedOrder}
    (h : orders = [order]) (maxSlippage : ℚ) (side : MarketOperation) :
    orders.map (Path.createSlipOrderFunction maxSlippage side) =
      [Path.createSlipOrderFunction maxSlippage side order] := by
  rw [h]
  rfl

theorem slipped_all_type_iff {orders : List OptimizedOrder} {maxSlippage : ℚ}
    {side : MarketOperation} {type : FillQuoteTransformerOrderType} :
    ((orders.map (Path.createSlipOrderFunction maxSlippage side)).all fun o => o.type == type) =
        true ↔ ∀ o ∈ orders, o.type = type := by
  simp only [List.all_map, List.all_eq_true, Function.comp_apply, Path.slipOrder_type, beq_iff_eq]

/-- On Mainnet, for options that force no special handling and orders that fit, the call is not a
transformERC20 exactly when the test of another route holds. -/
theorem avoidsTransformERC20_iff {quote : SwapQuote} {opts : ExchangeProxyContractOpts}
    (hchain : consumer.chainId = .mainnet) (hopts : requiresTransformERC20 opts = false)
    (hfits : ∀ o ∈ quote.path.getOrders, OrderFits o)
    (h₀ : 0 ≤ getMaxQuoteSlippageRate quote) (h₁ : getMaxQuoteSlippageRate quote ≤ 1) :
    AvoidsTransformERC20 (consumer.getCalldataOrThrow quote opts) ↔
      consumer.OtherRoute quote opts := by
  have hslipped := quote.path.getSlippedOrders_of_mem h₀ h₁
  have hslippedFits : ∀ o ∈ quote.path.getOrders.map
      (Path.createSlipOrderFunction (getMaxQuoteSlippageRate quote) quote.path.context.side),
      OrderFits o := by
    intro o ho
    obtain ⟨order, horder, rfl⟩ := List.mem_map.mp ho
    exact slipOrder_fits (hfits order horder) _ _
  have hbsc : ¬ consumer.chainId = .bsc := by
    rw [hchain]
    decide
  unfold getCalldataOrThrow
  dsimp only
  rw [show (getSwapContext quote opts).maxSlippage = getMaxQuoteSlippageRate quote from rfl,
    hslipped, ok_bind]
  -- the tests in their order; each has an encoder that answers
  by_cases hv2 : consumer.chainId = .mainnet ∧
      isDirectSwapCompatible quote.path opts [.uniswapV2, .sushiSwap] = true
  · rw [if_pos hv2]
    obtain ⟨_, order, horders, hsource⟩ := isDirectSwapCompatible_iff.mp hv2.2
    have hsource := List.mem_pair.mp hsource
    rw [slipped_eq_singleton horders] at hslippedFits ⊢
    refine iff_of_true (consumer.avoids_of_encodesOther ?_ _) (.uniswapV2 order horders hsource)
    exact uniswapV2Calldata_encodes (hslippedFits _ (List.mem_singleton_self _))
      (by rw [Path.slipOrder_source]; exact hsource)
  rw [if_neg hv2]
  by_cases hv3 : consumer.chainId = .mainnet ∧
      isDirectSwapCompatible quote.path opts [.uniswapV3] = true
  · rw [if_pos hv3]
    obtain ⟨_, order, horders, hsource⟩ := isDirectSwapCompatible_iff.mp hv3.2
    have hsource := List.mem_singleton.mp hsource
    rw [slipped_eq_singleton horders] at hslippedFits ⊢
    refine iff_of_true (consumer.avoids_of_encodesOther ?_ _) (.uniswapV3 order horders hsource)
    exact uniswapV3Calldata_encodes (hslippedFits _ (List.mem_singleton_self _))
      (by rw [Path.slipOrder_source]; exact hsource)
  rw [if_neg hv3, if_neg fun h => hbsc h.1]
  by_cases hcurve : consumer.chainId = .mainnet ∧
      isDirectSwapCompatible quote.path opts [.curve] = true ∧
        consumer.mainnetFeeToken ∉ [quote.takerToken, quote.makerToken]
  · rw [if_pos hcurve]
    obtain ⟨_, order, horders, hsource⟩ := isDirectSwapCompatible_iff.mp hcurve.2.1
    have hsource := List.mem_singleton.mp hsource
    rw [slipped_eq_singleton horders] at hslippedFits ⊢
    refine iff_of_true (consumer.avoids_of_encodesOther ?_ _)
      (.curve order horders hsource hcurve.2.2)
    exact consumer.curveCalldata_encodes (hslippedFits _ (List.mem_singleton_self _))
      (by rw [Path.slipOrder_source]; exact hsource)
  rw [if_neg hcurve]
  simp only [slipped_all_type_iff, List.length_map, hopts, Bool.not_false, and_true,
    true_and]
  by_cases hrfq : consumer.chainId ∈ [ChainId.mainnet, .polygon] ∧ (!opts.isToETH) = true ∧
      (!opts.isFromETH) = true ∧ ∀ o ∈ quote.path.getOrders, o.type = .rfq
  · rw [if_pos hrfq]
    obtain ⟨_, htoEth, hfromEth, htypes⟩ := hrfq
    refine iff_of_true (consumer.avoids_of_encodesOther (rfqCalldata_encodes hslippedFits ?_) _)
      (.rfq (by simpa using htoEth) (by simpa using hfromEth) htypes)
    intro o ho
    obtain ⟨order, horder, rfl⟩ := List.mem_map.mp ho
    rw [Path.slipOrder_type]
    exact htypes order horder
  rw [if_neg hrfq]
  by_cases hotc : consumer.chainId ∈ [ChainId.mainnet, .polygon, .polygonMumbai] ∧
      (∀ o ∈ quote.path.getOrders, o.type = .otc) ∧ quote.path.getOrders.length = 1
  · rw [if_pos hotc]
    obtain ⟨_, htypes, hlength⟩ := hotc
    obtain ⟨order, horders⟩ := List.length_eq_one_iff.mp hlength
    have htype : order.type = .otc := htypes order
      (by rw [horders]; exact List.mem_singleton_self _)
    rw [slipped_eq_singleton horders] at hslippedFits ⊢
    refine iff_of_true (consumer.avoids_of_encodesOther ?_ _) (.otc order horders htype)
    exact otcCalldata_encodes (hslippedFits _ (List.mem_singleton_self _))
      (by rw [Path.slipOrder_type]; exact htype)
  rw [if_neg hotc]
  by_cases hbatch : consumer.chainId = .mainnet ∧
      isMultiplexBatchFillCompatible quote opts = true
  · rw [if_pos hbatch]
    exact iff_of_true
      (consumer.avoids_of_encodesOther (batchCalldata_encodes hfits h₀ h₁ hbatch.2) _)
      (.batch hbatch.2)
  rw [if_neg hbatch]
  by_cases hmultiHop : consumer.chainId = .mainnet ∧
      isMultiplexMultiHopFillCompatible quote.path opts = true
  · rw [if_pos hmultiHop]
    exact iff_of_true
      (consumer.avoids_of_encodesOther (multiHopCalldata_encodes hfits h₀ h₁ hmultiHop.2) _)
      (.multiHop hmultiHop.2)
  rw [if_neg hmultiHop]
  -- none of the tests holds, and what is left is the transformERC20
  refine iff_of_false ?_ ?_
  · rintro ⟨info, hinfo, hother⟩
    obtain ⟨_, _, _, _, hcalldata⟩ := consumer.transformErc20Rule.createCalldata_eq_ok hinfo
    rw [hcalldata] at hother
    cases hother
  · intro hroute
    cases hroute with
    | uniswapV2 order orders_eq source_eq =>
      exact hv2 ⟨hchain, isDirectSwapCompatible_iff.mpr
        ⟨hopts, order, orders_eq, List.mem_pair.mpr source_eq⟩⟩
    | uniswapV3 order orders_eq source_eq =>
      exact hv3 ⟨hchain, isDirectSwapCompatible_iff.mpr
        ⟨hopts, order, orders_eq, List.mem_singleton.mpr source_eq⟩⟩
    | curve order orders_eq source_eq tokens_ne =>
      exact hcurve ⟨hchain, isDirectSwapCompatible_iff.mpr
        ⟨hopts, order, orders_eq, List.mem_singleton.mpr source_eq⟩, tokens_ne⟩
    | rfq toEth_eq fromEth_eq types_eq =>
      exact hrfq ⟨by rw [hchain]; decide, by rw [toEth_eq]; rfl, by rw [fromEth_eq]; rfl, types_eq⟩
    | otc order orders_eq type_eq =>
      refine hotc ⟨by rw [hchain]; decide, fun o ho => ?_, by rw [orders_eq]; rfl⟩
      rw [orders_eq] at ho
      rw [List.mem_singleton.mp ho]
      exact type_eq
    | batch compatible => exact hbatch ⟨hchain, compatible⟩
    | multiHop compatible => exact hmultiHop ⟨hchain, compatible⟩

end ExchangeProxySwapQuoteConsumer

end ZeroExApi
