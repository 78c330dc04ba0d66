/-
# ZeroExApi.QuoteConsumerUtils — calldata as values, and what decides between its kinds

`quote_consumers/quote_consumer_utils.ts`, the multiplex encoders and the swap context of
`feature_rules/abstract_feature_rule.ts`.  Calldata is the call it encodes: the function of the
exchange proxy and its arguments, with the data of transformers and sub-calls as values too.

The last section says when orders can be made into transformer data
(`getFQTTransformerData_succeeds_iff`).
-/

import ZeroExApi.QuoteInfo

namespace ZeroExApi.QuoteConsumerUtils

open ZeroExApi.Lib ZeroExApi.Lib.Fallible ZeroExApi.Orders

/-! ## Options -/

/-- `AffiliateFeeType`. -/
inductive AffiliateFeeType where
  | none
  | percentageFee
  | positiveSlippageFee
  | gaslessFee
  deriving DecidableEq

/-- `AffiliateFeeAmount`. -/
structure AffiliateFeeAmount where
  feeType : AffiliateFeeType
  recipient : String
  buyTokenFeeAmount : BigNumber
  sellTokenFeeAmount : BigNumber
  deriving DecidableEq

/-- The versions of a meta-transaction. -/
inductive MetaTransactionVersion where
  | v1
  | v2
  deriving DecidableEq

/-- `ExchangeProxyContractOpts`. -/
structure ExchangeProxyContractOpts where
  isFromETH : Bool := false
  isToETH : Bool := false
  sellTokenAffiliateFees : List AffiliateFeeAmount := []
  buyTokenAffiliateFees : List AffiliateFeeAmount := []
  positiveSlippageFee : Option AffiliateFeeAmount := none
  refundReceiver : String := NULL_ADDRESS
  metaTransactionVersion : Option MetaTransactionVersion := none
  shouldSellEntireBalance : Bool := false
  deriving DecidableEq

/-! ## Transformer data -/

/-- A bridge order of a fill-quote transformation. -/
structure FillQuoteTransformerBridgeOrder where
  bridgeData : BridgeData
  makerTokenAmount : BigNumber
  takerTokenAmount : BigNumber
  source : BridgeProtocol × String
  deriving DecidableEq

/-- A native order of a fill-quote transformation. -/
structure FillQuoteTransformerNativeOrder where
  order : NativeOrderFields
  signature : Signature
  maxTakerTokenFillAmount : BigNumber
  deriving DecidableEq

/-- The orders of `FillQuoteTransformerData`. -/
structure FillQuoteTransformerOrders where
  bridgeOrders : List FillQuoteTransformerBridgeOrder := []
  limitOrders : List FillQuoteTransformerNativeOrder := []
  rfqOrders : List FillQuoteTransformerNativeOrder := []
  otcOrders : List FillQuoteTransformerNativeOrder := []
  fillSequence : List FillQuoteTransformerOrderType := []
  deriving DecidableEq

/-- `FillQuoteTransformerData`. -/
structure FillQuoteTransformerData extends FillQuoteTransformerOrders where
  side : MarketOperation
  sellToken : String
  buyToken : String
  refundReceiver : String
  fillAmount : BigNumber
  deriving DecidableEq

/-- A fee paid in a token. -/
structure TokenFee where
  token : String
  amount : BigNumber
  recipient : String
  deriving DecidableEq

/-- `ERC20Transformation`: the transformer and its data. -/
inductive ERC20Transformation where
  | affiliateFee (fees : List TokenFee)
  | weth (token : String) (amount : BigNumber)
  | fillQuote (data : FillQuoteTransformerData)
  | positiveSlippageFee (token : String) (bestCaseAmount : BigNumber) (recipient : String)
  | payTaker (tokens : List String) (amounts : List BigNumber)
  deriving DecidableEq

/-! ## Calls -/

/-- The sub-calls of the multiplex feature, by `MultiplexSubcall`, with their data. -/
inductive MultiplexData where
  | rfq (order : NativeOrderFields) (signature : Signature)
  | otc (order : NativeOrderFields) (signature : Signature)
  | uniswapV2 (tokens : List String) (isSushi : Bool)
  | uniswapV3 (path : String)
  | transformERC20 (transformations : List ERC20Transformation)
  deriving DecidableEq

/-- A sub-call of a batch. -/
structure MultiplexBatchSubcall where
  data : MultiplexData
  sellAmount : BigNumber
  deriving DecidableEq

/-- A call of the exchange proxy. -/
inductive Calldata where
  | sellToUniswap (tokens : List String) (sellAmount minBuyAmount : BigNumber) (isSushi : Bool)
  | sellEthForTokenToUniswapV3 (path : String) (minBuyAmount : BigNumber) (recipient : String)
  | sellTokenForEthToUniswapV3 (path : String) (sellAmount minBuyAmount : BigNumber)
      (recipient : String)
  | sellTokenForTokenToUniswapV3 (path : String) (sellAmount minBuyAmount : BigNumber)
      (recipient : String)
  | sellToPancakeSwap (tokens : List String) (sellAmount minBuyAmount : BigNumber) (fork : ℕ)
  | sellToLiquidityProvider (sellToken buyToken provider recipient : String)
      (sellAmount minBuyAmount : BigNumber) (pool : CurveInfo) (fromCoinIdx toCoinIdx : ℕ)
  | fillRfqOrder (order : NativeOrderFields) (signature : Signature) (fillAmount : BigNumber)
  | batchFillRfqOrders (orders : List NativeOrderFields) (signatures : List Signature)
      (fillAmounts : List BigNumber) (revertIfIncomplete : Bool)
  | fillOtcOrderWithEth (order : NativeOrderFields) (signature : Signature)
  | fillOtcOrderForEth (order : NativeOrderFields) (signature : Signature) (sellAmount : BigNumber)
  | fillOtcOrder (order : NativeOrderFields) (signature : Signature) (sellAmount : BigNumber)
  | multiplexBatchSellEthForToken (buyToken : String) (subcalls : List MultiplexBatchSubcall)
      (minBuyAmount : BigNumber)
  | multiplexBatchSellTokenForEth (sellToken : String) (subcalls : List MultiplexBatchSubcall)
      (sellAmount minBuyAmount : BigNumber)
  | multiplexBatchSellTokenForToken (sellToken buyToken : String)
      (subcalls : List MultiplexBatchSubcall) (sellAmount minBuyAmount : BigNumber)
  | multiplexMultiHopSellEthForToken (tokens : List String) (subcalls : List MultiplexData)
      (minBuyAmount : BigNumber)
  | multiplexMultiHopSellTokenForEth (tokens : List String) (subcalls : List MultiplexData)
      (sellAmount minBuyAmount : BigNumber)
  | multiplexMultiHopSellTokenForToken (tokens : List String) (subcalls : List MultiplexData)
      (sellAmount minBuyAmount : BigNumber)
  | transformERC20 (inputToken outputToken : String) (inputAmount minOutputAmount : BigNumber)
      (transformations : List ERC20Transformation)
  deriving DecidableEq

/-- `CalldataInfo`. -/
structure CalldataInfo where
  calldata : Calldata
  ethAmount : BigNumber
  toAddress : String
  allowanceTarget : String
  gasOverhead : BigNumber
  deriving DecidableEq

/-! ## Which kind of call -/

/-- `requiresTransformERC20`. -/
def requiresTransformERC20 (opts : ExchangeProxyContractOpts) : Bool :=
  let affiliateFees := opts.sellTokenAffiliateFees ++ opts.buyTokenAffiliateFees
  if opts.metaTransactionVersion.isSome then
    true
  else if affiliateFees.any fun f => f.buyTokenFeeAmount.gt 0 || f.sellTokenFeeAmount.gt 0 then
    true
  else
    opts.shouldSellEntireBalance

/-- `MULTIPLEX_BATCH_FILL_SOURCES`. -/
def MULTIPLEX_BATCH_FILL_SOURCES : List ERC20BridgeSource :=
  [.uniswapV2, .sushiSwap, .native, .uniswapV3]

/-- `isMultiplexBatchFillCompatible`. -/
def isMultiplexBatchFillCompatible (quote : SwapQuote) (opts : ExchangeProxyContractOpts) : Bool :=
  if requiresTransformERC20 opts then
    false
  else if quote.path.hasTwoHop then
    false
  else if (quote.path.getOrders.map OptimizedOrder.type).contains .limit then
    false
  else
    (quote.path.getOrders.map OptimizedOrder.source).all fun source =>
      MULTIPLEX_BATCH_FILL_SOURCES.contains source

/-- `MULTIPLEX_MULTIHOP_FILL_SOURCES`. -/
def MULTIPLEX_MULTIHOP_FILL_SOURCES : List ERC20BridgeSource :=
  [.uniswapV2, .sushiSwap, .uniswapV3]

/-- `isMultiplexMultiHopFillCompatible`. -/
def isMultiplexMultiHopFillCompatible (path : Path) (opts : ExchangeProxyContractOpts) : Bool :=
  if requiresTransformERC20 opts then
    false
  else if path.ordersByType.bridgeOrders.length != 0 || path.ordersByType.nativeOrders.length != 0
    then false
  else
    match path.ordersByType.twoHopOrders with
    | [twoHopOrder] =>
      MULTIPLEX_MULTIHOP_FILL_SOURCES.contains twoHopOrder.firstHopOrder.source &&
        MULTIPLEX_MULTIHOP_FILL_SOURCES.contains twoHopOrder.secondHopOrder.source
    | _ => false

/-- `isDirectSwapCompatible`. -/
def isDirectSwapCompatible (path : Path) (opts : ExchangeProxyContractOpts)
    (directSources : List ERC20BridgeSource) : Bool :=
  if requiresTransformERC20 opts then
    false
  else
    match path.getOrders with
    | [order] => directSources.contains order.source
    | _ => false

/-- `getMaxQuoteSlippageRate`. -/
def getMaxQuoteSlippageRate (quote : SwapQuote) : ℚ := quote.worstCaseQuoteInfo.slippage

/-- `isBuyQuote`. -/
def isBuyQuote (quote : SwapQuote) : Bool := quote.type == .buy

/-! ## When a kind of call is compatible -/

theorem isMultiplexBatchFillCompatible_iff {quote : SwapQuote} {opts : ExchangeProxyContractOpts} :
    isMultiplexBatchFillCompatible quote opts = true ↔
      requiresTransformERC20 opts = false ∧ quote.path.hasTwoHop = false ∧
        ∀ order ∈ quote.path.getOrders,
          order.source ∈ MULTIPLEX_BATCH_FILL_SOURCES ∧ order.type ≠ .limit := by
  have hlimit : (quote.path.getOrders.map OptimizedOrder.type).contains .limit = true ↔
      ∃ order ∈ quote.path.getOrders, order.type = .limit := by
    rw [List.contains_iff_mem, List.mem_map]
  have hall : ((quote.path.getOrders.map OptimizedOrder.source).all fun source =>
      MULTIPLEX_BATCH_FILL_SOURCES.contains source) = true ↔
        ∀ order ∈ quote.path.getOrders, order.source ∈ MULTIPLEX_BATCH_FILL_SOURCES := by
    simp only [List.all_map, List.all_eq_true, Function.comp_apply, List.contains_iff_mem]
  unfold isMultiplexBatchFillCompatible
  cases requiresTransformERC20 opts with
  | true => simp
  | false =>
    cases quote.path.hasTwoHop with
    | true => simp
    | false =>
      rw [if_neg Bool.false_ne_true, if_neg Bool.false_ne_true]
      split
      · rename_i h
        obtain ⟨order, horder, htype⟩ := hlimit.mp h
        refine iff_of_false Bool.false_ne_true ?_
        rintro ⟨_, _, hfits⟩
        exact (hfits order horder).2 htype
      · rename_i h
        rw [hall]
        constructor
        · intro hsources
          refine ⟨rfl, rfl, fun order horder => ⟨hsources order horder, fun htype => ?_⟩⟩
          exact h (hlimit.mpr ⟨order, horder, htype⟩)
        · rintro ⟨_, _, hfits⟩ order horder
          exact (hfits order horder).1

theorem isMultiplexMultiHopFillCompatible_iff {path : Path} {opts : ExchangeProxyContractOpts} :
    isMultiplexMultiHopFillCompatible path opts = true ↔
      requiresTransformERC20 opts = false ∧ path.ordersByType.bridgeOrders = [] ∧
        path.ordersByType.nativeOrders = [] ∧
          ∃ twoHopOrder, path.ordersByType.twoHopOrders = [twoHopOrder] ∧
            twoHopOrder.firstHopOrder.source ∈ MULTIPLEX_MULTIHOP_FILL_SOURCES ∧
              twoHopOrder.secondHopOrder.source ∈ MULTIPLEX_MULTIHOP_FILL_SOURCES := by
  unfold isMultiplexMultiHopFillCompatible
  cases requiresTransformERC20 opts with
  | true => simp
  | false =>
    rw [if_neg Bool.false_ne_true]
    rcases path.ordersByType.bridgeOrders with _ | ⟨bridge, bridges⟩
    · rcases path.ordersByType.nativeOrders with _ | ⟨native, natives⟩
      · rcases path.ordersByType.twoHopOrders with _ | ⟨twoHop, _ | ⟨next, twoHops⟩⟩
        · simp
        · simp
        · simp
      · simp
    · simp

theorem isDirectSwapCompatible_iff {path : Path} {opts : ExchangeProxyContractOpts}
    {directSources : List ERC20BridgeSource} :
    isDirectSwapCompatible path opts directSources = true ↔
      requiresTransformERC20 opts = false ∧
        ∃ order, path.getOrders = [order] ∧ order.source ∈ directSources := by
  unfold isDirectSwapCompatible
  cases requiresTransformERC20 opts with
  | true => simp
  | false =>
    rw [if_neg Bool.false_ne_true]
    rcases path.getOrders with _ | ⟨order, _ | ⟨next, orders⟩⟩
    · simp
    · simp
    · simp

/-! ## Orders as transformer data -/

/-- The native order an order was made of. -/
def nativeFillData (order : OptimizedOrder) : Except JsError NativeOrderWithFillableAmounts :=
  match order.fillData with
  | .native nativeOrder => .ok nativeOrder
  | _ => .error .typeError

/-- A native order for the fill-quote transformer. -/
def toTransformerNativeOrder (order : OptimizedOrder) :
    Except JsError FillQuoteTransformerNativeOrder := do
  let nativeOrder ← nativeFillData order
  .ok ⟨nativeOrder.order, nativeOrder.signature, order.takerAmount⟩

/-- A bridge order for the fill-quote transformer. -/
def toTransformerBridgeOrder (order : OptimizedOrder) :
    Except JsError FillQuoteTransformerBridgeOrder := do
  let bridgeData ← createBridgeDataForBridgeOrder order
  let source ← getErc20BridgeSourceToBridgeSource order.source
  .ok ⟨bridgeData, order.makerAmount, order.takerAmount, source⟩

/-- One turn of the loop of `getFQTTransformerDataFromOptimizedOrders`. -/
def addTransformerOrder (fqtData : FillQuoteTransformerOrders) (order : OptimizedOrder) :
    Except JsError FillQuoteTransformerOrders :=
  let fqtData := { fqtData with fillSequence := fqtData.fillSequence ++ [order.type] }
  match order.type with
  | .bridge =>
    (toTransformerBridgeOrder order).map fun added =>
      { fqtData with bridgeOrders := fqtData.bridgeOrders ++ [added] }
  | .limit =>
    (toTransformerNativeOrder order).map fun added =>
      { fqtData with limitOrders := fqtData.limitOrders ++ [added] }
  | .rfq =>
    (toTransformerNativeOrder order).map fun added =>
      { fqtData with rfqOrders := fqtData.rfqOrders ++ [added] }
  | .otc =>
    (toTransformerNativeOrder order).map fun added =>
      { fqtData with otcOrders := fqtData.otcOrders ++ [added] }

/-- `getFQTTransformerDataFromOptimizedOrders`. -/
def getFQTTransformerDataFromOptimizedOrders (orders : List OptimizedOrder) :
    Except JsError FillQuoteTransformerOrders :=
  orders.foldlM addTransformerOrder {}

/-! ## The swap context -/

/-- `SwapContext`. -/
structure SwapContext where
  sellToken : String
  buyToken : String
  sellAmount : BigNumber
  minBuyAmount : BigNumber
  ethAmount : BigNumber
  maxSlippage : ℚ

/-- `getSwapContext`: the amount to sell is the larger of the two cases. -/
def getSwapContext (quote : SwapQuote) (opts : ExchangeProxyContractOpts) : SwapContext :=
  let sellAmount :=
    quote.bestCaseQuoteInfo.totalTakerAmount.max quote.worstCaseQuoteInfo.totalTakerAmount
  { sellToken := quote.takerToken
    buyToken := quote.makerToken
    sellAmount := sellAmount
    minBuyAmount := quote.worstCaseQuoteInfo.makerAmount
    ethAmount :=
      quote.worstCaseQuoteInfo.protocolFeeInWeiAmount.plus
        (if opts.isFromETH then sellAmount else 0)
    maxSlippage := getMaxQuoteSlippageRate quote }

/-! ## When orders can be made into transformer data -/

/-- An order the fill-quote transformer can be given. -/
def Encodable (order : OptimizedOrder) : Prop :=
  match order.type with
  | .bridge => Succeeds (toTransformerBridgeOrder order)
  | _ => Succeeds (toTransformerNativeOrder order)

theorem addTransformerOrder_succeeds_iff (fqtData : FillQuoteTransformerOrders)
    (order : OptimizedOrder) :
    Succeeds (addTransformerOrder fqtData order) ↔ Encodable order := by
  unfold addTransformerOrder Encodable
  cases order.type with
  | bridge => exact succeeds_map
  | limit => exact succeeds_map
  | rfq => exact succeeds_map
  | otc => exact succeeds_map

/-- Transformer data is made when each order can be encoded. -/
theorem getFQTTransformerData_succeeds_iff (orders : List OptimizedOrder) :
    Succeeds (getFQTTransformerDataFromOptimizedOrders orders) ↔
      ∀ order ∈ orders, Encodable order := by
  -- the loop adds to any data
  suffices h : ∀ fqtData, Succeeds (orders.foldlM addTransformerOrder fqtData) ↔
      ∀ order ∈ orders, Encodable order from h {}
  induction orders with
  | nil =>
    intro fqtData
    exact iff_of_true ⟨fqtData, rfl⟩ fun _ h => absurd h List.not_mem_nil
  | cons order orders ih =>
    intro fqtData
    rw [List.foldlM_cons, succeeds_bind, List.forall_mem_cons,
      ← addTransformerOrder_succeeds_iff fqtData order]
    constructor
    · rintro ⟨next, hnext, hrest⟩
      exact ⟨⟨next, hnext⟩, (ih next).mp hrest⟩
    · rintro ⟨⟨next, hnext⟩, hrest⟩
      exact ⟨next, hnext, (ih next).mpr hrest⟩

theorem bridgeSource_succeeds {source : ERC20BridgeSource} (h : source.isHop = true) :
    Succeeds (getErc20BridgeSourceToBridgeSource source) := by
  cases source <;> first | exact succeeds_ok _ | cases h

/-- A bridge order of a hop source, with fill data of that source, is encoded unless it is an Aave
V3 order of an amount no calldata was computed for. -/
theorem encodable_bridge_iff {order : OptimizedOrder} (htype : order.type = .bridge)
    (hsource : order.source.isHop = true)
    (hshape : order.fillData.shape = orderShape order.source) :
    Encodable order ↔ HoldsAmount order.fillData order.makerAmount order.takerAmount := by
  rw [← encodesBridgeData_iff hsource hshape, Encodable, htype]
  dsimp only
  constructor
  · intro h
    obtain ⟨data, hdata, _⟩ := succeeds_bind.mp h
    exact ⟨data, hdata⟩
  · rintro ⟨data, hdata⟩
    obtain ⟨source, hsource⟩ := bridgeSource_succeeds hsource
    exact succeeds_bind.mpr ⟨data, hdata, succeeds_bind.mpr ⟨source, hsource, succeeds_ok _⟩⟩

/-- A native order is always encoded. -/
theorem encodable_native {order : OptimizedOrder} (htype : order.type ≠ .bridge)
    {nativeOrder : NativeOrderWithFillableAmounts} (hdata : order.fillData = .native nativeOrder) :
    Encodable order := by
  have hsucceeds : Succeeds (toTransformerNativeOrder order) := by
    rw [toTransformerNativeOrder, nativeFillData, hdata]
    exact succeeds_ok _
  unfold Encodable
  split
  · rename_i h
    exact absurd h htype
  · exact hsucceeds

end ZeroExApi.QuoteConsumerUtils
