/-
# ZeroExApi.MarketOperationUtils — the liquidity of a market, and routing over it in two phases

`market_operation_utils/index.ts`.  One call of the sampler asks for everything a market offers:
what is left of the limit orders, the quotes of exchanges, the quotes through an intermediate token,
and the prices of both tokens in ether.  Phase one routes over that alone, without adjusting fills,
and so finds the price that makers are to beat.  Where makers answer, phase two routes once more,
over their orders and over the exchanges that phase one used.

A maker's first version of a quote counts as much as the validator says is fillable of it, a second
version as much as it says itself, an indicative price as much as it names.  Phase one may find no
path at all, phase two may not.
-/

import ZeroExApi.ComparisonPrice
import ZeroExApi.FirmQuoteValidator
import ZeroExApi.PathComparison
import ZeroExApi.SampleAmounts
import ZeroExApi.SamplerOperations

namespace ZeroExApi.Routing

open ZeroExApi.Lib ZeroExApi.Lib.BigNumber
open ZeroExApi.ComparisonPrice (getComparisonPrices)
open ZeroExApi.FirmQuoteValidator (RfqOrderFields)
open ZeroExApi.NativeOrders ZeroExApi.SampleAmounts ZeroExApi.SamplerBatch ZeroExApi.Sampling

/-! ## What makers answer -/

/-- `AltOffering`. -/
structure AltOffering where
  id : String
  baseAsset : String
  quoteAsset : String
  baseAssetDecimals : ℕ
  quoteAssetDecimals : ℕ

/-- `getAltMarketInfo`: the first offering of a pair, either way round. -/
def getAltMarketInfo (offerings : List AltOffering) (buyTokenAddress sellTokenAddress : String) :
    Option AltOffering :=
  offerings.find? fun offering =>
    (buyTokenAddress.toLower == offering.baseAsset.toLower &&
        sellTokenAddress.toLower == offering.quoteAsset.toLower) ||
      (sellTokenAddress.toLower == offering.baseAsset.toLower &&
        buyTokenAddress.toLower == offering.quoteAsset.toLower)

/-- `AltRfqMakerAssetOfferings`: the offerings of each endpoint. -/
abbrev AltRfqMakerAssetOfferings := List (String × List AltOffering)

/-- `V4RFQIndicativeQuote`, what an order is made of. -/
structure V4RFQIndicativeQuote where
  makerToken : String
  makerAmount : BigNumber
  takerToken : String
  takerAmount : BigNumber

/-- `RfqClientV1Quote`. -/
structure RfqClientV1Quote where
  order : NativeOrderFields
  signature : Signature

/-- `RfqtV2Quote`. -/
structure RfqtV2Quote where
  order : NativeOrderFields
  signature : Signature
  fillableMakerAmount : BigNumber
  fillableTakerAmount : BigNumber
  fillableTakerFeeAmount : BigNumber

/-- `RfqtV2Request`. -/
structure RfqtV2Request where
  assetFillAmount : BigNumber
  chainId : ChainId
  integratorId : String
  intentOnFilling : Bool
  makerToken : String
  marketOperation : MarketOperation
  takerAddress : String
  takerToken : String
  txOrigin : String

/-- `RfqClientV1PriceRequest`, and `RfqClientV1QuoteRequest`, which is the same. -/
structure RfqClientV1PriceRequest extends RfqtV2Request where
  altRfqAssetOfferings : AltRfqMakerAssetOfferings
  comparisonPrice : Option BigNumber

/-- `RfqClient`. -/
structure RfqClient where
  getV1Prices : RfqClientV1PriceRequest → Except JsError (List V4RFQIndicativeQuote)
  getV2Prices : RfqtV2Request → Except JsError (List V4RFQIndicativeQuote)
  getV1Quotes : RfqClientV1PriceRequest → Except JsError (List RfqClientV1Quote)
  getV2Quotes : RfqtV2Request → Except JsError (List RfqtV2Quote)

/-- `RfqFirmQuoteValidator`. -/
abbrev RfqFirmQuoteValidator := List RfqOrderFields → Except JsError (List BigNumber)

/-- `RfqRequestOpts` of `GetMarketOrdersOpts`; of the quote requestor it matters that there is
one. -/
structure RfqRequestOpts where
  takerAddress : String
  txOrigin : String
  integratorId : String
  intentOnFilling : Bool
  isIndicative : Bool
  nativeExclusivelyRFQ : Bool
  altRfqAssetOfferings : AltRfqMakerAssetOfferings
  quoteRequestor : Bool
  rfqClient : Option RfqClient
  firmQuoteValidator : Option RfqFirmQuoteValidator

/-! ## Requests and results -/

/-- `GetMarketOrdersOpts`; `nativeOrderFeeEstimate` is the row of `feeSchedule` for native orders,
which is also called with a type alone. -/
structure GetMarketOrdersOpts where
  excludedSources : List ERC20BridgeSource
  includedSources : List ERC20BridgeSource
  numSamples : ℕ
  sampleDistributionBase : BigNumber
  feeSchedule : FeeSchedule
  nativeOrderFeeEstimate : FillQuoteTransformerOrderType → Option FeeEstimate
  exchangeProxyOverhead : ExchangeProxyOverhead
  neonRouterNumSamples : ℕ
  fillAdjustor : FillAdjustor
  rfqt : Option RfqRequestOpts

/-- `GenerateOptimizedOrdersOpts`. -/
structure GenerateOptimizedOrdersOpts where
  feeSchedule : FeeSchedule
  exchangeProxyOverhead : ExchangeProxyOverhead
  neonRouterNumSamples : ℕ
  fillAdjustor : FillAdjustor

/-- The `quotes` of a `MarketSideLiquidity`. -/
structure RawQuotes where
  nativeOrders : List NativeOrderWithFillableAmounts
  rfqtIndicativeQuotes : List V4RFQIndicativeQuote
  twoHopQuotes : List (List TwoHopQuote)
  dexQuotes : List SourceSamples

/-- `MarketSideLiquidity`. -/
structure MarketSideLiquidity extends ComparisonPrice.MarketSideLiquidity where
  inputAmount : BigNumber
  inputToken : String
  outputToken : String
  quoteSourceFilters : SourceFilters
  quotes : RawQuotes
  isRfqSupported : Bool
  blockNumber : BigNumber
  samplerGasUsage : BigNumber

/-- `OptimizerResult`. -/
structure OptimizerResult where
  path : Path
  marketSideLiquidity : MarketSideLiquidity
  takerAmountPerEth : BigNumber
  makerAmountPerEth : BigNumber

/-- `AggregationError.NoOptimalPath`. -/
def NO_OPTIMAL_PATH : String := "NO_OPTIMAL_PATH"

def EMPTY_BYTES32 : String := "0x0000000000000000000000000000000000000000000000000000000000000000"

/-- `INVALID_SIGNATURE`; `SignatureType.Invalid` is one. -/
def INVALID_SIGNATURE : Signature where
  signatureType := 1
  r := EMPTY_BYTES32
  s := EMPTY_BYTES32
  v := 1

/-- An indicative quote as an RFQ order, which names no maker and has no valid signature. -/
def indicativeOrder (quote : V4RFQIndicativeQuote) : NativeOrderWithFillableAmounts where
  order :=
    { maker := NULL_ADDRESS
      makerToken := quote.makerToken
      takerToken := quote.takerToken
      makerAmount := quote.makerAmount
      takerAmount := quote.takerAmount
      takerTokenFeeAmount := ZERO_AMOUNT }
  type := .rfq
  signature := INVALID_SIGNATURE
  fillableMakerAmount := quote.makerAmount
  fillableTakerAmount := quote.takerAmount
  fillableTakerFeeAmount := ZERO_AMOUNT

/-- `toSignedNativeOrder`. -/
def toSignedNativeOrder (quote : RfqClientV1Quote) : SignedNativeOrder where
  order := quote.order
  type := .rfq
  signature := quote.signature

/-- `toSignedNativeOrderWithFillableAmounts`. -/
def toSignedNativeOrderWithFillableAmounts (quote : RfqtV2Quote) :
    NativeOrderWithFillableAmounts where
  order := quote.order
  type := .otc
  signature := quote.signature
  fillableMakerAmount := quote.fillableMakerAmount
  fillableTakerAmount := quote.fillableTakerAmount
  fillableTakerFeeAmount := quote.fillableTakerFeeAmount

/-- What the validator is asked about an order. -/
def toRfqOrderFields (order : SignedNativeOrder) : RfqOrderFields where
  maker := order.order.maker
  makerToken := order.order.makerToken
  makerAmount := order.order.makerAmount
  takerAmount := order.order.takerAmount

/-- A first version of a firm quote, of which an amount is fillable. -/
def withFillableAmount (order : SignedNativeOrder) (fillableTakerAmount : BigNumber) :
    NativeOrderWithFillableAmounts where
  order := order.order
  type := order.type
  signature := order.signature
  fillableMakerAmount := getNativeAdjustedMakerFillAmount order.order fillableTakerAmount
  fillableTakerAmount := fillableTakerAmount
  fillableTakerFeeAmount := ZERO_AMOUNT

/-- `order` with `amounts[i]` for each order: reading an amount that is not there throws. -/
def withAmounts {Order : Type} (adjust : Order → BigNumber → NativeOrderWithFillableAmounts) :
    List Order → List BigNumber → Except JsError (List NativeOrderWithFillableAmounts)
  | [], _ => .ok []
  | _ :: _, [] => .error .typeError
  | order :: orders, amount :: amounts => do
    let adjusted ← withAmounts adjust orders amounts
    .ok (adjust order amount :: adjusted)

/-! ## The sampler's call -/

/-- The result of any of the operations that are called together. -/
inductive SamplerResult where
  | amount (value : BigNumber)
  | amounts (values : List BigNumber)
  | samples (values : List SourceSamples)
  | twoHopSamples (values : List (List TwoHopQuote))
  | isContract (value : Bool)

/-- An operation with its result among those of others. -/
def asResult {T : Type} (result : T → SamplerResult) (op : BatchedOperation T) :
    BatchedOperation SamplerResult where
  encodeCall := op.encodeCall
  handleCallResults := fun callResults => do
    let value ← op.handleCallResults callResults
    .ok (result value)
  handleRevert := fun callResults => do
    let value ← op.handleRevert callResults
    .ok (result value)

/-- What the sampler answers for a market. -/
structure SampledMarket where
  blockNumber : BigNumber
  gasLimit : BigNumber
  tokenDecimals : List BigNumber
  orderFillableAmounts : List BigNumber
  ethToMakerAssetRate : BigNumber
  ethToTakerAssetRate : BigNumber
  dexQuotes : List SourceSamples
  rawTwoHopQuotes : List (List TwoHopQuote)
  isTxOriginContract : Bool
  gasLeft : BigNumber

/-- `MarketOperationUtils`, with what it is of its chain, its sampler and how that reaches the
contract, and the router. -/
structure MarketOperationUtils where
  chainId : ChainId
  sampler : SamplerOperations
  callAsync : List Bytes → Except JsError (List SamplerCallResult)
  feeSources : List ERC20BridgeSource
  nativeFeeToken : String
  nativeFeeTokenAmount : BigNumber
  router : NeonRouter

namespace MarketOperationUtils

variable [Arithmetic] (u : MarketOperationUtils)

/-- `quoteSourceFilters`: the sources of the chain, merged with the filters of the request. -/
def quoteSourceFilters (side : MarketOperation) (opts : GetMarketOrdersOpts) : SourceFilters :=
  SourceFilters.ofRequest (u.sampler.sourcesByChainId side) opts.excludedSources
    opts.includedSources

/-- `txOrigin`: an empty one is none. -/
def txOrigin (opts : GetMarketOrdersOpts) : String :=
  match opts.rfqt with
  | some rfqt => if rfqt.txOrigin = "" then NULL_ADDRESS else rfqt.txOrigin
  | none => NULL_ADDRESS

/-- The sources that a two-hop may go through. -/
def twoHopSources (quoteSourceFilters : SourceFilters) : List ERC20BridgeSource :=
  if quoteSourceFilters.isAllowed .multiHop then quoteSourceFilters.sources else []

/-- The price of a token in ether. -/
def ethToAssetRate (token : String) (opts : GetMarketOrdersOpts) : BatchedOperation BigNumber :=
  u.sampler.getBestNativeTokenSellRate u.feeSources token u.nativeFeeToken u.nativeFeeTokenAmount
    opts.feeSchedule

/-- The operations that are called for a market. -/
def marketOperations (side : MarketOperation) (makerToken takerToken : String)
    (limitOrders : List SignedLimitOrder) (amount : BigNumber) (opts : GetMarketOrdersOpts) :
    List (BatchedOperation SamplerResult) :=
  let sampleAmounts := getSampleAmounts amount opts.numSamples opts.sampleDistributionBase
  let quoteSourceFilters := u.quoteSourceFilters side opts
  [asResult .amount u.sampler.getBlockNumber,
    asResult .amount u.sampler.getGasLeft,
    asResult .amounts (u.sampler.getTokenDecimals [makerToken, takerToken]),
    asResult .amounts
      (match side with
        | .sell => u.sampler.getLimitOrderFillableTakerAmounts limitOrders
        | .buy => u.sampler.getLimitOrderFillableMakerAmounts limitOrders),
    asResult .amount (u.ethToAssetRate makerToken opts),
    asResult .amount (u.ethToAssetRate takerToken opts),
    asResult .samples
      (u.sampler.getQuotes side quoteSourceFilters.sources makerToken takerToken sampleAmounts),
    asResult .twoHopSamples
      (u.sampler.getTwoHopQuotes side (twoHopSources quoteSourceFilters) makerToken takerToken
        [amount]),
    asResult .isContract (u.sampler.isAddressContract (txOrigin opts)),
    asResult .amount u.sampler.getGasLeft]

/-- The call of the sampler. -/
def sampleMarket (side : MarketOperation) (makerToken takerToken : String)
    (limitOrders : List SignedLimitOrder) (amount : BigNumber) (opts : GetMarketOrdersOpts) :
    Except JsError SampledMarket := do
  let results ← executeBatchAsync u.callAsync
    (u.marketOperations side makerToken takerToken limitOrders amount opts)
  match results with
  | [.amount blockNumber, .amount gasLimit, .amounts tokenDecimals, .amounts orderFillableAmounts,
      .amount ethToMakerAssetRate, .amount ethToTakerAssetRate, .samples dexQuotes,
      .twoHopSamples rawTwoHopQuotes, .isContract isTxOriginContract, .amount gasLeft] =>
    .ok
      { blockNumber, gasLimit, tokenDecimals, orderFillableAmounts, ethToMakerAssetRate,
        ethToTakerAssetRate, dexQuotes, rawTwoHopQuotes, isTxOriginContract, gasLeft }
  -- each operation has a result of its own kind
  | _ => .error .typeError

/-! ## Liquidity -/

/-- `isMicroSwap`: on Optimism, an input worth less than a hundredth of what prices are asked
for. -/
def isMicroSwap (inputAmount inputAmountPerNativeWei : BigNumber) : Bool :=
  if u.chainId ≠ .optimism then
    false
  else
    let inputTokenValueInNativeWei := inputAmount.div inputAmountPerNativeWei
    (u.nativeFeeTokenAmount.times (.fin (1 / 100))).gt inputTokenValueInNativeWei

/-- `filterTwoHopQuotes`. -/
def filterTwoHopQuotes (twoHopQuotesList : List (List TwoHopQuote)) (isMicroSwap : Bool) :
    List (List TwoHopQuote) :=
  if isMicroSwap then
    []
  else
    (twoHopQuotesList.map fun twoHopQuotes =>
      twoHopQuotes.filter fun q => q.firstHopSource.isSome && q.secondHopSource.isSome).filter
        fun quotes => quotes.length > 0

/-- `filterOutDexQuotes`. -/
def filterOutDexQuotes (dexQuotes : List SourceSamples) (isMicroSwap : Bool) :
    List SourceSamples :=
  dexQuotes.filter fun samples =>
    if samples.samples.length = 0 then
      false
    else if !isMicroSwap then
      true
    else
      u.feeSources.contains samples.source

/-- `toNumber` of the decimals of a token. -/
def toDecimals (decimals : BigNumber) : ℕ := ⌊decimals.toRat⌋.toNat

/-- `getMarketSellLiquidity`. -/
def getMarketSellLiquidity (makerToken takerToken : String) (limitOrders : List SignedLimitOrder)
    (takerAmount : BigNumber) (opts : GetMarketOrdersOpts) :
    Except JsError MarketSideLiquidity := do
  let sampled ← u.sampleMarket .sell makerToken takerToken limitOrders takerAmount opts
  let outputAmountPerEth := sampled.ethToMakerAssetRate
  let inputAmountPerEth := sampled.ethToTakerAssetRate
  let isMicroSwap := u.isMicroSwap takerAmount inputAmountPerEth
  let isRfqSupported := opts.rfqt.isSome && !sampled.isTxOriginContract
  let limitOrdersWithFillableAmounts ← withAmounts getNativeAdjustedFillableAmountsFromTakerAmount
    (limitOrders.map SignedLimitOrder.toSignedNativeOrder) sampled.orderFillableAmounts
  match sampled.tokenDecimals with
  | makerTokenDecimals :: takerTokenDecimals :: _ =>
    .ok
      { side := .sell
        inputAmount := takerAmount
        inputToken := takerToken
        outputToken := makerToken
        outputAmountPerEth
        inputAmountPerEth
        quoteSourceFilters := u.quoteSourceFilters .sell opts
        makerTokenDecimals := toDecimals makerTokenDecimals
        takerTokenDecimals := toDecimals takerTokenDecimals
        quotes :=
          { nativeOrders := limitOrdersWithFillableAmounts
            rfqtIndicativeQuotes := []
            twoHopQuotes := filterTwoHopQuotes sampled.rawTwoHopQuotes isMicroSwap
            dexQuotes := u.filterOutDexQuotes sampled.dexQuotes isMicroSwap }
        isRfqSupported
        blockNumber := sampled.blockNumber
        samplerGasUsage := sampled.gasLimit.minus sampled.gasLeft }
  | _ => .error .typeError

/-- `getMarketBuyLiquidity`. -/
def getMarketBuyLiquidity (makerToken takerToken : String) (limitOrders : List SignedLimitOrder)
    (makerAmount : BigNumber) (opts : GetMarketOrdersOpts) :
    Except JsError MarketSideLiquidity := do
  let sampled ← u.sampleMarket .buy makerToken takerToken limitOrders makerAmount opts
  let isMicroSwap := u.isMicroSwap makerAmount sampled.ethToMakerAssetRate
  let isRfqSupported := !sampled.isTxOriginContract
  let limitOrdersWithFillableAmounts ← withAmounts getNativeAdjustedFillableAmountsFromMakerAmount
    (limitOrders.map SignedLimitOrder.toSignedNativeOrder) sampled.orderFillableAmounts
  match sampled.tokenDecimals with
  | makerTokenDecimals :: takerTokenDecimals :: _ =>
    .ok
      { side := .buy
        inputAmount := makerAmount
        inputToken := makerToken
        outputToken := takerToken
        outputAmountPerEth := sampled.ethToTakerAssetRate
        inputAmountPerEth := sampled.ethToMakerAssetRate
        quoteSourceFilters := u.quoteSourceFilters .buy opts
        makerTokenDecimals := toDecimals makerTokenDecimals
        takerTokenDecimals := toDecimals takerTokenDecimals
        quotes :=
          { nativeOrders := limitOrdersWithFillableAmounts
            rfqtIndicativeQuotes := []
            twoHopQuotes := filterTwoHopQuotes sampled.rawTwoHopQuotes isMicroSwap
            dexQuotes := u.filterOutDexQuotes sampled.dexQuotes isMicroSwap }
        isRfqSupported
        blockNumber := sampled.blockNumber
        samplerGasUsage := sampled.gasLimit.minus sampled.gasLeft }
  | _ => .error .typeError

/-- `getMarketLiquidity`. -/
def getMarketLiquidity (side : MarketOperation) (makerToken takerToken : String)
    (limitOrders : List SignedLimitOrder) (amount : BigNumber) (opts : GetMarketOrdersOpts) :
    Except JsError MarketSideLiquidity :=
  match side with
  | .sell => u.getMarketSellLiquidity makerToken takerToken limitOrders amount opts
  | .buy => u.getMarketBuyLiquidity makerToken takerToken limitOrders amount opts

/-! ## Routing -/

/-- The optimizer for a market. -/
def pathOptimizer (marketSideLiquidity : MarketSideLiquidity) (opts : GenerateOptimizedOrdersOpts) :
    NeonPathOptimizer where
  pathContext :=
    { side := marketSideLiquidity.side
      inputToken := marketSideLiquidity.inputToken
      outputToken := marketSideLiquidity.outputToken }
  feeSchedule := opts.feeSchedule
  fillAdjustor := opts.fillAdjustor
  pathPenaltyOpts :=
    { outputAmountPerEth := marketSideLiquidity.outputAmountPerEth
      inputAmountPerEth := marketSideLiquidity.inputAmountPerEth
      exchangeProxyOverhead := opts.exchangeProxyOverhead }
  inputAmount := marketSideLiquidity.inputAmount
  chainId := u.chainId
  neonRouterNumSamples := opts.neonRouterNumSamples

/-- `generateOptimizedOrders`. -/
def generateOptimizedOrders (marketSideLiquidity : MarketSideLiquidity)
    (opts : GenerateOptimizedOrdersOpts) : Except JsError OptimizerResult := do
  let quotes := marketSideLiquidity.quotes
  let augmentedRfqtIndicativeQuotes := quotes.rfqtIndicativeQuotes.map indicativeOrder
  let (takerAmountPerEth, makerAmountPerEth) :=
    match marketSideLiquidity.side with
    | .sell => (marketSideLiquidity.inputAmountPerEth, marketSideLiquidity.outputAmountPerEth)
    | .buy => (marketSideLiquidity.outputAmountPerEth, marketSideLiquidity.inputAmountPerEth)
  let optimalPath ← (u.pathOptimizer marketSideLiquidity opts).findOptimalPathFromSamples u.router
    quotes.dexQuotes quotes.twoHopQuotes (quotes.nativeOrders ++ augmentedRfqtIndicativeQuotes)
  match optimalPath with
  | none => .error (.error NO_OPTIMAL_PATH)
  | some path => .ok { path, marketSideLiquidity, takerAmountPerEth, makerAmountPerEth }

/-- What phase one finds. -/
structure PhaseOneResult where
  optimizerResult : Option OptimizerResult
  wholeOrderPrice : Option BigNumber

/-- `getPhaseOneRoutingResult`: that there is no path is no error yet. -/
def getPhaseOneRoutingResult (marketSideLiquidity : MarketSideLiquidity) (amount : BigNumber)
    (optimizerOpts : GenerateOptimizedOrdersOpts)
    (nativeOrderFeeEstimate : FillQuoteTransformerOrderType → Option FeeEstimate)
    (exchangeProxyOverhead : ExchangeProxyOverhead) : Except JsError PhaseOneResult :=
  match u.generateOptimizedOrders marketSideLiquidity optimizerOpts with
  | .ok optimizerResult =>
    .ok
      { optimizerResult := some optimizerResult
        wholeOrderPrice :=
          getComparisonPrices optimizerResult.path.adjustedRate amount
            marketSideLiquidity.toMarketSideLiquidity nativeOrderFeeEstimate
            exchangeProxyOverhead }
  | .error (.error message) =>
    if message = NO_OPTIMAL_PATH then .ok ⟨none, none⟩ else .error (.error message)
  | .error .typeError => .error .typeError

/-- `phase1OptimalSources`. -/
def phase1OptimalSources (optimizerResult : Option OptimizerResult) : List ERC20BridgeSource :=
  match optimizerResult with
  | some optimizerResult => optimizerResult.path.getOrders.map fun o => o.source
  | none => []

/-- The quotes of phase two: of exchanges, only those that phase one used. -/
def phase2Quotes (quotes : RawQuotes) (optimizerResult : Option OptimizerResult) : RawQuotes :=
  { quotes with
    dexQuotes := quotes.dexQuotes.filter fun q =>
      q.samples.length > 0 && (phase1OptimalSources optimizerResult).contains q.source }

/-- `filteredOfferings`. -/
def filteredOfferings (rfqt : RfqRequestOpts) (makerToken takerToken : String) :
    AltRfqMakerAssetOfferings :=
  rfqt.altRfqAssetOfferings.filterMap fun (endpoint, offerings) =>
    (getAltMarketInfo offerings makerToken takerToken).map fun offering => (endpoint, [offering])

/-- The request to makers, in its second version. -/
def rfqtV2Request (rfqt : RfqRequestOpts) (makerToken takerToken : String) (amount : BigNumber)
    (side : MarketOperation) : RfqtV2Request where
  assetFillAmount := amount
  chainId := u.chainId
  integratorId := rfqt.integratorId
  intentOnFilling := rfqt.intentOnFilling
  makerToken := makerToken
  marketOperation := side
  takerAddress := rfqt.takerAddress
  takerToken := takerToken
  txOrigin := rfqt.txOrigin

/-- The request to makers, in its first version. -/
def rfqtV1Request (rfqt : RfqRequestOpts) (makerToken takerToken : String) (amount : BigNumber)
    (side : MarketOperation) (wholeOrderPrice : Option BigNumber) : RfqClientV1PriceRequest :=
  { u.rfqtV2Request rfqt makerToken takerToken amount side with
    altRfqAssetOfferings := filteredOfferings rfqt makerToken takerToken
    comparisonPrice := wholeOrderPrice }

/-- The indicative quotes of makers. -/
def getIndicativeQuotes (rfqt : RfqRequestOpts) (v1Request : RfqClientV1PriceRequest) :
    Except JsError (List V4RFQIndicativeQuote) :=
  match rfqt.rfqClient with
  | none => .ok []
  | some rfqClient => do
    let v1Prices ← rfqClient.getV1Prices v1Request
    let v2Prices ← rfqClient.getV2Prices v1Request.toRfqtV2Request
    .ok (v1Prices ++ v2Prices)

/-- The firm quotes of makers. -/
def getFirmQuotes (rfqt : RfqRequestOpts) (v1Request : RfqClientV1PriceRequest) :
    Except JsError (List RfqClientV1Quote × List RfqtV2Quote) :=
  match rfqt.rfqClient with
  | none => .ok ([], [])
  | some rfqClient => do
    let v1Quotes ← rfqClient.getV1Quotes v1Request
    let v2Quotes ← rfqClient.getV2Quotes v1Request.toRfqtV2Request
    .ok (v1Quotes, v2Quotes)

/-- `v1RfqTakerFillableAmounts`: without a validator, all orders are taken to be valid. -/
def v1RfqTakerFillableAmounts (rfqt : RfqRequestOpts) (v1FirmQuotes : List SignedNativeOrder) :
    Except JsError (List BigNumber) :=
  match rfqt.firmQuoteValidator with
  | none => .ok (v1FirmQuotes.map fun signedOrder => signedOrder.order.takerAmount)
  | some firmQuoteValidator => firmQuoteValidator (v1FirmQuotes.map toRfqOrderFields)

/-- `quotesWithOrderFillableAmounts`. -/
def quotesWithOrderFillableAmounts (rfqt : RfqRequestOpts) (v1Quotes : List RfqClientV1Quote)
    (v2Quotes : List RfqtV2Quote) : Except JsError (List NativeOrderWithFillableAmounts) := do
  let v1FirmQuotes := v1Quotes.map toSignedNativeOrder
  let amounts ← v1RfqTakerFillableAmounts rfqt v1FirmQuotes
  let v1QuotesWithOrderFillableAmounts ← withAmounts withFillableAmount v1FirmQuotes amounts
  .ok (v1QuotesWithOrderFillableAmounts ++ v2Quotes.map toSignedNativeOrderWithFillableAmounts)

/-- Phase two: where makers have answered, routing over their quotes in place of phase one's result.
The indicative quotes are attached to the liquidity, the firm ones stand before the limit orders. -/
def getPhaseTwoRoutingResult (marketSideLiquidity : MarketSideLiquidity)
    (rfqt : RfqRequestOpts) (v1Request : RfqClientV1PriceRequest)
    (phaseOne : Option OptimizerResult) (phaseTwoOptimizerOpts : GenerateOptimizedOrdersOpts) :
    Except JsError (Option OptimizerResult) :=
  if rfqt.isIndicative then do
    let indicativeQuotes ← getIndicativeQuotes rfqt v1Request
    if indicativeQuotes.length > 0 then
      let quotes :=
        { marketSideLiquidity.quotes with rfqtIndicativeQuotes := indicativeQuotes }
      let optimizerResult ← u.generateOptimizedOrders
        { marketSideLiquidity with quotes := phase2Quotes quotes phaseOne } phaseTwoOptimizerOpts
      .ok (some optimizerResult)
    else
      .ok phaseOne
  else do
    let (v1Quotes, v2Quotes) ← getFirmQuotes rfqt v1Request
    if v1Quotes.length > 0 ∨ v2Quotes.length > 0 then
      let firmOrders ← quotesWithOrderFillableAmounts rfqt v1Quotes v2Quotes
      let quotes :=
        { marketSideLiquidity.quotes with
          nativeOrders := firmOrders ++ marketSideLiquidity.quotes.nativeOrders }
      let optimizerResult ← u.generateOptimizedOrders
        { marketSideLiquidity with quotes := phase2Quotes quotes phaseOne } phaseTwoOptimizerOpts
      .ok (some optimizerResult)
    else
      .ok phaseOne

/-- The options that makers are asked with, if they are. -/
def rfqtOf (marketSideLiquidity : MarketSideLiquidity) (opts : GetMarketOrdersOpts) :
    Option RfqRequestOpts :=
  match opts.rfqt with
  | some rfqt =>
    if marketSideLiquidity.isRfqSupported && rfqt.quoteRequestor &&
        marketSideLiquidity.quoteSourceFilters.isAllowed .native then
      some rfqt
    else
      none
  | none => none

/-- `optimizerOpts`. -/
def optimizerOpts (opts : GetMarketOrdersOpts) : GenerateOptimizedOrdersOpts where
  feeSchedule := opts.feeSchedule
  exchangeProxyOverhead := opts.exchangeProxyOverhead
  neonRouterNumSamples := opts.neonRouterNumSamples
  fillAdjustor := opts.fillAdjustor

/-- The options of phase one, which adjusts no fill. -/
def phaseOneOptimizerOpts (opts : GetMarketOrdersOpts) : GenerateOptimizedOrdersOpts :=
  { optimizerOpts opts with fillAdjustor := identityFillAdjustor }

/-- `getOptimizerResultAsync`. -/
def getOptimizerResult (makerToken takerToken : String) (limitOrders : List SignedLimitOrder)
    (amount : BigNumber) (side : MarketOperation) (opts : GetMarketOrdersOpts) :
    Except JsError OptimizerResult := do
  let marketSideLiquidity ←
    u.getMarketLiquidity side makerToken takerToken limitOrders amount opts
  let phaseOneResult ← u.getPhaseOneRoutingResult marketSideLiquidity amount
    (phaseOneOptimizerOpts opts)
    opts.nativeOrderFeeEstimate opts.exchangeProxyOverhead
  let optimizerResult ←
    match rfqtOf marketSideLiquidity opts with
    | some rfqt =>
      u.getPhaseTwoRoutingResult marketSideLiquidity rfqt
        (u.rfqtV1Request rfqt makerToken takerToken amount side phaseOneResult.wholeOrderPrice)
        phaseOneResult.optimizerResult (optimizerOpts opts)
    | none => .ok phaseOneResult.optimizerResult
  match optimizerResult with
  | none => .error (.error NO_OPTIMAL_PATH)
  | some optimizerResult => .ok optimizerResult

end MarketOperationUtils

end ZeroExApi.Routing
