/-
# ZeroExApi.SwapServing — from the parameters of a request to its quote

`calculateSwapQuoteAsync` of `services/swap_service.ts` as a whole: who may be asked for quotes, the
fees in the sold token, the quote, the call that is made of it, the gas, and the checks on the
response.  For a meta-transaction the fees are taken off before the quote when it sells, and are
known only after it when it buys.

Whatever else it does, the service asks for a quote with the sources of its parameters, and asks
makers only for an integrator (`rfqtOpts_eq_some`); so the fills of a response are what its
parameters permit (`calculateSwapQuote_permitted`).
-/

import ZeroExApi.ExchangeProxyOverhead
import ZeroExApi.FeeCalculator
import ZeroExApi.SlippageModelFillAdjustor
import ZeroExApi.SourceRequests
import ZeroExApi.SwapQuoteConsumer
import ZeroExApi.SwapQuoter
import ZeroExApi.SwapService

namespace ZeroExApi.SwapServing

open ZeroExApi.AffiliateFees (AffiliateFee getBuyTokenFeeAmounts)
open ZeroExApi.ExchangeProxyOverhead (FILL_QUOTE_TRANSFORMER_GAS_OVERHEAD TX_BASE_GAS)
open ZeroExApi.ExchangeProxyOverhead (EXCHANGE_PROXY_OVERHEAD_FULLY_FEATURED)
open ZeroExApi.FeeCalculator
open ZeroExApi.QuoteConsumerUtils
open ZeroExApi.Quoting
open ZeroExApi.Routing (RfqClient RfqFirmQuoteValidator RfqRequestOpts AltRfqMakerAssetOfferings)
open ZeroExApi.Routing (SamplerResult asResult SampledMarket MarketOperationUtils)
open ZeroExApi.SamplerBatch (executeBatchAsync)
open ZeroExApi.SourceRequests (ValidationErrorItem Endpoint Integrator)
open ZeroExApi.SwapService (PricedSwapQuote quoteAmount apiSwapQuote checkSwapQuote)
open ZeroExApi.Lib ZeroExApi.Lib.BigNumber

/-! ## Errors -/

/-- What a request can be answered with instead: the errors of the interface, and what is thrown
below it. -/
inductive ApiError where
  | validation (items : List ValidationErrorItem)
  | serviceDisabled (message : String)
  | insufficientFunds
  | ethSellNotSupported
  | revert
  | internal (error : JsError)
  | thrown (error : JsError)
  | reverted
  deriving DecidableEq

/-- The code of an error in the terms of all requests. -/
def ofFeeErrorCode : AffiliateFees.ValidationErrorCode → SourceRequests.ValidationErrorCode
  | .incorrectFormat => .incorrectFormat
  | .valueOutOfRange => .valueOutOfRange
  | .unsupportedOption => .unsupportedOption

def ofFeeError (item : AffiliateFees.ValidationErrorItem) : ValidationErrorItem where
  field := item.field
  code := ofFeeErrorCode item.code
  reason := item.reason

/-- An error of the response. -/
def ofSwapQuoteError : SwapService.SwapQuoteError → ApiError
  | .insufficientFunds => .insufficientFunds
  | .validation item => .validation [ofFeeError item]

/-- What is thrown below the interface. -/
def orThrow {α : Type} (x : Except JsError α) : Except ApiError α := x.mapError .thrown

/-! ## Parameters -/

/-- `Pick<RfqRequestOpts, …>`.  The handler writes the last field, which nothing reads; it leaves
out the one before. -/
structure RfqtParams where
  intentOnFilling : Bool
  isIndicative : Bool
  nativeExclusivelyRFQ : Bool := false
  nativeExclusivelyRFQT : Bool

/-- `GetSwapQuoteParams`. -/
structure GetSwapQuoteParams where
  endpoint : Endpoint
  sellToken : String
  buyToken : String
  sellAmount : Option BigNumber
  buyAmount : Option BigNumber
  takerAddress : Option String
  gasPrice : Option BigNumber
  slippagePercentage : Option ℚ
  priceImpactProtectionPercentage : ℚ
  excludedSources : List ERC20BridgeSource
  includedSources : List ERC20BridgeSource
  affiliateFee : AffiliateFee
  integrator : Option Integrator
  rfqt : Option RfqtParams
  skipValidation : Bool
  shouldSellEntireBalance : Bool
  isWrap : Bool
  isUnwrap : Bool
  isETHSell : Bool
  isETHBuy : Bool
  enableSlippageProtection : Bool
  metaTransactionVersion : Option MetaTransactionVersion
  feeConfigs : Option FeeConfigs

namespace GetSwapQuoteParams

variable (params : GetSwapQuoteParams)

/-- `marketSide`. -/
def marketSide : MarketOperation := if params.sellAmount.isSome then .sell else .buy

/-- The parameters that the response is made with. -/
def forResponse : SwapService.GetSwapQuoteParams where
  sellAmount := params.sellAmount
  buyAmount := params.buyAmount
  isETHSell := params.isETHSell
  affiliateFee := params.affiliateFee
  isQuote := params.endpoint = .quote
  priceImpactProtectionPercentage := params.priceImpactProtectionPercentage

/-- `shouldEnableRfqt`. -/
def shouldEnableRfqt : Bool :=
  params.integrator.isSome &&
    (params.isETHSell || params.takerAddress.isSome ||
      params.rfqt.any fun rfqt => rfqt.isIndicative)

end GetSwapQuoteParams

/-! ## The service -/

def DEFAULT_QUOTE_SLIPPAGE_PERCENTAGE : ℚ := 1 / 100

/-- `bridgeSlippage` of `DEFAULT_GET_MARKET_ORDERS_OPTS`. -/
def DEFAULT_BRIDGE_SLIPPAGE : ℚ := 5 / 1000

def NUM_SAMPLES : ℕ := 40

def AVG_MULTIPLEX_TRANFORM_ERC_20_GAS : BigNumber := .fin 933000

def TRANSFER_GAS : BigNumber := .fin 27000

def TRANSFER_FROM_GAS : BigNumber := .fin 32000

def GAS_LIMIT_BUFFER_MULTIPLIER : BigNumber := .fin (11 / 10)

/-- `SwapService`, with its settings, the offerings of its other market makers, the models it knows
of slippage, and what a node says the gas of a call is. -/
structure SwapService where
  chainId : ChainId
  swapQuoter : SwapQuoter
  swapQuoteConsumer : ExchangeProxySwapQuoteConsumer
  rfqClient : RfqClient
  isRfqtEnabled : Bool
  firmQuoteValidator : Option RfqFirmQuoteValidator
  altRfqAssetOfferings : AltRfqMakerAssetOfferings
  slippageModels : Option (ChainTokens × SlippageModelCache)
  sampleDistributionBase : BigNumber
  gaslessSwapFeeEnabled : Bool
  zeroExFeeTokens : JsSet String
  zeroExFeeRecipientAddress : String
  etherToken : String
  estimateGasOrThrowRevertError : CalldataInfo → String → BigNumber → Except ApiError BigNumber

/-- `GetSwapQuoteResponse`.  Its orders and sources are those of its quote; a wrap has none, and its
call is one of the wrapped token. -/
structure GetSwapQuoteResponse extends SwapService.GetSwapQuoteResponse where
  quote : Option PricedSwapQuote
  call : Option CalldataInfo
  toAddress : String
  gas : BigNumber
  fees : Option Fees

namespace SwapService

variable [Arithmetic] (service : SwapService) (params : GetSwapQuoteParams)

/-- `_rfqt`; a missing taker is as good as an empty one. -/
def rfqtOpts : Option RfqRequestOpts :=
  if params.shouldEnableRfqt then
    params.integrator.map fun integrator =>
      { takerAddress := NULL_ADDRESS
        txOrigin := params.takerAddress.getD ""
        integratorId := integrator.integratorId
        intentOnFilling := params.rfqt.any fun rfqt => rfqt.intentOnFilling
        isIndicative := params.rfqt.any fun rfqt => rfqt.isIndicative
        nativeExclusivelyRFQ := params.rfqt.any fun rfqt => rfqt.nativeExclusivelyRFQ
        altRfqAssetOfferings := service.altRfqAssetOfferings
        quoteRequestor := false
        rfqClient := none
        firmQuoteValidator := service.firmQuoteValidator }
  else
    none

/-- `CHAIN_HAS_VIPS`. -/
def CHAIN_HAS_VIPS (chainId : ChainId) : Bool := chainId = .mainnet || chainId = .bsc

/-- The overhead that paths are ranked with: less than that of a transform where the exchange proxy
has features of its own for a path. -/
def exchangeProxyOverhead : ExchangeProxyOverhead :=
  if params.metaTransactionVersion.isSome || params.shouldSellEntireBalance ||
      params.affiliateFee.feeType = .percentageFee || !CHAIN_HAS_VIPS service.chainId then
    fun _ => FILL_QUOTE_TRANSFORMER_GAS_OVERHEAD
  else
    EXCHANGE_PROXY_OVERHEAD_FULLY_FEATURED service.chainId

/-- The slippage that a fill may have; none at all counts as none given. -/
def maxSlippageRate : ℚ :=
  match params.slippagePercentage with
  | none => DEFAULT_QUOTE_SLIPPAGE_PERCENTAGE
  | some slippage => if slippage = 0 then DEFAULT_QUOTE_SLIPPAGE_PERCENTAGE else slippage

/-- `fillAdjustor`. -/
def fillAdjustor : FillAdjustor :=
  match service.slippageModels with
  | none => identityFillAdjustor
  | some (chain, cache) =>
    if params.enableSlippageProtection then
      let adjustor : SlippageModelFillAdjustor :=
        { chain := chain
          cache := cache
          sellToken := params.sellToken
          buyToken := params.buyToken
          maxSlippageRate := maxSlippageRate params }
      ⟨fun side fill => (adjustor.adjustFill side fill).adjustedOutput⟩
    else
      identityFillAdjustor

/-- `assetSwapperOpts`, at the gas price that is given. -/
def assetSwapperOpts (gasPrice : Option BigNumber) : SwapQuoteRequestOpts where
  gasPrice := gasPrice
  excludedSources := params.excludedSources
  includedSources := params.includedSources
  numSamples := NUM_SAMPLES
  sampleDistributionBase := service.sampleDistributionBase
  neonRouterNumSamples := NUM_SAMPLES + 1
  bridgeSlippage := params.slippagePercentage.getD DEFAULT_BRIDGE_SLIPPAGE
  exchangeProxyOverhead := service.exchangeProxyOverhead params
  fillAdjustor := service.fillAdjustor params
  rfqt := service.rfqtOpts params

/-! ### Fees in the sold token -/

/-- What `_getSellTokenFees` returns. -/
structure SellTokenFees where
  sellTokenFees : Option Fees
  sellTokenFeeAmount : BigNumber
  sellTokenFeeOnChainTransfers : List AffiliateFeeAmount
  sellTokenFeeOnChainTransferGas : BigNumber

/-- The fees where there are none. -/
def noSellTokenFees : SellTokenFees := ⟨none, ZERO_AMOUNT, [], ZERO_AMOUNT⟩

/-- `getTokenAmountPerWei`; no fees are charged to sources for it. -/
def getTokenAmountPerWei (token : String) : Except JsError BigNumber := do
  let utils := service.swapQuoter.marketOperationUtils
  let results ← executeBatchAsync utils.callAsync
    [asResult .amount
      (utils.sampler.getBestNativeTokenSellRate utils.feeSources token utils.nativeFeeToken
        utils.nativeFeeTokenAmount fun _ _ => ⟨0, ZERO_AMOUNT⟩)]
  match results with
  | [.amount tokenAmountPerWei] => .ok tokenAmountPerWei
  | _ => .error .typeError

/-- The price of the sold token that fees are calculated with. -/
def feeTokenAmountPerWei (marketSide : MarketOperation) (feeConfigs : Option FeeConfigs)
    (sellToken : String) (sellTokenAmountPerWei : Option BigNumber) :
    Except JsError (Option BigNumber) :=
  if sellTokenAmountPerWei.isNone && marketSide = .sell &&
      feeConfigs.any fun configs => configs.gasFee.isSome then
    (service.getTokenAmountPerWei sellToken).map some
  else
    .ok sellTokenAmountPerWei

/-- A transfer of fees in the terms of the consumer. -/
def ofOnChainTransfer (transfer : OnChainTransfer) : AffiliateFeeAmount where
  feeType := .gaslessFee
  recipient := transfer.feeRecipient
  buyTokenFeeAmount := ZERO_AMOUNT
  sellTokenFeeAmount := transfer.feeAmount

/-- `_getSellTokenFees`. -/
def getSellTokenFees (marketSide : MarketOperation) (feeConfigs : Option FeeConfigs)
    (sellToken : String) (sellAmount : BigNumber) (sellTokenAmountPerWei : Option BigNumber)
    (gasPrice quoteGasEstimate gasPerOnChainTransfer : BigNumber) :
    Except ApiError SellTokenFees := do
  let sellTokenAmountPerWei ← orThrow
    (service.feeTokenAmountPerWei marketSide feeConfigs sellToken sellTokenAmountPerWei)
  let calculated ← orThrow
    ((calculateFees
      { feeConfigs, sellToken, sellTokenAmount := sellAmount, sellTokenAmountPerWei, gasPrice,
        quoteGasEstimate, gasPerOnChainTransfer }).mapError .error)
  if marketSide = .sell ∧ sellAmount.lte calculated.totalOnChainFeeAmount then
    .error .insufficientFunds
  else
    .ok
      { sellTokenFees := calculated.fees
        sellTokenFeeAmount := calculated.totalOnChainFeeAmount
        sellTokenFeeOnChainTransfers :=
          (calculated.onChainTransfers.map ofOnChainTransfer).filter fun fee =>
            fee.sellTokenFeeAmount.gt ZERO_AMOUNT
        sellTokenFeeOnChainTransferGas := calculated.onChainTransfersGas }

/-- The gas of a transfer of fees, by the version of the meta-transaction. -/
def gasPerOnChainTransfer (version : MetaTransactionVersion) : BigNumber :=
  match version with
  | .v1 => TRANSFER_GAS
  | .v2 => TRANSFER_FROM_GAS

/-- The gas price that is given, or else the estimation. -/
def gasPriceOrEstimation : Except JsError BigNumber :=
  match params.gasPrice with
  | some gasPrice => .ok gasPrice
  | none => service.swapQuoter.gasPriceEstimation

/-- What is known before the quote: the gas price, if one is given or needed for fees, and the fees
of a meta-transaction that sells. -/
def beforeQuote : Except ApiError (Option BigNumber × SellTokenFees) :=
  match params.metaTransactionVersion, params.sellAmount with
  | some version, some sellAmount => do
    let gasPrice ← orThrow (service.gasPriceOrEstimation params)
    let fees ← service.getSellTokenFees .sell params.feeConfigs params.sellToken sellAmount none
      gasPrice AVG_MULTIPLEX_TRANFORM_ERC_20_GAS (gasPerOnChainTransfer version)
    .ok (some gasPrice, fees)
  | _, _ => .ok (params.gasPrice, noSellTokenFees)

/-- The fees once there is a quote: those of a meta-transaction that buys are calculated with it. -/
def afterQuote (swapQuote : PricedSwapQuote) (before : SellTokenFees) :
    Except ApiError SellTokenFees :=
  match params.metaTransactionVersion, params.marketSide with
  | some version, .buy =>
    service.getSellTokenFees .buy params.feeConfigs params.sellToken
      swapQuote.bestCaseQuoteInfo.totalTakerAmount (some swapQuote.takerAmountPerEth)
      swapQuote.gasPrice (.fin swapQuote.worstCaseQuoteInfo.gas) (gasPerOnChainTransfer version)
  | _, _ => .ok before

/-- The amount that is asked for. -/
def requestedAmount (fees : SellTokenFees) : Except ApiError BigNumber :=
  match params.sellAmount, params.buyAmount with
  | some sellAmount, _ =>
    .ok (quoteAmount .sell sellAmount 0 fees.sellTokenFeeAmount params.affiliateFee)
  | none, some buyAmount =>
    .ok (quoteAmount .buy 0 buyAmount fees.sellTokenFeeAmount params.affiliateFee)
  | none, none => .error (.thrown .typeError)

/-! ### The call and its gas -/

/-- `positiveSlippageFee`: for allowed pairs, unless the integrator has turned it off. -/
def positiveSlippageFee : Option AffiliateFeeAmount :=
  let isPairAllowed :=
    decide (params.buyToken.toLower ∈ service.zeroExFeeTokens.elements) &&
      decide (params.sellToken.toLower ∈ service.zeroExFeeTokens.elements)
  let positiveSlippagePercent := params.integrator.bind Integrator.positiveSlippagePercent
  let isEnabled := positiveSlippagePercent.all fun percent => percent > 0
  if isPairAllowed && isEnabled then
    some
      { recipient :=
          ((params.integrator.bind Integrator.feeRecipient).filter (· != "")).getD
            service.zeroExFeeRecipientAddress
        feeType := .positiveSlippageFee
        buyTokenFeeAmount := ZERO_AMOUNT
        sellTokenFeeAmount := ZERO_AMOUNT }
  else
    none

/-- The options of the consumer. -/
def exchangeProxyOpts (swapQuote : PricedSwapQuote) (fees : SellTokenFees) :
    ExchangeProxyContractOpts where
  isFromETH := params.isETHSell
  isToETH := params.isETHBuy
  metaTransactionVersion := params.metaTransactionVersion
  shouldSellEntireBalance := params.shouldSellEntireBalance
  buyTokenAffiliateFees :=
    [{ recipient := params.affiliateFee.recipient
       feeType := params.affiliateFee.feeType
       buyTokenFeeAmount :=
        (getBuyTokenFeeAmounts service.gaslessSwapFeeEnabled swapQuote.toSwapQuote
          params.affiliateFee).buyTokenFeeAmount
       sellTokenFeeAmount := ZERO_AMOUNT }]
  sellTokenAffiliateFees := fees.sellTokenFeeOnChainTransfers
  positiveSlippageFee := service.positiveSlippageFee params

/-- `conservativeBestCaseGasEstimate` before a node is asked. -/
def fauxGasEstimate (swapQuote : PricedSwapQuote) (fees : SellTokenFees) : BigNumber :=
  ((BigNumber.fin swapQuote.worstCaseQuoteInfo.gas).plus
    (getBuyTokenFeeAmounts service.gaslessSwapFeeEnabled swapQuote.toSwapQuote
      params.affiliateFee).gasCost).plus fees.sellTokenFeeOnChainTransferGas

/-- The taker to estimate the gas for; for a price the orders of makers have no signature. -/
def estimationTaker (swapQuote : PricedSwapQuote) : Option String :=
  let isNativeIncluded := (swapQuote.sourceBreakdown.singleSource.get .native).isSome
  let canEstimateGas := params.endpoint = .quote || !isNativeIncluded
  params.takerAddress.filter fun takerAddress =>
    takerAddress != "" && !params.skipValidation && canEstimateGas

/-- `conservativeBestCaseGasEstimate`: the larger of what is computed and what the node estimates,
with what the estimate leaves out and a buffer.  For a price an estimate may fail. -/
def gasEstimate (swapQuote : PricedSwapQuote) (call : CalldataInfo) (fees : SellTokenFees) :
    Except ApiError BigNumber :=
  let fauxGasEstimate := service.fauxGasEstimate params swapQuote fees
  match estimationTaker params swapQuote with
  | none => .ok fauxGasEstimate
  | some takerAddress =>
    match service.estimateGasOrThrowRevertError call takerAddress swapQuote.gasPrice with
    | .error e => if params.endpoint = .quote then .error e else .ok fauxGasEstimate
    | .ok estimate =>
      let withOverhead := estimate.plus call.gasOverhead
      let withTransfers :=
        if params.metaTransactionVersion = some .v2 then
          withOverhead.plus fees.sellTokenFeeOnChainTransferGas
        else
          withOverhead
      let realGasEstimate := (withTransfers.times GAS_LIMIT_BUFFER_MULTIPLIER).integerValue .halfUp
      .ok (BigNumber.max fauxGasEstimate realGasEstimate)

/-! ### The response -/

/-- The fees that a response reports: only meta-transactions have them. -/
def reportedFees (fees : SellTokenFees) : Option Fees :=
  if params.metaTransactionVersion.isSome || params.buyToken = params.sellToken then
    fees.sellTokenFees
  else
    none

/-- Makers and nothing else, which `'RFQT'` would be if it were a source. -/
def isExclusivelyRfqt : Bool :=
  params.rfqt.isSome && params.includedSources.map ERC20BridgeSource.value == ["RFQT"]

/-- `calculateSwapQuoteAsync`. -/
def calculateSwapQuote : Except ApiError GetSwapQuoteResponse :=
  if isExclusivelyRfqt params && !service.isRfqtEnabled then
    .error (.serviceDisabled "RFQt Service is not available")
  else do
    let (gasPrice, before) ← service.beforeQuote params
    let amount ← requestedAmount params before
    let swapQuote ← orThrow
      (service.swapQuoter.getSwapQuote params.buyToken params.sellToken amount params.marketSide
        (service.assetSwapperOpts params gasPrice) (some service.rfqClient))
    let fees ← service.afterQuote params swapQuote before
    let call ← orThrow
      (service.swapQuoteConsumer.getCalldataOrThrow swapQuote.toSwapQuote
        (service.exchangeProxyOpts params swapQuote fees))
    let gas ← service.gasEstimate params swapQuote call fees
    let response ←
      (checkSwapQuote params.forResponse
        (apiSwapQuote service.gaslessSwapFeeEnabled params.forResponse swapQuote
          fees.sellTokenFeeAmount)).mapError ofSwapQuoteError
    .ok
      { response with
        quote := some swapQuote
        call := some call
        toAddress := call.toAddress
        gas := gas
        fees := reportedFees params fees }

/-- `UNWRAP_QUOTE_GAS`, which is that of a wrap as well. -/
def UNWRAP_QUOTE_GAS (chainId : ChainId) : BigNumber :=
  TX_BASE_GAS.plus (.fin (if chainId = .fantom then 37000 else 25000))

/-- The amount of a wrap. -/
def wrappedAmount : Except ApiError BigNumber :=
  match params.buyAmount, params.sellAmount with
  | some buyAmount, _ => .ok buyAmount
  | none, some sellAmount => .ok sellAmount
  | none, none => .error (.thrown (.error "sellAmount or buyAmount required"))

/-- `_getSwapQuoteForNativeWrappedAsync`: a token and its wrapped form are one to one. -/
def getSwapQuoteForNativeWrapped (isUnwrap : Bool) : Except ApiError GetSwapQuoteResponse := do
  let amount ← wrappedAmount params
  let gasPrice ← orThrow (service.gasPriceOrEstimation params)
  .ok
    { price := 1
      guaranteedPrice := 1
      estimatedPriceImpact := some ZERO_AMOUNT
      value := if isUnwrap then ZERO_AMOUNT else amount
      gasPrice := gasPrice
      protocolFee := ZERO_AMOUNT
      minimumProtocolFee := ZERO_AMOUNT
      buyAmount := amount
      sellAmount := amount
      sellTokenToEthRate := 1
      buyTokenToEthRate := 1
      quote := none
      call := none
      toAddress := service.etherToken
      gas := UNWRAP_QUOTE_GAS service.chainId
      fees := none }

end SwapService

/-! ## What is asked for -/

namespace SwapService

variable {service : SwapService} {params : GetSwapQuoteParams}

/-- Makers are asked for an integrator, when it sells ether, has a taker or wants a price only. -/
theorem rfqtOpts_eq_some {rfqt : RfqRequestOpts} (h : service.rfqtOpts params = some rfqt) :
    params.shouldEnableRfqt = true ∧
      ∃ integrator, params.integrator = some integrator ∧
        rfqt.integratorId = integrator.integratorId ∧
        rfqt.txOrigin = params.takerAddress.getD "" ∧
        rfqt.intentOnFilling = (params.rfqt.any fun rfqt => rfqt.intentOnFilling) ∧
        rfqt.isIndicative = (params.rfqt.any fun rfqt => rfqt.isIndicative) := by
  unfold rfqtOpts at h
  split at h
  · rename_i henabled
    obtain ⟨integrator, hintegrator, rfl⟩ := Option.map_eq_some_iff.mp h
    exact ⟨henabled, integrator, hintegrator, rfl, rfl, rfl, rfl⟩
  · cases h

/-- What is let through by `orThrow` is the result. -/
theorem orThrow_eq_ok {α : Type} {x : Except JsError α} {a : α} :
    orThrow x = .ok a ↔ x = .ok a := by
  cases x with
  | error e =>
    constructor
    · intro h
      cases h
    · intro h
      cases h
  | ok b => exact ⟨fun h => by cases h; rfl, fun h => by cases h; rfl⟩

/-- What a response's quote is asked for with: a gas price and an amount. -/
def AsksFor [Arithmetic] (service : SwapService) (params : GetSwapQuoteParams)
    (gasPrice : Option BigNumber) (amount : BigNumber) : Prop :=
  ∃ before, service.beforeQuote params = .ok (gasPrice, before) ∧
    requestedAmount params before = .ok amount

/-- A response has a quote that was asked for with the sources of its parameters. -/
theorem calculateSwapQuote_eq_ok [Arithmetic] {response : GetSwapQuoteResponse}
    (h : service.calculateSwapQuote params = .ok response) :
    ∃ gasPrice amount quote, service.AsksFor params gasPrice amount ∧
      response.quote = some quote ∧
      service.swapQuoter.getSwapQuote params.buyToken params.sellToken amount params.marketSide
        (service.assetSwapperOpts params gasPrice) (some service.rfqClient) = .ok quote := by
  unfold calculateSwapQuote at h
  split at h
  · cases h
  · obtain ⟨⟨gasPrice, before⟩, hbefore, h⟩ := Fallible.bind_eq_ok.mp h
    obtain ⟨amount, hamount, h⟩ := Fallible.bind_eq_ok.mp h
    obtain ⟨quote, hquote, h⟩ := Fallible.bind_eq_ok.mp h
    obtain ⟨fees, _, h⟩ := Fallible.bind_eq_ok.mp h
    obtain ⟨call, _, h⟩ := Fallible.bind_eq_ok.mp h
    obtain ⟨gas, _, h⟩ := Fallible.bind_eq_ok.mp h
    obtain ⟨checked, _, h⟩ := Fallible.bind_eq_ok.mp h
    cases h
    exact ⟨gasPrice, amount, quote, ⟨before, hbefore, hamount⟩, rfl, orThrow_eq_ok.mp hquote⟩

/-- The market of the quote of a response. -/
def AnswersMarket [Arithmetic] (service : SwapService) (params : GetSwapQuoteParams)
    (gasPrice : Option BigNumber) (amount : BigNumber)
    (limitOrders : List Sampling.SignedLimitOrder) (sampled : SampledMarket) : Prop :=
  service.AsksFor params gasPrice amount ∧
    service.swapQuoter.MarketOf params.marketSide params.buyToken params.sellToken amount
      (service.assetSwapperOpts params gasPrice) (some service.rfqClient) limitOrders sampled

/-- Every fill of a response is one that its parameters permit on their market. -/
theorem calculateSwapQuote_permitted [Arithmetic] {response : GetSwapQuoteResponse}
    {quote : PricedSwapQuote} (h : service.calculateSwapQuote params = .ok response)
    (hquote : response.quote = some quote) :
    ∃ gasPrice amount limitOrders sampled,
      service.AnswersMarket params gasPrice amount limitOrders sampled ∧
      ∀ fill ∈ quote.path.fills,
        service.swapQuoter.Permitted params.marketSide params.buyToken params.sellToken amount
          (service.assetSwapperOpts params gasPrice) (some service.rfqClient) limitOrders sampled
          fill := by
  obtain ⟨gasPrice, amount, quote', hasksFor, hquote', hasked⟩ := calculateSwapQuote_eq_ok h
  obtain rfl : quote' = quote := Option.some.inj (hquote'.symm.trans hquote)
  obtain ⟨limitOrders, sampled, hmarket, hpermitted⟩ := SwapQuoter.getSwapQuote_permitted hasked
  exact ⟨gasPrice, amount, limitOrders, sampled, ⟨hasksFor, hmarket⟩, hpermitted⟩

end SwapService

end ZeroExApi.SwapServing
