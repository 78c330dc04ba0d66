/-
# ZeroExApi.MetaTransactions — a gasless request and what it is served

`meta_transaction_handlers.ts` and `meta_transaction_service.ts`.  A request of either version is
read for the parameters of the swap service, whose call is what the taker is given to sign.  No key
comes with it, and its integrator is not handed on; so makers are never asked, and every native
order of an answer is one of the order book (`getMetaTransactionQuote_served`).
-/

import ZeroExApi.SwapRequests

namespace ZeroExApi.MetaTransactions

open ZeroExApi.AffiliateFees (AffiliateFeeQuery AffiliateFee)
open ZeroExApi.FeeCalculator (FeeConfigs FeeConfigsBody _parseFeeConfigs)
open ZeroExApi.QuoteConsumerUtils (MetaTransactionVersion)
open ZeroExApi.Routing (SampledMarket)
open ZeroExApi.Routing.MarketOperationUtils (ExchangeFill LimitOrderFill TwoHopFill)
open ZeroExApi.Sampling (SignedLimitOrder)
open ZeroExApi.SwapService (PricedSwapQuote)
open ZeroExApi.Lib ZeroExApi.Lib.BigNumber ZeroExApi.NativeOrders ZeroExApi.Quoting
open ZeroExApi.SourceRequests ZeroExApi.SwapRequests ZeroExApi.SwapServing

/-! ## Requests -/

/-- The query of a request of the first version and the body of one of the second, with the numbers
in it read.  Only a body has a version and fees. -/
structure MetaTransactionQuoteRequest where
  sellToken : String
  buyToken : String
  sellAmount : Option BigNumber
  buyAmount : Option BigNumber
  takerAddress : String
  slippagePercentage : Option ℚ
  priceImpactProtectionPercentage : Option ℚ
  excludedSources : Option String
  includedSources : Option String
  affiliateFees : AffiliateFeeQuery
  metaTransactionVersion : Option String
  feeConfigs : Option FeeConfigsBody

/-- `MetaTransactionV1QuoteRequestParams` and `MetaTransactionV2QuoteRequestParams`. -/
structure MetaTransactionQuoteParams where
  takerAddress : String
  sellTokenAddress : String
  buyTokenAddress : String
  sellAmount : Option BigNumber
  buyAmount : Option BigNumber
  slippagePercentage : ℚ
  priceImpactProtectionPercentage : ℚ
  excludedSources : List ERC20BridgeSource
  includedSources : List ERC20BridgeSource
  affiliateFee : AffiliateFee
  metaTransactionVersion : MetaTransactionVersion
  feeConfigs : Option FeeConfigs

/-- `MetaTransaction`, with the fields that depend on the request; its price of gas may be anything
up to a bound that is never met. -/
structure MetaTransaction where
  call : Option QuoteConsumerUtils.CalldataInfo
  signer : String
  sender : String := NULL_ADDRESS
  feeToken : String := NULL_ADDRESS
  feeAmount : BigNumber := ZERO_AMOUNT
  value : BigNumber := ZERO_AMOUNT

/-- The handlers on those of swaps, with a schema of their own, the least slippage, and who has the
fees of the first version. -/
structure MetaTransactionHandlers extends SwapHandlers where
  metaTransactionSchemaErrors : MetaTransactionQuoteRequest → List ValidationErrorItem
  META_TX_MIN_ALLOWED_SLIPPAGE : ℚ
  FEE_RECIPIENT_ADDRESS : String

namespace MetaTransactionHandlers

variable [Arithmetic] (handlers : MetaTransactionHandlers) (request : MetaTransactionQuoteRequest)
  (endpoint : Endpoint)

/-! ### Reading a request -/

/-- `findTokenAddressOrThrowApiError`; the case of an address is left as it is. -/
def findTokenAddress (address field : String) : Except ApiError String :=
  match handlers.findTokenAddressOrThrow address with
  | .ok token => .ok token
  | .error (.error message) =>
    .error (.validation [{ field := field, code := .valueOutOfRange, reason := message }])
  | .error .typeError =>
    .error (.validation [{ field := field, code := .valueOutOfRange, reason := "" }])

/-- The slippage of a request, for which none at all stands for the default. -/
def parseSlippagePercentage : Except ApiError ℚ :=
  let given := request.slippagePercentage.getD 0
  let slippagePercentage := if given = 0 then DEFAULT_QUOTE_SLIPPAGE_PERCENTAGE else given
  if slippagePercentage ≥ 1 then
    .error
      (.validation
        [{ field := "slippagePercentage"
           code := .valueOutOfRange
           reason := "MUST_BE_LESS_THAN_OR_EQUAL_TO_ONE" }])
  else if slippagePercentage < handlers.META_TX_MIN_ALLOWED_SLIPPAGE then
    .error
      (.validation
        [{ field := "slippagePercentage"
           code := .valueOutOfRange
           reason := "MINIMUM_SLIPPAGE_IS_TOO_LOW" }])
  else
    .ok slippagePercentage

/-- The ids in a list, which is read as it is. -/
def listedIds (list : Option String) : List String :=
  match list with
  | none => []
  | some text => splitCommas text

/-- `parseV1RequestParams` behind the affiliate fee and `parseV2RequestBody` behind the version. -/
def parseParams (affiliateFee : AffiliateFee) (buyTokenAddress sellTokenAddress : String)
    (version : MetaTransactionVersion) : Except ApiError MetaTransactionQuoteParams := do
  let slippagePercentage ← handlers.parseSlippagePercentage request
  let feeConfigs ←
    (_parseFeeConfigs request.feeConfigs).mapError fun item => ApiError.validation [ofFeeError item]
  .ok
    { takerAddress := request.takerAddress.toLower
      sellTokenAddress := sellTokenAddress
      buyTokenAddress := buyTokenAddress
      sellAmount := request.sellAmount
      buyAmount := request.buyAmount
      slippagePercentage := slippagePercentage
      priceImpactProtectionPercentage :=
        request.priceImpactProtectionPercentage.getD DEFAULT_PRICE_IMPACT_PROTECTION_PERCENTAGE
      excludedSources := parseStringArrForERC20BridgeSources (listedIds request.excludedSources)
      includedSources := parseStringArrForERC20BridgeSources (listedIds request.includedSources)
      affiliateFee := affiliateFee
      metaTransactionVersion := version
      feeConfigs := feeConfigs }

/-- `parseV1RequestParams`; a query has no fees but the affiliate's. -/
def parseV1RequestParams : Except ApiError MetaTransactionQuoteParams := do
  let affiliateFee ←
    (AffiliateFees.parseAffiliateFeeOptions request.affiliateFees).mapError fun item =>
      ApiError.validation [ofFeeError item]
  let buyTokenAddress ← handlers.findTokenAddress request.buyToken "buyToken"
  let sellTokenAddress ← handlers.findTokenAddress request.sellToken "sellToken"
  handlers.parseParams { request with feeConfigs := none } affiliateFee buyTokenAddress
    sellTokenAddress .v1

/-- The version that a body asks for. -/
def parseVersion : Except ApiError MetaTransactionVersion :=
  match request.metaTransactionVersion with
  | some "v1" => .ok .v1
  | some "v2" => .ok .v2
  | _ =>
    .error
      (.validation
        [{ field := "metaTransactionVersion"
           code := .incorrectFormat
           reason := "INVALID_META_TRANSACTION_VERSION" }])

/-- `parseV2RequestBody`. -/
def parseV2RequestBody : Except ApiError MetaTransactionQuoteParams := do
  let buyTokenAddress ← handlers.findTokenAddress request.buyToken "buyToken"
  let sellTokenAddress ← handlers.findTokenAddress request.sellToken "sellToken"
  let version ← parseVersion request
  handlers.parseParams request ⟨.none, NULL_ADDRESS, 0, 0⟩ buyTokenAddress sellTokenAddress version

/-! ### The service -/

/-- `quoteParams`: neither an integrator nor anything of makers is handed on. -/
def quoteParams (params : MetaTransactionQuoteParams) (affiliateFee : AffiliateFee) :
    GetSwapQuoteParams where
  endpoint := endpoint
  sellToken := params.sellTokenAddress
  buyToken :=
    if handlers.isNativeSymbolOrAddress params.buyTokenAddress then
      handlers.nativeFeeToken
    else
      params.buyTokenAddress
  sellAmount := params.sellAmount
  buyAmount := params.buyAmount
  takerAddress := some params.takerAddress
  gasPrice := none
  slippagePercentage := some params.slippagePercentage
  priceImpactProtectionPercentage := params.priceImpactProtectionPercentage
  excludedSources := params.excludedSources
  includedSources := params.includedSources
  affiliateFee := affiliateFee
  integrator := none
  rfqt := none
  skipValidation := true
  shouldSellEntireBalance := false
  isWrap := false
  isUnwrap := false
  isETHSell := false
  isETHBuy := handlers.isNativeSymbolOrAddress params.buyTokenAddress
  enableSlippageProtection := false
  metaTransactionVersion := some params.metaTransactionVersion
  feeConfigs := params.feeConfigs

/-- The two versions of the interface. -/
inductive InterfaceVersion where
  | v1
  | v2
  deriving DecidableEq

/-- `_getMetaTransactionQuoteAsync` and `_getMetaTransactionV2QuoteAsync`: the first version has its
own fee. -/
def getMetaTransactionQuote (version : InterfaceVersion) (params : MetaTransactionQuoteParams) :
    Except ApiError GetSwapQuoteResponse :=
  let affiliateFee :=
    match version with
    | .v1 => ⟨.gaslessFee, handlers.FEE_RECIPIENT_ADDRESS, 0, 0⟩
    | .v2 => params.affiliateFee
  handlers.service.calculateSwapQuote (handlers.quoteParams endpoint params affiliateFee)

/-- The meta-transaction of a quote; there is none of the second version yet. -/
def generateMetaTransaction (params : MetaTransactionQuoteParams) (quote : GetSwapQuoteResponse) :
    Except ApiError MetaTransaction :=
  match params.metaTransactionVersion with
  | .v1 => .ok { call := quote.call, signer := params.takerAddress }
  | .v2 => .error (.thrown (.error "metaTransactionVersion v2 is not supported"))

/-- An answer: the response, and for a quote what the taker signs. -/
structure MetaTransactionQuoteResponse where
  quote : GetSwapQuoteResponse
  metaTransaction : Option MetaTransaction

/-- What the service makes of the parameters. -/
def serveMetaTransaction (version : InterfaceVersion) (params : MetaTransactionQuoteParams) :
    Except ApiError MetaTransactionQuoteResponse := do
  let quote ← handlers.getMetaTransactionQuote endpoint version params
  match endpoint with
  | .price => .ok ⟨quote, none⟩
  | .quote => do
    let metaTransaction ← generateMetaTransaction params quote
    .ok ⟨quote, some metaTransaction⟩

/-- What is thrown, in the terms of the interface; of a quote some of it goes on as it is. -/
def toMetaTransactionError (params : MetaTransactionQuoteParams) : ApiError → ApiError
  | .reverted => .revert
  | .thrown (.error message) =>
    if message.startsWith SwapHandlers.INSUFFICIENT_ASSET_LIQUIDITY ||
        message.startsWith Routing.NO_OPTIMAL_PATH then
      .validation
        [{ field := if params.buyAmount.isSome then "buyAmount" else "sellAmount"
           code := .valueOutOfRange
           reason := SwapHandlers.INSUFFICIENT_ASSET_LIQUIDITY }]
    else if message.startsWith SwapHandlers.ASSET_UNAVAILABLE then
      .validation [{ field := "token", code := .valueOutOfRange, reason := message }]
    else if endpoint = .quote then
      .thrown (.error message)
    else
      .internal (.error message)
  | .thrown .typeError => if endpoint = .quote then .thrown .typeError else .internal .typeError
  | e => e

/-- What a request is read for. -/
def parseRequest (version : InterfaceVersion) : Except ApiError MetaTransactionQuoteParams :=
  match version with
  | .v1 => handlers.parseV1RequestParams request
  | .v2 => handlers.parseV2RequestBody request

/-- The handlers of both versions and endpoints: `getV1PriceAsync`, `getV1QuoteAsync`,
`getV2PriceAsync` and `getV2QuoteAsync`.  Ether cannot be sold for somebody else. -/
def getMetaTransaction (version : InterfaceVersion) :
    Except ApiError MetaTransactionQuoteResponse :=
  if handlers.metaTransactionSchemaErrors request ≠ [] then
    .error (.validation (handlers.metaTransactionSchemaErrors request))
  else do
    let params ← handlers.parseRequest request version
    if handlers.isNativeSymbolOrAddress params.sellTokenAddress then
      .error .ethSellNotSupported
    else
      (handlers.serveMetaTransaction endpoint version params).mapError
        (toMetaTransactionError endpoint params)

end MetaTransactionHandlers

/-! ## What is served -/

namespace MetaTransactionHandlers

variable {handlers : MetaTransactionHandlers} {request : MetaTransactionQuoteRequest}
  {endpoint : Endpoint} {version : InterfaceVersion}

/-- What a request says of a source: it does not exclude it, and includes it if it includes any. -/
structure Listed (request : MetaTransactionQuoteRequest) (source : ERC20BridgeSource) : Prop where
  notExcluded : ¬ Names (listedIds request.excludedSources) source
  included : (∀ other, ¬ Names (listedIds request.includedSources) other) ∨
    Names (listedIds request.includedSources) source

/-- An exchange of the chain that a request lists. -/
structure ListedExchange (handlers : MetaTransactionHandlers)
    (request : MetaTransactionQuoteRequest) (side : MarketOperation) (source : ERC20BridgeSource) :
    Prop where
  listed : Listed request source
  mem : source ∈ handlers.service.swapQuoter.marketOperationUtils.sampler.sourcesByChainId side

/-- What a gasless request is served with on its market: an open limit order or an exchange, if it
lists it. -/
inductive Served (handlers : MetaTransactionHandlers) (request : MetaTransactionQuoteRequest)
    (side : MarketOperation) (makerToken takerToken : String) (opts : SwapQuoteRequestOpts)
    (limitOrders : List SignedLimitOrder) (sampled : SampledMarket) (fill : Fill) : Prop
  | limitOrder (listed : Listed request .native) (order : SignedLimitOrder)
    (isOpen : handlers.service.swapQuoter.Open makerToken takerToken opts order)
    (ofOrder : LimitOrderFill side limitOrders sampled order fill)
  | exchange (ofExchange : ExchangeFill sampled fill)
    (listed : ListedExchange handlers request side fill.source)
  | twoHop (listed : Listed request .multiHop) (sample : TwoHopSample)
    (ofTwoHop : TwoHopFill sampled sample fill)
    (firstHop : ListedExchange handlers request side sample.firstHopSource.source)
    (secondHop : ListedExchange handlers request side sample.secondHopSource.source)

/-- The one order that a gasless request can be served with is a limit order. -/
theorem Served.type_eq {side : MarketOperation} {makerToken takerToken : String}
    {opts : SwapQuoteRequestOpts} {limitOrders : List SignedLimitOrder} {sampled : SampledMarket}
    {fill : Fill}
    (h : Served handlers request side makerToken takerToken opts limitOrders sampled fill)
    {order : NativeOrderWithFillableAmounts} (horder : fill.fillData = .native order) :
    order.type = .limit := by
  cases h with
  | limitOrder listed limitOrder isOpen ofOrder =>
    obtain ⟨fillable, _, hof⟩ := ofOrder
    have hsame := horder.symm.trans hof.fillData_eq
    cases hsame
    exact SwapQuoter.type_fillableOrder isOpen fillable
  | exchange ofExchange => exact absurd horder (ofExchange.ne_native order)
  | twoHop listed sample ofTwoHop => exact absurd horder (ofTwoHop.ne_native order)

theorem parseParams_eq_ok {affiliateFee : AffiliateFee} {buyToken sellToken : String}
    {metaTransactionVersion : MetaTransactionVersion} {params : MetaTransactionQuoteParams}
    (h : handlers.parseParams request affiliateFee buyToken sellToken metaTransactionVersion =
      .ok params) :
    params.excludedSources =
        parseStringArrForERC20BridgeSources (listedIds request.excludedSources) ∧
      params.includedSources =
        parseStringArrForERC20BridgeSources (listedIds request.includedSources) := by
  obtain ⟨slippage, _, h⟩ := Fallible.bind_eq_ok.mp h
  obtain ⟨feeConfigs, _, h⟩ := Fallible.bind_eq_ok.mp h
  cases h
  exact ⟨rfl, rfl⟩

theorem parseRequest_eq_ok {params : MetaTransactionQuoteParams}
    (h : handlers.parseRequest request version = .ok params) :
    params.excludedSources =
        parseStringArrForERC20BridgeSources (listedIds request.excludedSources) ∧
      params.includedSources =
        parseStringArrForERC20BridgeSources (listedIds request.includedSources) := by
  cases version with
  | v1 =>
    obtain ⟨_, _, h⟩ := Fallible.bind_eq_ok.mp h
    obtain ⟨_, _, h⟩ := Fallible.bind_eq_ok.mp h
    obtain ⟨_, _, h⟩ := Fallible.bind_eq_ok.mp h
    obtain ⟨hexcluded, hincluded⟩ := parseParams_eq_ok h
    exact ⟨hexcluded, hincluded⟩
  | v2 =>
    obtain ⟨_, _, h⟩ := Fallible.bind_eq_ok.mp h
    obtain ⟨_, _, h⟩ := Fallible.bind_eq_ok.mp h
    obtain ⟨_, _, h⟩ := Fallible.bind_eq_ok.mp h
    exact parseParams_eq_ok h

/-- An answer is of a quote for what the request is read for. -/
theorem getMetaTransaction_eq_ok [Arithmetic] {response : MetaTransactionQuoteResponse}
    (h : handlers.getMetaTransaction request endpoint version = .ok response) :
    ∃ params affiliateFee, handlers.parseRequest request version = .ok params ∧
      handlers.service.calculateSwapQuote (handlers.quoteParams endpoint params affiliateFee) =
        .ok response.quote := by
  have hserved : ∀ params, handlers.serveMetaTransaction endpoint version params = .ok response →
      ∃ affiliateFee, handlers.service.calculateSwapQuote
        (handlers.quoteParams endpoint params affiliateFee) = .ok response.quote := by
    intro params hserve
    obtain ⟨quote, hquote, hserve⟩ := Fallible.bind_eq_ok.mp hserve
    cases endpoint with
    | price =>
      cases hserve
      exact ⟨_, hquote⟩
    | quote =>
      obtain ⟨metaTransaction, _, hserve⟩ := Fallible.bind_eq_ok.mp hserve
      cases hserve
      exact ⟨_, hquote⟩
  unfold getMetaTransaction at h
  split at h
  · cases h
  · obtain ⟨params, hparams, h⟩ := Fallible.bind_eq_ok.mp h
    split at h
    · cases h
    · obtain ⟨affiliateFee, hquote⟩ := hserved params (SwapHandlers.mapError_eq_ok.mp h)
      exact ⟨params, affiliateFee, hparams, hquote⟩

/-- What is permitted of a request that lists sources, and has no integrator, is served. -/
theorem served_of_permitted {params : MetaTransactionQuoteParams} {affiliateFee : AffiliateFee}
    (hexcluded : params.excludedSources =
      parseStringArrForERC20BridgeSources (listedIds request.excludedSources))
    (hincluded : params.includedSources =
      parseStringArrForERC20BridgeSources (listedIds request.includedSources))
    {gasPrice : Option BigNumber} {side : MarketOperation} {makerToken takerToken : String}
    {amount : BigNumber} {limitOrders : List SignedLimitOrder} {sampled : SampledMarket}
    {fill : Fill}
    (h : handlers.service.swapQuoter.Permitted side makerToken takerToken amount
      (handlers.service.assetSwapperOpts (handlers.quoteParams endpoint params affiliateFee)
        gasPrice) (some handlers.service.rfqClient) limitOrders sampled fill) :
    Served handlers request side makerToken takerToken
      (handlers.service.assetSwapperOpts (handlers.quoteParams endpoint params affiliateFee)
        gasPrice) limitOrders sampled fill := by
  have hlisted : ∀ {source}, handlers.service.swapQuoter.Allows side
      (handlers.service.assetSwapperOpts (handlers.quoteParams endpoint params affiliateFee)
        gasPrice) source → Listed request source := by
    intro source hallows
    have hnot : source ∉ params.excludedSources := hallows.notExcluded
    have hpermits : SourceFilters.Permits params.includedSources source := hallows.included
    rw [hexcluded, mem_parseStringArr] at hnot
    rw [hincluded, permits_parseStringArr] at hpermits
    exact ⟨hnot, hpermits⟩
  cases h with
  | limitOrder allowed order isOpen ofOrder =>
    exact .limitOrder (hlisted allowed) order isOpen ofOrder
  | makerOrder allowed rfqt mayAsk =>
    -- without an integrator makers are not asked
    have hrfqt : handlers.service.rfqtOpts (handlers.quoteParams endpoint params affiliateFee) =
        some _ := mayAsk.rfqt_eq
    obtain ⟨_, integrator, hintegrator, _⟩ := SwapServing.SwapService.rfqtOpts_eq_some hrfqt
    cases hintegrator
  | exchange ofExchange allowed =>
    exact .exchange ofExchange ⟨hlisted allowed.toAllows, allowed.mem⟩
  | twoHop allowed sample ofTwoHop firstHop secondHop =>
    exact .twoHop (hlisted allowed) sample ofTwoHop ⟨hlisted firstHop.toAllows, firstHop.mem⟩
      ⟨hlisted secondHop.toAllows, secondHop.mem⟩

/-- Every fill of a gasless answer is an open limit order or an exchange that the request lists, and
none is an order of a maker. -/
theorem getMetaTransactionQuote_served [Arithmetic] {response : MetaTransactionQuoteResponse}
    {quote : PricedSwapQuote}
    (h : handlers.getMetaTransaction request endpoint version = .ok response)
    (hquote : response.quote.quote = some quote) :
    ∃ parsed affiliateFee params gasPrice amount limitOrders sampled,
      handlers.parseRequest request version = .ok parsed ∧
      params = handlers.quoteParams endpoint parsed affiliateFee ∧
      handlers.service.AnswersMarket params gasPrice amount limitOrders sampled ∧
      ∀ fill ∈ quote.path.fills,
        Served handlers request params.marketSide params.buyToken params.sellToken
          (handlers.service.assetSwapperOpts params gasPrice) limitOrders sampled fill ∧
        ∀ order, fill.fillData = .native order → order.type = .limit := by
  obtain ⟨parsed, affiliateFee, hparsed, hcalculated⟩ := getMetaTransaction_eq_ok h
  obtain ⟨hexcluded, hincluded⟩ := parseRequest_eq_ok hparsed
  obtain ⟨gasPrice, amount, limitOrders, sampled, hanswers, hpermitted⟩ :=
    SwapServing.SwapService.calculateSwapQuote_permitted hcalculated hquote
  refine ⟨parsed, affiliateFee, _, gasPrice, amount, limitOrders, sampled, hparsed, rfl, hanswers,
    fun fill hfill => ?_⟩
  have hserved := served_of_permitted hexcluded hincluded (hpermitted fill hfill)
  exact ⟨hserved, fun _ => hserved.type_eq⟩

/-! ### A gasless request -/

/-- The handlers of one key, whom a taker asks without it. -/
def oneRecipient : MetaTransactionHandlers :=
  { SwapHandlers.oneKey with
    metaTransactionSchemaErrors := fun _ => []
    META_TX_MIN_ALLOWED_SLIPPAGE := 1 / 1000
    FEE_RECIPIENT_ADDRESS := "f" }

def ofTaker : MetaTransactionQuoteRequest where
  sellToken := "w"
  buyToken := "d"
  sellAmount := some (.fin 40)
  buyAmount := none
  takerAddress := "T"
  slippagePercentage := none
  priceImpactProtectionPercentage := none
  excludedSources := none
  includedSources := some "0x,Uniswap_V2"
  affiliateFees := ⟨none, none, none, none⟩
  metaTransactionVersion := some "v1"
  feeConfigs := none

/-- The maker would give more, but only the exchange is asked. -/
theorem oneRecipient_served :
    ∃ (response : MetaTransactionQuoteResponse) (quote : PricedSwapQuote),
      response.quote.quote = some quote ∧ quote.path.fills.length = 1 ∧
      ∃ parsed affiliateFee params gasPrice amount limitOrders sampled,
        oneRecipient.parseRequest ofTaker .v2 = .ok parsed ∧
        params = oneRecipient.quoteParams .quote parsed affiliateFee ∧
        oneRecipient.service.AnswersMarket params gasPrice amount limitOrders sampled ∧
        ∀ fill ∈ quote.path.fills,
          Served oneRecipient ofTaker params.marketSide params.buyToken params.sellToken
            (oneRecipient.service.assetSwapperOpts params gasPrice) limitOrders sampled fill ∧
          ∀ order, fill.fillData = .native order → order.type = .limit := by
  have hrun : Fallible.okAnd (oneRecipient.getMetaTransaction ofTaker .quote .v2)
      (fun response => response.quote.quote.any fun quote =>
        decide (quote.path.fills.length = 1)) = true := by
    decide +kernel
  obtain ⟨response, hresponse, hany⟩ := Fallible.exists_of_okAnd hrun
  obtain ⟨quote, hquote, hlength⟩ := (Option.any_eq_true _ _).mp hany
  exact ⟨response, quote, hquote, of_decide_eq_true hlength,
    getMetaTransactionQuote_served hresponse hquote⟩

end MetaTransactionHandlers

end ZeroExApi.MetaTransactions
