/-
# ZeroExApi.SwapRequests — a swap request and what it is served

`swap_handlers.ts`: the query and the key of a request are read for the parameters of the service,
and what the service throws is put in the terms of the interface.

Every fill of an answer is of the sources that the text of the request asks for, and a maker's only
for the key of an integrator (`getSwapQuote_served`).  A request that names makers has them asked
on its market, or is told why not, unless its taker is blacklisted or a contract, or the chain has
no native orders (`validateRfqtOpts_of_rfqt`).  But whether it wants them only is written where
nobody reads it, so naming the protocol as well changes nothing (`getSwapQuote_zeroEx`).
-/

import ZeroExApi.SwapServing

namespace ZeroExApi.SwapRequests

open ZeroExApi.AffiliateFees (AffiliateFeeQuery AffiliateFee)
open ZeroExApi.OrderPages (ofSignedOrder)
open ZeroExApi.Routing (RfqRequestOpts SampledMarket oneExchange oneMaker)
open ZeroExApi.Routing.MarketOperationUtils
  (ExchangeFill LimitOrderFill MakerOrder NativeFill TwoHopFill)
open ZeroExApi.Sampling (OperationOf SignedLimitOrder routerQuote)
open ZeroExApi.SwapService (PricedSwapQuote)
open ZeroExApi.Lib ZeroExApi.Lib.BigNumber ZeroExApi.NativeOrders ZeroExApi.Quoting
open ZeroExApi.SourceRequests ZeroExApi.SwapServing

/-! ## Requests -/

/-- The query and the key of a request, with the numbers in it read. -/
structure SwapQuoteRequest where
  sellToken : String
  buyToken : String
  sellAmount : Option BigNumber
  buyAmount : Option BigNumber
  gasPrice : Option BigNumber
  takerAddress : Option String
  slippagePercentage : Option ℚ
  priceImpactProtectionPercentage : Option ℚ
  excludedSources : Option String
  includedSources : Option String
  intentOnFilling : Option String
  skipValidation : Option String
  shouldSellEntireBalance : Option String
  enableSlippageProtection : Option String
  affiliateFees : AffiliateFeeQuery
  apiKey : Option String

/-- What a request says of sources. -/
def SwapQuoteRequest.forSources (request : SwapQuoteRequest) :
    ParseRequestForExcludedSourcesParams where
  takerAddress := request.takerAddress
  excludedSources := request.excludedSources
  includedSources := request.includedSources
  intentOnFilling := request.intentOnFilling
  apiKey := request.apiKey

/-- The handlers with their service, the integrators they know, the schema of a query, what is known
of tokens, and what data costs on the chain below.  The quoter asks makers for the integrators that
may. -/
structure SwapHandlers where
  service : SwapServing.SwapService
  integrators : List Integrator
  txOriginBlacklist : JsSet String
  schemaErrors : SwapQuoteRequest → List ValidationErrorItem
  isNativeSymbolOrAddress : String → Bool
  isNativeWrappedSymbolOrAddress : String → Bool
  findTokenAddressOrThrow : String → Except JsError String
  nativeFeeToken : String
  estimateArbitrumL1CalldataGasCost : GetSwapQuoteResponse → BigNumber
  rfqtOptions_eq : service.swapQuoter.rfqtOptions =
    some ⟨RFQT_INTEGRATOR_IDS integrators, txOriginBlacklist⟩

/-- An optional text that is not empty. -/
def truthy (text : Option String) : Option String := text.filter (· != "")

def DEFAULT_PRICE_IMPACT_PROTECTION_PERCENTAGE : ℚ := 1

def DEFAULT_ENABLE_SLIPPAGE_PROTECTION : Bool := true

/-- `parseOptionalBooleanParam`. -/
def parseOptionalBooleanParam (param : Option String) (defaultValue : Bool) : Bool :=
  match truthy param with
  | none => defaultValue
  | some text => text == "true"

namespace SwapHandlers

variable [Arithmetic] (handlers : SwapHandlers) (request : SwapQuoteRequest) (endpoint : Endpoint)

/-! ### The parts of a request -/

/-- The integrator of a key, if the key is known. -/
def integratorId : Option String :=
  (truthy request.apiKey).bind fun apiKey =>
    getIntegratorIdForApiKey handlers.integrators apiKey

/-- `MATCHA_INTEGRATOR_ID`. -/
def MATCHA_INTEGRATOR_ID : Option String := getIntegratorIdFromLabel handlers.integrators "Matcha"

/-- A quote is validated unless the request says otherwise, a price only if it does; a quote for
Matcha always is. -/
def skipValidation : Bool :=
  let integratorId := handlers.integratorId request
  if endpoint = .quote ∧ integratorId.isSome ∧ integratorId = handlers.MATCHA_INTEGRATOR_ID then
    false
  else
    match request.skipValidation with
    | none => endpoint = .price
    | some skipValidation => skipValidation == "true"

/-- `findTokenAddressOrThrowApiError`, in lower case. -/
def findTokenAddressOrThrowApiError (address field : String) : Except ApiError String :=
  match handlers.findTokenAddressOrThrow address with
  | .ok token => .ok token.toLower
  | .error (.error message) =>
    .error (.validation [{ field := field, code := .valueOutOfRange, reason := message }])
  | .error .typeError =>
    .error (.validation [{ field := field, code := .valueOutOfRange, reason := "" }])

/-- The tokens of a request, and whether it wraps or unwraps. -/
structure RequestTokens where
  sellToken : String
  buyToken : String
  isNativeSell : Bool
  isNativeBuy : Bool
  isWrap : Bool
  isUnwrap : Bool

/-- The tokens have to be two, unless one is to be made into the other. -/
def parseTokens : Except ApiError RequestTokens := do
  let isNativeSell := handlers.isNativeSymbolOrAddress request.sellToken
  let isNativeBuy := handlers.isNativeSymbolOrAddress request.buyToken
  let sellToken ← handlers.findTokenAddressOrThrowApiError
    (if isNativeSell then handlers.nativeFeeToken else request.sellToken) "sellToken"
  let buyToken ← handlers.findTokenAddressOrThrowApiError
    (if isNativeBuy then handlers.nativeFeeToken else request.buyToken) "buyToken"
  let isWrap := isNativeSell && handlers.isNativeWrappedSymbolOrAddress buyToken
  let isUnwrap := handlers.isNativeWrappedSymbolOrAddress sellToken && isNativeBuy
  if !isUnwrap && !isWrap && sellToken == buyToken then
    .error
      (.validation
        (["buyToken", "sellToken"].map fun field =>
          { field := field
            code := .requiredField
            reason := "buyToken and sellToken must be different" }))
  else if sellToken = NULL_ADDRESS ∨ buyToken = NULL_ADDRESS then
    .error
      (.validation
        (["buyToken", "sellToken"].map fun field =>
          { field := field, code := .fieldInvalid, reason := "Invalid token combination" }))
  else
    .ok { sellToken, buyToken, isNativeSell, isNativeBuy, isWrap, isUnwrap }

/-- A percentage, which is not to be more than the whole. -/
def parsePercentage (field : String) (percentage : Option ℚ) (default : ℚ)
    (description : Option String) : Except ApiError ℚ :=
  let percentage := percentage.getD default
  if percentage > 1 then
    .error
      (.validation
        [{ field := field
           code := .valueOutOfRange
           reason := "MUST_BE_LESS_THAN_OR_EQUAL_TO_ONE"
           description := description }])
  else
    .ok percentage

/-- The sources of a request, which are not to be none. -/
def parseSources : Except ApiError ParseRequestForExcludedSourcesResult := do
  let result ←
    (parseRequestForExcludedSources request.forSources
      (RFQT_API_KEY_WHITELIST handlers.integrators) endpoint).mapError .validation
  if SourceFilters.members.all fun source => source ∈ result.excludedSources then
    .error
      (.validation
        [{ field := "excludedSources"
           code := .valueOutOfRange
           reason := "Request excluded all sources" }])
  else
    .ok result

/-- `rfqt`: what is wanted of makers, for a request with a key. -/
def rfqtParams (nativeExclusivelyRFQT : Bool) : Option RfqtParams :=
  match truthy request.apiKey, endpoint, truthy request.takerAddress with
  | some _, .quote, some _ =>
    some
      { intentOnFilling := request.intentOnFilling == some "true"
        isIndicative := false
        nativeExclusivelyRFQT := nativeExclusivelyRFQT }
  | some _, .price, _ =>
    some
      { intentOnFilling := false
        isIndicative := true
        nativeExclusivelyRFQT := nativeExclusivelyRFQT }
  | _, _, _ => none

/-- The integrator of a request. -/
def integrator : Except ApiError (Option Integrator) :=
  match truthy (handlers.integratorId request) with
  | none => .ok none
  | some integratorId =>
    orThrow ((getIntegratorByIdOrThrow handlers.integrators integratorId).map some)

/-- `parseSwapQuoteRequestParams`. -/
def parseSwapQuoteRequestParams : Except ApiError GetSwapQuoteParams :=
  if handlers.schemaErrors request ≠ [] then
    .error (.validation (handlers.schemaErrors request))
  else do
    let tokens ← handlers.parseTokens request
    let slippagePercentage ← parsePercentage "slippagePercentage" request.slippagePercentage
      DEFAULT_QUOTE_SLIPPAGE_PERCENTAGE none
    let priceImpactProtectionPercentage ← parsePercentage "priceImpactProtectionPercentage"
      request.priceImpactProtectionPercentage DEFAULT_PRICE_IMPACT_PROTECTION_PERCENTAGE
      (some "priceImpactProtectionPercentage should be between 0 and 1.0")
    let sources ← handlers.parseSources request endpoint
    let affiliateFee ←
      (AffiliateFees.parseAffiliateFeeOptions request.affiliateFees).mapError fun item =>
        .validation [ofFeeError item]
    let integrator ← handlers.integrator request
    .ok
      { endpoint := endpoint
        sellToken := tokens.sellToken
        buyToken := tokens.buyToken
        sellAmount := request.sellAmount
        buyAmount := request.buyAmount
        takerAddress := request.takerAddress
        gasPrice := request.gasPrice
        slippagePercentage := some slippagePercentage
        priceImpactProtectionPercentage := priceImpactProtectionPercentage
        excludedSources := sources.excludedSources
        includedSources := sources.includedSources
        affiliateFee := affiliateFee
        integrator := integrator
        rfqt := rfqtParams request endpoint sources.nativeExclusivelyRFQT
        skipValidation := handlers.skipValidation request endpoint
        shouldSellEntireBalance := request.shouldSellEntireBalance == some "true"
        isWrap := tokens.isWrap
        isUnwrap := tokens.isUnwrap
        isETHSell := tokens.isNativeSell
        isETHBuy := tokens.isNativeBuy
        enableSlippageProtection :=
          parseOptionalBooleanParam request.enableSlippageProtection
            DEFAULT_ENABLE_SLIPPAGE_PROTECTION
        metaTransactionVersion := none
        feeConfigs := none }

/-! ### The answer -/

def INSUFFICIENT_ASSET_LIQUIDITY : String := "INSUFFICIENT_ASSET_LIQUIDITY"

def ASSET_UNAVAILABLE : String := "ASSET_UNAVAILABLE"

/-- What is thrown, in the terms of the interface. -/
def toApiError (params : GetSwapQuoteParams) : ApiError → ApiError
  | .reverted => .revert
  | .thrown (.error message) =>
    if message.startsWith INSUFFICIENT_ASSET_LIQUIDITY ||
        message.startsWith Routing.NO_OPTIMAL_PATH then
      .validation
        [{ field := if params.sellAmount.isSome then "sellAmount" else "buyAmount"
           code := .valueOutOfRange
           reason := INSUFFICIENT_ASSET_LIQUIDITY
           description := some
            ("We are not able to fulfill an order for this token pair at the requested amount " ++
              "due to a lack of liquidity") }]
    else if message.startsWith ASSET_UNAVAILABLE then
      .validation [{ field := "token", code := .valueOutOfRange, reason := message }]
    else
      .internal (.error message)
  | .thrown .typeError => .internal .typeError
  -- an error of the interface already
  | e => e

/-- What the service makes of the parameters. -/
def serve (params : GetSwapQuoteParams) : Except ApiError GetSwapQuoteResponse :=
  if params.isUnwrap then
    handlers.service.getSwapQuoteForNativeWrapped params true
  else if params.isWrap then
    handlers.service.getSwapQuoteForNativeWrapped params false
  else
    handlers.service.calculateSwapQuote params

/-- On Arbitrum the data of a call is paid for on the chain below as well. -/
def withL1GasCost (response : GetSwapQuoteResponse) : GetSwapQuoteResponse :=
  if handlers.service.chainId = .arbitrum then
    { response with gas := response.gas.plus (handlers.estimateArbitrumL1CalldataGasCost response) }
  else
    response

/-- `_getSwapQuoteAsync`. -/
def getSwapQuoteForParams (params : GetSwapQuoteParams) : Except ApiError GetSwapQuoteResponse :=
  ((handlers.serve params).map handlers.withL1GasCost).mapError (toApiError params)

/-- `getQuoteAsync` and `getQuotePriceAsync`, of which the latter shows less of the response. -/
def getSwapQuote : Except ApiError GetSwapQuoteResponse := do
  let params ← handlers.parseSwapQuoteRequestParams request endpoint
  handlers.getSwapQuoteForParams params

end SwapHandlers

/-! ## What a request is read for -/

namespace SwapHandlers

variable {handlers : SwapHandlers} {request : SwapQuoteRequest} {endpoint : Endpoint}
  {params : GetSwapQuoteParams}

/-- The parameters that a request is read for. -/
structure Parsed (handlers : SwapHandlers) (request : SwapQuoteRequest) (endpoint : Endpoint)
    (params : GetSwapQuoteParams) (sources : ParseRequestForExcludedSourcesResult) : Prop where
  sources_eq : parseRequestForExcludedSources request.forSources
    (RFQT_API_KEY_WHITELIST handlers.integrators) endpoint = .ok sources
  excluded_eq : params.excludedSources = sources.excludedSources
  included_eq : params.includedSources = sources.includedSources
  taker_eq : params.takerAddress = request.takerAddress
  rfqt_eq : params.rfqt = rfqtParams request endpoint sources.nativeExclusivelyRFQT
  integrator_eq : handlers.integrator request = .ok params.integrator

theorem mapError_eq_ok {ε ε' α : Type} {f : ε → ε'} {x : Except ε α} {a : α} :
    x.mapError f = .ok a ↔ x = .ok a := by
  cases x with
  | error e =>
    constructor
    · intro h
      cases h
    · intro h
      cases h
  | ok b => exact ⟨fun h => by cases h; rfl, fun h => by cases h; rfl⟩

theorem exists_parsed
    (h : handlers.parseSwapQuoteRequestParams request endpoint = .ok params) :
    ∃ sources, Parsed handlers request endpoint params sources := by
  unfold parseSwapQuoteRequestParams at h
  split at h
  · cases h
  · obtain ⟨tokens, _, h⟩ := Fallible.bind_eq_ok.mp h
    obtain ⟨slippage, _, h⟩ := Fallible.bind_eq_ok.mp h
    obtain ⟨impact, _, h⟩ := Fallible.bind_eq_ok.mp h
    obtain ⟨sources, hsources, h⟩ := Fallible.bind_eq_ok.mp h
    obtain ⟨fee, _, h⟩ := Fallible.bind_eq_ok.mp h
    obtain ⟨integrator, hintegrator, h⟩ := Fallible.bind_eq_ok.mp h
    obtain ⟨result, hresult, hsources⟩ := Fallible.bind_eq_ok.mp hsources
    split at hsources
    · cases hsources
    · cases hsources
      cases h
      exact ⟨_, mapError_eq_ok.mp hresult, rfl, rfl, rfl, rfl, hintegrator⟩

/-- The parameters have the sources that the request asks for. -/
theorem Parsed.requested {sources : ParseRequestForExcludedSourcesResult}
    (h : Parsed handlers request endpoint params sources) {source : ERC20BridgeSource}
    (hexcluded : source ∉ params.excludedSources)
    (hincluded : SourceFilters.Permits params.includedSources source) :
    Requested request.forSources source := by
  rw [← requested_iff h.sources_eq, ← h.excluded_eq, ← h.included_eq]
  exact ⟨hexcluded, hincluded⟩

/-- An integrator is the one of a key, which is not empty. -/
theorem key_of_integrator {integrator : Integrator}
    (h : handlers.integrator request = .ok (some integrator)) :
    ∃ apiKey id, request.apiKey = some apiKey ∧ apiKey ≠ "" ∧
      getIntegratorIdForApiKey handlers.integrators apiKey = some id ∧
      getIntegratorByIdOrThrow handlers.integrators id = .ok integrator := by
  unfold SwapHandlers.integrator at h
  split at h
  · cases h
  · rename_i id hid
    obtain ⟨hid, _⟩ := Option.filter_eq_some_iff.mp hid
    obtain ⟨apiKey, hkey, hfound⟩ := Option.bind_eq_some_iff.mp hid
    obtain ⟨hkey, hne⟩ := Option.filter_eq_some_iff.mp hkey
    have h := SwapServing.SwapService.orThrow_eq_ok.mp h
    cases hthrow : getIntegratorByIdOrThrow handlers.integrators id with
    | error e =>
      rw [hthrow] at h
      cases h
    | ok found =>
      rw [hthrow] at h
      cases h
      exact ⟨apiKey, id, hkey, by simpa using hne, hfound, hthrow⟩

/-! ## What is served -/

/-- Who asks makers: the integrator of the key of the request, if it may, for a taker who is not
blacklisted. -/
structure AsksMakers (handlers : SwapHandlers) (request : SwapQuoteRequest)
    (rfqt : RfqRequestOpts) : Prop where
  integrator : ∃ apiKey id integrator, request.apiKey = some apiKey ∧ apiKey ≠ "" ∧
    getIntegratorIdForApiKey handlers.integrators apiKey = some id ∧
    getIntegratorByIdOrThrow handlers.integrators id = .ok integrator ∧
    rfqt.integratorId = integrator.integratorId
  mayAsk : rfqt.integratorId ∈ RFQT_INTEGRATOR_IDS handlers.integrators
  txOrigin_eq : rfqt.txOrigin = request.takerAddress.getD ""
  notBlacklisted : rfqt.txOrigin ≠ "" →
    rfqt.txOrigin.toLower ∉ handlers.txOriginBlacklist.elements

/-- An exchange that a request is served from: one of the chain that it asks for. -/
structure ServedExchange (handlers : SwapHandlers) (request : SwapQuoteRequest)
    (side : MarketOperation) (source : ERC20BridgeSource) : Prop where
  requested : Requested request.forSources source
  mem : source ∈ handlers.service.swapQuoter.marketOperationUtils.sampler.sourcesByChainId side

/-- What a request is served with on its market: an open limit order, an order of a maker who was
asked, or an exchange; each if the request asks for it. -/
inductive Served (handlers : SwapHandlers) (request : SwapQuoteRequest) (side : MarketOperation)
    (makerToken takerToken : String) (amount : BigNumber) (opts : SwapQuoteRequestOpts)
    (limitOrders : List SignedLimitOrder) (sampled : SampledMarket) (fill : Fill) : Prop
  | limitOrder (requested : Requested request.forSources .native) (order : SignedLimitOrder)
    (isOpen : handlers.service.swapQuoter.Open makerToken takerToken opts order)
    (ofOrder : LimitOrderFill side limitOrders sampled order fill)
  | makerOrder (requested : Requested request.forSources .native) (rfqt : RfqRequestOpts)
    (asks : AsksMakers handlers request rfqt) (notContract : sampled.isTxOriginContract = false)
    (comparisonPrice : Option BigNumber) (order : NativeOrderWithFillableAmounts)
    (made : MakerOrder (SwapQuoter.askedWith (some handlers.service.rfqClient) rfqt)
      (handlers.service.swapQuoter.marketOperationUtils.rfqtV1Request
        (SwapQuoter.askedWith (some handlers.service.rfqClient) rfqt) makerToken takerToken amount
        side comparisonPrice) order)
    (ofOrder : NativeFill side order fill)
  | exchange (ofExchange : ExchangeFill sampled fill)
    (served : ServedExchange handlers request side fill.source)
  | twoHop (requested : Requested request.forSources .multiHop) (sample : TwoHopSample)
    (ofTwoHop : TwoHopFill sampled sample fill)
    (firstHop : ServedExchange handlers request side sample.firstHopSource.source)
    (secondHop : ServedExchange handlers request side sample.secondHopSource.source)

theorem asksMakers_of_mayAsk {sources : ParseRequestForExcludedSourcesResult}
    (hparsed : Parsed handlers request endpoint params sources) {gasPrice : Option BigNumber}
    {rfqt : RfqRequestOpts}
    (h : handlers.service.swapQuoter.MayAsk (handlers.service.assetSwapperOpts params gasPrice)
      rfqt) :
    AsksMakers handlers request rfqt := by
  obtain ⟨_, integrator, hintegrator, hid, horigin, _⟩ :=
    SwapServing.SwapService.rfqtOpts_eq_some h.rfqt_eq
  have hfound := hparsed.integrator_eq
  rw [hintegrator] at hfound
  obtain ⟨apiKey, id, hkey, hne, hkeyed, hgot⟩ := key_of_integrator hfound
  obtain ⟨_, rfqtOptions, hoptions, hmem⟩ := h.whitelisted
  rw [handlers.rfqtOptions_eq] at hoptions
  cases hoptions
  refine ⟨⟨apiKey, id, integrator, hkey, hne, hkeyed, hgot, hid⟩, hmem, ?_, ?_⟩
  · rw [horigin, hparsed.taker_eq]
  · intro hnonempty
    exact h.notBlacklisted hnonempty _ handlers.rfqtOptions_eq

theorem servedExchange_of_allows {sources : ParseRequestForExcludedSourcesResult}
    (hparsed : Parsed handlers request endpoint params sources) {gasPrice : Option BigNumber}
    {side : MarketOperation} {source : ERC20BridgeSource}
    (h : handlers.service.swapQuoter.AllowsExchange side
      (handlers.service.assetSwapperOpts params gasPrice) source) :
    ServedExchange handlers request side source :=
  ⟨hparsed.requested h.notExcluded h.included, h.mem⟩

/-- What the parameters permit is what the request asks for. -/
theorem served_of_permitted {sources : ParseRequestForExcludedSourcesResult}
    (hparsed : Parsed handlers request endpoint params sources) {gasPrice : Option BigNumber}
    {side : MarketOperation} {makerToken takerToken : String} {amount : BigNumber}
    {limitOrders : List SignedLimitOrder} {sampled : SampledMarket} {fill : Fill}
    (h : handlers.service.swapQuoter.Permitted side makerToken takerToken amount
      (handlers.service.assetSwapperOpts params gasPrice) (some handlers.service.rfqClient)
      limitOrders sampled fill) :
    Served handlers request side makerToken takerToken amount
      (handlers.service.assetSwapperOpts params gasPrice) limitOrders sampled fill := by
  cases h with
  | limitOrder allowed order isOpen ofOrder =>
    exact .limitOrder (hparsed.requested allowed.notExcluded allowed.included) order isOpen ofOrder
  | makerOrder allowed rfqt mayAsk notContract comparisonPrice order made ofOrder =>
    exact .makerOrder (hparsed.requested allowed.notExcluded allowed.included) rfqt
      (asksMakers_of_mayAsk hparsed mayAsk) notContract comparisonPrice order made ofOrder
  | exchange ofExchange allowed =>
    exact .exchange ofExchange (servedExchange_of_allows hparsed allowed)
  | twoHop allowed sample ofTwoHop firstHop secondHop =>
    exact .twoHop (hparsed.requested allowed.notExcluded allowed.included) sample ofTwoHop
      (servedExchange_of_allows hparsed firstHop) (servedExchange_of_allows hparsed secondHop)

/-- An answer with a quote is one that the service calculated. -/
theorem getSwapQuote_eq_ok [Arithmetic] {response : GetSwapQuoteResponse} {quote : PricedSwapQuote}
    (h : handlers.getSwapQuote request endpoint = .ok response)
    (hquote : response.quote = some quote) :
    ∃ params calculated, handlers.parseSwapQuoteRequestParams request endpoint = .ok params ∧
      handlers.service.calculateSwapQuote params = .ok calculated ∧
      calculated.quote = some quote := by
  obtain ⟨params, hparams, h⟩ := Fallible.bind_eq_ok.mp h
  have hserved := mapError_eq_ok.mp h
  obtain ⟨calculated, hcalculated, rfl⟩ : ∃ calculated,
      handlers.serve params = .ok calculated ∧ handlers.withL1GasCost calculated = response := by
    cases hserve : handlers.serve params with
    | error e =>
      rw [hserve] at hserved
      cases hserved
    | ok calculated =>
      rw [hserve] at hserved
      cases hserved
      exact ⟨calculated, rfl, rfl⟩
  have hsame : calculated.quote = some quote := by
    unfold withL1GasCost at hquote
    split at hquote
    · exact hquote
    · exact hquote
  have hnone : ∀ isUnwrap, handlers.service.getSwapQuoteForNativeWrapped params isUnwrap =
      .ok calculated → calculated.quote = none := by
    intro isUnwrap hwrapped
    obtain ⟨amount, _, hwrapped⟩ := Fallible.bind_eq_ok.mp hwrapped
    obtain ⟨gasPrice, _, hwrapped⟩ := Fallible.bind_eq_ok.mp hwrapped
    cases hwrapped
    rfl
  unfold serve at hcalculated
  split at hcalculated
  · rw [hnone _ hcalculated] at hsame
    cases hsame
  · split at hcalculated
    · rw [hnone _ hcalculated] at hsame
      cases hsame
    · exact ⟨params, calculated, hparams, hcalculated, hsame⟩

/-- Every fill of an answer is one that the text of the request asks for, and a maker's only if the
key of the request is that of an integrator who may ask makers. -/
theorem getSwapQuote_served [Arithmetic] {response : GetSwapQuoteResponse} {quote : PricedSwapQuote}
    (h : handlers.getSwapQuote request endpoint = .ok response)
    (hquote : response.quote = some quote) :
    ∃ params gasPrice amount limitOrders sampled,
      handlers.parseSwapQuoteRequestParams request endpoint = .ok params ∧
      handlers.service.AnswersMarket params gasPrice amount limitOrders sampled ∧
      ∀ fill ∈ quote.path.fills,
        Served handlers request params.marketSide params.buyToken params.sellToken amount
          (handlers.service.assetSwapperOpts params gasPrice) limitOrders sampled fill := by
  obtain ⟨params, calculated, hparams, hcalculated, hsame⟩ := getSwapQuote_eq_ok h hquote
  obtain ⟨sources, hparsed⟩ := exists_parsed hparams
  obtain ⟨gasPrice, amount, limitOrders, sampled, hanswers, hpermitted⟩ :=
    SwapServing.SwapService.calculateSwapQuote_permitted hcalculated hsame
  exact ⟨params, gasPrice, amount, limitOrders, sampled, hparams, hanswers, fun fill hfill =>
    served_of_permitted hparsed (hpermitted fill hfill)⟩

/-! ### A request with a key

A chain with an exchange, and one integrator, who may ask the maker. -/

/-- Two for one at forty amounts. -/
def fortyTwoForOne : (source : ERC20BridgeSource) → List (OperationOf source)
  | .uniswapV2 =>
    [⟨(List.range 40).map fun i => (2 * (i + 1)).toUInt8, fun data => .ok (routerQuote data)⟩]
  | _ => []

/-- Forty of one path; of two paths, five of the second. -/
def fiveOfForty : NeonRouter := fun capture _ =>
  let amounts : ℕ → RoutedAmounts := fun i =>
    if capture.pathsIn.length = 1 then
      ⟨.fin 40, .fin 80⟩
    else if i = 0 then
      ⟨.fin 35, .fin 70⟩
    else
      ⟨.fin 5, .fin 40⟩
  ⟨amounts, amounts⟩

def mainnetService : SwapServing.SwapService where
  chainId := .mainnet
  swapQuoter :=
    { oneIntegrator with
      marketOperationUtils :=
        { oneExchange with
          sampler :=
            { oneExchange.sampler with
              operationsOf := fun _ source _ _ _ _ => fortyTwoForOne source }
          router := fiveOfForty } }
  swapQuoteConsumer := ExchangeProxyOverhead.mainnetConsumer
  rfqClient := oneMaker
  isRfqtEnabled := true
  firmQuoteValidator := none
  altRfqAssetOfferings := []
  slippageModels := none
  sampleDistributionBase := 1
  gaslessSwapFeeEnabled := false
  zeroExFeeTokens := JsSet.ofList []
  zeroExFeeRecipientAddress := NULL_ADDRESS
  etherToken := "w"
  estimateGasOrThrowRevertError _ _ _ := .error .reverted

/-- Handlers that know one key; a taker has to have an address. -/
def oneKey : SwapHandlers where
  service := mainnetService
  integrators := [{ apiKeys := ["k"], integratorId := "i", label := "l", rfqt := true }]
  txOriginBlacklist := JsSet.ofList []
  schemaErrors request :=
    if request.takerAddress = some "" then
      [{ field := "takerAddress", code := .incorrectFormat, reason := "should match pattern" }]
    else
      []
  isNativeSymbolOrAddress _ := false
  isNativeWrappedSymbolOrAddress _ := false
  findTokenAddressOrThrow token := .ok token
  nativeFeeToken := "w"
  estimateArbitrumL1CalldataGasCost _ := 0
  rfqtOptions_eq := rfl

/-- A request with that key. -/
def ofKey (includedSources : Option String) : SwapQuoteRequest where
  sellToken := "w"
  buyToken := "d"
  sellAmount := some (.fin 40)
  buyAmount := none
  gasPrice := none
  takerAddress := some "t"
  slippagePercentage := none
  priceImpactProtectionPercentage := none
  excludedSources := none
  includedSources := includedSources
  intentOnFilling := some "true"
  skipValidation := some "true"
  shouldSellEntireBalance := none
  enableSlippageProtection := none
  affiliateFees := ⟨none, none, none, none⟩
  apiKey := some "k"

/-- The key asks the maker besides the exchange, so both fills of the answer are served. -/
theorem oneKey_served :
    ∃ (response : GetSwapQuoteResponse) (quote : PricedSwapQuote),
      response.quote = some quote ∧ quote.path.fills.length = 2 ∧
      ∃ params gasPrice amount limitOrders sampled,
        oneKey.parseSwapQuoteRequestParams (ofKey (some "RFQT,Uniswap_V2")) .quote = .ok params ∧
        oneKey.service.AnswersMarket params gasPrice amount limitOrders sampled ∧
        ∀ fill ∈ quote.path.fills,
          Served oneKey (ofKey (some "RFQT,Uniswap_V2")) params.marketSide params.buyToken
            params.sellToken amount (oneKey.service.assetSwapperOpts params gasPrice) limitOrders
            sampled fill := by
  have hrun : Fallible.okAnd (oneKey.getSwapQuote (ofKey (some "RFQT,Uniswap_V2")) .quote)
      (fun response => response.quote.any fun quote => decide (quote.path.fills.length = 2)) =
        true := by
    decide +kernel
  obtain ⟨response, hresponse, hany⟩ := Fallible.exists_of_okAnd hrun
  obtain ⟨quote, hquote, hlength⟩ := (Option.any_eq_true _ _).mp hany
  exact ⟨response, quote, hquote, of_decide_eq_true hlength, getSwapQuote_served hresponse hquote⟩

/-! ## Makers on request -/

/-- The integrator of a key that may ask makers. -/
theorem integrator_of_whitelisted (hdistinct : DistinctIntegrators handlers.integrators)
    {apiKey : String} (hkey : request.apiKey = some apiKey)
    (h : apiKey ∈ RFQT_API_KEY_WHITELIST handlers.integrators) :
    apiKey ≠ "" ∧ ∃ integrator, handlers.integrator request = .ok (some integrator) ∧
      integrator.integratorId ≠ "" ∧
      integrator.integratorId ∈ RFQT_INTEGRATOR_IDS handlers.integrators := by
  obtain ⟨hne, integrator, hid, hgot, hnamed, hmayAsk⟩ :=
    SourceRequests.integrator_of_whitelisted hdistinct h
  refine ⟨hne, integrator, ?_, hnamed, hmayAsk⟩
  have htruthy : truthy request.apiKey = some apiKey := by
    rw [hkey]
    exact Option.filter_eq_some_iff.mpr ⟨rfl, by simpa using hne⟩
  have hfound : truthy (handlers.integratorId request) = some integrator.integratorId := by
    rw [integratorId, htruthy, Option.bind_some, hid]
    exact Option.filter_eq_some_iff.mpr ⟨rfl, by simpa using hnamed⟩
  unfold SwapHandlers.integrator
  rw [hfound]
  dsimp only
  rw [hgot]
  rfl

/-- What is wanted of makers at an endpoint. -/
theorem rfqtParams_eq {apiKey taker : String} (hkey : request.apiKey = some apiKey)
    (hkeyed : apiKey ≠ "") (htaker : request.takerAddress = some taker) (htaken : taker ≠ "")
    (hintent : endpoint = .quote → request.intentOnFilling = some "true")
    (nativeExclusivelyRFQT : Bool) :
    rfqtParams request endpoint nativeExclusivelyRFQT =
      some
        { intentOnFilling := decide (endpoint = .quote)
          isIndicative := decide (endpoint = .price)
          nativeExclusivelyRFQT := nativeExclusivelyRFQT } := by
  have hkey : truthy request.apiKey = some apiKey := by
    rw [hkey]
    exact Option.filter_eq_some_iff.mpr ⟨rfl, by simpa using hkeyed⟩
  have htaker : truthy request.takerAddress = some taker := by
    rw [htaker]
    exact Option.filter_eq_some_iff.mpr ⟨rfl, by simpa using htaken⟩
  unfold rfqtParams
  rw [hkey, htaker]
  cases endpoint with
  | price => rfl
  | quote =>
    rw [hintent rfl]
    rfl

/-- The options of a request that names makers: for its taker, of an integrator who may ask. -/
theorem rfqtOpts_of_rfqt (hdistinct : DistinctIntegrators handlers.integrators)
    {sources : ParseRequestForExcludedSourcesResult}
    (hparsed : Parsed handlers request endpoint params sources)
    (hrfqt : "RFQT" ∈ sourceIds request.includedSources)
    (htaken : request.takerAddress ≠ some "") :
    ∃ taker integratorId, request.takerAddress = some taker ∧ taker ≠ "" ∧ integratorId ≠ "" ∧
      integratorId ∈ RFQT_INTEGRATOR_IDS handlers.integrators ∧
      handlers.service.rfqtOpts params = some
        { takerAddress := NULL_ADDRESS
          txOrigin := taker
          integratorId := integratorId
          intentOnFilling := decide (endpoint = .quote)
          isIndicative := decide (endpoint = .price)
          nativeExclusivelyRFQ := false
          altRfqAssetOfferings := handlers.service.altRfqAssetOfferings
          quoteRequestor := false
          rfqClient := none
          firmQuoteValidator := handlers.service.firmQuoteValidator } := by
  obtain ⟨⟨taker, htaker⟩, ⟨apiKey, hkey, hwhitelisted⟩, hintent, _, _⟩ :=
    whitelisted_of_parsed hparsed.sources_eq hrfqt
  have htaker : request.takerAddress = some taker := htaker
  have hkey : request.apiKey = some apiKey := hkey
  have hnonempty : taker ≠ "" := fun hempty => htaken (hempty ▸ htaker)
  obtain ⟨hkeyed, integrator, hintegrator, hnamed, hmayAsk⟩ :=
    integrator_of_whitelisted hdistinct hkey hwhitelisted
  refine ⟨taker, integrator.integratorId, htaker, hnonempty, hnamed, hmayAsk, ?_⟩
  have hfound : params.integrator = some integrator :=
    Except.ok.inj (hparsed.integrator_eq.symm.trans hintegrator)
  have hwanted : params.rfqt = some
      { intentOnFilling := decide (endpoint = .quote)
        isIndicative := decide (endpoint = .price)
        nativeExclusivelyRFQT := sources.nativeExclusivelyRFQT } :=
    hparsed.rfqt_eq.trans (rfqtParams_eq hkey hkeyed htaker hnonempty hintent _)
  have htakerParams : params.takerAddress = some taker := hparsed.taker_eq.trans htaker
  have henabled : params.shouldEnableRfqt = true := by
    unfold GetSwapQuoteParams.shouldEnableRfqt
    rw [hfound, htakerParams]
    simp
  unfold SwapServing.SwapService.rfqtOpts
  rw [if_pos henabled, hfound, hwanted, htakerParams]
  rfl

/-- Makers are asked with the options of a request on any of its markets, exactly if the sampler
takes the taker for no contract and the chain has native orders. -/
def AskedOnMarkets [Arithmetic] (handlers : SwapHandlers) (opts : SwapQuoteRequestOpts)
    (taker : String) (rfqt : RfqRequestOpts) : Prop :=
  ∀ side makerToken takerToken limitOrders amount price sampled liquidity,
    handlers.service.swapQuoter.marketOperationUtils.sampleMarket side makerToken takerToken
      limitOrders amount
      (handlers.service.swapQuoter.calcOpts opts price (some rfqt)
        (some handlers.service.rfqClient)) = .ok sampled →
    handlers.service.swapQuoter.marketOperationUtils.getMarketLiquidity side makerToken takerToken
      limitOrders amount
      (handlers.service.swapQuoter.calcOpts opts price (some rfqt)
        (some handlers.service.rfqClient)) = .ok liquidity →
    Routing.MarketOperationUtils.txOrigin
      (handlers.service.swapQuoter.calcOpts opts price (some rfqt)
        (some handlers.service.rfqClient)) = taker ∧
    ∀ asked,
      Routing.MarketOperationUtils.rfqtOf liquidity
          (handlers.service.swapQuoter.calcOpts opts price (some rfqt)
            (some handlers.service.rfqClient)) = some asked ↔
        asked = SwapQuoter.askedWith (some handlers.service.rfqClient) rfqt ∧
          sampled.isTxOriginContract = false ∧
          SourceFilters.Permits
            (handlers.service.swapQuoter.marketOperationUtils.sampler.sourcesByChainId side) .native

/-- The request's own lists have nothing against makers. -/
theorem askedOnMarkets_of_included [Arithmetic] {opts : SwapQuoteRequestOpts} {taker : String}
    {rfqt : RfqRequestOpts} (hexcluded : .native ∉ opts.excludedSources)
    (hincluded : SourceFilters.Permits opts.includedSources .native)
    (horigin : rfqt.txOrigin = taker) (htaken : taker ≠ "") :
    AskedOnMarkets handlers opts taker rfqt := by
  subst horigin
  intro side makerToken takerToken limitOrders amount price sampled liquidity hsampled hliquidity
  refine ⟨if_neg htaken, fun asked => ?_⟩
  rw [SwapQuoter.rfqtOf_eq_some_iff hsampled hliquidity]
  refine and_congr_right fun _ => and_congr_right fun _ => ?_
  exact ⟨fun hallows => hallows.ofChain, fun hchain => ⟨hchain, hexcluded, hincluded⟩⟩

/-- A request that names makers has them asked.  Nothing comes in between but a blacklisted taker,
for a firm quote a taker that is nobody, of which the request is told, and on its market a taker
that is a contract, or a chain without native orders. -/
theorem validateRfqtOpts_of_rfqt [Arithmetic] (hdistinct : DistinctIntegrators handlers.integrators)
    (hschema : ∀ request, handlers.schemaErrors request = [] → request.takerAddress ≠ some "")
    (hparams : handlers.parseSwapQuoteRequestParams request endpoint = .ok params)
    (hrfqt : "RFQT" ∈ sourceIds request.includedSources) (gasPrice : Option BigNumber) :
    ∃ taker rfqt, request.takerAddress = some taker ∧
      (handlers.service.assetSwapperOpts params gasPrice).rfqt = some rfqt ∧
      rfqt.txOrigin = taker ∧ rfqt.isIndicative = decide (endpoint = .price) ∧
      handlers.service.swapQuoter.validateRfqtOpts
          (SourceFilters.create [] params.excludedSources params.includedSources) (some rfqt) =
        (if taker.toLower ∈ handlers.txOriginBlacklist.elements then
          .ok none
        else if endpoint = .quote ∧ taker = NULL_ADDRESS then
          .error (.error "RFQ-T firm quote requests must specify a tx origin")
        else
          .ok (some rfqt)) ∧
      AskedOnMarkets handlers (handlers.service.assetSwapperOpts params gasPrice) taker rfqt := by
  have htaken : request.takerAddress ≠ some "" := by
    unfold parseSwapQuoteRequestParams at hparams
    split at hparams
    · cases hparams
    · rename_i hvalid
      exact hschema request (not_not.mp hvalid)
  obtain ⟨sources, hparsed⟩ := exists_parsed hparams
  obtain ⟨_, _, _, hnotExcluded, hincluded⟩ := whitelisted_of_parsed hparsed.sources_eq hrfqt
  obtain ⟨taker, integratorId, htaker, hnonempty, hnamed, hmayAsk, hrfqtOpts⟩ :=
    rfqtOpts_of_rfqt hdistinct hparsed hrfqt htaken
  rw [← hparsed.excluded_eq] at hnotExcluded
  rw [← hparsed.included_eq] at hincluded
  refine ⟨taker, _, htaker, hrfqtOpts, rfl, rfl, ?_,
    askedOnMarkets_of_included hnotExcluded (.inr hincluded) rfl hnonempty⟩
  have hallowed : (SourceFilters.create [] params.excludedSources
      params.includedSources).isAllowed .native = true := by
    rw [SourceFilters.isAllowed_iff]
    refine ⟨.inl rfl, ?_, .inr ?_⟩
    · rw [SourceFilters.create, JsSet.mem_ofList]
      exact hnotExcluded
    · rw [SourceFilters.create, JsSet.mem_ofList]
      exact hincluded
  rw [SwapQuoter.validateRfqtOpts_of_known handlers.rfqtOptions_eq hallowed hnamed hmayAsk
    hnonempty]
  simp only [decide_eq_true_iff]

/-- A request for makers alone has the maker asked for its taker, unless that is a contract. -/
theorem oneKey_validateRfqtOpts :
    ∃ params rfqt,
      oneKey.parseSwapQuoteRequestParams (ofKey (some "RFQT")) .quote = .ok params ∧
      rfqt.txOrigin = "t" ∧
      oneKey.service.swapQuoter.validateRfqtOpts
        (SourceFilters.create [] params.excludedSources params.includedSources) (some rfqt) =
          .ok (some rfqt) ∧
      AskedOnMarkets oneKey (oneKey.service.assetSwapperOpts params none) "t" rfqt := by
  have hdistinct : DistinctIntegrators oneKey.integrators :=
    ⟨by decide, by decide, by decide, by decide⟩
  have hschema : ∀ request, oneKey.schemaErrors request = [] →
      request.takerAddress ≠ some "" := by
    intro request hvalid hempty
    rw [show oneKey.schemaErrors request = _ from if_pos hempty] at hvalid
    cases hvalid
  have hrun : Fallible.okAnd
      (oneKey.parseSwapQuoteRequestParams (ofKey (some "RFQT")) .quote) (fun _ => true) = true := by
    decide +kernel
  obtain ⟨params, hparams, _⟩ := Fallible.exists_of_okAnd hrun
  obtain ⟨taker, rfqt, htaker, _, horigin, _, hvalid, hmarkets⟩ :=
    validateRfqtOpts_of_rfqt hdistinct hschema hparams (by decide) none
  cases htaker
  refine ⟨params, rfqt, hparams, horigin, hvalid.trans ?_, hmarkets⟩
  rw [if_neg (by decide), if_neg (by decide)]

/-! ## Makers only -/

/-- Parameters without the note that a request wants makers only. -/
def withoutExclusivity (params : GetSwapQuoteParams) : GetSwapQuoteParams :=
  { params with rfqt := params.rfqt.map fun rfqt => { rfqt with nativeExclusivelyRFQT := false } }

/-- The service does not read the note. -/
theorem getSwapQuoteForParams_withoutExclusivity [Arithmetic] : (params : GetSwapQuoteParams) →
    handlers.getSwapQuoteForParams (withoutExclusivity params) =
      handlers.getSwapQuoteForParams params
  | { rfqt := none, .. } => rfl
  | { rfqt := some _, .. } => rfl

/-- A request that names the protocol after its other sources. -/
def withZeroEx (request : SwapQuoteRequest) (includedSources : String) : SwapQuoteRequest :=
  { request with includedSources := some (includedSources ++ ",0x") }

/-- Naming the protocol besides makers takes back that they alone are wanted, and nothing else. -/
theorem parseSources_withZeroEx {includedSources : String}
    (hincluded : request.includedSources = some includedSources)
    (hrfqt : "RFQT" ∈ sourceIds request.includedSources) :
    handlers.parseSources (withZeroEx request includedSources) endpoint =
      (handlers.parseSources request endpoint).map fun sources =>
        { sources with nativeExclusivelyRFQT := false } := by
  have hne : includedSources ≠ "" := by
    rintro rfl
    rw [hincluded] at hrfqt
    cases hrfqt
  have hids : sourceIds (withZeroEx request includedSources).forSources.includedSources =
      sourceIds request.forSources.includedSources ++ ["0x"] := by
    change sourceIds (some (includedSources ++ String.ofList (',' :: ['0', 'x']))) = _
    rw [sourceIds_append hne (by decide)]
    change _ = sourceIds request.includedSources ++ _
    rw [hincluded]
  have hparsed : parseRequestForExcludedSources (withZeroEx request includedSources).forSources
      (RFQT_API_KEY_WHITELIST handlers.integrators) endpoint =
        (parseRequestForExcludedSources request.forSources
          (RFQT_API_KEY_WHITELIST handlers.integrators) endpoint).map fun sources =>
            { sources with nativeExclusivelyRFQT := false } := by
    have hrfqt : "RFQT" ∈ sourceIds request.forSources.includedSources := hrfqt
    have hsame : sourceIds (withZeroEx request includedSources).forSources.excludedSources =
        sourceIds request.forSources.excludedSources := rfl
    unfold parseRequestForExcludedSources
    dsimp only
    rw [hids, hsame]
    generalize sourceIds request.forSources.excludedSources = excludedIds
    generalize sourceIds request.forSources.includedSources = includedIds at hrfqt
    have hlength : includedIds.length ≠ 0 := by
      rw [Ne, List.length_eq_zero_iff]
      exact List.ne_nil_of_mem hrfqt
    have hcontains : includedIds.contains "RFQT" = true := by simpa using hrfqt
    have hcontains' : (includedIds ++ ["0x"]).contains "RFQT" = true := by simp [hrfqt]
    by_cases hexcluded : excludedIds = []
    · subst hexcluded
      simp only [List.length_nil, ne_eq, not_true_eq_false, false_and, if_false, gt_iff_lt,
        lt_irrefl, hcontains, hcontains', if_true, parseStringArr_append_zeroEx]
      change (validateRFQTRequest request.forSources _ endpoint).map _ = _
      cases validateRFQTRequest request.forSources (RFQT_API_KEY_WHITELIST handlers.integrators)
        endpoint with
      | error items => rfl
      | ok u => simp [Except.map]
    · have hlong : excludedIds.length ≠ 0 := by rwa [Ne, List.length_eq_zero_iff]
      rw [if_pos ⟨hlong, by simp⟩, if_pos ⟨hlong, hlength⟩]
      rfl
  unfold parseSources
  rw [hparsed]
  cases parseRequestForExcludedSources request.forSources
    (RFQT_API_KEY_WHITELIST handlers.integrators) endpoint with
  | error items => rfl
  | ok sources =>
    dsimp only [Except.map, Except.mapError, Fallible.ok_bind]
    change ite _ _ _ = (ite _ _ _ : Except _ _).map _
    split
    · rfl
    · rfl

theorem rfqtParams_withZeroEx (includedSources : String) (nativeExclusivelyRFQT : Bool) :
    rfqtParams (withZeroEx request includedSources) endpoint false =
      (rfqtParams request endpoint nativeExclusivelyRFQT).map fun rfqt =>
        { rfqt with nativeExclusivelyRFQT := false } := by
  unfold rfqtParams
  change (match truthy request.apiKey, endpoint, truthy request.takerAddress with
    | some _, .quote, some _ => _
    | some _, .price, _ => _
    | _, _, _ => _) = _
  cases truthy request.apiKey with
  | none => rfl
  | some apiKey =>
    cases endpoint with
    | price => rfl
    | quote =>
      cases truthy request.takerAddress with
      | none => rfl
      | some taker => rfl

/-- A request for makers only gets what it would get if it named the protocol as well, as far as the
schema lets both through: open orders are not left out. -/
theorem getSwapQuote_zeroEx [Arithmetic] {includedSources : String}
    (hincluded : request.includedSources = some includedSources)
    (hrfqt : "RFQT" ∈ sourceIds request.includedSources)
    (hschema : handlers.schemaErrors (withZeroEx request includedSources) =
      handlers.schemaErrors request) :
    handlers.getSwapQuote (withZeroEx request includedSources) endpoint =
      handlers.getSwapQuote request endpoint := by
  have hparams :
      handlers.parseSwapQuoteRequestParams (withZeroEx request includedSources) endpoint =
        (handlers.parseSwapQuoteRequestParams request endpoint).map withoutExclusivity := by
    unfold parseSwapQuoteRequestParams
    rw [hschema, parseSources_withZeroEx hincluded hrfqt]
    split
    · rfl
    · -- what comes before the sources and after them is the same for both
      refine Fallible.bind_eq_map_bind fun tokens => ?_
      refine Fallible.bind_eq_map_bind fun slippagePercentage => ?_
      refine Fallible.bind_eq_map_bind fun priceImpactProtectionPercentage => ?_
      refine Fallible.map_bind_eq_map_bind fun sources => ?_
      refine Fallible.bind_eq_map_bind fun affiliateFee => ?_
      refine Fallible.bind_eq_map_bind fun integrator => ?_
      dsimp only [Except.map, withoutExclusivity]
      rw [← rfqtParams_withZeroEx includedSources]
      rfl
  unfold getSwapQuote
  rw [hparams]
  cases handlers.parseSwapQuoteRequestParams request endpoint with
  | error e => rfl
  | ok params => exact getSwapQuoteForParams_withoutExclusivity params

theorem oneKey_zeroEx :
    oneKey.getSwapQuote (withZeroEx (ofKey (some "RFQT")) "RFQT") .quote =
      oneKey.getSwapQuote (ofKey (some "RFQT")) .quote :=
  getSwapQuote_zeroEx rfl (by decide) rfl

end SwapHandlers

end ZeroExApi.SwapRequests
