/-
# ZeroExApi.SwapQuoter — what a request has to pass before it is quoted

`swap_quoter.ts` with the order book it asks (`asset_swapper_orderbook.ts`).  Makers are asked only
for an integrator and an origin that may; of the order book only the first page is read, and of that
only open orders without a fee that do not expire soon.  The gas schedule is turned into a fee
schedule at the gas price, and the quote that comes out gets the overhead of the exchange proxy
added to its gas.

Every fill of a quote is one that the request permits (`getSwapQuote_permitted`).
-/

import ZeroExApi.OrderPages
import ZeroExApi.TwoPhaseRouting

namespace ZeroExApi.Quoting

open ZeroExApi.Fills (nativeOrderToNormalizedAmounts)
open ZeroExApi.OrderBook (Env SignedOrderV4Entity)
open ZeroExApi.OrderPages (OrderTables OrderQuery SRAOrderWithState)
open ZeroExApi.Sampling (SignedLimitOrder)
open ZeroExApi.SwapService (PricedSwapQuote)
open ZeroExApi.Lib ZeroExApi.Lib.BigNumber ZeroExApi.NativeOrders ZeroExApi.Routing
open ZeroExApi.Routing.MarketOperationUtils

/-! ## The order book -/

def DEFAULT_PAGE : ℤ := 1

def DEFAULT_PER_PAGE : ℤ := 20

/-- `apiOrderToOrderbookOrder`. -/
def apiOrderToOrderbookOrder (apiOrder : SRAOrderWithState) : SignedLimitOrder where
  order :=
    { maker := apiOrder.order.maker
      makerToken := apiOrder.order.makerToken
      takerToken := apiOrder.order.takerToken
      makerAmount := apiOrder.order.makerAmount
      takerAmount := apiOrder.order.takerAmount
      takerTokenFeeAmount := apiOrder.order.takerTokenFeeAmount }
  type := .limit
  signature := apiOrder.order.signature
  taker := apiOrder.order.taker
  expiry := apiOrder.order.expiry

/-- `AssetSwapperOrderbook`, on a database that may be out of reach. -/
structure AssetSwapperOrderbook where
  env : Env
  database : Except JsError OrderTables

namespace AssetSwapperOrderbook

/-- The query for the orders of a pair. -/
def query (makerToken takerToken : String) : OrderQuery where
  orderFieldFilters :=
    (JsMap.empty.set "makerToken" (.text makerToken)).set "takerToken" (.text takerToken)
  additionalFilters := { isUnfillable := false, trader := none }

/-- `getOrdersAsync`: a request that fails has no orders. -/
def getOrders (book : AssetSwapperOrderbook) (makerToken takerToken : String)
    (pruneFn : SignedLimitOrder → Bool) : List SignedLimitOrder :=
  match book.database with
  | .error _ => []
  | .ok tables =>
    match OrderPages.getOrders book.env tables DEFAULT_PAGE DEFAULT_PER_PAGE
        (query makerToken takerToken) with
    | .error _ => []
    | .ok apiOrders => (apiOrders.records.map apiOrderToOrderbookOrder).filter pruneFn

end AssetSwapperOrderbook

/-! ## The quoter -/

/-- `OrderPrunerPermittedFeeTypes`. -/
inductive OrderPrunerPermittedFeeTypes where
  | noFees
  | takerDenominatedTakerFee
  deriving DecidableEq

/-- `SwapQuoterRfqOpts`; of an integrator its id. -/
structure SwapQuoterRfqOpts where
  integratorsWhitelist : List String
  txOriginBlacklist : JsSet String

/-- `SwapQuoteRequestOpts`, with the defaults merged in. -/
structure SwapQuoteRequestOpts where
  gasPrice : Option BigNumber
  excludedSources : List ERC20BridgeSource
  includedSources : List ERC20BridgeSource
  numSamples : ℕ
  sampleDistributionBase : BigNumber
  neonRouterNumSamples : ℕ
  bridgeSlippage : ℚ
  exchangeProxyOverhead : ExchangeProxyOverhead
  fillAdjustor : FillAdjustor
  rfqt : Option RfqRequestOpts

/-- `SwapQuoter`, with the check of an address, an order's `willExpire` and the gas schedule of
exchanges. -/
structure SwapQuoter where
  marketOperationUtils : MarketOperationUtils
  orderbook : AssetSwapperOrderbook
  expiryBufferMs : ℚ
  permittedOrderFeeTypes : JsSet OrderPrunerPermittedFeeTypes
  rfqtOptions : Option SwapQuoterRfqOpts
  gasPriceEstimation : Except JsError BigNumber
  isETHAddressHex : String → Bool
  willExpire : SignedLimitOrder → ℚ → Bool
  gasSchedule : GasSchedule

namespace SwapQuoter

variable [Arithmetic] (q : SwapQuoter)

/-- `_integratorIdsSet`. -/
def integratorIdsSet : JsSet String :=
  match q.rfqtOptions with
  | some rfqt => JsSet.ofList rfqt.integratorsWhitelist
  | none => JsSet.ofList []

/-- `_isIntegratorIdWhitelisted`. -/
def isIntegratorIdWhitelisted (integratorId : String) : Bool :=
  if integratorId = "" then false else integratorId ∈ q.integratorIdsSet.elements

/-- `_isTxOriginBlacklisted`. -/
def isTxOriginBlacklisted (txOrigin : String) : Bool :=
  if txOrigin = "" then
    false
  else
    match q.rfqtOptions with
    | some rfqt => txOrigin.toLower ∈ rfqt.txOriginBlacklist.elements
    | none => false

/-- `_validateRfqtOpts`: who may not ask makers is quoted without them. -/
def validateRfqtOpts (sourceFilters : SourceFilters) (rfqt : Option RfqRequestOpts) :
    Except JsError (Option RfqRequestOpts) :=
  match rfqt with
  | none => .ok none
  | some rfqt =>
    if rfqt.nativeExclusivelyRFQ && !sourceFilters.isAllowed .native then
      .error (.error
        "Native liquidity cannot be excluded if \"rfqt.nativeExclusivelyRFQ\" is set")
    else if !q.isIntegratorIdWhitelisted rfqt.integratorId then
      .ok none
    else if q.isTxOriginBlacklisted rfqt.txOrigin then
      .ok none
    else if rfqt.intentOnFilling && q.isIntegratorIdWhitelisted rfqt.integratorId &&
        sourceFilters.isAllowed .native && (rfqt.txOrigin == "" || rfqt.txOrigin == NULL_ADDRESS)
      then
      .error (.error "RFQ-T firm quote requests must specify a tx origin")
    else
      .ok (some rfqt)

/-- `_limitOrderPruningFn`. -/
def limitOrderPruningFn (limitOrder : SignedLimitOrder) : Bool :=
  let isOpenOrder := limitOrder.taker == NULL_ADDRESS
  let willOrderExpire := q.willExpire limitOrder (q.expiryBufferMs / OrderBook.ONE_SECOND_MS)
  let isFeeTypeAllowed :=
    decide (.noFees ∈ q.permittedOrderFeeTypes.elements) &&
      limitOrder.order.takerTokenFeeAmount.eq ZERO_AMOUNT
  isOpenOrder && !willOrderExpire && isFeeTypeAllowed

/-- `getLimitOrders`. -/
def getLimitOrders (side : MarketOperation) (makerToken takerToken : String)
    (opts : GetMarketOrdersOpts) : List SignedLimitOrder :=
  let requestFilters := SourceFilters.create [] opts.excludedSources opts.includedSources
  let sourceFilter :=
    SourceFilters.create (q.marketOperationUtils.sampler.sourcesByChainId side) [] []
  let quoteFilter := sourceFilter.merge requestFilters
  if !quoteFilter.isAllowed .native || opts.rfqt.any fun rfqt => rfqt.nativeExclusivelyRFQ then
    []
  else
    q.orderbook.getOrders makerToken takerToken q.limitOrderPruningFn

/-- `gasPrice`. -/
def gasPriceOf (opts : SwapQuoteRequestOpts) : Except JsError BigNumber :=
  match opts.gasPrice with
  | some gasPrice => .ok gasPrice
  | none => q.gasPriceEstimation

/-- `calcOpts`: makers are asked through the client, if they are asked. -/
def calcOpts (opts : SwapQuoteRequestOpts) (gasPrice : BigNumber) (rfqt : Option RfqRequestOpts)
    (rfqClient : Option RfqClient) : GetMarketOrdersOpts where
  excludedSources := opts.excludedSources
  includedSources := opts.includedSources
  numSamples := opts.numSamples
  sampleDistributionBase := opts.sampleDistributionBase
  feeSchedule := ComparisonPrice.feeSchedule gasPrice q.gasSchedule
  nativeOrderFeeEstimate := ComparisonPrice.nativeOrderFeeEstimate gasPrice
  exchangeProxyOverhead := ComparisonPrice.exchangeProxyOverhead gasPrice opts.exchangeProxyOverhead
  neonRouterNumSamples := opts.neonRouterNumSamples
  fillAdjustor := opts.fillAdjustor
  rfqt := rfqt.map fun rfqt => { rfqt with quoteRequestor := true, rfqClient := rfqClient }

/-- `assert.isETHAddressHex`. -/
def assertETHAddressHex (address : String) : Except JsError Unit :=
  if q.isETHAddressHex address then .ok () else .error (.error "")

/-- The information of a quote with the overhead of the exchange proxy, which is gas, no price. -/
def withOverhead (info : SwapQuoteInfo) (overhead : BigNumber) : SwapQuoteInfo :=
  { info with gas := info.gas + overhead.toRat }

/-- `getSwapQuoteAsync`. -/
def getSwapQuote (makerToken takerToken : String) (assetFillAmount : BigNumber)
    (marketOperation : MarketOperation) (opts : SwapQuoteRequestOpts)
    (rfqClient : Option RfqClient) : Except JsError PricedSwapQuote := do
  q.assertETHAddressHex makerToken
  q.assertETHAddressHex takerToken
  let gasPrice ← q.gasPriceOf opts
  let sourceFilters := SourceFilters.create [] opts.excludedSources opts.includedSources
  let rfqt ← q.validateRfqtOpts sourceFilters opts.rfqt
  let calcOpts := q.calcOpts opts gasPrice rfqt rfqClient
  let limitOrders := q.getLimitOrders marketOperation makerToken takerToken calcOpts
  let result ← q.marketOperationUtils.getOptimizerResult makerToken takerToken limitOrders
    assetFillAmount marketOperation calcOpts
  let swapQuote ← createSwapQuote result.path result.makerAmountPerEth makerToken takerToken
    marketOperation assetFillAmount gasPrice (ComparisonPrice.gasSchedule q.gasSchedule)
    opts.bridgeSlippage
  let exchangeProxyOverhead := opts.exchangeProxyOverhead result.path.sourceFlags
  .ok
    { swapQuote with
      bestCaseQuoteInfo := withOverhead swapQuote.bestCaseQuoteInfo exchangeProxyOverhead
      worstCaseQuoteInfo := withOverhead swapQuote.worstCaseQuoteInfo exchangeProxyOverhead
      makerTokenDecimals := result.marketSideLiquidity.makerTokenDecimals
      takerTokenDecimals := result.marketSideLiquidity.takerTokenDecimals
      takerAmountPerEth := result.takerAmountPerEth }

end SwapQuoter

/-! ## What the order book answers -/

namespace AssetSwapperOrderbook

variable {book : AssetSwapperOrderbook} {makerToken takerToken : String}

/-- The filter of a pair: its tokens, and an expiry that is not too soon. -/
theorem exists_filter_of_query (env : Env) (makerToken takerToken : String) :
    ∃ filter, (query makerToken takerToken).filtersWithExpirationCheck env = [filter] ∧
      filter.entries =
        [("makerToken", .equal (.text makerToken)), ("takerToken", .equal (.text takerToken)),
          ("expiry", .moreThanOrEqual (OrderPages.minExpiryTime env))] :=
  ⟨_, rfl, rfl⟩

/-- A row of the table that is offered for a pair. -/
structure RowOf (book : AssetSwapperOrderbook) (makerToken takerToken : String)
    (row : SignedOrderV4Entity) : Prop where
  mem : ∃ tables, book.database = .ok tables ∧ row ∈ tables.signedOrders
  makerToken_eq : row.makerToken = makerToken
  takerToken_eq : row.takerToken = takerToken
  fresh : row.expiry.gte (.fin (OrderPages.minExpiryTime book.env)) = true

theorem rowOf_of_mem_signedRows {tables : OrderTables} (hdatabase : book.database = .ok tables)
    {row : SignedOrderV4Entity}
    (h : row ∈ OrderPages.signedRows book.env tables (query makerToken takerToken)) :
    book.RowOf makerToken takerToken row := by
  obtain ⟨filter, hfilters, hentries⟩ := exists_filter_of_query book.env makerToken takerToken
  unfold OrderPages.signedRows OrderPages.accepted at h
  obtain ⟨hmem, haccepted⟩ := List.mem_filter.mp h
  rw [hfilters] at haccepted
  simp only [List.any_cons, List.any_nil, Bool.or_false, OrderPages.Filter.accepts, hentries,
    List.all_cons, List.all_nil, Bool.and_true, Bool.and_eq_true, OrderPages.signedOrderColumn,
    OrderPages.FindOperator.accepts, beq_iff_eq, OrderPages.ColumnValue.text.injEq] at haccepted
  obtain ⟨hmaker, htaker, hfresh⟩ := haccepted
  exact ⟨⟨tables, hdatabase, hmem⟩, hmaker, htaker, hfresh⟩

/-- The orders of a pair are of rows that are offered for it, and pass the check. -/
theorem mem_getOrders {pruneFn : SignedLimitOrder → Bool} {order : SignedLimitOrder}
    (h : order ∈ book.getOrders makerToken takerToken pruneFn) :
    pruneFn order = true ∧ ∃ row, book.RowOf makerToken takerToken row ∧
      order = apiOrderToOrderbookOrder (OrderPages.ofSignedOrder book.env row) := by
  unfold getOrders at h
  split at h
  · cases h
  · rename_i tables hdatabase
    rw [OrderPages.getOrders_eq_ok fun hunfillable => absurd hunfillable Bool.false_ne_true] at h
    obtain ⟨hmem, hkept⟩ := List.mem_filter.mp h
    refine ⟨hkept, ?_⟩
    obtain ⟨apiOrder, hapiOrder, rfl⟩ := List.mem_map.mp hmem
    rcases List.mem_append.mp hapiOrder with hsigned | hpersistent
    · obtain ⟨row, hrow, rfl⟩ := List.mem_map.mp hsigned
      have hrow :=
        (List.mergeSort_perm _ _).subset (List.mem_of_mem_drop (List.mem_of_mem_take hrow))
      exact ⟨row, rowOf_of_mem_signedRows hdatabase hrow, rfl⟩
    · -- only the filled and the cancelled are looked up among the persistent orders
      obtain ⟨row, hrow, rfl⟩ := List.mem_map.mp hpersistent
      have hrow :=
        (List.mergeSort_perm _ _).subset (List.mem_of_mem_drop (List.mem_of_mem_take hrow))
      cases hrow

end AssetSwapperOrderbook

/-! ## What a request permits -/

namespace SwapQuoter

variable (q : SwapQuoter) (side : MarketOperation) (makerToken takerToken : String)
  (amount : BigNumber) (opts : SwapQuoteRequestOpts) (rfqClient : Option RfqClient)

/-- A source is one of the chain, not excluded, and included if any are. -/
structure Allows (source : ERC20BridgeSource) : Prop where
  ofChain :
    SourceFilters.Permits (q.marketOperationUtils.sampler.sourcesByChainId side) source
  notExcluded : source ∉ opts.excludedSources
  included : SourceFilters.Permits opts.includedSources source

/-- An exchange that is allowed. -/
structure AllowsExchange (source : ERC20BridgeSource) : Prop extends q.Allows side opts source where
  mem : source ∈ q.marketOperationUtils.sampler.sourcesByChainId side

/-- Who may ask makers: an integrator that is known, for an origin that is not blacklisted, and that
is there where the quote is to be filled. -/
structure MayAsk (rfqt : RfqRequestOpts) : Prop where
  rfqt_eq : opts.rfqt = some rfqt
  whitelisted : rfqt.integratorId ≠ "" ∧
    ∃ rfqtOptions, q.rfqtOptions = some rfqtOptions ∧
      rfqt.integratorId ∈ rfqtOptions.integratorsWhitelist
  notBlacklisted : rfqt.txOrigin ≠ "" → ∀ rfqtOptions, q.rfqtOptions = some rfqtOptions →
    rfqt.txOrigin.toLower ∉ rfqtOptions.txOriginBlacklist.elements
  origin : rfqt.intentOnFilling = true → rfqt.txOrigin ≠ "" ∧ rfqt.txOrigin ≠ NULL_ADDRESS

/-- The options that makers are asked with. -/
def askedWith (rfqt : RfqRequestOpts) : RfqRequestOpts :=
  { rfqt with quoteRequestor := true, rfqClient := rfqClient }

/-- A limit order that may be filled: it is of a row that the order book offers, open, without a fee
and not about to expire; and not everything is to come from makers. -/
structure Open (order : SignedLimitOrder) : Prop where
  row : ∃ row, q.orderbook.RowOf makerToken takerToken row ∧
    order = apiOrderToOrderbookOrder (OrderPages.ofSignedOrder q.orderbook.env row)
  taker_eq : order.taker = NULL_ADDRESS
  lasts : q.willExpire order (q.expiryBufferMs / OrderBook.ONE_SECOND_MS) = false
  noFee : order.order.takerTokenFeeAmount.eq ZERO_AMOUNT = true
  notExclusive : ∀ rfqt, q.MayAsk opts rfqt → rfqt.nativeExclusivelyRFQ = false

/-- The market of a request: the limit orders that are asked about, and what the sampler answers to
the call for them and for everything else. -/
def MarketOf [Arithmetic] (limitOrders : List SignedLimitOrder) (sampled : SampledMarket) : Prop :=
  ∃ gasPrice rfqt, q.gasPriceOf opts = .ok gasPrice ∧
    q.validateRfqtOpts (SourceFilters.create [] opts.excludedSources opts.includedSources)
      opts.rfqt = .ok rfqt ∧
    limitOrders =
      q.getLimitOrders side makerToken takerToken (q.calcOpts opts gasPrice rfqt rfqClient) ∧
    q.marketOperationUtils.sampleMarket side makerToken takerToken limitOrders amount
      (q.calcOpts opts gasPrice rfqt rfqClient) = .ok sampled

/-- What a request permits a fill to be on its market. -/
inductive Permitted (limitOrders : List SignedLimitOrder) (sampled : SampledMarket)
    (fill : Fill) : Prop
  | limitOrder (allowed : q.Allows side opts .native) (order : SignedLimitOrder)
    (isOpen : q.Open makerToken takerToken opts order)
    (ofOrder : LimitOrderFill side limitOrders sampled order fill)
  | makerOrder (allowed : q.Allows side opts .native) (rfqt : RfqRequestOpts)
    (mayAsk : q.MayAsk opts rfqt) (notContract : sampled.isTxOriginContract = false)
    (comparisonPrice : Option BigNumber) (order : NativeOrderWithFillableAmounts)
    (made : MakerOrder (askedWith rfqClient rfqt)
      (q.marketOperationUtils.rfqtV1Request (askedWith rfqClient rfqt) makerToken takerToken amount
        side comparisonPrice) order)
    (ofOrder : NativeFill side order fill)
  | exchange (ofExchange : ExchangeFill sampled fill)
    (allowed : q.AllowsExchange side opts fill.source)
  | twoHop (allowed : q.Allows side opts .multiHop) (sample : TwoHopSample)
    (ofTwoHop : TwoHopFill sampled sample fill)
    (firstHop : q.AllowsExchange side opts sample.firstHopSource.source)
    (secondHop : q.AllowsExchange side opts sample.secondHopSource.source)

section Permitted

variable {q side makerToken takerToken amount opts rfqClient}

/-- An integrator is known if it has an id and stands on the list. -/
theorem isIntegratorIdWhitelisted_iff {integratorId : String} :
    q.isIntegratorIdWhitelisted integratorId = true ↔
      integratorId ≠ "" ∧ ∃ rfqtOptions, q.rfqtOptions = some rfqtOptions ∧
        integratorId ∈ rfqtOptions.integratorsWhitelist := by
  unfold isIntegratorIdWhitelisted integratorIdsSet
  cases hoptions : q.rfqtOptions with
  | none => simp [JsSet.mem_ofList]
  | some rfqtOptions => simp [JsSet.mem_ofList]

theorem isTxOriginBlacklisted_eq_false_iff {txOrigin : String} :
    q.isTxOriginBlacklisted txOrigin = false ↔
      (txOrigin ≠ "" → ∀ rfqtOptions, q.rfqtOptions = some rfqtOptions →
        txOrigin.toLower ∉ rfqtOptions.txOriginBlacklist.elements) := by
  unfold isTxOriginBlacklisted
  cases hoptions : q.rfqtOptions with
  | none => simp
  | some rfqtOptions => simp

/-- What becomes of the options of a known integrator, where an origin is given and native liquidity
is allowed. -/
theorem validateRfqtOpts_of_known {rfqtOptions : SwapQuoterRfqOpts}
    (hoptions : q.rfqtOptions = some rfqtOptions) {sourceFilters : SourceFilters}
    (hallowed : sourceFilters.isAllowed .native = true) {rfqt : RfqRequestOpts}
    (hnamed : rfqt.integratorId ≠ "")
    (hknown : rfqt.integratorId ∈ rfqtOptions.integratorsWhitelist)
    (horigin : rfqt.txOrigin ≠ "") :
    q.validateRfqtOpts sourceFilters (some rfqt) =
      if rfqt.txOrigin.toLower ∈ rfqtOptions.txOriginBlacklist.elements then
        .ok none
      else if rfqt.intentOnFilling = true ∧ rfqt.txOrigin = NULL_ADDRESS then
        .error (.error "RFQ-T firm quote requests must specify a tx origin")
      else
        .ok (some rfqt) := by
  have hwhitelisted : q.isIntegratorIdWhitelisted rfqt.integratorId = true :=
    isIntegratorIdWhitelisted_iff.mpr ⟨hnamed, rfqtOptions, hoptions, hknown⟩
  have hblacklisted : q.isTxOriginBlacklisted rfqt.txOrigin =
      decide (rfqt.txOrigin.toLower ∈ rfqtOptions.txOriginBlacklist.elements) := by
    unfold isTxOriginBlacklisted
    rw [if_neg horigin, hoptions]
  unfold validateRfqtOpts
  dsimp only
  rw [hwhitelisted, hblacklisted, hallowed]
  simp [horigin]

/-- Makers are asked exactly for those who may, where native liquidity is allowed at all. -/
theorem validateRfqtOpts_eq_some_iff {sourceFilters : SourceFilters} {rfqt : RfqRequestOpts}
    (hallowed : sourceFilters.isAllowed .native = true) :
    q.validateRfqtOpts sourceFilters opts.rfqt = .ok (some rfqt) ↔ q.MayAsk opts rfqt := by
  have hmayAsk : q.MayAsk opts rfqt ↔ opts.rfqt = some rfqt ∧
      q.isIntegratorIdWhitelisted rfqt.integratorId = true ∧
      q.isTxOriginBlacklisted rfqt.txOrigin = false ∧
      (rfqt.intentOnFilling = true → rfqt.txOrigin ≠ "" ∧ rfqt.txOrigin ≠ NULL_ADDRESS) := by
    rw [isIntegratorIdWhitelisted_iff, isTxOriginBlacklisted_eq_false_iff]
    constructor
    · rintro ⟨heq, hwhitelisted, hblacklisted, horigin⟩
      exact ⟨heq, hwhitelisted, hblacklisted, horigin⟩
    · rintro ⟨heq, hwhitelisted, hblacklisted, horigin⟩
      exact ⟨heq, hwhitelisted, hblacklisted, horigin⟩
  rw [hmayAsk]
  unfold validateRfqtOpts
  cases hgiven : opts.rfqt with
  | none => simp
  | some given =>
    simp only [hallowed, Bool.not_true, Bool.and_false, Bool.false_eq_true, if_false,
      Option.some.injEq]
    constructor
    · intro h
      split at h
      · cases h
      · rename_i hwhitelisted
        split at h
        · cases h
        · rename_i hblacklisted
          split at h
          · cases h
          · rename_i horigin
            cases h
            have hwhitelisted : q.isIntegratorIdWhitelisted rfqt.integratorId = true := by
              simpa using hwhitelisted
            refine ⟨rfl, hwhitelisted, Bool.eq_false_of_not_eq_true hblacklisted, ?_⟩
            intro hintent
            rw [hintent, hwhitelisted] at horigin
            simpa using horigin
    · rintro ⟨rfl, hwhitelisted, hblacklisted, horigin⟩
      rw [hwhitelisted, hblacklisted]
      simpa using horigin

theorem allows_of_isAllowed {gasPrice : BigNumber} {rfqt : Option RfqRequestOpts}
    {source : ERC20BridgeSource}
    (h : (q.marketOperationUtils.quoteSourceFilters side
      (q.calcOpts opts gasPrice rfqt rfqClient)).isAllowed source = true) :
    q.Allows side opts source := by
  obtain ⟨hchain, hexcluded, hincluded⟩ := SourceFilters.ofRequest_isAllowed.mp h
  exact ⟨hchain, hexcluded, hincluded⟩

theorem allowsExchange_of_mem {gasPrice : BigNumber} {rfqt : Option RfqRequestOpts}
    {source : ERC20BridgeSource}
    (h : source ∈ (q.marketOperationUtils.quoteSourceFilters side
      (q.calcOpts opts gasPrice rfqt rfqClient)).sources) :
    q.AllowsExchange side opts source := by
  obtain ⟨hchain, hexcluded, hincluded⟩ := SourceFilters.mem_sources_ofRequest.mp h
  exact ⟨⟨.inr hchain, hexcluded, hincluded⟩, hchain⟩

/-- The filters of a request alone allow what is allowed on the chain. -/
theorem Allows.isAllowed {source : ERC20BridgeSource} (h : q.Allows side opts source) :
    (SourceFilters.create [] opts.excludedSources opts.includedSources).isAllowed source =
      true := by
  rw [SourceFilters.isAllowed_iff]
  refine ⟨.inl rfl, ?_, ?_⟩
  · rw [SourceFilters.create, JsSet.mem_ofList]
    exact h.notExcluded
  · rw [SourceFilters.create, SourceFilters.permits_ofList]
    exact h.included

/-- Limit orders are open, and there are none where native liquidity is not allowed. -/
theorem mem_getLimitOrders {gasPrice : BigNumber} {rfqt : Option RfqRequestOpts}
    (hrfqt : q.validateRfqtOpts
      (SourceFilters.create [] opts.excludedSources opts.includedSources) opts.rfqt = .ok rfqt)
    {order : SignedLimitOrder}
    (h : order ∈ q.getLimitOrders side makerToken takerToken
      (q.calcOpts opts gasPrice rfqt rfqClient)) :
    q.Allows side opts .native ∧ q.Open makerToken takerToken opts order := by
  unfold getLimitOrders at h
  dsimp only at h
  split at h
  · cases h
  · rename_i hasked
    simp only [Bool.or_eq_true, not_or, Bool.not_eq_true, Bool.not_eq_false'] at hasked
    obtain ⟨hchain, hexcluded, hincluded⟩ := SourceFilters.merge_create_isAllowed.mp hasked.1
    have hallows : q.Allows side opts .native := ⟨hchain, hexcluded, hincluded⟩
    obtain ⟨hkept, hrow⟩ := AssetSwapperOrderbook.mem_getOrders h
    unfold limitOrderPruningFn at hkept
    simp only [Bool.and_eq_true, Bool.not_eq_true', decide_eq_true_eq, beq_iff_eq] at hkept
    obtain ⟨⟨htaker, hlasts⟩, _, hnoFee⟩ := hkept
    refine ⟨hallows, hrow, htaker, hlasts, hnoFee, ?_⟩
    intro asked hmayAsk
    rw [← validateRfqtOpts_eq_some_iff hallows.isAllowed, hrfqt] at hmayAsk
    cases hmayAsk
    exact hasked.2

/-- An order of the order book is a limit order, whatever is left of it. -/
theorem type_fillableOrder {order : SignedLimitOrder}
    (h : q.Open makerToken takerToken opts order) (fillable : BigNumber) :
    (fillableOrder side order fillable).type = .limit := by
  obtain ⟨row, _, rfl⟩ := h.row
  cases side with
  | sell =>
    unfold fillableOrder getNativeAdjustedFillableAmountsFromTakerAmount
    dsimp only
    split
    · rfl
    · rfl
  | buy =>
    unfold fillableOrder getNativeAdjustedFillableAmountsFromMakerAmount
    dsimp only
    split
    · rfl
    · rfl

/-- The options of makers that are asked are those of a request that may ask them. -/
theorem exists_mayAsk {gasPrice : BigNumber} {rfqt : Option RfqRequestOpts}
    (hrfqt : q.validateRfqtOpts
      (SourceFilters.create [] opts.excludedSources opts.includedSources) opts.rfqt = .ok rfqt)
    (hallows : q.Allows side opts .native) {asked : RfqRequestOpts}
    (h : (q.calcOpts opts gasPrice rfqt rfqClient).rfqt = some asked) :
    ∃ given, q.MayAsk opts given ∧ asked = askedWith rfqClient given := by
  cases rfqt with
  | none => cases h
  | some given =>
    cases h
    exact ⟨given, (validateRfqtOpts_eq_some_iff hallows.isAllowed).mp hrfqt, rfl⟩

/-- For those who may, makers are asked on a market exactly if the sampler takes the origin for no
contract and native liquidity is allowed on the chain as well. -/
theorem rfqtOf_eq_some_iff [Arithmetic] {gasPrice : BigNumber} {rfqt : RfqRequestOpts}
    {limitOrders : List SignedLimitOrder} {sampled : SampledMarket}
    (hsampled : q.marketOperationUtils.sampleMarket side makerToken takerToken limitOrders amount
      (q.calcOpts opts gasPrice (some rfqt) rfqClient) = .ok sampled)
    {liquidity : MarketSideLiquidity}
    (hliquidity : q.marketOperationUtils.getMarketLiquidity side makerToken takerToken limitOrders
      amount (q.calcOpts opts gasPrice (some rfqt) rfqClient) = .ok liquidity)
    {asked : RfqRequestOpts} :
    rfqtOf liquidity (q.calcOpts opts gasPrice (some rfqt) rfqClient) = some asked ↔
      asked = askedWith rfqClient rfqt ∧ sampled.isTxOriginContract = false ∧
        q.Allows side opts .native := by
  obtain ⟨sampled', hsampled', hof⟩ := getMarketLiquidity_of hliquidity
  obtain rfl : sampled' = sampled := Except.ok.inj (hsampled'.symm.trans hsampled)
  rw [MarketOperationUtils.rfqtOf_eq_some_iff hof]
  constructor
  · rintro ⟨hrfqt, _, hcontract, hallowed⟩
    cases hrfqt
    exact ⟨rfl, hcontract, allows_of_isAllowed hallowed⟩
  · rintro ⟨rfl, hcontract, hallows⟩
    exact ⟨rfl, rfl, hcontract, SourceFilters.ofRequest_isAllowed.mpr
      ⟨hallows.ofChain, hallows.notExcluded, hallows.included⟩⟩

/-- What is accounted for in the optimizer's result is permitted. -/
theorem permitted_of_accounted [Arithmetic] {gasPrice : BigNumber} {rfqt : Option RfqRequestOpts}
    (hrfqt : q.validateRfqtOpts
      (SourceFilters.create [] opts.excludedSources opts.includedSources) opts.rfqt = .ok rfqt)
    {sampled : SampledMarket} {fill : Fill}
    (h : q.marketOperationUtils.Accounted side makerToken takerToken
      (q.getLimitOrders side makerToken takerToken (q.calcOpts opts gasPrice rfqt rfqClient)) amount
      (q.calcOpts opts gasPrice rfqt rfqClient) sampled fill) :
    q.Permitted side makerToken takerToken amount opts rfqClient
      (q.getLimitOrders side makerToken takerToken (q.calcOpts opts gasPrice rfqt rfqClient))
      sampled fill := by
  cases h with
  | limitOrder order mem ofOrder =>
    obtain ⟨hallows, hopen⟩ := mem_getLimitOrders hrfqt mem
    exact .limitOrder hallows order hopen ofOrder
  | makerOrder asked request hasked order made ofOrder =>
    have hallows := allows_of_isAllowed hasked.allowed
    obtain ⟨given, hmayAsk, rfl⟩ := exists_mayAsk hrfqt hallows hasked.rfqt_eq
    obtain ⟨comparisonPrice, rfl⟩ := hasked.request_eq
    exact .makerOrder hallows given hmayAsk hasked.isTxOriginContract_eq comparisonPrice order made
      ofOrder
  | exchange ofExchange allowed ofTiny =>
    exact .exchange ofExchange (allowsExchange_of_mem allowed)
  | twoHop sample ofTwoHop allowed notTiny firstHop secondHop =>
    exact .twoHop (allows_of_isAllowed allowed) sample ofTwoHop (allowsExchange_of_mem firstHop)
      (allowsExchange_of_mem secondHop)

/-- A quote is made of an optimizer's result for the options that are left of the request. -/
theorem getSwapQuote_eq_ok [Arithmetic] {quote : PricedSwapQuote}
    (h : q.getSwapQuote makerToken takerToken amount side opts rfqClient = .ok quote) :
    ∃ gasPrice rfqt result,
      q.gasPriceOf opts = .ok gasPrice ∧
      q.validateRfqtOpts (SourceFilters.create [] opts.excludedSources opts.includedSources)
        opts.rfqt = .ok rfqt ∧
      q.marketOperationUtils.getOptimizerResult makerToken takerToken
        (q.getLimitOrders side makerToken takerToken (q.calcOpts opts gasPrice rfqt rfqClient))
        amount side (q.calcOpts opts gasPrice rfqt rfqClient) = .ok result ∧
      quote.path = result.path := by
  obtain ⟨_, _, h⟩ := Fallible.bind_eq_ok.mp h
  obtain ⟨_, _, h⟩ := Fallible.bind_eq_ok.mp h
  obtain ⟨gasPrice, hgasPrice, h⟩ := Fallible.bind_eq_ok.mp h
  obtain ⟨rfqt, hrfqt, h⟩ := Fallible.bind_eq_ok.mp h
  obtain ⟨result, hresult, h⟩ := Fallible.bind_eq_ok.mp h
  obtain ⟨swapQuote, hquote, h⟩ := Fallible.bind_eq_ok.mp h
  have hpath : swapQuote.path = result.path := (createSwapQuote_eq_ok hquote).path_eq
  cases h
  exact ⟨gasPrice, rfqt, result, hgasPrice, hrfqt, hresult, hpath⟩

/-- Every fill of a quote is one that the request permits on its market. -/
theorem getSwapQuote_permitted [Arithmetic] {quote : PricedSwapQuote}
    (h : q.getSwapQuote makerToken takerToken amount side opts rfqClient = .ok quote) :
    ∃ limitOrders sampled,
      q.MarketOf side makerToken takerToken amount opts rfqClient limitOrders sampled ∧
      ∀ fill ∈ quote.path.fills,
        q.Permitted side makerToken takerToken amount opts rfqClient limitOrders sampled fill := by
  obtain ⟨gasPrice, rfqt, result, hgasPrice, hrfqt, hresult, hpath⟩ := getSwapQuote_eq_ok h
  obtain ⟨sampled, hsampled, haccounted⟩ := getOptimizerResult_accounted hresult
  refine ⟨_, sampled, ⟨gasPrice, rfqt, hgasPrice, hrfqt, rfl, hsampled⟩, fun fill hfill => ?_⟩
  rw [hpath] at hfill
  exact permitted_of_accounted hrfqt (haccounted fill hfill)

end Permitted

end SwapQuoter

/-! ### A quote of an exchange and a maker -/

/-- A quoter that knows one integrator and has no order book. -/
def oneIntegrator : SwapQuoter where
  marketOperationUtils := oneExchange
  orderbook := ⟨⟨0, 0, 1⟩, .error .typeError⟩
  expiryBufferMs := 0
  permittedOrderFeeTypes := JsSet.ofList [.noFees]
  rfqtOptions := some ⟨["i"], JsSet.ofList []⟩
  gasPriceEstimation := .ok (.fin 0)
  isETHAddressHex _ := true
  willExpire _ _ := false
  gasSchedule _ _ := 0

/-- A request for a firm quote. -/
def ofIntegrator (firmQuoteValidator : Option RfqFirmQuoteValidator) : SwapQuoteRequestOpts where
  gasPrice := none
  excludedSources := []
  includedSources := []
  numSamples := 3
  sampleDistributionBase := 1
  neonRouterNumSamples := 3
  bridgeSlippage := 0
  exchangeProxyOverhead _ := ZERO_AMOUNT
  fillAdjustor := identityFillAdjustor
  rfqt := some (firmRequest none firmQuoteValidator)

/-- The integrator may ask the maker, so both fills of the quote are permitted. -/
theorem oneIntegrator_permitted :
    ∃ quote : PricedSwapQuote, quote.path.fills.length = 2 ∧
      ∃ limitOrders sampled,
        oneIntegrator.MarketOf .sell "d" "w" (.fin 9) (ofIntegrator none) (some oneMaker)
          limitOrders sampled ∧
        ∀ fill ∈ quote.path.fills,
          oneIntegrator.Permitted .sell "d" "w" (.fin 9) (ofIntegrator none) (some oneMaker)
            limitOrders sampled fill := by
  have hrun : Fallible.okAnd
      (oneIntegrator.getSwapQuote "d" "w" (.fin 9) .sell (ofIntegrator none) (some oneMaker))
      (fun quote => decide (quote.path.fills.length = 2)) = true := by
    decide +kernel
  obtain ⟨quote, hquote, hlength⟩ := Fallible.exists_of_okAnd hrun
  exact ⟨quote, of_decide_eq_true hlength, SwapQuoter.getSwapQuote_permitted hquote⟩

end ZeroExApi.Quoting
