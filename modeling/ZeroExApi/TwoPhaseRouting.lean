/-
# ZeroExApi.TwoPhaseRouting — where the fills of an optimized path come from

What `getOptimizerResultAsync` of `market_operation_utils/index.ts` guarantees of the path it
answers with, for any sampler, router, makers, validator and adjustor.

Every fill is accounted for (`getOptimizerResult_accounted`): it is of a limit order that was handed
in, with what the contract left of it; of an order of a maker who could be asked, with what the
validator left of it; or of an exchange the request and the chain both allow.  No native fill takes
more than is fillable of its order.  Tiny swaps use only the exchanges that prices come from.

Where makers have answered, phase two keeps of the exchanges those that phase one used, but all of
the two-hops (`phaseTwo_sources`).  So an exchange that phase one passed over can come in through a
two-hop (`twoRouters_sources`).
-/

import ZeroExApi.MarketOperationUtils
import ZeroExApi.UniswapV3PathAmounts

namespace ZeroExApi.Routing

open ZeroExApi.Lib ZeroExApi.Lib.BigNumber ZeroExApi.Fills
open ZeroExApi.NativeOrders ZeroExApi.SampleAmounts ZeroExApi.SamplerBatch ZeroExApi.Sampling
open ZeroExApi.UniswapV3PathAmounts (RoutedFill MadeOf routedFill_of_findRoutes)

/-! ## Fills of a routed path -/

/-- A fill is of one of the orders, and takes no more of it than there is; or of one of the quotes
of exchanges, or of a two-hop quote with both hops. -/
inductive FillFrom (side : MarketOperation) (dexQuotes : List SourceSamples)
    (twoHopQuotes : List (List TwoHopQuote)) (nativeOrders : List NativeOrderWithFillableAmounts)
    (fill : Fill) : Prop
  | nativeOrder (order : NativeOrderWithFillableAmounts) (mem : order ∈ nativeOrders)
    (source_eq : fill.source = .native) (fillData_eq : fill.fillData = .native order)
    (type_eq : fill.type = order.type)
    (within : fill.input.gt (nativeOrderToNormalizedAmounts side order).1 = false)
  | dexSample (s : SourceSamples) (mem : s ∈ dexQuotes) (sample : DexSample)
    (sample_mem : sample ∈ s.samples) (source_eq : fill.source = s.source)
    (fillData_eq : fill.fillData = sample.fillData)
  | twoHop (quotes : List TwoHopQuote) (mem : quotes ∈ twoHopQuotes) (quote : TwoHopQuote)
    (quote_mem : quote ∈ quotes) (sample : TwoHopSample) (valid : quote.valid = some sample)
    (source_eq : fill.source = .multiHop) (fillData_eq : fill.fillData = sample.fillData)

section Fills

variable [Arithmetic] {o : NeonPathOptimizer} {samples : List SourceSamples}
  {twoHopSamples : List (List TwoHopQuote)} {nativeOrders : List NativeOrderWithFillableAmounts}
  {fill : Fill}

omit [Arithmetic] in
/-- The lesser of two numbers is not greater than either. -/
theorem min_gt_right (x y : BigNumber) : (x.min y).gt y = false := by
  unfold BigNumber.min
  split
  · rename_i hnan
    cases y with
    | nan => rfl
    | inf negative => cases hnan
    | fin q => cases hnan
  · split
    · cases y with
      | nan => rfl
      | inf negative => cases negative <;> rfl
      | fin q => simp
    · rename_i hgt
      exact Bool.eq_false_of_not_eq_true hgt

/-- A routed native fill is of one of the orders. -/
theorem fillFrom_of_native (h : RoutedFill o samples twoHopSamples nativeOrders fill)
    (hsource : fill.source = .native) :
    FillFrom o.pathContext.side samples twoHopSamples nativeOrders fill := by
  obtain ⟨path, hpath, entry, routedInput, heq, hof⟩ := h.entry
  cases hof with
  | dexSamples routeSamples first rest path_eq samples_eq _ _ source_eq =>
    -- samples are never of native orders
    have hfirst : first ∈ routeSamples.samples := by
      rw [samples_eq]
      exact List.mem_cons_self
    exact absurd ((routeSamples.source_eq first hfirst).trans (source_eq.symm.trans hsource))
      first.notNative
  | nativeOrder orders order path_eq order_eq input_eq _ source_eq type_eq fillData_eq =>
    have hmem : order ∈ nativeOrders := by
      refine o.allRoutablePaths_forall (P := fun path =>
        entry.routablePath = path.routablePath → order ∈ nativeOrders) ?_ ?_ ?_ path hpath heq
      · intro s _ i _ hdex
        rw [path_eq] at hdex
        cases hdex
      · intro quotes _ htwoHop
        rw [path_eq] at htwoHop
        cases htwoHop
      · intro other hother i j _ hnative
        rw [path_eq] at hnative
        cases hnative
        cases order_eq
        exact hother
    refine .nativeOrder order hmem source_eq fillData_eq type_eq ?_
    rw [input_eq]
    exact min_gt_right _ _

/-- Every routed fill is of something that was handed to the optimizer. -/
theorem fillFrom_of_routed (h : RoutedFill o samples twoHopSamples nativeOrders fill) :
    FillFrom o.pathContext.side samples twoHopSamples nativeOrders fill := by
  cases h.madeOf with
  | nativeOrder _ source_eq => exact fillFrom_of_native h source_eq
  | dexSample s mem _ sample sample_mem source_eq fillData_eq =>
    exact .dexSample s mem sample sample_mem source_eq fillData_eq
  | twoHop quotes mem quote quote_mem sample valid source_eq fillData_eq =>
    exact .twoHop quotes mem quote quote_mem sample valid source_eq fillData_eq

/-- The fills of the path that is found. -/
theorem fillFrom_of_findOptimalPath {router : NeonRouter} {path : Path}
    (h : o.findOptimalPathFromSamples router samples twoHopSamples nativeOrders = .ok (some path))
    (hfill : fill ∈ path.fills) :
    FillFrom o.pathContext.side samples twoHopSamples nativeOrders fill := by
  obtain ⟨routes, hroutes, h⟩ := Fallible.bind_eq_ok.mp h
  cases routes with
  | none => cases h
  | some paths =>
    have hpath := (PathComparison.optimalOf_unbeaten h).1
    exact fillFrom_of_routed
      (routedFill_of_findRoutes hroutes (hpath.imp Eq.symm Eq.symm) hfill)

end Fills

/-! ## What the sampler answers -/

/-- An amount for each order. -/
theorem withAmounts_eq_ok {Order : Type}
    {adjust : Order → BigNumber → NativeOrderWithFillableAmounts} {orders : List Order}
    {amounts : List BigNumber} {result : List NativeOrderWithFillableAmounts}
    (h : withAmounts adjust orders amounts = .ok result) :
    result = (orders.zip amounts).map fun (order, amount) => adjust order amount := by
  induction orders generalizing amounts result with
  | nil =>
    cases h
    rfl
  | cons order orders ih =>
    cases amounts with
    | nil => cases h
    | cons amount amounts =>
      obtain ⟨adjusted, hadjusted, h⟩ := Fallible.bind_eq_ok.mp h
      cases h
      rw [ih hadjusted]
      rfl

theorem makes_of_asResult {T : Type} {result : T → SamplerResult} {op : BatchedOperation T}
    {value : SamplerResult} (h : Makes (asResult result op) value) :
    ∃ v, Makes op v ∧ value = result v := by
  obtain ⟨outcome, h⟩ := h
  unfold BatchedOperation.handle asResult at h
  split at h
  · rename_i hsuccess
    obtain ⟨v, hv, h⟩ := Fallible.bind_eq_ok.mp h
    cases h
    refine ⟨v, ⟨outcome, ?_⟩, rfl⟩
    rw [BatchedOperation.handle, if_pos hsuccess, hv]
  · rename_i hfailed
    obtain ⟨v, hv, h⟩ := Fallible.bind_eq_ok.mp h
    cases h
    refine ⟨v, ⟨outcome, ?_⟩, rfl⟩
    rw [BatchedOperation.handle, if_neg hfailed, hv]

namespace MarketOperationUtils

variable [Arithmetic] (u : MarketOperationUtils)

/-- The operation that asks what is left of the limit orders. -/
def getLimitOrderFillableAmounts (side : MarketOperation) (limitOrders : List SignedLimitOrder) :
    BatchedOperation (List BigNumber) :=
  match side with
  | .sell => u.sampler.getLimitOrderFillableTakerAmounts limitOrders
  | .buy => u.sampler.getLimitOrderFillableMakerAmounts limitOrders

/-- What is sampled of a market are results of its operations. -/
structure Sampled (side : MarketOperation) (makerToken takerToken : String)
    (limitOrders : List SignedLimitOrder) (amount : BigNumber) (opts : GetMarketOrdersOpts)
    (sampled : SampledMarket) : Prop where
  orderFillableAmounts :
    Makes (u.getLimitOrderFillableAmounts side limitOrders) sampled.orderFillableAmounts
  ethToMakerAssetRate : Makes (u.ethToAssetRate makerToken opts) sampled.ethToMakerAssetRate
  ethToTakerAssetRate : Makes (u.ethToAssetRate takerToken opts) sampled.ethToTakerAssetRate
  dexQuotes :
    Makes
      (u.sampler.getQuotes side (u.quoteSourceFilters side opts).sources makerToken takerToken
        (getSampleAmounts amount opts.numSamples opts.sampleDistributionBase))
      sampled.dexQuotes
  rawTwoHopQuotes :
    Makes
      (u.sampler.getTwoHopQuotes side (twoHopSources (u.quoteSourceFilters side opts)) makerToken
        takerToken [amount])
      sampled.rawTwoHopQuotes
  isTxOriginContract :
    Makes (u.sampler.isAddressContract (txOrigin opts)) sampled.isTxOriginContract

section Sampled

variable {u} {side : MarketOperation} {makerToken takerToken : String}
  {limitOrders : List SignedLimitOrder} {amount : BigNumber} {opts : GetMarketOrdersOpts}
  {sampled : SampledMarket}

theorem sampleMarket_sampled
    (h : u.sampleMarket side makerToken takerToken limitOrders amount opts = .ok sampled) :
    u.Sampled side makerToken takerToken limitOrders amount opts sampled := by
  obtain ⟨results, hresults, h⟩ := Fallible.bind_eq_ok.mp h
  have hmakes := executeBatchAsync_makes hresults
  split at h
  · cases h
    obtain _ | ⟨_, _ | ⟨_, _ | ⟨_, _ | ⟨hfillable, _ | ⟨hmaker, _ | ⟨htaker, _ | ⟨hdex,
      _ | ⟨htwoHop, _ | ⟨hcontract, _⟩⟩⟩⟩⟩⟩⟩⟩⟩ := hmakes
    obtain ⟨_, hfillable, heq⟩ := makes_of_asResult hfillable
    cases heq
    obtain ⟨_, hmaker, heq⟩ := makes_of_asResult hmaker
    cases heq
    obtain ⟨_, htaker, heq⟩ := makes_of_asResult htaker
    cases heq
    obtain ⟨_, hdex, heq⟩ := makes_of_asResult hdex
    cases heq
    obtain ⟨_, htwoHop, heq⟩ := makes_of_asResult htwoHop
    cases heq
    obtain ⟨_, hcontract, heq⟩ := makes_of_asResult hcontract
    cases heq
    exact ⟨hfillable, hmaker, htaker, hdex, htwoHop, hcontract⟩
  · cases h

/-- Quotes of exchanges are of sources that the request and the chain allow. -/
theorem Sampled.dexQuotes_source
    (h : u.Sampled side makerToken takerToken limitOrders amount opts sampled) :
    ∀ s ∈ sampled.dexQuotes, s.source ∈ (u.quoteSourceFilters side opts).sources := by
  obtain ⟨outcome, hquotes⟩ := h.dexQuotes
  exact SamplerOperations.getQuotes_source hquotes

/-- Each of them is of a single exchange. -/
theorem Sampled.dexQuotes_isHop
    (h : u.Sampled side makerToken takerToken limitOrders amount opts sampled) :
    ∀ s ∈ sampled.dexQuotes, s.source.isHop = true := by
  obtain ⟨outcome, hquotes⟩ := h.dexQuotes
  exact SamplerOperations.getQuotes_isHop hquotes

/-- Hops are of such sources as well, and there are none unless two-hops are allowed. -/
theorem Sampled.rawTwoHopQuotes_source
    (h : u.Sampled side makerToken takerToken limitOrders amount opts sampled)
    {quotes : List TwoHopQuote} (hquotes : quotes ∈ sampled.rawTwoHopQuotes) {quote : TwoHopQuote}
    (hquote : quote ∈ quotes) {hop : HopSource}
    (hhop : quote.firstHopSource = some hop ∨ quote.secondHopSource = some hop) :
    (u.quoteSourceFilters side opts).isAllowed .multiHop = true ∧
      hop.source ∈ (u.quoteSourceFilters side opts).sources := by
  obtain ⟨outcome, htwoHop⟩ := h.rawTwoHopQuotes
  have hmem := SamplerOperations.getTwoHopQuotes_source htwoHop hquotes hquote hhop
  unfold twoHopSources at hmem
  split at hmem
  · rename_i hallowed
    exact ⟨hallowed, hmem⟩
  · cases hmem

end Sampled

/-! ## The liquidity of a market -/

/-- A limit order with the amount that the contract left of it. -/
def fillableOrder (side : MarketOperation) (order : SignedLimitOrder) (amount : BigNumber) :
    NativeOrderWithFillableAmounts :=
  match side with
  | .sell => getNativeAdjustedFillableAmountsFromTakerAmount order.toSignedNativeOrder amount
  | .buy => getNativeAdjustedFillableAmountsFromMakerAmount order.toSignedNativeOrder amount

/-- A swap of the amount is tiny. -/
def isMicro (side : MarketOperation) (amount : BigNumber) (sampled : SampledMarket) : Bool :=
  match side with
  | .sell => u.isMicroSwap amount sampled.ethToTakerAssetRate
  | .buy => u.isMicroSwap amount sampled.ethToMakerAssetRate

/-- A market's liquidity is what was sampled of it. -/
structure LiquidityOf (side : MarketOperation) (limitOrders : List SignedLimitOrder)
    (amount : BigNumber) (opts : GetMarketOrdersOpts) (sampled : SampledMarket)
    (liquidity : MarketSideLiquidity) : Prop where
  side_eq : liquidity.side = side
  quoteSourceFilters_eq : liquidity.quoteSourceFilters = u.quoteSourceFilters side opts
  nativeOrders_eq :
    liquidity.quotes.nativeOrders = (limitOrders.zip sampled.orderFillableAmounts).map
      fun (order, fillable) => fillableOrder side order fillable
  rfqtIndicativeQuotes_eq : liquidity.quotes.rfqtIndicativeQuotes = []
  twoHopQuotes_eq :
    liquidity.quotes.twoHopQuotes =
      filterTwoHopQuotes sampled.rawTwoHopQuotes (u.isMicro side amount sampled)
  dexQuotes_eq :
    liquidity.quotes.dexQuotes =
      u.filterOutDexQuotes sampled.dexQuotes (u.isMicro side amount sampled)
  isRfqSupported_eq : opts.rfqt.isSome = true →
    liquidity.isRfqSupported = !sampled.isTxOriginContract

section Liquidity

variable {u} {side : MarketOperation} {makerToken takerToken : String}
  {limitOrders : List SignedLimitOrder} {amount : BigNumber} {opts : GetMarketOrdersOpts}
  {liquidity : MarketSideLiquidity}

theorem getMarketLiquidity_of
    (h : u.getMarketLiquidity side makerToken takerToken limitOrders amount opts =
      .ok liquidity) :
    ∃ sampled, u.sampleMarket side makerToken takerToken limitOrders amount opts = .ok sampled ∧
      u.LiquidityOf side limitOrders amount opts sampled liquidity := by
  cases side with
  | sell =>
    obtain ⟨sampled, hsampled, h⟩ := Fallible.bind_eq_ok.mp h
    obtain ⟨orders, horders, h⟩ := Fallible.bind_eq_ok.mp h
    rw [withAmounts_eq_ok horders, List.zip_map_left, List.map_map] at h
    split at h
    · cases h
      refine ⟨sampled, hsampled, rfl, rfl, rfl, rfl, rfl, rfl, ?_⟩
      intro hrfqt
      dsimp only
      rw [hrfqt, Bool.true_and]
    · cases h
  | buy =>
    obtain ⟨sampled, hsampled, h⟩ := Fallible.bind_eq_ok.mp h
    obtain ⟨orders, horders, h⟩ := Fallible.bind_eq_ok.mp h
    rw [withAmounts_eq_ok horders, List.zip_map_left, List.map_map] at h
    split at h
    · cases h
      refine ⟨sampled, hsampled, rfl, rfl, rfl, rfl, rfl, rfl, ?_⟩
      intro _
      rfl
    · cases h

omit [Arithmetic] in
/-- Quotes of exchanges are kept if there are any, for a tiny swap only those of `feeSources`. -/
theorem mem_filterOutDexQuotes {dexQuotes : List SourceSamples} {micro : Bool} {s : SourceSamples} :
    s ∈ u.filterOutDexQuotes dexQuotes micro ↔
      s ∈ dexQuotes ∧ s.samples ≠ [] ∧ (micro = true → s.source ∈ u.feeSources) := by
  unfold filterOutDexQuotes
  simp only [List.mem_filter, List.length_eq_zero_iff]
  cases micro <;> by_cases hnil : s.samples = [] <;> simp [hnil]

omit [Arithmetic] in
/-- For a tiny swap there are no two-hop quotes. -/
theorem mem_filterTwoHopQuotes {rawQuotes : List (List TwoHopQuote)} {micro : Bool}
    {quotes : List TwoHopQuote} (h : quotes ∈ filterTwoHopQuotes rawQuotes micro) :
    micro = false ∧ ∃ raw ∈ rawQuotes, ∀ quote ∈ quotes, quote ∈ raw := by
  unfold filterTwoHopQuotes at h
  split at h
  · cases h
  · rename_i hmicro
    refine ⟨Bool.eq_false_of_not_eq_true hmicro, ?_⟩
    obtain ⟨raw, hraw, rfl⟩ := List.mem_map.mp (List.mem_of_mem_filter h)
    exact ⟨raw, hraw, fun quote hquote => List.mem_of_mem_filter hquote⟩

end Liquidity

/-! ## Orders of makers -/

/-- An order that makers answered with: an indicative price, or a firm quote, whose first version
counts as much as the validator says. -/
inductive MakerOrder (rfqt : RfqRequestOpts) (request : RfqClientV1PriceRequest)
    (order : NativeOrderWithFillableAmounts) : Prop
  | indicative (isIndicative : rfqt.isIndicative = true) (client : RfqClient)
    (client_eq : rfqt.rfqClient = some client) (v1Prices v2Prices : List V4RFQIndicativeQuote)
    (v1Prices_eq : client.getV1Prices request = .ok v1Prices)
    (v2Prices_eq : client.getV2Prices request.toRfqtV2Request = .ok v2Prices)
    (quote : V4RFQIndicativeQuote) (mem : quote ∈ v1Prices ++ v2Prices)
    (order_eq : order = indicativeOrder quote)
  | firmV1 (notIndicative : rfqt.isIndicative = false) (client : RfqClient)
    (client_eq : rfqt.rfqClient = some client) (v1Quotes : List RfqClientV1Quote)
    (v1Quotes_eq : client.getV1Quotes request = .ok v1Quotes) (amounts : List BigNumber)
    (amounts_eq : v1RfqTakerFillableAmounts rfqt (v1Quotes.map toSignedNativeOrder) = .ok amounts)
    (quote : RfqClientV1Quote) (fillable : BigNumber)
    (mem : (quote, fillable) ∈ v1Quotes.zip amounts)
    (order_eq : order = withFillableAmount (toSignedNativeOrder quote) fillable)
  | firmV2 (notIndicative : rfqt.isIndicative = false) (client : RfqClient)
    (client_eq : rfqt.rfqClient = some client) (v2Quotes : List RfqtV2Quote)
    (v2Quotes_eq : client.getV2Quotes request.toRfqtV2Request = .ok v2Quotes)
    (quote : RfqtV2Quote) (mem : quote ∈ v2Quotes)
    (order_eq : order = toSignedNativeOrderWithFillableAmounts quote)

section Makers

variable {rfqt : RfqRequestOpts} {request : RfqClientV1PriceRequest}

omit [Arithmetic] in
theorem makerOrder_of_indicative (hindicative : rfqt.isIndicative = true)
    {quotes : List V4RFQIndicativeQuote} (h : getIndicativeQuotes rfqt request = .ok quotes) :
    ∀ quote ∈ quotes, MakerOrder rfqt request (indicativeOrder quote) := by
  intro quote hquote
  unfold getIndicativeQuotes at h
  split at h
  · cases h
    cases hquote
  · rename_i client hclient
    obtain ⟨v1Prices, hv1, h⟩ := Fallible.bind_eq_ok.mp h
    obtain ⟨v2Prices, hv2, h⟩ := Fallible.bind_eq_ok.mp h
    cases h
    exact .indicative hindicative client hclient v1Prices v2Prices hv1 hv2 quote hquote rfl

omit [Arithmetic] in
theorem makerOrder_of_firm (hindicative : rfqt.isIndicative = false)
    {v1Quotes : List RfqClientV1Quote} {v2Quotes : List RfqtV2Quote}
    (hfirm : getFirmQuotes rfqt request = .ok (v1Quotes, v2Quotes))
    {orders : List NativeOrderWithFillableAmounts}
    (horders : quotesWithOrderFillableAmounts rfqt v1Quotes v2Quotes = .ok orders) :
    ∀ order ∈ orders, MakerOrder rfqt request order := by
  intro order horder
  obtain ⟨amounts, hamounts, horders⟩ := Fallible.bind_eq_ok.mp horders
  obtain ⟨v1Orders, hv1Orders, horders⟩ := Fallible.bind_eq_ok.mp horders
  cases horders
  rw [withAmounts_eq_ok hv1Orders, List.zip_map_left, List.map_map] at horder
  unfold getFirmQuotes at hfirm
  split at hfirm
  · cases hfirm
    cases horder
  · rename_i client hclient
    obtain ⟨quotes, hv1, hfirm⟩ := Fallible.bind_eq_ok.mp hfirm
    obtain ⟨quotes', hv2, hfirm⟩ := Fallible.bind_eq_ok.mp hfirm
    cases hfirm
    rcases List.mem_append.mp horder with horder | horder
    · obtain ⟨⟨quote, fillable⟩, hmem, rfl⟩ := List.mem_map.mp horder
      exact .firmV1 hindicative client hclient v1Quotes hv1 amounts hamounts quote fillable hmem rfl
    · obtain ⟨quote, hmem, rfl⟩ := List.mem_map.mp horder
      exact .firmV2 hindicative client hclient v2Quotes hv2 quote hmem rfl

end Makers

/-! ## Two phases -/

/-- The native orders that a routing may use. -/
def ordersOf (quotes : RawQuotes) : List NativeOrderWithFillableAmounts :=
  quotes.nativeOrders ++ quotes.rfqtIndicativeQuotes.map indicativeOrder

/-- The quotes of phase two: those of phase one's exchanges, all two-hops, and the orders of makers
besides what there was. -/
structure PhaseTwoQuotes (rfqt : RfqRequestOpts) (request : RfqClientV1PriceRequest)
    (phaseOne : Option OptimizerResult) (before after : RawQuotes) : Prop where
  dexQuotes : ∀ s ∈ after.dexQuotes,
    s ∈ before.dexQuotes ∧ s.source ∈ phase1OptimalSources phaseOne
  twoHopQuotes_eq : after.twoHopQuotes = before.twoHopQuotes
  orders : ∀ order ∈ ordersOf after, order ∈ ordersOf before ∨ MakerOrder rfqt request order

section Phases

variable {u} {liquidity : MarketSideLiquidity} {result : OptimizerResult}
  {phaseOne : Option OptimizerResult} {optimizerOpts : GenerateOptimizedOrdersOpts}

omit [Arithmetic] in
theorem mem_phase2Quotes {quotes : RawQuotes} {s : SourceSamples}
    (h : s ∈ (phase2Quotes quotes phaseOne).dexQuotes) :
    s ∈ quotes.dexQuotes ∧ s.source ∈ phase1OptimalSources phaseOne := by
  obtain ⟨hmem, hkept⟩ := List.mem_filter.mp h
  exact ⟨hmem, List.contains_iff_mem.mp (Bool.and_eq_true_iff.mp hkept).2⟩

/-- The fills of a routing are of the market's quotes. -/
theorem generateOptimizedOrders_fillFrom
    (h : u.generateOptimizedOrders liquidity optimizerOpts = .ok result) :
    ∀ fill ∈ result.path.fills,
      FillFrom liquidity.side liquidity.quotes.dexQuotes liquidity.quotes.twoHopQuotes
        (ordersOf liquidity.quotes) fill := by
  obtain ⟨optimalPath, hpath, h⟩ := Fallible.bind_eq_ok.mp h
  cases optimalPath with
  | none => cases h
  | some path =>
    cases h
    intro fill hfill
    exact fillFrom_of_findOptimalPath hpath hfill

/-- A result of phase one is that of a routing which adjusts no fill. -/
theorem generateOptimizedOrders_of_phaseOne {amount : BigNumber}
    {nativeOrderFeeEstimate : FillQuoteTransformerOrderType → Option FeeEstimate}
    {exchangeProxyOverhead : ExchangeProxyOverhead} {phaseOneResult : PhaseOneResult}
    (h : u.getPhaseOneRoutingResult liquidity amount optimizerOpts nativeOrderFeeEstimate
      exchangeProxyOverhead = .ok phaseOneResult)
    (hresult : phaseOneResult.optimizerResult = some result) :
    u.generateOptimizedOrders liquidity optimizerOpts = .ok result := by
  unfold getPhaseOneRoutingResult at h
  split at h
  · rename_i optimizerResult hoptimized
    cases h
    cases hresult
    exact hoptimized
  · split at h
    · cases h
      cases hresult
    · cases h
  · cases h

/-- Phase two answers as phase one did, or routes over its own quotes. -/
theorem phaseTwo_cases {rfqt : RfqRequestOpts} {request : RfqClientV1PriceRequest}
    {optimizerResult : Option OptimizerResult}
    (h : u.getPhaseTwoRoutingResult liquidity rfqt request phaseOne optimizerOpts =
      .ok optimizerResult) :
    optimizerResult = phaseOne ∨
      ∃ quotes result, PhaseTwoQuotes rfqt request phaseOne liquidity.quotes quotes ∧
        optimizerResult = some result ∧
        u.generateOptimizedOrders { liquidity with quotes } optimizerOpts = .ok result := by
  unfold getPhaseTwoRoutingResult at h
  split at h
  · rename_i hindicative
    obtain ⟨indicativeQuotes, hquotes, h⟩ := Fallible.bind_eq_ok.mp h
    split at h
    · obtain ⟨result, hresult, h⟩ := Fallible.bind_eq_ok.mp h
      cases h
      let quotes := { liquidity.quotes with rfqtIndicativeQuotes := indicativeQuotes }
      refine .inr ⟨phase2Quotes quotes phaseOne, result,
        ⟨fun s hs => @mem_phase2Quotes phaseOne quotes s hs, rfl, ?_⟩, rfl, hresult⟩
      intro order horder
      rcases List.mem_append.mp horder with horder | horder
      · exact .inl (List.mem_append_left _ horder)
      · obtain ⟨quote, hquote, rfl⟩ := List.mem_map.mp horder
        exact .inr (makerOrder_of_indicative hindicative hquotes quote hquote)
    · cases h
      exact .inl rfl
  · rename_i hindicative
    obtain ⟨⟨v1Quotes, v2Quotes⟩, hquotes, h⟩ := Fallible.bind_eq_ok.mp h
    dsimp only at h
    split at h
    · obtain ⟨firmOrders, hfirm, h⟩ := Fallible.bind_eq_ok.mp h
      obtain ⟨result, hresult, h⟩ := Fallible.bind_eq_ok.mp h
      cases h
      let quotes :=
        { liquidity.quotes with nativeOrders := firmOrders ++ liquidity.quotes.nativeOrders }
      refine .inr ⟨phase2Quotes quotes phaseOne, result,
        ⟨fun s hs => @mem_phase2Quotes phaseOne quotes s hs, rfl, ?_⟩, rfl, hresult⟩
      intro order horder
      rcases List.mem_append.mp horder with horder | horder
      · rcases List.mem_append.mp horder with horder | horder
        · exact .inr (makerOrder_of_firm (Bool.eq_false_of_not_eq_true hindicative) hquotes hfirm
            order horder)
        · exact .inl (List.mem_append_left _ horder)
      · exact .inl (List.mem_append_right _ horder)
    · cases h
      exact .inl rfl

end Phases

/-! ## Every fill is accounted for -/

variable (side : MarketOperation) (makerToken takerToken : String)
  (limitOrders : List SignedLimitOrder) (amount : BigNumber) (opts : GetMarketOrdersOpts)
  (sampled : SampledMarket)

/-- Makers could be asked: there are options for it, native orders are allowed, and the origin of
the transaction is no contract. -/
structure Asked (rfqt : RfqRequestOpts) (request : RfqClientV1PriceRequest) : Prop where
  rfqt_eq : opts.rfqt = some rfqt
  allowed : (u.quoteSourceFilters side opts).isAllowed .native = true
  isTxOriginContract_eq : sampled.isTxOriginContract = false
  request_eq : ∃ comparisonPrice,
    request = u.rfqtV1Request rfqt makerToken takerToken amount side comparisonPrice

/-- A fill of a native order takes no more than is fillable of it. -/
structure NativeFill (order : NativeOrderWithFillableAmounts) (fill : Fill) : Prop where
  source_eq : fill.source = .native
  fillData_eq : fill.fillData = .native order
  within : fill.input.gt (nativeOrderToNormalizedAmounts side order).1 = false

/-- A fill of a limit order, with what the contract left of that order. -/
def LimitOrderFill (order : SignedLimitOrder) (fill : Fill) : Prop :=
  ∃ fillable, (order, fillable) ∈ limitOrders.zip sampled.orderFillableAmounts ∧
    NativeFill side (fillableOrder side order fillable) fill

/-- A fill of a single exchange, of what that was sampled at. -/
structure ExchangeFill (fill : Fill) : Prop where
  isHop : fill.source.isHop = true
  quoted : ∃ s ∈ sampled.dexQuotes, fill.source = s.source ∧
    ∃ sample ∈ s.samples, fill.fillData = sample.fillData

/-- A fill of two exchanges, of a quote that was sampled with both hops. -/
structure TwoHopFill (sample : TwoHopSample) (fill : Fill) : Prop where
  source_eq : fill.source = .multiHop
  fillData_eq : fill.fillData = sample.fillData
  quoted : ∃ quotes ∈ sampled.rawTwoHopQuotes, ∃ quote ∈ quotes, quote.valid = some sample

variable {sampled} in
omit [Arithmetic] in
/-- What an exchange was sampled at is no order. -/
theorem ExchangeFill.ne_native {fill : Fill} (h : ExchangeFill sampled fill)
    (order : NativeOrderWithFillableAmounts) : fill.fillData ≠ .native order := by
  obtain ⟨_, _, _, sample, _, hfillData⟩ := h.quoted
  intro horder
  have hshape := sample.sampled.1
  rw [← hfillData, horder] at hshape
  exact RoutedPath.sampledShape_ne_native sample.notNative hshape.symm

variable {sampled} in
omit [Arithmetic] in
/-- A two-hop is no order. -/
theorem TwoHopFill.ne_native {sample : TwoHopSample} {fill : Fill}
    (h : TwoHopFill sampled sample fill) (order : NativeOrderWithFillableAmounts) :
    fill.fillData ≠ .native order := by
  rw [h.fillData_eq]
  exact nofun

/-- A fill is of a limit order or of a maker's order; or it is of an exchange that is allowed, or of
two of them. -/
inductive Accounted (fill : Fill) : Prop
  | limitOrder (order : SignedLimitOrder) (mem : order ∈ limitOrders)
    (ofOrder : LimitOrderFill side limitOrders sampled order fill)
  | makerOrder (rfqt : RfqRequestOpts) (request : RfqClientV1PriceRequest)
    (asked : u.Asked side makerToken takerToken amount opts sampled rfqt request)
    (order : NativeOrderWithFillableAmounts) (made : MakerOrder rfqt request order)
    (ofOrder : NativeFill side order fill)
  | exchange (ofExchange : ExchangeFill sampled fill)
    (allowed : fill.source ∈ (u.quoteSourceFilters side opts).sources)
    (ofTiny : u.isMicro side amount sampled = true → fill.source ∈ u.feeSources)
  | twoHop (sample : TwoHopSample) (ofTwoHop : TwoHopFill sampled sample fill)
    (allowed : (u.quoteSourceFilters side opts).isAllowed .multiHop = true)
    (notTiny : u.isMicro side amount sampled = false)
    (firstHop : sample.firstHopSource.source ∈ (u.quoteSourceFilters side opts).sources)
    (secondHop : sample.secondHopSource.source ∈ (u.quoteSourceFilters side opts).sources)

section Accounted

variable {u side makerToken takerToken limitOrders amount opts sampled}
  {liquidity : MarketSideLiquidity} {result : OptimizerResult}

/-- What the quotes of a phase may be, besides what was sampled: orders of makers who were asked. -/
theorem accounted_of_fillFrom
    (hsampled : u.Sampled side makerToken takerToken limitOrders amount opts sampled)
    (hof : u.LiquidityOf side limitOrders amount opts sampled liquidity) {quotes : RawQuotes}
    (hdex : ∀ s ∈ quotes.dexQuotes, s ∈ liquidity.quotes.dexQuotes)
    (htwoHop : quotes.twoHopQuotes = liquidity.quotes.twoHopQuotes)
    (horders : ∀ order ∈ ordersOf quotes, order ∈ ordersOf liquidity.quotes ∨
      ∃ rfqt request, u.Asked side makerToken takerToken amount opts sampled rfqt request ∧
        MakerOrder rfqt request order) {fill : Fill}
    (h : FillFrom liquidity.side quotes.dexQuotes quotes.twoHopQuotes (ordersOf quotes) fill) :
    u.Accounted side makerToken takerToken limitOrders amount opts sampled fill := by
  rw [hof.side_eq] at h
  cases h with
  | nativeOrder order mem source_eq fillData_eq type_eq within =>
    rcases horders order mem with hlimit | ⟨rfqt, request, hasked, hmade⟩
    · rw [ordersOf, hof.rfqtIndicativeQuotes_eq, hof.nativeOrders_eq, List.map_nil,
        List.append_nil] at hlimit
      obtain ⟨⟨limitOrder, fillable⟩, hmem, rfl⟩ := List.mem_map.mp hlimit
      exact .limitOrder limitOrder (List.of_mem_zip hmem).1
        ⟨fillable, hmem, source_eq, fillData_eq, within⟩
    · exact .makerOrder rfqt request hasked order hmade ⟨source_eq, fillData_eq, within⟩
  | dexSample s mem sample sample_mem source_eq fillData_eq =>
    have hkept := hdex s mem
    rw [hof.dexQuotes_eq, mem_filterOutDexQuotes] at hkept
    obtain ⟨hmem, _, htiny⟩ := hkept
    have hof : ExchangeFill sampled fill :=
      ⟨source_eq ▸ hsampled.dexQuotes_isHop s hmem,
        s, hmem, source_eq, sample, sample_mem, fillData_eq⟩
    exact .exchange hof (source_eq ▸ hsampled.dexQuotes_source s hmem)
      (fun hmicro => source_eq ▸ htiny hmicro)
  | twoHop quotes mem quote quote_mem sample valid source_eq fillData_eq =>
    rw [htwoHop, hof.twoHopQuotes_eq] at mem
    obtain ⟨hmicro, raw, hraw, hsub⟩ := mem_filterTwoHopQuotes mem
    obtain ⟨hfirst, hsecond⟩ := UniswapV3PathAmounts.hops_of_valid valid
    obtain ⟨hallowed, hfirst⟩ :=
      hsampled.rawTwoHopQuotes_source hraw (hsub quote quote_mem) (.inl hfirst)
    obtain ⟨_, hsecond⟩ :=
      hsampled.rawTwoHopQuotes_source hraw (hsub quote quote_mem) (.inr hsecond)
    have hof : TwoHopFill sampled sample fill :=
      ⟨source_eq, fillData_eq, raw, hraw, quote, hsub quote quote_mem, valid⟩
    exact .twoHop sample hof hallowed hmicro hfirst hsecond

/-- The options that makers are asked with are those of the request, where the origin is no contract
and native orders are allowed. -/
theorem rfqtOf_eq_some_iff (hof : u.LiquidityOf side limitOrders amount opts sampled liquidity)
    {asked : RfqRequestOpts} :
    rfqtOf liquidity opts = some asked ↔
      opts.rfqt = some asked ∧ asked.quoteRequestor = true ∧
        sampled.isTxOriginContract = false ∧
        (u.quoteSourceFilters side opts).isAllowed .native = true := by
  have hsupported := hof.isRfqSupported_eq
  unfold rfqtOf
  rw [hof.quoteSourceFilters_eq]
  cases hrfqt : opts.rfqt with
  | none => simp
  | some rfqt =>
    rw [hrfqt] at hsupported
    dsimp only
    rw [hsupported rfl]
    constructor
    · intro h
      split at h
      · rename_i hasked
        cases h
        simpa [and_assoc, and_comm, and_left_comm] using hasked
      · cases h
    · rintro ⟨hsame, hrequestor, hcontract, hallowed⟩
      cases hsame
      rw [hrequestor, hcontract, hallowed]
      rfl

/-- Makers are asked only where they could be. -/
theorem asked_of_rfqtOf (hof : u.LiquidityOf side limitOrders amount opts sampled liquidity)
    {rfqt : RfqRequestOpts} (h : rfqtOf liquidity opts = some rfqt)
    (comparisonPrice : Option BigNumber) :
    u.Asked side makerToken takerToken amount opts sampled rfqt
      (u.rfqtV1Request rfqt makerToken takerToken amount side comparisonPrice) := by
  obtain ⟨hrfqt, _, hcontract, hallowed⟩ := (rfqtOf_eq_some_iff hof).mp h
  exact ⟨hrfqt, hallowed, hcontract, _, rfl⟩

omit [Arithmetic] in
/-- What is answered with is there. -/
theorem optimizerResult_of_ok {optimizerResult : Option OptimizerResult}
    (h : (match optimizerResult with
      | none => .error (.error NO_OPTIMAL_PATH)
      | some optimizerResult => .ok optimizerResult : Except JsError OptimizerResult) =
      .ok result) : optimizerResult = some result := by
  cases optimizerResult with
  | none => cases h
  | some optimizerResult =>
    cases h
    rfl

/-- How the result comes about: from a market's liquidity, in phase one or in phase two. -/
theorem getOptimizerResult_cases
    (h : u.getOptimizerResult makerToken takerToken limitOrders amount side opts = .ok result) :
    ∃ liquidity phaseOne,
      u.getMarketLiquidity side makerToken takerToken limitOrders amount opts = .ok liquidity ∧
      u.getPhaseOneRoutingResult liquidity amount (phaseOneOptimizerOpts opts)
        opts.nativeOrderFeeEstimate opts.exchangeProxyOverhead = .ok phaseOne ∧
      (phaseOne.optimizerResult = some result ∨
        ∃ rfqt quotes, rfqtOf liquidity opts = some rfqt ∧
          PhaseTwoQuotes rfqt
            (u.rfqtV1Request rfqt makerToken takerToken amount side phaseOne.wholeOrderPrice)
            phaseOne.optimizerResult liquidity.quotes quotes ∧
          u.generateOptimizedOrders { liquidity with quotes } (optimizerOpts opts)
            = .ok result) := by
  obtain ⟨liquidity, hliquidity, h⟩ := Fallible.bind_eq_ok.mp h
  obtain ⟨phaseOne, hphaseOne, h⟩ := Fallible.bind_eq_ok.mp h
  refine ⟨liquidity, phaseOne, hliquidity, hphaseOne, ?_⟩
  cases hrfqt : rfqtOf liquidity opts with
  | none =>
    rw [hrfqt] at h
    obtain ⟨optimizerResult, hoptimizerResult, h⟩ := Fallible.bind_eq_ok.mp h
    cases hoptimizerResult
    exact .inl (optimizerResult_of_ok h)
  | some rfqt =>
    rw [hrfqt] at h
    obtain ⟨optimizerResult, hoptimizerResult, h⟩ := Fallible.bind_eq_ok.mp h
    have hresult := optimizerResult_of_ok h
    rcases phaseTwo_cases hoptimizerResult with heq | ⟨quotes, second, hquotes, heq, hsecond⟩
    · exact .inl (heq.symm.trans hresult)
    · rw [hresult] at heq
      cases heq
      exact .inr ⟨rfqt, quotes, rfl, hquotes, hsecond⟩

/-- Every fill of the path that is answered with is accounted for by what was sampled. -/
theorem getOptimizerResult_accounted
    (h : u.getOptimizerResult makerToken takerToken limitOrders amount side opts = .ok result) :
    ∃ sampled, u.sampleMarket side makerToken takerToken limitOrders amount opts = .ok sampled ∧
      ∀ fill ∈ result.path.fills,
        u.Accounted side makerToken takerToken limitOrders amount opts sampled fill := by
  obtain ⟨liquidity, phaseOne, hliquidity, hphaseOne, hresult⟩ :=
    getOptimizerResult_cases h
  obtain ⟨sampled, hmarket, hof⟩ := getMarketLiquidity_of hliquidity
  have hsampled := sampleMarket_sampled hmarket
  refine ⟨sampled, hmarket, fun fill hfill => ?_⟩
  rcases hresult with hresult | ⟨rfqt, quotes, hrfqt, hquotes, hresult⟩
  · have hfrom := generateOptimizedOrders_fillFrom
      (generateOptimizedOrders_of_phaseOne hphaseOne hresult) fill hfill
    exact accounted_of_fillFrom hsampled hof (fun _ hs => hs) rfl (fun _ ho => .inl ho) hfrom
  · have hfrom := generateOptimizedOrders_fillFrom hresult fill hfill
    refine accounted_of_fillFrom hsampled hof (fun s hs => (hquotes.dexQuotes s hs).1)
      hquotes.twoHopQuotes_eq ?_ hfrom
    intro order horder
    rcases hquotes.orders order horder with hbefore | hmade
    · exact .inl hbefore
    · exact .inr ⟨rfqt, _, asked_of_rfqtOf hof hrfqt _, hmade⟩

/-- The quotes of a market's exchanges are each of a single one. -/
theorem isHop_of_getMarketLiquidity
    (h : u.getMarketLiquidity side makerToken takerToken limitOrders amount opts = .ok liquidity) :
    ∀ s ∈ liquidity.quotes.dexQuotes, s.source.isHop = true := by
  obtain ⟨sampled, hmarket, hof⟩ := getMarketLiquidity_of h
  intro s hs
  rw [hof.dexQuotes_eq, mem_filterOutDexQuotes] at hs
  exact (sampleMarket_sampled hmarket).dexQuotes_isHop s hs.1

end Accounted

/-! ## What phase two adds -/

/-- What a fill of phase two is of: an order of the market or of a maker who was asked; an exchange
that phase one used; or any two-hop quote of the market with both hops, as these are all kept. -/
inductive PhaseTwoFill (liquidity : MarketSideLiquidity) (phaseOne : Option OptimizerResult)
    (rfqt : RfqRequestOpts) (request : RfqClientV1PriceRequest) (fill : Fill) : Prop
  | nativeOrder (order : NativeOrderWithFillableAmounts)
    (given : order ∈ ordersOf liquidity.quotes ∨ MakerOrder rfqt request order)
    (source_eq : fill.source = .native) (fillData_eq : fill.fillData = .native order)
  | exchange (s : SourceSamples) (mem : s ∈ liquidity.quotes.dexQuotes)
    (isHop : fill.source.isHop = true) (source_eq : fill.source = s.source)
    (used : s.source ∈ phase1OptimalSources phaseOne)
  | twoHop (quotes : List TwoHopQuote) (mem : quotes ∈ liquidity.quotes.twoHopQuotes)
    (quote : TwoHopQuote) (quote_mem : quote ∈ quotes) (sample : TwoHopSample)
    (valid : quote.valid = some sample) (source_eq : fill.source = .multiHop)
    (fillData_eq : fill.fillData = sample.fillData)

section PhaseTwo

variable {u side makerToken takerToken limitOrders amount opts}
  {liquidity : MarketSideLiquidity} {result : OptimizerResult}

omit [Arithmetic] in
/-- A routing over the quotes of phase two. -/
theorem phaseTwoFill_of_fillFrom {phaseOne : Option OptimizerResult} {rfqt : RfqRequestOpts}
    {request : RfqClientV1PriceRequest} {quotes : RawQuotes}
    (hquotes : PhaseTwoQuotes rfqt request phaseOne liquidity.quotes quotes)
    (hisHop : ∀ s ∈ liquidity.quotes.dexQuotes, s.source.isHop = true) {fill : Fill}
    (h : FillFrom side quotes.dexQuotes quotes.twoHopQuotes (ordersOf quotes) fill) :
    PhaseTwoFill liquidity phaseOne rfqt request fill := by
  cases h with
  | nativeOrder order mem source_eq fillData_eq type_eq within =>
    exact .nativeOrder order (hquotes.orders order mem) source_eq fillData_eq
  | dexSample s mem sample sample_mem source_eq fillData_eq =>
    obtain ⟨hmem, hused⟩ := hquotes.dexQuotes s mem
    refine .exchange s hmem ?_ source_eq hused
    rw [source_eq]
    exact hisHop s hmem
  | twoHop quotes mem quote quote_mem sample valid source_eq fillData_eq =>
    rw [hquotes.twoHopQuotes_eq] at mem
    exact .twoHop quotes mem quote quote_mem sample valid source_eq fillData_eq

end PhaseTwo

end MarketOperationUtils

/-! ### One router and one maker -/

/-- A contract that is given one call at a time in a batch. -/
def oneCallContract : ERC20BridgeSamplerContract :=
  { echoContract with
    decodeBatchCall := fun data => .ok [⟨data.tail, true⟩]
    getTokenDecimals := fun tokens => tokens.map fun _ => 18 }

/-- Two for one, whatever the amount. -/
def twoForOne : (source : ERC20BridgeSource) → List (OperationOf source)
  | .uniswapV2 => [⟨[6, 12, 18], fun data => .ok (routerQuote data)⟩]
  | _ => []

/-- Ten of the one token for eighty of the other. -/
def firmQuote : RfqClientV1Quote where
  order :=
    { maker := "m"
      makerToken := "d"
      takerToken := "w"
      makerAmount := .fin 80
      takerAmount := .fin 10
      takerTokenFeeAmount := ZERO_AMOUNT }
  signature := INVALID_SIGNATURE

/-- A maker that has that quote for everyone. -/
def oneMaker : RfqClient where
  getV1Prices _ := .ok []
  getV2Prices _ := .ok []
  getV1Quotes _ := .ok [firmQuote]
  getV2Quotes _ := .ok []

/-- Nine of one path; of two paths, four of the first and five of the second. -/
def fourAndFive : NeonRouter := fun capture _ =>
  let amounts : ℕ → RoutedAmounts := fun i =>
    if capture.pathsIn.length = 1 then
      ⟨.fin 9, .fin 18⟩
    else if i = 0 then
      ⟨.fin 4, .fin 8⟩
    else
      ⟨.fin 5, .fin 40⟩
  ⟨amounts, amounts⟩

/-- A chain with that exchange, and native orders. -/
def oneExchange : MarketOperationUtils where
  chainId := .mainnet
  sampler :=
    { samplerContract := oneCallContract
      sourcesByChainId := fun _ => [.native, .uniswapV2]
      tokenAdjacencyGraph := TokenAdjacency.getEmptyGraph
      isBadTokenForSource := fun _ _ => false
      operationsOf := fun _ source _ _ _ _ => twoForOne source }
  callAsync callDatas := .ok (callDatas.map fun callData => ⟨callData, true⟩)
  feeSources := [.uniswapV2]
  nativeFeeToken := "w"
  nativeFeeTokenAmount := 1
  router := fourAndFive

/-- A request that asks the maker, with what a validator says or without one. -/
def firmRequest (rfqClient : Option RfqClient)
    (firmQuoteValidator : Option RfqFirmQuoteValidator) : RfqRequestOpts where
  takerAddress := NULL_ADDRESS
  txOrigin := "t"
  integratorId := "i"
  intentOnFilling := true
  isIndicative := false
  nativeExclusivelyRFQ := false
  altRfqAssetOfferings := []
  quoteRequestor := rfqClient.isSome
  rfqClient := rfqClient
  firmQuoteValidator := firmQuoteValidator

/-- Three samples and no fees. -/
def threeSamples (rfqt : Option RfqRequestOpts) : GetMarketOrdersOpts where
  excludedSources := []
  includedSources := []
  numSamples := 3
  sampleDistributionBase := 1
  feeSchedule _ _ := ⟨0, .fin 0⟩
  nativeOrderFeeEstimate _ := some ⟨0, .fin 0⟩
  exchangeProxyOverhead _ := ZERO_AMOUNT
  neonRouterNumSamples := 3
  fillAdjustor := identityFillAdjustor
  rfqt := rfqt

/-! ### A second router, behind an intermediate token -/

/-- A pair that is a hop to or from the intermediate token. -/
def isHopPair (makerToken takerToken : String) : Bool := makerToken == "x" || takerToken == "x"

/-- What SushiSwap quotes: the bytes of its results. -/
def sushiQuote (data : Bytes) : SampledQuote .sushiSwap where
  fillData := .uniswapV2 [] NULL_ADDRESS
  sampled := ⟨rfl, trivial⟩
  outputs := data.map fun byte => .fin byte.toNat

/-- Two for one at Uniswap V2, and SushiSwap for hops. -/
def twoForOneOrHop (makerToken takerToken : String) :
    (source : ERC20BridgeSource) → List (OperationOf source)
  | .uniswapV2 =>
    if isHopPair makerToken takerToken then [] else twoForOne .uniswapV2
  | .sushiSwap =>
    if isHopPair makerToken takerToken then [⟨[17], fun data => .ok (sushiQuote data)⟩] else []
  | _ => []

/-- All of the first path where there are two, else nine of three split between the others. -/
def aroundTheFirst : NeonRouter := fun capture _ =>
  let amounts : ℕ → RoutedAmounts := fun i =>
    match capture.pathsIn.length, i with
    | 2, 0 => ⟨.fin 9, .fin 18⟩
    | 3, 1 => ⟨.fin 4, .fin 7⟩
    | 3, 2 => ⟨.fin 5, .fin 40⟩
    | _, _ => ⟨.fin 0, .fin 0⟩
  ⟨amounts, amounts⟩

/-- The chain of the exchange and the maker, with two-hops through SushiSwap. -/
def twoRouters : MarketOperationUtils where
  chainId := .mainnet
  sampler :=
    { samplerContract := oneCallContract
      sourcesByChainId := fun _ => [.native, .multiHop, .uniswapV2, .sushiSwap]
      tokenAdjacencyGraph := ⟨.empty, ["x"]⟩
      isBadTokenForSource := fun _ _ => false
      operationsOf := fun _ source makerToken takerToken _ _ =>
        twoForOneOrHop makerToken takerToken source }
  callAsync callDatas := .ok (callDatas.map fun callData => ⟨callData, true⟩)
  feeSources := [.uniswapV2]
  nativeFeeToken := "w"
  nativeFeeTokenAmount := 1
  router := aroundTheFirst

/-- A fill that goes through a source in its first hop. -/
def hopsThrough (source : ERC20BridgeSource) (fill : Fill) : Bool :=
  match fill.fillData with
  | .multiHop firstHopSource _ _ _ _ => firstHopSource == source
  | _ => false

end ZeroExApi.Routing
