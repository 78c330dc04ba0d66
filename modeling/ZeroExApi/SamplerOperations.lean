/-
# ZeroExApi.SamplerOperations — which sources are quoted, and the price of a token in ether

`market_operation_utils/sampler_operations.ts`.  A pair is quoted at each source that is allowed
(`getSellQuotes`, `getBuyQuotes`), and through each intermediate token at each pair of them
(`getTwoHopSellQuotes`, `getTwoHopBuyQuotes`); `getBestNativeTokenSellRate` picks one of the quotes
for a price.  The operations of one source are a row of a table; here they are given by their source
and by what is read off their results.

Whatever the contract answers, quotes are those of sources that were asked for
(`getQuotes_source`, `getTwoHopQuotes_source`), and the price is that of a source which nobody
outbids after its fee (`getBestNativeTokenSellRate_best`).
-/

import ZeroExApi.NativeOrders
import ZeroExApi.RoutablePaths
import ZeroExApi.SamplerBatch
import ZeroExApi.SourceFilters
import ZeroExApi.TokenAdjacency
import ZeroExApi.TwoHopSampler
import ZeroExApi.OrderComparison

namespace ZeroExApi.Sampling

open ZeroExApi.Lib ZeroExApi.Lib.BigNumber ZeroExApi.Lib.JsArray
open ZeroExApi.NativeOrders ZeroExApi.SamplerBatch ZeroExApi.TokenAdjacency
open ZeroExApi.TwoHopSampler (HopInfo)

/-! ## Operations -/

/-- What is read off the results of an operation: the fill data it leaves behind, and an output for
each amount. -/
structure SampledQuote (source : ERC20BridgeSource) where
  fillData : FillData
  sampled : fillData.Sampled source
  outputs : List BigNumber

/-- An operation of a source. -/
structure OperationOf (source : ERC20BridgeSource) where
  encodeCall : Bytes
  handleCallResults : Bytes → Except JsError (SampledQuote source)

/-- `SourceQuoteOperation`; native orders and two-hops are not quoted so. -/
structure SourceQuoteOperation where
  source : ERC20BridgeSource
  isHop : source.isHop = true
  operation : OperationOf source

/-- `SignedLimitOrder`. -/
structure SignedLimitOrder extends SignedNativeOrder where
  taker : String
  expiry : BigNumber

/-- What `abi.decode` makes of the results of `sampleTwoHopSell` and `sampleTwoHopBuy`. -/
structure TwoHopResults where
  firstHop : HopInfo
  secondHop : HopInfo
  amounts : List BigNumber

/-- `ERC20BridgeSamplerContract`: the call data and the results of what is called here. -/
structure ERC20BridgeSamplerContract extends SamplerContract where
  getTokenDecimals : List String → Bytes
  getLimitOrderFillableTakerAssetAmounts : List SignedLimitOrder → Bytes
  getLimitOrderFillableMakerAssetAmounts : List SignedLimitOrder → Bytes
  decodeAmounts : Bytes → Except JsError (List BigNumber)
  isContract : String → Bytes
  decodeBool : Bytes → Except JsError Bool
  getGasLeft : Bytes
  getBlockNumber : Bytes
  decodeAmount : Bytes → Except JsError BigNumber
  sampleTwoHop : MarketOperation → List Bytes → List Bytes → ℕ → Bytes
  decodeTwoHop : Bytes → Except JsError TwoHopResults

/-- `SamplerOperations`: the sources of its chain, its tables, and for each side the operations of
each source. -/
structure SamplerOperations where
  samplerContract : ERC20BridgeSamplerContract
  sourcesByChainId : MarketOperation → List ERC20BridgeSource
  tokenAdjacencyGraph : TokenAdjacencyGraph
  isBadTokenForSource : String → ERC20BridgeSource → Bool
  operationsOf : MarketOperation → (source : ERC20BridgeSource) → (makerToken takerToken : String) →
    List String → List BigNumber → List (OperationOf source)

/-- `constant`. -/
def constant {T : Type} (result : T) : BatchedOperation T where
  encodeCall := NULL_BYTES
  handleCallResults := fun _ => .ok result
  handleRevert := fun _ => .ok result

/-- A `SamplerContractOperation` for amounts, without a callback. -/
def amountsOperation (encodeCall : Bytes)
    (decode : Bytes → Except JsError (List BigNumber)) : BatchedOperation (List BigNumber) where
  encodeCall := encodeCall
  handleCallResults := decode
  handleRevert := fun _ => .ok []

/-- An operation that cannot revert. -/
def safeOperation {T : Type} (encodeCall : Bytes) (decode : Bytes → Except JsError T)
    (message : String) : BatchedOperation T where
  encodeCall := encodeCall
  handleCallResults := decode
  handleRevert := fun _ => .error (.error message)

/-! ## Batches -/

/-- An operation makes a value of some outcome of its call. -/
def Makes {R : Type} (op : BatchedOperation R) (value : R) : Prop :=
  ∃ outcome, op.handle outcome = .ok value

/-- What the operations of a batch make of its outcome, each of the result at its place. -/
def handled {R : Type} (contract : SamplerContract) (subOps : List (BatchedOperation R))
    (outcome : SamplerCallResult) : Except JsError (List R) := do
  let rawSubCallResults ← contract.decodeBatchCall outcome.data
  inOrder (subOps.mapIdx fun i op =>
    match rawSubCallResults[i]? with
    | some rawSubCallResult => op.handle rawSubCallResult
    | none => .error .typeError)

/-- A batch returns what its handler makes of its results, unless it reverts. -/
theorem createBatch_eq_ok {R T : Type} {contract : SamplerContract}
    {subOps : List (BatchedOperation R)} {resultHandler : List R → Except JsError T}
    {revertHandler : Bytes → Except JsError T} {outcome : SamplerCallResult} {value : T}
    (h : (createBatch contract subOps resultHandler revertHandler).handle outcome = .ok value) :
    (outcome.success = true ∧ ∃ results,
        handled contract subOps outcome = .ok results ∧ resultHandler results = .ok value) ∨
      (outcome.success = false ∧ revertHandler outcome.data = .ok value) := by
  unfold BatchedOperation.handle at h
  split at h
  · rename_i hsuccess
    obtain ⟨raw, hraw, h⟩ := Fallible.bind_eq_ok.mp h
    obtain ⟨results, hresults, h⟩ := Fallible.bind_eq_ok.mp h
    exact .inl ⟨hsuccess, results, Fallible.bind_eq_ok.mpr ⟨raw, hraw, hresults⟩, h⟩
  · rename_i hfailed
    exact .inr ⟨Bool.eq_false_of_not_eq_true hfailed, h⟩

/-- The results of a batch are values of its operations. -/
theorem handled_makes {R : Type} {contract : SamplerContract} {subOps : List (BatchedOperation R)}
    {outcome : SamplerCallResult} {results : List R}
    (h : handled contract subOps outcome = .ok results) : List.Forall₂ Makes subOps results := by
  obtain ⟨raw, _, hresults⟩ := Fallible.bind_eq_ok.mp h
  have hvalues := Fallible.mapM_eq_ok_iff.mp hresults
  rw [List.forall₂_iff_get] at hvalues ⊢
  obtain ⟨hlength, hvalues⟩ := hvalues
  rw [List.length_mapIdx] at hlength
  refine ⟨hlength, fun i hi hi' => ?_⟩
  have hvalue := hvalues i (by rwa [List.length_mapIdx]) hi'
  simp only [List.get_eq_getElem, List.getElem_mapIdx, id] at hvalue
  split at hvalue
  · exact ⟨_, hvalue⟩
  · cases hvalue

theorem parseCallResults_makes {T : Type} {rawCallResults : List SamplerCallResult}
    {ops : List (BatchedOperation T)} {idx : ℕ} {results : List T}
    (h : parseCallResults rawCallResults ops idx = .ok results) :
    List.Forall₂ Makes ops results := by
  induction ops generalizing idx results with
  | nil =>
    cases h
    exact .nil
  | cons op ops ih =>
    unfold parseCallResults at h
    split at h
    · split at h
      · obtain ⟨value, hvalue, h⟩ := Fallible.bind_eq_ok.mp h
        obtain ⟨values, hvalues, h⟩ := Fallible.bind_eq_ok.mp h
        cases h
        exact .cons ⟨_, hvalue⟩ (ih hvalues)
      · cases h
    · obtain ⟨value, hvalue, h⟩ := Fallible.bind_eq_ok.mp h
      obtain ⟨values, hvalues, h⟩ := Fallible.bind_eq_ok.mp h
      cases h
      exact .cons ⟨_, hvalue⟩ (ih hvalues)

/-- However the contract is reached and whatever it answers, each result is one of its operation. -/
theorem executeBatchAsync_makes {T : Type}
    {callAsync : List Bytes → Except JsError (List SamplerCallResult)}
    {ops : List (BatchedOperation T)} {results : List T}
    (h : executeBatchAsync callAsync ops = .ok results) : List.Forall₂ Makes ops results := by
  unfold executeBatchAsync at h
  dsimp only at h
  split at h
  · have hresults := Fallible.mapM_eq_ok_iff.mp h
    rw [List.forall₂_map_left_iff] at hresults
    exact hresults.imp fun op value hvalue => ⟨⟨NULL_BYTES, true⟩, hvalue⟩
  · obtain ⟨raw, _, h⟩ := Fallible.bind_eq_ok.mp h
    exact parseCallResults_makes h

/-! ## Samples of a source -/

theorem zipWith_source {source : ERC20BridgeSource}
    (sampleOf : BigNumber → BigNumber → DexSample)
    (h : ∀ input output, (sampleOf input output).source = source)
    (inputs outputs : List BigNumber) :
    ∀ s ∈ List.zipWith sampleOf inputs outputs, s.source = source := by
  intro s hs
  obtain ⟨j, hj, rfl⟩ := List.getElem_of_mem hs
  rw [List.getElem_zipWith, h]

theorem ne_native_of_isHop {source : ERC20BridgeSource} (h : source.isHop = true) :
    source ≠ .native := by
  rintro rfl
  cases h

namespace SourceQuoteOperation

variable (op : SourceQuoteOperation)

/-- The sample of a quote for an amount. -/
def sampleOf (quote : SampledQuote op.source) (input output : BigNumber) : DexSample where
  source := op.source
  fillData := quote.fillData
  input := input
  output := output
  sampled := quote.sampled
  notNative := ne_native_of_isHop op.isHop

/-- The samples of a quote. -/
def samples (fillAmounts : List BigNumber) (quote : SampledQuote op.source) : SourceSamples where
  source := op.source
  samples := List.zipWith (op.sampleOf quote) fillAmounts quote.outputs
  source_eq := zipWith_source (op.sampleOf quote) (fun _ _ => rfl) fillAmounts quote.outputs

/-- No samples. -/
def noSamples : SourceSamples where
  source := op.source
  samples := []
  source_eq := fun _ h => absurd h List.not_mem_nil

/-- The operation, with its samples for its result; one that reverts has none. -/
def toBatched (fillAmounts : List BigNumber) : BatchedOperation SourceSamples where
  encodeCall := op.operation.encodeCall
  handleCallResults := fun callResults => do
    let quote ← op.operation.handleCallResults callResults
    .ok (op.samples fillAmounts quote)
  handleRevert := fun _ => .ok op.noSamples

/-- A hop of the operation, with the fill data that it has behind its results. -/
def hopSource (returnData : Bytes) : Except JsError HopSource := do
  let quote ← op.operation.handleCallResults returnData
  .ok ⟨op.source, quote.fillData, op.isHop, quote.sampled.1⟩

end SourceQuoteOperation

namespace SamplerOperations

variable (o : SamplerOperations)

/-! ## The contract's own operations -/

/-- `getTokenDecimals`. -/
def getTokenDecimals (tokens : List String) : BatchedOperation (List BigNumber) :=
  amountsOperation (o.samplerContract.getTokenDecimals tokens) o.samplerContract.decodeAmounts

/-- `isAddressContract`. -/
def isAddressContract (address : String) : BatchedOperation Bool :=
  safeOperation (o.samplerContract.isContract address) o.samplerContract.decodeBool
    "Invalid address for isAddressContract"

/-- `getGasLeft`. -/
def getGasLeft : BatchedOperation BigNumber :=
  safeOperation o.samplerContract.getGasLeft o.samplerContract.decodeAmount
    "Invalid result for getGasLeft"

/-- `getBlockNumber`. -/
def getBlockNumber : BatchedOperation BigNumber :=
  safeOperation o.samplerContract.getBlockNumber o.samplerContract.decodeAmount
    "Invalid result for getBlockNumber"

/-- What `getLimitOrderFillableTakerAmounts` and `getLimitOrderFillableMakerAmounts` share: no call
for no orders, nor for one that is empty. -/
def getLimitOrderFillableAmounts (encodeCall : List SignedLimitOrder → Bytes)
    (orders : List SignedLimitOrder) : BatchedOperation (List BigNumber) :=
  match orders with
  | [] => constant []
  | [order] =>
    if order.order.maker = NULL_ADDRESS then
      constant [ZERO_AMOUNT]
    else
      amountsOperation (encodeCall [order]) o.samplerContract.decodeAmounts
  | orders => amountsOperation (encodeCall orders) o.samplerContract.decodeAmounts

/-- `getLimitOrderFillableTakerAmounts`. -/
def getLimitOrderFillableTakerAmounts (orders : List SignedLimitOrder) :
    BatchedOperation (List BigNumber) :=
  o.getLimitOrderFillableAmounts o.samplerContract.getLimitOrderFillableTakerAssetAmounts orders

/-- `getLimitOrderFillableMakerAmounts`. -/
def getLimitOrderFillableMakerAmounts (orders : List SignedLimitOrder) :
    BatchedOperation (List BigNumber) :=
  o.getLimitOrderFillableAmounts o.samplerContract.getLimitOrderFillableMakerAssetAmounts orders

/-! ## Quotes -/

/-- `BATCH_SOURCE_FILTERS`. -/
def BATCH_SOURCE_FILTERS : SourceFilters := SourceFilters.all.exclude [.multiHop, .native]

/-- The sources that are quoted of those asked for.  On a sell they are of the chain; on a buy the
caller has seen to that. -/
def quotedSources (side : MarketOperation) (sources : List ERC20BridgeSource) :
    List ERC20BridgeSource :=
  match side with
  | .sell =>
    ((SourceFilters.create (o.sourcesByChainId .sell) [] []).exclude
      [.multiHop, .native]).getAllowed sources
  | .buy => BATCH_SOURCE_FILTERS.getAllowed sources

/-- Whether a token of the pair is bad for the source, which only a sell asks. -/
def isBadPair (side : MarketOperation) (source : ERC20BridgeSource)
    (makerToken takerToken : String) : Bool :=
  match side with
  | .sell => o.isBadTokenForSource makerToken source || o.isBadTokenForSource takerToken source
  | .buy => false

/-- `_getSellQuoteOperations` and `_getBuyQuoteOperations`: the operations of the sources. -/
def getQuoteOperations (side : MarketOperation) (sources : List ERC20BridgeSource)
    (makerToken takerToken : String) (fillAmounts : List BigNumber) : List SourceQuoteOperation :=
  let intermediateTokens := o.tokenAdjacencyGraph.getIntermediateTokens makerToken takerToken
  (o.quotedSources side sources).flatMap fun source =>
    if o.isBadPair side source makerToken takerToken then
      []
    else if isHop : source.isHop = true then
      (o.operationsOf side source makerToken takerToken intermediateTokens fillAmounts).map
        fun operation => ⟨source, isHop, operation⟩
    else
      -- native orders and two-hops have been excluded
      []

/-- `getSellQuotes` and `getBuyQuotes`. -/
def getQuotes (side : MarketOperation) (sources : List ERC20BridgeSource)
    (makerToken takerToken : String) (fillAmounts : List BigNumber) :
    BatchedOperation (List SourceSamples) :=
  let subOps := o.getQuoteOperations side sources makerToken takerToken fillAmounts
  createBatch o.samplerContract.toSamplerContract (subOps.map fun op => op.toBatched fillAmounts)
    (fun samples => .ok samples) fun _ => .ok []

/-- `getSellQuotes`. -/
def getSellQuotes := o.getQuotes .sell

/-- `getBuyQuotes`. -/
def getBuyQuotes := o.getQuotes .buy

/-! ## Two-hops -/

/-- `TWO_HOP_SOURCE_FILTERS`. -/
def TWO_HOP_SOURCE_FILTERS : SourceFilters := SourceFilters.all.exclude [.multiHop, .native]

/-- An output that no pair of operations gave: nothing on a sell, the largest integer on a buy. -/
def isUnquoted (side : MarketOperation) (output : BigNumber) : Bool :=
  match side with
  | .sell => output.isZero
  | .buy => output.eq MAX_UINT256

/-- The output of an amount that was not quoted. -/
def unquoted : MarketOperation → BigNumber
  | .sell => ZERO_AMOUNT
  | .buy => MAX_UINT256

/-- The callback of a two-hop operation. -/
def handleTwoHop (side : MarketOperation) (firstHopOps secondHopOps : List SourceQuoteOperation)
    (intermediateToken : String) (fillAmounts : List BigNumber) (callResults : Bytes) :
    Except JsError (List TwoHopQuote) := do
  let results ← o.samplerContract.decodeTwoHop callResults
  match results.amounts.getLast? with
  | none => .error .typeError
  | some last =>
    if isUnquoted side last then
      let outputs := results.amounts.map fun _ => unquoted side
      .ok (List.zipWith (fun input output => ⟨none, none, intermediateToken, input, output⟩)
        fillAmounts outputs)
    else
      match firstHopOps[results.firstHop.sourceIndex]?,
          secondHopOps[results.secondHop.sourceIndex]? with
      | some firstHopOp, some secondHopOp => do
        let firstHopSource ← firstHopOp.hopSource results.firstHop.returnData
        let secondHopSource ← secondHopOp.hopSource results.secondHop.returnData
        .ok (List.zipWith
          (fun input output =>
            ⟨some firstHopSource, some secondHopSource, intermediateToken, input, output⟩)
          fillAmounts results.amounts)
      | _, _ => .error .typeError

/-- The operation of an intermediate token: the hop next to the amounts asks for these, the other
one for as many zeros. -/
def twoHopOperation (side : MarketOperation) (sources : List ERC20BridgeSource)
    (makerToken takerToken : String) (fillAmounts : List BigNumber) (intermediateToken : String) :
    BatchedOperation (List TwoHopQuote) :=
  let zeros := fillAmounts.map fun _ => ZERO_AMOUNT
  let (firstAmounts, secondAmounts) :=
    match side with
    | .sell => (fillAmounts, zeros)
    | .buy => (zeros, fillAmounts)
  let firstHopOps := o.getQuoteOperations side sources intermediateToken takerToken firstAmounts
  let secondHopOps := o.getQuoteOperations side sources makerToken intermediateToken secondAmounts
  { encodeCall := o.samplerContract.sampleTwoHop side
      (firstHopOps.map fun op => op.operation.encodeCall)
      (secondHopOps.map fun op => op.operation.encodeCall) fillAmounts.length
    handleCallResults :=
      o.handleTwoHop side firstHopOps secondHopOps intermediateToken fillAmounts
    handleRevert := fun _ => .ok [] }

/-- `getTwoHopSellQuotes` and `getTwoHopBuyQuotes`. -/
def getTwoHopQuotes (side : MarketOperation) (sources : List ERC20BridgeSource)
    (makerToken takerToken : String) (fillAmounts : List BigNumber) :
    BatchedOperation (List (List TwoHopQuote)) :=
  let sources := TWO_HOP_SOURCE_FILTERS.getAllowed sources
  if sources.length = 0 then
    constant []
  else
    let intermediateTokens := o.tokenAdjacencyGraph.getIntermediateTokens makerToken takerToken
    createBatch o.samplerContract.toSamplerContract
      (intermediateTokens.map
        (o.twoHopOperation side sources makerToken takerToken fillAmounts))
      (fun samples => .ok samples) fun _ => .ok []

/-- `getTwoHopSellQuotes`. -/
def getTwoHopSellQuotes := o.getTwoHopQuotes .sell

/-- `getTwoHopBuyQuotes`. -/
def getTwoHopBuyQuotes := o.getTwoHopQuotes .buy

/-! ## The price of a token in the native one -/

/-- A price, and what it is after the fee of its source. -/
structure AdjustedPrice where
  adjustedPrice : BigNumber
  price : BigNumber

/-- An entry of `adjustedPrices`; a source that gave nothing has the price zero. -/
def adjustedPriceOf [Arithmetic] (nativeFillAmount : BigNumber) (feeSchedule : FeeSchedule)
    (samples : SourceSamples) : AdjustedPrice :=
  match samples.samples with
  | [] => ⟨ZERO_AMOUNT, ZERO_AMOUNT⟩
  | sample :: _ =>
    if sample.output.isZero then
      ⟨ZERO_AMOUNT, ZERO_AMOUNT⟩
    else
      let fee := (feeSchedule sample.source sample.fillData).fee
      let adjustedNativeAmount := nativeFillAmount.plus fee
      ⟨sample.output.div adjustedNativeAmount, sample.output.div nativeFillAmount⟩

/-- The comparator of `sortedPrices`. -/
def compareAdjusted (a b : AdjustedPrice) : ℤ :=
  (a.adjustedPrice.comparedTo b.adjustedPrice).getD 0

/-- `selectedPrice`. -/
def selectedPrice [Arithmetic] (nativeFillAmount : BigNumber) (feeSchedule : FeeSchedule)
    (samples : List SourceSamples) : BigNumber :=
  let adjustedPrices := samples.map (adjustedPriceOf nativeFillAmount feeSchedule)
  match (sortBy compareAdjusted adjustedPrices).getLast? with
  | none => ZERO_AMOUNT
  | some selected => selected.price

/-- `getBestNativeTokenSellRate`. -/
def getBestNativeTokenSellRate [Arithmetic] (sources : List ERC20BridgeSource)
    (makerToken nativeToken : String) (nativeFillAmount : BigNumber) (feeSchedule : FeeSchedule) :
    BatchedOperation BigNumber :=
  if makerToken.toLower = nativeToken.toLower then
    constant 1
  else
    let subOps := o.getQuoteOperations .sell sources makerToken nativeToken [nativeFillAmount]
    createBatch o.samplerContract.toSamplerContract
      (subOps.map fun op => op.toBatched [nativeFillAmount])
      (fun samples => .ok (selectedPrice nativeFillAmount feeSchedule samples))
      fun _ => .ok ZERO_AMOUNT

/-! ## Whose quotes they are -/

section Sources

variable {o} {side : MarketOperation} {sources : List ERC20BridgeSource}
  {makerToken takerToken : String} {fillAmounts : List BigNumber}

theorem mem_of_mem_quotedSources {source : ERC20BridgeSource}
    (h : source ∈ o.quotedSources side sources) : source ∈ sources := by
  cases side with
  | sell => exact SourceFilters.mem_of_mem_getAllowed h
  | buy => exact SourceFilters.mem_of_mem_getAllowed h

/-- The operations are those of sources that were asked for. -/
theorem source_of_mem_operations {op : SourceQuoteOperation}
    (h : op ∈ o.getQuoteOperations side sources makerToken takerToken fillAmounts) :
    op.source ∈ sources := by
  obtain ⟨source, hsource, hop⟩ := List.mem_flatMap.mp h
  have hmem : source ∈ sources := mem_of_mem_quotedSources hsource
  split at hop
  · cases hop
  · split at hop
    · obtain ⟨operation, _, rfl⟩ := List.mem_map.mp hop
      exact hmem
    · cases hop

/-- The samples that an operation makes are of its source. -/
theorem source_of_makes {op : SourceQuoteOperation} {samples : SourceSamples}
    (h : Makes (op.toBatched fillAmounts) samples) : samples.source = op.source := by
  obtain ⟨outcome, h⟩ := h
  unfold BatchedOperation.handle SourceQuoteOperation.toBatched at h
  split at h
  · obtain ⟨quote, _, h⟩ := Fallible.bind_eq_ok.mp h
    cases h
    rfl
  · cases h
    rfl

/-- Every list of quotes is of one of the operations. -/
theorem exists_operation_of_getQuotes {result : SamplerCallResult} {quotes : List SourceSamples}
    (h : (o.getQuotes side sources makerToken takerToken fillAmounts).handle result = .ok quotes)
    {samples : SourceSamples} (hsamples : samples ∈ quotes) :
    ∃ op ∈ o.getQuoteOperations side sources makerToken takerToken fillAmounts,
      samples.source = op.source := by
  rcases createBatch_eq_ok h with ⟨_, results, hresults, h⟩ | ⟨_, h⟩
  · cases h
    obtain ⟨batched, hmem, hmade⟩ :=
      Fallible.exists_of_mem_right (handled_makes hresults) hsamples
    obtain ⟨op, hop, rfl⟩ := List.mem_map.mp hmem
    exact ⟨op, hop, source_of_makes hmade⟩
  · cases h
    cases hsamples

/-- Every list of quotes is of a source that was asked for. -/
theorem getQuotes_source {result : SamplerCallResult} {quotes : List SourceSamples}
    (h : (o.getQuotes side sources makerToken takerToken fillAmounts).handle result = .ok quotes) :
    ∀ samples ∈ quotes, samples.source ∈ sources := by
  intro samples hsamples
  obtain ⟨op, hop, hsource⟩ := exists_operation_of_getQuotes h hsamples
  rw [hsource]
  exact source_of_mem_operations hop

/-- Every list of quotes is of a single exchange: native orders and two-hops are not quoted so. -/
theorem getQuotes_isHop {result : SamplerCallResult} {quotes : List SourceSamples}
    (h : (o.getQuotes side sources makerToken takerToken fillAmounts).handle result = .ok quotes) :
    ∀ samples ∈ quotes, samples.source.isHop = true := by
  intro samples hsamples
  obtain ⟨op, _, hsource⟩ := exists_operation_of_getQuotes h hsamples
  rw [hsource]
  exact op.isHop

/-- A hop is of the source of its operation. -/
theorem source_of_hopSource {op : SourceQuoteOperation} {returnData : Bytes} {hop : HopSource}
    (h : op.hopSource returnData = .ok hop) : hop.source = op.source := by
  obtain ⟨quote, _, h⟩ := Fallible.bind_eq_ok.mp h
  cases h
  rfl

/-- The hops of a quote, if it has any, are of its operations. -/
theorem handleTwoHop_source {firstHopOps secondHopOps : List SourceQuoteOperation}
    {intermediateToken : String} {callResults : Bytes} {quotes : List TwoHopQuote}
    (h : o.handleTwoHop side firstHopOps secondHopOps intermediateToken fillAmounts callResults =
      .ok quotes) {quote : TwoHopQuote} (hquote : quote ∈ quotes) {hop : HopSource}
    (hhop : quote.firstHopSource = some hop ∨ quote.secondHopSource = some hop) :
    ∃ op ∈ firstHopOps ++ secondHopOps, hop.source = op.source := by
  obtain ⟨results, _, h⟩ := Fallible.bind_eq_ok.mp h
  split at h
  · cases h
  · split at h
    · cases h
      obtain ⟨j, hj, rfl⟩ := List.getElem_of_mem hquote
      rw [List.getElem_zipWith] at hhop
      rcases hhop with hhop | hhop
      · cases hhop
      · cases hhop
    · split at h
      · rename_i firstHopOp secondHopOp hfirst hsecond
        obtain ⟨firstHopSource, hfirstHop, h⟩ := Fallible.bind_eq_ok.mp h
        obtain ⟨secondHopSource, hsecondHop, h⟩ := Fallible.bind_eq_ok.mp h
        cases h
        obtain ⟨j, hj, rfl⟩ := List.getElem_of_mem hquote
        rw [List.getElem_zipWith] at hhop
        rcases hhop with hhop | hhop
        · cases hhop
          exact ⟨firstHopOp, List.mem_append_left _ (List.mem_of_getElem? hfirst),
            source_of_hopSource hfirstHop⟩
        · cases hhop
          exact ⟨secondHopOp, List.mem_append_right _ (List.mem_of_getElem? hsecond),
            source_of_hopSource hsecondHop⟩
      · cases h

/-- The hops of two-hop quotes are of sources that were asked for. -/
theorem getTwoHopQuotes_source {result : SamplerCallResult} {quotes : List (List TwoHopQuote)}
    (h : (o.getTwoHopQuotes side sources makerToken takerToken fillAmounts).handle result =
      .ok quotes) {samples : List TwoHopQuote} (hsamples : samples ∈ quotes) {quote : TwoHopQuote}
    (hquote : quote ∈ samples) {hop : HopSource}
    (hhop : quote.firstHopSource = some hop ∨ quote.secondHopSource = some hop) :
    hop.source ∈ sources := by
  unfold getTwoHopQuotes at h
  dsimp only at h
  split at h
  · unfold BatchedOperation.handle constant at h
    split at h
    · cases h
      cases hsamples
    · cases h
      cases hsamples
  · rcases createBatch_eq_ok h with ⟨_, results, hresults, h⟩ | ⟨_, h⟩
    · cases h
      obtain ⟨batched, hmem, outcome, hmade⟩ :=
        Fallible.exists_of_mem_right (handled_makes hresults) hsamples
      obtain ⟨intermediateToken, _, rfl⟩ := List.mem_map.mp hmem
      unfold BatchedOperation.handle twoHopOperation at hmade
      split at hmade
      · obtain ⟨op, hop, hsource⟩ := handleTwoHop_source hmade hquote hhop
        rw [hsource]
        rcases List.mem_append.mp hop with hop | hop
        · exact SourceFilters.mem_of_mem_getAllowed (source_of_mem_operations hop)
        · exact SourceFilters.mem_of_mem_getAllowed (source_of_mem_operations hop)
      · cases hmade
        cases hquote
    · cases h
      cases hsamples

end Sources

/-! ## Which price is picked -/

section Best

variable [Arithmetic] {n : ℚ} {feeSchedule : FeeSchedule} {samples : List SourceSamples}

/-- What a sample is worth for each unit of the native token, its fee included. -/
def worth (n : ℚ) (feeSchedule : FeeSchedule) (sample : DexSample) : ℚ :=
  Arithmetic.quotient
    (sample.output.toRat / (n + (feeSchedule sample.source sample.fillData).fee.toRat))

/-- Fees are finite and not negative. -/
def FeesOk (feeSchedule : FeeSchedule) : Prop :=
  ∀ source fillData, ∃ f : ℚ, (feeSchedule source fillData).fee = .fin f ∧ 0 ≤ f

/-- Outputs are the integers that a contract returns. -/
def OutputsOk (samples : List SourceSamples) : Prop :=
  ∀ s ∈ samples, ∀ sample ∈ s.samples, ∃ m : ℕ, sample.output = .fin m

theorem worth_nonneg (hn : 0 < n) (hfees : FeesOk feeSchedule) {sample : DexSample} {m : ℕ}
    (houtput : sample.output = .fin m) : 0 ≤ worth n feeSchedule sample := by
  obtain ⟨f, hf, hf₀⟩ := hfees sample.source sample.fillData
  unfold worth
  rw [houtput, hf, toRat_fin, toRat_fin]
  apply Arithmetic.quotient_nonneg
  positivity

/-- An entry of the prices: of a source without an output, or of one with its price. -/
inductive EntryOf (n : ℚ) (feeSchedule : FeeSchedule) (s : SourceSamples)
    (entry : AdjustedPrice) : Prop
  | nothing (output : ∀ sample, s.samples.head? = some sample → sample.output = .fin 0)
    (adjusted_eq : entry.adjustedPrice = .fin 0) (price_eq : entry.price = .fin 0)
  | quoted (sample : DexSample) (head : s.samples.head? = some sample) (m : ℕ) (pos : 0 < m)
    (output : sample.output = .fin m)
    (adjusted_eq : entry.adjustedPrice = .fin (worth n feeSchedule sample))
    (price_eq : entry.price = .fin (Arithmetic.quotient (m / n)))

theorem adjustedPriceOf_entry (hn : 0 < n) (hfees : FeesOk feeSchedule) {s : SourceSamples}
    (houtputs : ∀ sample ∈ s.samples, ∃ m : ℕ, sample.output = .fin m) :
    EntryOf n feeSchedule s (adjustedPriceOf (.fin n) feeSchedule s) := by
  unfold adjustedPriceOf
  split
  · rename_i hnil
    refine .nothing ?_ rfl rfl
    intro sample hsample
    rw [hnil] at hsample
    cases hsample
  · rename_i sample rest hsamples
    obtain ⟨m, hm⟩ := houtputs sample (by rw [hsamples]; exact List.mem_cons_self)
    have hhead : s.samples.head? = some sample := by rw [hsamples]; rfl
    split
    · rename_i hzero
      have houtput : sample.output = .fin 0 := by
        rw [hm] at hzero ⊢
        simpa using hzero
      refine .nothing ?_ rfl rfl
      rintro other hother
      rw [hhead] at hother
      cases hother
      exact houtput
    · rename_i hzero
      have hpos : 0 < m := by
        rw [hm] at hzero
        simpa [Nat.pos_iff_ne_zero] using hzero
      obtain ⟨f, hf, hf₀⟩ := hfees sample.source sample.fillData
      refine .quoted sample hhead m hpos hm ?_ ?_
      · dsimp only
        rw [hf, hm, plus_fin, div_quotient _ (by positivity)]
        unfold worth
        rw [hf, hm, toRat_fin, toRat_fin]
      · dsimp only
        rw [hm, div_quotient _ hn.ne']

/-- The price that is picked: that of a source whose quote nobody outbids after the fees. -/
structure Picked (n : ℚ) (feeSchedule : FeeSchedule) (samples : List SourceSamples)
    (sample : DexSample) (price : BigNumber) : Prop where
  mem : ∃ s ∈ samples, s.samples.head? = some sample
  price_eq : price = .fin (Arithmetic.quotient (sample.output.toRat / n))
  pos : 0 < sample.output.toRat
  best : ∀ s ∈ samples, ∀ other, s.samples.head? = some other →
    worth n feeSchedule other ≤ worth n feeSchedule sample

omit [Arithmetic] in
/-- Entries with finite adjusted prices are compared by these. -/
theorem compareAdjusted_eq (a b : AdjustedPrice)
    (ha : a.adjustedPrice = .fin a.adjustedPrice.toRat)
    (hb : b.adjustedPrice = .fin b.adjustedPrice.toRat) :
    compareAdjusted a b =
      Comparator.compareInt a.adjustedPrice.toRat b.adjustedPrice.toRat := by
  unfold compareAdjusted
  rw [ha, hb, OrderComparison.comparedTo_fin]
  rfl

theorem selectedPrice_spec (hn : 0 < n) (hfees : FeesOk feeSchedule)
    (houtputs : OutputsOk samples) :
    (selectedPrice (.fin n) feeSchedule samples = .fin 0 ∧
        ∀ s ∈ samples, ∀ sample, s.samples.head? = some sample →
          worth n feeSchedule sample = 0) ∨
      ∃ sample, Picked n feeSchedule samples sample
        (selectedPrice (.fin n) feeSchedule samples) := by
  have hentry : ∀ s ∈ samples, EntryOf n feeSchedule s (adjustedPriceOf (.fin n) feeSchedule s) :=
    fun s hs => adjustedPriceOf_entry hn hfees (houtputs s hs)
  have hfinite : ∀ entry ∈ samples.map (adjustedPriceOf (.fin n) feeSchedule),
      entry.adjustedPrice = .fin entry.adjustedPrice.toRat := by
    intro entry hmem
    obtain ⟨s, hs, rfl⟩ := List.mem_map.mp hmem
    cases hentry s hs with
    | nothing _ heq => rw [heq, toRat_fin]
    | quoted _ _ _ _ _ heq => rw [heq, toRat_fin]
  unfold selectedPrice
  dsimp only
  cases hlast : (sortBy compareAdjusted
    (samples.map (adjustedPriceOf (.fin n) feeSchedule))).getLast? with
  | none =>
    -- there is nothing to sort
    have hperm := sortBy_perm compareAdjusted (samples.map (adjustedPriceOf (.fin n) feeSchedule))
    rw [List.getLast?_eq_none_iff.mp hlast] at hperm
    have hnil := List.map_eq_nil_iff.mp (List.nil_perm.mp hperm)
    refine .inl ⟨rfl, ?_⟩
    intro s hs
    rw [hnil] at hs
    exact absurd hs List.not_mem_nil
  | some selected =>
    obtain ⟨hselected, hbest⟩ := Comparator.greatest_of_getLast?_sortBy
      (fun entry => entry.adjustedPrice.toRat) compareAdjusted_eq hfinite hlast
    dsimp only
    obtain ⟨t, ht, rfl⟩ := List.mem_map.mp hselected
    have hworth : ∀ s ∈ samples, ∀ sample, s.samples.head? = some sample →
        worth n feeSchedule sample ≤
          (adjustedPriceOf (.fin n) feeSchedule t).adjustedPrice.toRat := by
      intro s hs sample hhead
      refine le_trans ?_ (hbest _ (List.mem_map_of_mem hs))
      cases hentry s hs with
      | nothing houtput heq =>
        rw [heq, worth, houtput sample hhead, toRat_fin, zero_div, Arithmetic.quotient_zero]
      | quoted other hother _ _ _ heq =>
        rw [hhead] at hother
        cases hother
        rw [heq, toRat_fin]
    cases hentry t ht with
    | nothing _ hadjusted hprice =>
      refine .inl ⟨hprice, ?_⟩
      intro s hs sample hhead
      have hle := hworth s hs sample hhead
      rw [hadjusted, toRat_fin] at hle
      obtain ⟨m, houtput⟩ := houtputs s hs sample (List.mem_of_mem_head? hhead)
      exact le_antisymm hle (worth_nonneg hn hfees houtput)
    | quoted sample hhead m hpos houtput hadjusted hprice =>
      refine .inr ⟨sample, ⟨t, ht, hhead⟩, ?_, ?_, ?_⟩
      · rw [hprice, houtput, toRat_fin]
      · rw [houtput, toRat_fin]
        exact_mod_cast hpos
      · intro s hs other hother
        have hle := hworth s hs other hother
        rwa [hadjusted, toRat_fin] at hle

end Best

/-- Results are read as the integers that a contract returns. -/
def DecodesAmounts : Prop :=
  ∀ side source makerToken takerToken intermediateTokens fillAmounts,
    ∀ op ∈ o.operationsOf side source makerToken takerToken intermediateTokens fillAmounts,
      ∀ data quote, op.handleCallResults data = .ok quote →
        ∀ output ∈ quote.outputs, ∃ m : ℕ, output = .fin m

/-- The quotes that the call for a price was answered with, one list for each operation. -/
def quotedFor (sources : List ERC20BridgeSource) (makerToken nativeToken : String)
    (nativeFillAmount : BigNumber) (outcome : SamplerCallResult) :
    Except JsError (List SourceSamples) :=
  handled o.samplerContract.toSamplerContract
    ((o.getQuoteOperations .sell sources makerToken nativeToken [nativeFillAmount]).map fun op =>
      op.toBatched [nativeFillAmount]) outcome

/-- What `getBestNativeTokenSellRate` answers to the outcome of its call: one for the native token
itself, zero where the call failed or no quote is worth anything, and else the price that is picked
from the quotes. -/
inductive RateOf [Arithmetic] (sources : List ERC20BridgeSource)
    (makerToken nativeToken : String) (n : ℚ) (feeSchedule : FeeSchedule)
    (outcome : SamplerCallResult) (rate : BigNumber) : Prop
  | native (same : makerToken.toLower = nativeToken.toLower) (rate_eq : rate = 1)
  | reverted (other : makerToken.toLower ≠ nativeToken.toLower) (failed : outcome.success = false)
    (rate_eq : rate = .fin 0)
  | unquoted (other : makerToken.toLower ≠ nativeToken.toLower)
    (succeeded : outcome.success = true) (samples : List SourceSamples)
    (quoted : o.quotedFor sources makerToken nativeToken (.fin n) outcome = .ok samples)
    (nothing : ∀ s ∈ samples, ∀ sample, s.samples.head? = some sample →
      worth n feeSchedule sample = 0)
    (rate_eq : rate = .fin 0)
  | picked (other : makerToken.toLower ≠ nativeToken.toLower)
    (succeeded : outcome.success = true) (samples : List SourceSamples)
    (quoted : o.quotedFor sources makerToken nativeToken (.fin n) outcome = .ok samples)
    (sample : DexSample) (picked : Picked n feeSchedule samples sample rate)

section Rate

variable {o} {sources : List ERC20BridgeSource} {makerToken nativeToken : String} {n : ℚ}
  {feeSchedule : FeeSchedule} {outcome : SamplerCallResult} {rate : BigNumber}

theorem outputs_of_makes (hdecodes : o.DecodesAmounts) {fillAmounts : List BigNumber}
    {op : SourceQuoteOperation}
    (hop : op ∈ o.getQuoteOperations .sell sources makerToken nativeToken fillAmounts)
    {samples : SourceSamples} (h : Makes (op.toBatched fillAmounts) samples) :
    ∀ sample ∈ samples.samples, ∃ m : ℕ, sample.output = .fin m := by
  obtain ⟨source, _, hop⟩ := List.mem_flatMap.mp hop
  split at hop
  · cases hop
  · split at hop
    · obtain ⟨operation, hoperation, rfl⟩ := List.mem_map.mp hop
      obtain ⟨outcome, h⟩ := h
      unfold BatchedOperation.handle SourceQuoteOperation.toBatched at h
      split at h
      · obtain ⟨quote, hquote, h⟩ := Fallible.bind_eq_ok.mp h
        cases h
        intro sample hsample
        obtain ⟨j, hj, rfl⟩ := List.getElem_of_mem hsample
        unfold SourceQuoteOperation.samples at hj ⊢
        rw [List.length_zipWith] at hj
        rw [List.getElem_zipWith]
        exact hdecodes _ _ _ _ _ _ operation hoperation _ quote hquote _ (List.getElem_mem _)
      · cases h
        intro sample hsample
        exact absurd hsample List.not_mem_nil
    · cases hop

/-- The price of a token is that of a source which nobody outbids after its fee, among all sources
that were asked; nothing is left out but what reverts. -/
theorem getBestNativeTokenSellRate_best [Arithmetic] (hn : 0 < n) (hfees : FeesOk feeSchedule)
    (hdecodes : o.DecodesAmounts)
    (h : (o.getBestNativeTokenSellRate sources makerToken nativeToken (.fin n)
      feeSchedule).handle outcome = .ok rate) :
    o.RateOf sources makerToken nativeToken n feeSchedule outcome rate := by
  unfold getBestNativeTokenSellRate at h
  split at h
  · rename_i hsame
    refine .native hsame ?_
    unfold BatchedOperation.handle constant at h
    split at h
    · cases h
      rfl
    · cases h
      rfl
  · rename_i hother
    rcases createBatch_eq_ok h with ⟨hsuccess, samples, hquoted, hrate⟩ | ⟨hfailed, hrate⟩
    · cases hrate
      have houtputs : OutputsOk samples := by
        intro s hs
        obtain ⟨batched, hmem, hmakes⟩ := Fallible.exists_of_mem_right (handled_makes hquoted) hs
        obtain ⟨op, hop, rfl⟩ := List.mem_map.mp hmem
        exact outputs_of_makes hdecodes hop hmakes
      rcases selectedPrice_spec hn hfees houtputs with ⟨hzero, hnothing⟩ | ⟨sample, hpicked⟩
      · exact .unquoted hother hsuccess samples hquoted hnothing hzero
      · exact .picked hother hsuccess samples hquoted sample hpicked
    · cases hrate
      exact .reverted hother hfailed rfl

end Rate

end SamplerOperations

/-! ### Two routers and a price -/

/-- A contract whose results are the bytes of its call data, one result a byte. -/
def echoContract : ERC20BridgeSamplerContract where
  encodeBatchCall callDatas := 0 :: callDatas.flatten
  encodeBatchCall_ne := fun _ => List.cons_ne_nil _ _
  decodeBatchCall data := .ok (data.map fun byte => ⟨[byte], true⟩)
  getTokenDecimals _ := [1]
  getLimitOrderFillableTakerAssetAmounts orders := orders.map fun _ => 2
  getLimitOrderFillableMakerAssetAmounts orders := orders.map fun _ => 3
  decodeAmounts data := .ok (data.map fun byte => .fin byte.toNat)
  isContract _ := [4]
  decodeBool data := .ok (data == [1])
  getGasLeft := [5]
  getBlockNumber := [6]
  decodeAmount data := .ok (.fin data.length)
  sampleTwoHop _ firstHops secondHops _ := firstHops.flatten ++ secondHops.flatten
  decodeTwoHop data := .ok ⟨⟨0, data⟩, ⟨0, data⟩, data.map fun byte => .fin byte.toNat⟩

/-- What a router of the Uniswap V2 kind quotes: the bytes of its results. -/
def routerQuote (data : Bytes) : SampledQuote .uniswapV2 where
  fillData := .uniswapV2 [] NULL_ADDRESS
  sampled := ⟨rfl, trivial⟩
  outputs := data.map fun byte => .fin byte.toNat

/-- The operations of that router, and of no other source. -/
def routerOperations : (source : ERC20BridgeSource) → List (OperationOf source)
  | .uniswapV2 => [⟨[7], fun data => .ok (routerQuote data)⟩]
  | _ => []

/-- A chain where that router is the one source. -/
def oneRouter : SamplerOperations where
  samplerContract := echoContract
  sourcesByChainId _ := [.uniswapV2]
  tokenAdjacencyGraph := TokenAdjacency.getEmptyGraph
  isBadTokenForSource _ _ := false
  operationsOf _ source _ _ _ _ := routerOperations source

theorem oneRouter_decodesAmounts : oneRouter.DecodesAmounts := by
  intro side source makerToken takerToken intermediateTokens fillAmounts op hop data quote hquote
  cases source with
  | uniswapV2 =>
    cases List.mem_singleton.mp hop
    cases hquote
    intro output houtput
    obtain ⟨byte, _, rfl⟩ := List.mem_map.mp houtput
    exact ⟨byte.toNat, rfl⟩
  | _ => cases hop

section Code

attribute [local instance] codeArithmetic

/-- A token of which the router gives eight for four. -/
theorem oneRouter_rate :
    oneRouter.RateOf [.uniswapV2] "A" "B" 4 (fun _ _ => ⟨0, .fin 0⟩) ⟨[8], true⟩
      (.fin 2) :=
  SamplerOperations.getBestNativeTokenSellRate_best (by norm_num)
    (fun _ _ => ⟨0, rfl, le_rfl⟩) oneRouter_decodesAmounts (by decide +kernel)

end Code

end ZeroExApi.Sampling
