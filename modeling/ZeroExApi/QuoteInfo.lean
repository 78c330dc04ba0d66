/-
# ZeroExApi.QuoteInfo — the amounts of a quote

`utils/quote_info.ts`, and the quote that `swap_quoter.ts` makes of its result.  The single-hop
orders are simulated against the whole fill amount, each two-hop order is taken at its own amounts,
and the two accounts are added up.

The last section says what the added-up taker amount is, in terms of the two accounts
(`calculateQuoteInfo_eq_ok`).
-/

import ZeroExApi.Path
import ZeroExApi.QuoteSimulation

namespace ZeroExApi

open ZeroExApi.Lib ZeroExApi.Lib.Fallible ZeroExApi.QuoteSimulation

/-! ## Results -/

/-- `SwapQuoteInfo`. -/
structure SwapQuoteInfo where
  makerAmount : BigNumber
  takerAmount : BigNumber
  totalTakerAmount : BigNumber
  protocolFeeInWeiAmount : BigNumber
  gas : ℚ
  slippage : ℚ

/-- `MultiHopFill`. -/
structure MultiHopFill where
  amount : BigNumber
  intermediateToken : String
  hops : List ERC20BridgeSource

/-- The share of a two-hop order in a breakdown. -/
structure MultiHopShare where
  proportion : BigNumber
  intermediateToken : String
  hops : List ERC20BridgeSource

/-- `SwapQuoteSourceBreakdown`. -/
structure SwapQuoteSourceBreakdown where
  singleSource : JsMap ERC20BridgeSource BigNumber
  multihop : List MultiHopShare

/-- `QuoteInfo`. -/
structure QuoteInfo where
  bestCaseQuoteInfo : SwapQuoteInfo
  worstCaseQuoteInfo : SwapQuoteInfo
  sourceBreakdown : SwapQuoteSourceBreakdown

/-- What `calculateSingleHopQuoteInfo` returns. -/
structure SingleHopQuoteInfo where
  bestCaseQuoteInfo : SwapQuoteInfo
  worstCaseQuoteInfo : SwapQuoteInfo
  fillAmountBySource : JsMap ERC20BridgeSource BigNumber

/-- What `calculateTwoHopQuoteInfo` returns. -/
structure TwoHopQuoteInfo where
  bestCaseQuoteInfo : SwapQuoteInfo
  worstCaseQuoteInfo : SwapQuoteInfo
  multiHopFill : MultiHopFill

/-! ## The two accounts -/

/-- `fillResultsToQuoteInfo`. -/
def fillResultsToQuoteInfo (fr : QuoteFillResult) (slippage : ℚ) : SwapQuoteInfo where
  makerAmount := fr.totalMakerAssetAmount
  takerAmount := fr.takerAssetAmount
  totalTakerAmount := fr.totalTakerAssetAmount
  protocolFeeInWeiAmount := fr.protocolFeeAmount
  gas := fr.gas
  slippage := slippage

/-- What the simulations of a quote are given. -/
def singleHopFillInfo (optimizedOrders : List OptimizedOrder) (operation : MarketOperation)
    (assetFillAmount gasPrice : BigNumber) (gasSchedule : GasSchedule) (slippage : ℚ) :
    QuoteFillInfo where
  gasPrice := gasPrice
  orders := optimizedOrders
  side := operation
  fillAmount := assetFillAmount
  gasSchedule := gasSchedule
  slippage := slippage

/-- `calculateSingleHopQuoteInfo`.  The best case is simulated without slippage. -/
def calculateSingleHopQuoteInfo [Arithmetic] (optimizedOrders : List OptimizedOrder)
    (operation : MarketOperation) (assetFillAmount gasPrice : BigNumber)
    (gasSchedule : GasSchedule) (slippage : ℚ) : Except JsError SingleHopQuoteInfo := do
  let fillInfo :=
    singleHopFillInfo optimizedOrders operation assetFillAmount gasPrice gasSchedule
  let bestCaseFillResult ← simulateBestCaseFill (fillInfo 0)
  let worstCaseFillResult ← simulateWorstCaseFill (fillInfo slippage)
  .ok
    { bestCaseQuoteInfo := fillResultsToQuoteInfo bestCaseFillResult 0
      worstCaseQuoteInfo := fillResultsToQuoteInfo worstCaseFillResult slippage
      fillAmountBySource := bestCaseFillResult.fillAmountBySource }

/-- `calculateTwoHopQuoteInfo`.  The gas schedule is asked without the intermediate token. -/
def calculateTwoHopQuoteInfo [Arithmetic] (twoHopOrder : TwoHopOrder) (operation : MarketOperation)
    (gasSchedule : GasSchedule) (slippage : ℚ) : TwoHopQuoteInfo :=
  let firstHopOrder := twoHopOrder.firstHopOrder
  let secondHopOrder := twoHopOrder.secondHopOrder
  let gas :=
    gasSchedule .multiHop
      (.multiHop firstHopOrder.source firstHopOrder.fillData secondHopOrder.source
        secondHopOrder.fillData "")
  let worstMakerAmount :=
    match operation with
    | .sell =>
      (secondHopOrder.makerAmount.times (.fin (Arithmetic.float (1 - slippage)))).integerValue
        .halfUp
    | .buy => secondHopOrder.makerAmount
  let worstTakerAmount :=
    match operation with
    | .sell => firstHopOrder.takerAmount
    | .buy =>
      (firstHopOrder.takerAmount.times (.fin (Arithmetic.float (1 + slippage)))).integerValue .up
  { bestCaseQuoteInfo :=
      { makerAmount := secondHopOrder.makerAmount
        takerAmount := firstHopOrder.takerAmount
        totalTakerAmount := firstHopOrder.takerAmount
        protocolFeeInWeiAmount := ZERO_AMOUNT
        gas := gas
        slippage := 0 }
    worstCaseQuoteInfo :=
      { makerAmount := worstMakerAmount
        takerAmount := worstTakerAmount
        totalTakerAmount := worstTakerAmount
        protocolFeeInWeiAmount := ZERO_AMOUNT
        gas := gas
        slippage := slippage }
    multiHopFill :=
      { amount := firstHopOrder.takerAmount
        intermediateToken := secondHopOrder.takerToken
        hops := [firstHopOrder.source, secondHopOrder.source] } }

/-! ## Adding up -/

/-- The sums of quote informations. -/
def sumSwapQuoteInfos (swapQuoteInfos : List SwapQuoteInfo) (slippage : ℚ) : SwapQuoteInfo where
  takerAmount := BigNumber.sum (swapQuoteInfos.map SwapQuoteInfo.takerAmount)
  totalTakerAmount := BigNumber.sum (swapQuoteInfos.map SwapQuoteInfo.totalTakerAmount)
  makerAmount := BigNumber.sum (swapQuoteInfos.map SwapQuoteInfo.makerAmount)
  protocolFeeInWeiAmount :=
    BigNumber.sum (swapQuoteInfos.map SwapQuoteInfo.protocolFeeInWeiAmount)
  gas := (swapQuoteInfos.map SwapQuoteInfo.gas).sum
  slippage := slippage

/-- `mergeSwapQuoteInfos`. -/
def mergeSwapQuoteInfos (swapQuoteInfos : List SwapQuoteInfo) : Except JsError SwapQuoteInfo :=
  match swapQuoteInfos with
  | [] => .error (.error "swapQuoteInfos.length should be at least one")
  | first :: _ =>
    let slippages := (swapQuoteInfos.map SwapQuoteInfo.slippage).eraseDups
    if slippages.length != 1 then
      let varying := String.intercalate "," (slippages.map fun s => s!"{s}")
      .error (.error s!"slippages of swapQuoteInfos vary: {varying}")
    else
      .ok (sumSwapQuoteInfos swapQuoteInfos first.slippage)

/-- `calculateSwapQuoteOrdersBreakdown`. -/
def calculateSwapQuoteOrdersBreakdown [Arithmetic]
    (fillAmountBySource : JsMap ERC20BridgeSource BigNumber)
    (multihopFills : List MultiHopFill) : SwapQuoteSourceBreakdown :=
  let totalFillAmount :=
    BigNumber.sum
      (fillAmountBySource.entries.map Prod.snd ++ multihopFills.map MultiHopFill.amount)
  { singleSource := fillAmountBySource.mapValues fun amount => amount.div totalFillAmount
    multihop := multihopFills.map fun fill =>
      { proportion := fill.amount.div totalFillAmount
        intermediateToken := fill.intermediateToken
        hops := fill.hops } }

/-- `calculateQuoteInfo`. -/
def calculateQuoteInfo [Arithmetic] (path : Path) (operation : MarketOperation)
    (assetFillAmount gasPrice : BigNumber) (gasSchedule : GasSchedule) (slippage : ℚ) :
    Except JsError QuoteInfo := do
  let singleHopOrders := path.ordersByType.nativeOrders ++ path.ordersByType.bridgeOrders
  let singleHopQuoteInfo ←
    calculateSingleHopQuoteInfo singleHopOrders operation assetFillAmount gasPrice gasSchedule
      slippage
  let twoHopQuoteInfos := path.ordersByType.twoHopOrders.map fun order =>
    calculateTwoHopQuoteInfo order operation gasSchedule slippage
  let bestCaseQuoteInfo ←
    mergeSwapQuoteInfos
      (singleHopQuoteInfo.bestCaseQuoteInfo ::
        twoHopQuoteInfos.map TwoHopQuoteInfo.bestCaseQuoteInfo)
  let worstCaseQuoteInfo ←
    mergeSwapQuoteInfos
      (singleHopQuoteInfo.worstCaseQuoteInfo ::
        twoHopQuoteInfos.map TwoHopQuoteInfo.worstCaseQuoteInfo)
  .ok
    { bestCaseQuoteInfo := bestCaseQuoteInfo
      worstCaseQuoteInfo := worstCaseQuoteInfo
      sourceBreakdown :=
        calculateSwapQuoteOrdersBreakdown singleHopQuoteInfo.fillAmountBySource
          (twoHopQuoteInfos.map TwoHopQuoteInfo.multiHopFill) }

/-! ## Quotes -/

/-- `SwapQuote`, as far as calldata is made of it.  `fillAmount` is the taker token's on a sell and
the maker token's on a buy. -/
structure SwapQuote where
  makerToken : String
  takerToken : String
  gasPrice : BigNumber
  path : Path
  bestCaseQuoteInfo : SwapQuoteInfo
  worstCaseQuoteInfo : SwapQuoteInfo
  sourceBreakdown : SwapQuoteSourceBreakdown
  makerAmountPerEth : BigNumber
  type : MarketOperation
  fillAmount : BigNumber

/-- `createSwapQuote`. -/
def createSwapQuote [Arithmetic] (path : Path) (makerAmountPerEth : BigNumber)
    (makerToken takerToken : String)
    (operation : MarketOperation) (assetFillAmount gasPrice : BigNumber)
    (gasSchedule : GasSchedule) (slippage : ℚ) : Except JsError SwapQuote := do
  let info ← calculateQuoteInfo path operation assetFillAmount gasPrice gasSchedule slippage
  .ok
    { makerToken := makerToken
      takerToken := takerToken
      gasPrice := gasPrice
      path := path
      bestCaseQuoteInfo := info.bestCaseQuoteInfo
      worstCaseQuoteInfo := info.worstCaseQuoteInfo
      sourceBreakdown := info.sourceBreakdown
      makerAmountPerEth := makerAmountPerEth
      type := operation
      fillAmount := assetFillAmount }

theorem mergeSwapQuoteInfos_slippage {first : SwapQuoteInfo} {rest : List SwapQuoteInfo}
    {merged : SwapQuoteInfo} (h : mergeSwapQuoteInfos (first :: rest) = .ok merged) :
    merged.slippage = first.slippage := by
  unfold mergeSwapQuoteInfos at h
  dsimp only at h
  split at h
  · cases h
  · cases h
    rfl

/-- A quote is one of the path, the side, the amount and the slippage it was asked for. -/
structure QuoteOf (path : Path) (makerToken takerToken : String) (operation : MarketOperation)
    (assetFillAmount : BigNumber) (slippage : ℚ) (quote : SwapQuote) : Prop where
  path_eq : quote.path = path
  makerToken_eq : quote.makerToken = makerToken
  takerToken_eq : quote.takerToken = takerToken
  type_eq : quote.type = operation
  fillAmount_eq : quote.fillAmount = assetFillAmount
  slippage_eq : quote.worstCaseQuoteInfo.slippage = slippage

theorem createSwapQuote_eq_ok [Arithmetic] {path : Path} {makerAmountPerEth : BigNumber}
    {makerToken takerToken : String} {operation : MarketOperation}
    {assetFillAmount gasPrice : BigNumber} {gasSchedule : GasSchedule} {slippage : ℚ}
    {quote : SwapQuote}
    (h : createSwapQuote path makerAmountPerEth makerToken takerToken operation assetFillAmount
      gasPrice gasSchedule slippage = .ok quote) :
    QuoteOf path makerToken takerToken operation assetFillAmount slippage quote := by
  obtain ⟨info, hinfo, h⟩ := bind_eq_ok.mp h
  obtain ⟨single, hsingle, hinfo⟩ := bind_eq_ok.mp hinfo
  obtain ⟨best, _, hinfo⟩ := bind_eq_ok.mp hinfo
  obtain ⟨worst, hworst, hinfo⟩ := bind_eq_ok.mp hinfo
  obtain ⟨bestFill, _, hsingle⟩ := bind_eq_ok.mp hsingle
  obtain ⟨worstFill, _, hsingle⟩ := bind_eq_ok.mp hsingle
  cases h
  cases hinfo
  cases hsingle
  exact ⟨rfl, rfl, rfl, rfl, rfl, mergeSwapQuoteInfos_slippage hworst⟩

/-! ## What the added-up amounts are -/

/-- Repetitions of one value leave one. -/
theorem eraseDups_of_forall_eq {slippages : List ℚ} {slippage : ℚ} (hne : slippages ≠ [])
    (h : ∀ s ∈ slippages, s = slippage) : slippages.eraseDups = [slippage] := by
  cases slippages with
  | nil => exact absurd rfl hne
  | cons s rest =>
    have hs : s = slippage := h s List.mem_cons_self
    have hnone : rest.filter (fun b => !b == s) = [] := by
      apply List.filter_eq_nil_iff.mpr
      intro b hb
      rw [h b (List.mem_cons_of_mem _ hb), hs]
      simp
    rw [List.eraseDups_cons, hnone, hs]
    rfl

/-- Quote informations of one slippage are added up. -/
theorem mergeSwapQuoteInfos_eq_ok {first : SwapQuoteInfo} {rest : List SwapQuoteInfo}
    (h : ∀ info ∈ rest, info.slippage = first.slippage) :
    mergeSwapQuoteInfos (first :: rest) =
      .ok (sumSwapQuoteInfos (first :: rest) first.slippage) := by
  have hdups : ((first :: rest).map SwapQuoteInfo.slippage).eraseDups = [first.slippage] := by
    apply eraseDups_of_forall_eq (by simp)
    simpa using h
  rw [mergeSwapQuoteInfos, hdups]
  rfl

/-- The worst-case taker amount of a two-hop order. -/
def worstTwoHopTakerAmount [Arithmetic] (operation : MarketOperation) (slippage : ℚ)
    (twoHopOrder : TwoHopOrder) : BigNumber :=
  match operation with
  | .sell => twoHopOrder.firstHopOrder.takerAmount
  | .buy =>
    (twoHopOrder.firstHopOrder.takerAmount.times
      (.fin (Arithmetic.float (1 + slippage)))).integerValue .up

/-- The run of `calculateQuoteInfo` where both simulations succeed. -/
theorem calculateQuoteInfo_run [Arithmetic] {path : Path} {operation : MarketOperation}
    {assetFillAmount gasPrice : BigNumber} {gasSchedule : GasSchedule} {slippage : ℚ}
    {best worst : QuoteFillResult}
    (hbest :
      simulateBestCaseFill
          (singleHopFillInfo (path.ordersByType.nativeOrders ++ path.ordersByType.bridgeOrders)
            operation assetFillAmount gasPrice gasSchedule 0) =
        .ok best)
    (hworst :
      simulateWorstCaseFill
          (singleHopFillInfo (path.ordersByType.nativeOrders ++ path.ordersByType.bridgeOrders)
            operation assetFillAmount gasPrice gasSchedule slippage) =
        .ok worst) :
    calculateQuoteInfo path operation assetFillAmount gasPrice gasSchedule slippage =
      .ok
        { bestCaseQuoteInfo :=
            sumSwapQuoteInfos
              (fillResultsToQuoteInfo best 0 ::
                path.ordersByType.twoHopOrders.map fun order =>
                  (calculateTwoHopQuoteInfo order operation gasSchedule slippage).bestCaseQuoteInfo)
              0
          worstCaseQuoteInfo :=
            sumSwapQuoteInfos
              (fillResultsToQuoteInfo worst slippage ::
                path.ordersByType.twoHopOrders.map fun order =>
                  (calculateTwoHopQuoteInfo order operation gasSchedule
                    slippage).worstCaseQuoteInfo)
              slippage
          sourceBreakdown :=
            calculateSwapQuoteOrdersBreakdown best.fillAmountBySource
              (path.ordersByType.twoHopOrders.map fun order =>
                (calculateTwoHopQuoteInfo order operation gasSchedule
                  slippage).multiHopFill) } := by
  have hsingle :
      calculateSingleHopQuoteInfo (path.ordersByType.nativeOrders ++ path.ordersByType.bridgeOrders)
          operation assetFillAmount gasPrice gasSchedule slippage =
        .ok ⟨fillResultsToQuoteInfo best 0, fillResultsToQuoteInfo worst slippage,
          best.fillAmountBySource⟩ :=
    bind_eq_ok.mpr ⟨best, hbest, bind_eq_ok.mpr ⟨worst, hworst, rfl⟩⟩
  -- quotes are only merged where they are made with one slippage
  have hbestSlippage : ∀ info ∈ path.ordersByType.twoHopOrders.map (fun order =>
        (calculateTwoHopQuoteInfo order operation gasSchedule slippage).bestCaseQuoteInfo),
      info.slippage = (fillResultsToQuoteInfo best 0).slippage := by
    simp [calculateTwoHopQuoteInfo, fillResultsToQuoteInfo]
  have hworstSlippage : ∀ info ∈ path.ordersByType.twoHopOrders.map (fun order =>
        (calculateTwoHopQuoteInfo order operation gasSchedule slippage).worstCaseQuoteInfo),
      info.slippage = (fillResultsToQuoteInfo worst slippage).slippage := by
    simp [calculateTwoHopQuoteInfo, fillResultsToQuoteInfo]
  unfold calculateQuoteInfo
  dsimp only
  rw [hsingle]
  simp only [ok_bind, List.map_map, Function.comp_def]
  rw [mergeSwapQuoteInfos_eq_ok hbestSlippage, mergeSwapQuoteInfos_eq_ok hworstSlippage]
  rfl

/-- The quote's amounts are those of the simulations and those of the two-hop orders. -/
theorem calculateQuoteInfo_eq_ok [Arithmetic] {path : Path} {operation : MarketOperation}
    {assetFillAmount gasPrice : BigNumber} {gasSchedule : GasSchedule} {slippage : ℚ}
    {best worst : QuoteFillResult}
    (hbest :
      simulateBestCaseFill
          (singleHopFillInfo (path.ordersByType.nativeOrders ++ path.ordersByType.bridgeOrders)
            operation assetFillAmount gasPrice gasSchedule 0) =
        .ok best)
    (hworst :
      simulateWorstCaseFill
          (singleHopFillInfo (path.ordersByType.nativeOrders ++ path.ordersByType.bridgeOrders)
            operation assetFillAmount gasPrice gasSchedule slippage) =
        .ok worst) :
    ∃ info,
      calculateQuoteInfo path operation assetFillAmount gasPrice gasSchedule slippage = .ok info ∧
        info.bestCaseQuoteInfo.totalTakerAmount =
          BigNumber.sum
            (best.totalTakerAssetAmount ::
              path.ordersByType.twoHopOrders.map fun t => t.firstHopOrder.takerAmount) ∧
        info.worstCaseQuoteInfo.totalTakerAmount =
          BigNumber.sum
            (worst.totalTakerAssetAmount ::
              path.ordersByType.twoHopOrders.map (worstTwoHopTakerAmount operation slippage)) ∧
        info.worstCaseQuoteInfo.protocolFeeInWeiAmount =
          BigNumber.sum
            (worst.protocolFeeAmount :: path.ordersByType.twoHopOrders.map fun _ => ZERO_AMOUNT) ∧
        info.worstCaseQuoteInfo.slippage = slippage := by
  refine ⟨_, calculateQuoteInfo_run hbest hworst, ?_, ?_, ?_, rfl⟩
  · simp only [sumSwapQuoteInfos, List.map_cons, List.map_map]
    rfl
  · simp only [sumSwapQuoteInfos, List.map_cons, List.map_map]
    cases operation <;> rfl
  · simp only [sumSwapQuoteInfos, List.map_cons, List.map_map]
    rfl

end ZeroExApi
