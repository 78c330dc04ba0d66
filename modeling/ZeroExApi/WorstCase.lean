/-
# ZeroExApi.WorstCase — the worst case of a quote against its best case

`utils/quote_info.ts` over `utils/quote_simulation.ts`.  Both cases are one run over the single-hop
orders and one account for each two-hop order.  The worst case then slips what the run has filled
and charges for every order, whether the run reached it or not, so each of its numbers is no better
than that of the best case (`worstCase_noBetter`).
-/

import ZeroExApi.FillRun
import ZeroExApi.QuoteInfo

namespace ZeroExApi.WorstCase

open ZeroExApi.Lib ZeroExApi.Lib.BigNumber ZeroExApi.Lib.Fallible ZeroExApi.Orders
  ZeroExApi.QuoteSimulation

/-! ## No better -/

/-- A first account that is no better than a second one: all amounts are finite and not negative, it
makes no more, takes no less, and pays no less in protocol fees and gas. -/
structure NoBetter (worst best : SwapQuoteInfo) : Prop where
  makerAmount : AmountLe worst.makerAmount best.makerAmount
  totalTakerAmount : AmountLe best.totalTakerAmount worst.totalTakerAmount
  protocolFeeInWeiAmount : AmountLe best.protocolFeeInWeiAmount worst.protocolFeeInWeiAmount
  gas : best.gas ≤ worst.gas

/-- Accounts that are no better one by one are no better added up. -/
theorem sumSwapQuoteInfos_noBetter {worst best : SwapQuoteInfo} (h : NoBetter worst best)
    {f g : TwoHopOrder → SwapQuoteInfo} {orders : List TwoHopOrder}
    (hfg : ∀ order ∈ orders, NoBetter (f order) (g order)) (worstSlippage bestSlippage : ℚ) :
    NoBetter (sumSwapQuoteInfos (worst :: orders.map f) worstSlippage)
      (sumSwapQuoteInfos (best :: orders.map g) bestSlippage) := by
  unfold sumSwapQuoteInfos
  constructor <;> simp only [List.map_cons, List.map_map, sum_cons, List.sum_cons]
  · exact h.makerAmount.plus (amountLe_sumAmounts fun order ho => (hfg order ho).makerAmount)
  · exact h.totalTakerAmount.plus
      (amountLe_sumAmounts fun order ho => (hfg order ho).totalTakerAmount)
  · exact h.protocolFeeInWeiAmount.plus
      (amountLe_sumAmounts fun order ho => (hfg order ho).protocolFeeInWeiAmount)
  · exact add_le_add h.gas (List.sum_le_sum fun order ho => (hfg order ho).gas)

/-! ## Slippage -/

section Slippage

variable {slippage : ℚ}

/-- Less of an amount, rounded, is no more than the amount rounded. -/
theorem slip_down (mode : RoundingMode) {x : BigNumber} (h : IsAmount x) (h₀ : 0 ≤ slippage)
    (h₁ : slippage ≤ 1) :
    AmountLe ((x.times (.fin (1 - slippage))).integerValue mode) (x.integerValue mode) := by
  obtain ⟨q, rfl, hq⟩ := h
  apply AmountLe.integerValue
  refine ⟨q * (1 - slippage), q, rfl, rfl, mul_nonneg hq (sub_nonneg.mpr h₁), ?_⟩
  exact mul_le_of_le_one_right hq (by linarith)

/-- More of an amount, rounded, is no less than the amount rounded. -/
theorem slip_up (mode : RoundingMode) {x : BigNumber} (h : IsAmount x) (h₀ : 0 ≤ slippage) :
    AmountLe (x.integerValue mode) ((x.times (.fin (1 + slippage))).integerValue mode) := by
  obtain ⟨q, rfl, hq⟩ := h
  apply AmountLe.integerValue
  refine ⟨q, q * (1 + slippage), rfl, rfl, hq, ?_⟩
  exact le_mul_of_one_le_right hq (by linarith)

theorem integerValue_integerValue (mode mode' : RoundingMode) (x : BigNumber) :
    (x.integerValue mode).integerValue mode' = x.integerValue mode := by
  rcases x with _ | b | q
  · rfl
  · rfl
  · rw [integerValue_fin, integerValue_fin, roundRat_intCast]

/-- What the worst case makes of an output, against what the best case does, on either side. -/
theorem slipOutput_sell_le {output : BigNumber} (h : IsAmount output) (h₀ : 0 ≤ slippage)
    (h₁ : slippage ≤ 1) :
    AmountLe (roundOutputAmount (slipOutput .sell output slippage) .sell)
      (roundOutputAmount output .sell) := by
  unfold roundOutputAmount slipOutput
  dsimp only
  rw [integerValue_integerValue]
  exact slip_down .down h h₀ h₁

theorem le_slipOutput_buy {output : BigNumber} (h : IsAmount output) (h₀ : 0 ≤ slippage) :
    AmountLe (roundOutputAmount output .buy)
      (roundOutputAmount (slipOutput .buy output slippage) .buy) := by
  unfold roundOutputAmount slipOutput
  dsimp only
  rw [integerValue_integerValue]
  exact slip_up .up h h₀

end Slippage

/-! ## The single-hop orders -/

/-- The worst case of a run: its output slips, and it is charged for every order. -/
structure WorstOf (side : MarketOperation) (slippage : ℚ)
    (worst best : IntermediateQuoteFillResult) : Prop where
  input_eq : worst.input = best.input
  inputFee_eq : worst.inputFee = best.inputFee
  output_eq : worst.output = slipOutput side best.output slippage
  outputFee_eq : worst.outputFee = best.outputFee
  protocolFee_le : AmountLe best.protocolFee worst.protocolFee
  gas_le : best.gas ≤ worst.gas

theorem fromIntermediateQuoteFillResult_noBetter {worst best : IntermediateQuoteFillResult}
    {worstInfo bestInfo : QuoteFillInfo} {slippage : ℚ} (hside : worstInfo.side = bestInfo.side)
    (h : WorstOf bestInfo.side slippage worst best) (hbest : best.Amounts) (h₀ : 0 ≤ slippage)
    (h₁ : slippage ≤ 1) (worstSlippage bestSlippage : ℚ) :
    NoBetter
      (fillResultsToQuoteInfo (fromIntermediateQuoteFillResult worst worstInfo) worstSlippage)
      (fillResultsToQuoteInfo (fromIntermediateQuoteFillResult best bestInfo) bestSlippage) := by
  obtain ⟨hinput, hinputFee, houtput, houtputFee, hprotocolFee, hgas⟩ := h
  have hceil : ((⌈best.gas⌉ : ℤ) : ℚ) ≤ (⌈worst.gas⌉ : ℤ) := Int.cast_le.mpr (Int.ceil_mono hgas)
  unfold fillResultsToQuoteInfo fromIntermediateQuoteFillResult roundIntermediateFillResult
  rw [hside]
  cases hs : bestInfo.side with
  | sell =>
    rw [hs] at houtput
    dsimp only
    rw [hinput, hinputFee, houtput, houtputFee]
    constructor
    · exact (slipOutput_sell_le hbest.output h₀ h₁).plus (hbest.outputFee.integerValue .down).refl
    · exact ((hbest.input.integerValue .up).plus (hbest.inputFee.integerValue .up)).refl
    · exact hprotocolFee.integerValue .up
    · exact hceil
  | buy =>
    rw [hs] at houtput
    dsimp only
    rw [hinput, hinputFee, houtput, houtputFee]
    constructor
    · exact ((hbest.input.integerValue .down).plus (hbest.inputFee.integerValue .down)).refl
    · exact (le_slipOutput_buy hbest.output h₀).plus (hbest.outputFee.integerValue .up).refl
    · exact hprotocolFee.integerValue .up
    · exact hceil

/-- The calls of some orders cost what the orders do. -/
theorem sum_gas_calls {fillOrders : List QuoteFillOrderCall} {orders : List OptimizedOrder}
    (h : fillOrders.map QuoteFillOrderCall.order = orders) (gasSchedule : GasSchedule) :
    (fillOrders.map fun fo => gasSchedule fo.order.source fo.order.fillData).sum =
      getTotalGasUsedByFills orders gasSchedule := by
  rw [getTotalGasUsedByFills, ← h, List.map_map]
  rfl

theorem count_protocolFee_calls {fillOrders : List QuoteFillOrderCall}
    {orders : List OptimizedOrder} (h : fillOrders.map QuoteFillOrderCall.order = orders) :
    (fillOrders.filter fun fo => hasProtocolFee fo.order).length =
      (orders.filter hasProtocolFee).length := by
  rw [← h, List.filter_map, List.length_map]
  rfl

/-- The worst case of a run over sound calls, at a protocol fee that is not negative. -/
theorem worstOf_run {fillOrders : List QuoteFillOrderCall} {orders : List OptimizedOrder}
    (horders : fillOrders.map QuoteFillOrderCall.order = orders) {protocolFee : ℚ}
    (hprotocolFee : 0 ≤ protocolFee) {gasSchedule : GasSchedule}
    (hgas : ∀ source fillData, 0 ≤ gasSchedule source fillData) (side : MarketOperation)
    (slippage : ℚ) (inputAmount : BigNumber) :
    let filled := fillQuoteOrders fillOrders inputAmount (.fin protocolFee) gasSchedule
    WorstOf side slippage
      { filled with
        gas := getTotalGasUsedByFills orders gasSchedule
        protocolFee :=
          (BigNumber.fin protocolFee).times (.fin (orders.filter hasProtocolFee).length)
        output := slipOutput side filled.output slippage }
      filled := by
  refine ⟨rfl, rfl, rfl, rfl, ?_, ?_⟩
  · have hempty : EMPTY_QUOTE_INTERMEDIATE_FILL_RESULT.protocolFee = .fin 0 := rfl
    have hle := fillLoop_protocolFee_le fillOrders hprotocolFee gasSchedule inputAmount le_rfl
      hempty
    rw [zero_add, count_protocolFee_calls horders] at hle
    rw [times_fin]
    exact hle
  · have hempty : EMPTY_QUOTE_INTERMEDIATE_FILL_RESULT.gas = 0 := rfl
    have hle := fillLoop_gas_le fillOrders (.fin protocolFee) hgas inputAmount
      EMPTY_QUOTE_INTERMEDIATE_FILL_RESULT
    rw [sum_gas_calls horders] at hle
    rw [hempty, zero_add] at hle
    exact hle

section Simulation

variable {path : Path} {gasSchedule : GasSchedule} {slippage : ℚ}

/-- Both simulations of the single-hop orders succeed, and the worst one is no better. -/
theorem simulations_noBetter (hfills : ∀ fill ∈ path.fills, SoundFill fill)
    (hgas : ∀ source fillData, 0 ≤ gasSchedule source fillData) (h₀ : 0 ≤ slippage)
    (h₁ : slippage ≤ 1) (assetFillAmount gasPrice : ℚ) :
    ∃ best worst,
      simulateBestCaseFill
          (singleHopFillInfo (path.ordersByType.nativeOrders ++ path.ordersByType.bridgeOrders)
            path.context.side (.fin assetFillAmount) (.fin gasPrice) gasSchedule 0) = .ok best ∧
        simulateWorstCaseFill
          (singleHopFillInfo (path.ordersByType.nativeOrders ++ path.ordersByType.bridgeOrders)
            path.context.side (.fin assetFillAmount) (.fin gasPrice) gasSchedule slippage)
            = .ok worst ∧
          NoBetter (fillResultsToQuoteInfo worst slippage) (fillResultsToQuoteInfo best 0) := by
  have hcalls := fun s => createBestCaseFillOrderCalls_sound hfills
    (show (singleHopFillInfo (path.ordersByType.nativeOrders ++ path.ordersByType.bridgeOrders)
      path.context.side (.fin assetFillAmount) (.fin gasPrice) gasSchedule s).side
        = path.context.side from rfl) rfl
  obtain ⟨fillOrders, hbest, horders, hsound⟩ := hcalls 0
  have hworst : createBestCaseFillOrderCalls
      (singleHopFillInfo (path.ordersByType.nativeOrders ++ path.ordersByType.bridgeOrders)
        path.context.side (.fin assetFillAmount) (.fin gasPrice) gasSchedule slippage)
      = .ok fillOrders := hbest
  refine ⟨_, _, bind_eq_ok.mpr ⟨fillOrders, hbest, rfl⟩, bind_eq_ok.mpr ⟨fillOrders, hworst, rfl⟩,
    ?_⟩
  apply fromIntermediateQuoteFillResult_noBetter rfl _ _ h₀ h₁
  · -- the multiplier is zero, whatever the gas price
    have hfee : 0 ≤ gasPrice * 0 := by rw [mul_zero]
    exact worstOf_run horders hfee hgas path.context.side slippage (.fin assetFillAmount)
  · exact fillLoop_amounts _ _ hsound assetFillAmount amounts_empty

end Simulation

/-! ## The two-hop orders -/

theorem twoHop_noBetter {order : TwoHopOrder} {side : MarketOperation} {fill : Fill}
    (hfill : SoundFill fill)
    (hmaker : order.secondHopOrder.makerAmount = (getFillTokenAmounts fill.toFillBase side).1)
    (htaker : order.firstHopOrder.takerAmount = (getFillTokenAmounts fill.toFillBase side).2)
    (gasSchedule : GasSchedule) {slippage : ℚ} (h₀ : 0 ≤ slippage) (h₁ : slippage ≤ 1) :
    NoBetter (calculateTwoHopQuoteInfo order side gasSchedule slippage).worstCaseQuoteInfo
      (calculateTwoHopQuoteInfo order side gasSchedule slippage).bestCaseQuoteInfo := by
  obtain ⟨i, hi, hi₀⟩ := hfill.input
  obtain ⟨o, ho, ho₁⟩ := hfill.output
  have hinput : IsAmount fill.input := ⟨i, hi, hi₀.le⟩
  have houtput : IsAmount fill.output := ⟨o, ho, by linarith⟩
  cases side with
  | sell =>
    have hrounded : IsAmount (fill.output.integerValue .down) := houtput.integerValue .down
    -- the best case makes an integer, which rounding leaves alone
    have hslip := slip_down .halfUp hrounded h₀ h₁
    rw [integerValue_integerValue] at hslip
    constructor
    · show AmountLe ((order.secondHopOrder.makerAmount.times _).integerValue .halfUp)
        order.secondHopOrder.makerAmount
      rw [hmaker]
      exact hslip
    · show AmountLe order.firstHopOrder.takerAmount order.firstHopOrder.takerAmount
      rw [htaker]
      exact hinput.refl
    · exact isAmount_zero.refl
    · exact le_rfl
  | buy =>
    have hrounded : IsAmount (fill.output.integerValue .up) := houtput.integerValue .up
    have hslip := slip_up .up hrounded h₀
    rw [integerValue_integerValue] at hslip
    constructor
    · show AmountLe order.secondHopOrder.makerAmount order.secondHopOrder.makerAmount
      rw [hmaker]
      exact hinput.refl
    · show AmountLe order.firstHopOrder.takerAmount
        ((order.firstHopOrder.takerAmount.times _).integerValue .up)
      rw [htaker]
      exact hslip
    · exact isAmount_zero.refl
    · exact le_rfl

/-! ## The quote -/

/-- For every path of fills with positive amounts and fees that are not negative, on either side,
for every amount, gas price, gas schedule that is not negative and slippage up to one: the quote has
a worst case and a best case, and the worst is no better than the best. -/
theorem worstCase_noBetter {path : Path} (hfills : ∀ fill ∈ path.fills, SoundFill fill)
    {gasSchedule : GasSchedule} (hgas : ∀ source fillData, 0 ≤ gasSchedule source fillData)
    {slippage : ℚ} (h₀ : 0 ≤ slippage) (h₁ : slippage ≤ 1) (assetFillAmount gasPrice : ℚ) :
    ∃ info,
      calculateQuoteInfo path path.context.side (.fin assetFillAmount) (.fin gasPrice) gasSchedule
          slippage = .ok info ∧
        NoBetter info.worstCaseQuoteInfo info.bestCaseQuoteInfo := by
  obtain ⟨best, worst, hbest, hworst, hsingle⟩ :=
    simulations_noBetter hfills hgas h₀ h₁ assetFillAmount gasPrice
  refine ⟨_, calculateQuoteInfo_run hbest hworst, ?_⟩
  apply sumSwapQuoteInfos_noBetter hsingle
  intro order horder
  obtain ⟨fill, hfill, _, hmaker, htaker⟩ := path.twoHop_amounts horder
  exact twoHop_noBetter (hfills fill hfill) hmaker htaker gasSchedule h₀ h₁

/-! ## A limit order with a fee, a bridge and a two-hop -/

/-- A limit order of a hundred for a hundred, with a taker-token fee of ten. -/
def limitOrder : NativeOrderWithFillableAmounts where
  order := ⟨"maker", "output", "input", .fin 100, .fin 100, .fin 10⟩
  type := .limit
  signature := ⟨2, "r", "s", 27⟩
  fillableMakerAmount := .fin 100
  fillableTakerAmount := .fin 100
  fillableTakerFeeAmount := .fin 10

/-- A fill of a hundred for a hundred. -/
def fillOfHundred (source : ERC20BridgeSource) (type : FillQuoteTransformerOrderType)
    (fillData : FillData) : Fill where
  input := .fin 100
  output := .fin 100
  adjustedOutput := .fin 100
  gas := 0
  source := source
  type := type
  fillData := fillData
  flags := Fills.SOURCE_FLAGS (Fills.flagKey source type)

/-- A fill of each kind. -/
def mixedFills : List Fill :=
  [fillOfHundred .native .limit (.native limitOrder),
    fillOfHundred .uniswapV2 .bridge (.uniswapV2 ["input", "output"] "router"),
    fillOfHundred .multiHop .bridge
      (.multiHop .uniswapV2 (.uniswapV2 ["input", "middle"] "router") .sushiSwap
        (.uniswapV2 ["middle", "output"] "router") "middle")]

theorem mixedFills_sound : ∀ fill ∈ mixedFills, SoundFill fill := by
  intro fill hfill
  have hinput : fill.input = .fin 100 ∧ fill.output = .fin 100 := by
    simp only [mixedFills, List.mem_cons, List.not_mem_nil, or_false] at hfill
    rcases hfill with rfl | rfl | rfl <;> exact ⟨rfl, rfl⟩
  have hnative : ∀ nativeOrder, fill.fillData = .native nativeOrder →
      nativeOrder = limitOrder := by
    intro nativeOrder hdata
    simp only [mixedFills, List.mem_cons, List.not_mem_nil, or_false] at hfill
    rcases hfill with rfl | rfl | rfl
    · exact (FillData.native.inj hdata).symm
    · cases hdata
    · cases hdata
  constructor
  · exact ⟨100, hinput.1, by norm_num⟩
  · exact ⟨100, hinput.2, by norm_num⟩
  · intro nativeOrder hdata
    rw [hnative nativeOrder hdata]
    exact ⟨10, rfl, by norm_num⟩
  · intro nativeOrder hdata
    rw [hnative nativeOrder hdata]
    exact ⟨100, rfl, by norm_num⟩

/-- The path of these fills, on a side. -/
def mixedPath (side : MarketOperation) : Except JsError Path :=
  Path.create ⟨side, "input", "output"⟩ mixedFills (.fin 150) ⟨.fin 0, .fin 0, fun _ => .fin 0⟩

/-- A buy of a hundred and fifty at a slippage of a tenth. -/
theorem mixed_buy_noBetter :
    ∃ path, mixedPath .buy = .ok path ∧ path.context.side = .buy ∧ ∃ info,
      calculateQuoteInfo path path.context.side (.fin 150) (.fin 5) (fun _ _ => 1) (1 / 10)
          = .ok info ∧
        NoBetter info.worstCaseQuoteInfo info.bestCaseQuoteInfo := by
  obtain ⟨path, hpath, _⟩ := exists_of_okAnd
    (show okAnd (mixedPath .buy) (fun _ => true) = true by decide +kernel)
  obtain ⟨hcontext, hfills⟩ := Path.create_fields hpath
  have hsound : ∀ fill ∈ path.fills, SoundFill fill := by
    rw [hfills]
    exact mixedFills_sound
  refine ⟨path, hpath, by rw [hcontext], ?_⟩
  exact worstCase_noBetter hsound (fun _ _ => by norm_num) (by norm_num) (by norm_num) 150 5

end ZeroExApi.WorstCase
