/-
# ZeroExApi.EthValue — the value of a transaction that sells ETH

`services/swap_service.ts` takes the value of a transaction from the worst case of its quote,
`exchange_proxy_swap_quote_consumer.ts` says which amount of ETH its call needs.  Without fees in
the taker token the worst case takes no less than the best one, and in both the total is the amount
itself (`TakesNoLess`).  Protocol fees are charged at a multiplier of zero.  So each kind of call
needs what the worst case takes, which is the value (`value_eq_ethAmount`).
-/

import ZeroExApi.WorstCase
import ZeroExApi.SwapService
import ZeroExApi.SwapQuoteConsumer
import ZeroExApi.ExchangeProxyOverhead

namespace ZeroExApi.EthValue

open ZeroExApi.Lib ZeroExApi.Lib.BigNumber ZeroExApi.Lib.Fallible ZeroExApi.Orders
  ZeroExApi.QuoteSimulation ZeroExApi.QuoteConsumerUtils ZeroExApi.SwapService
  ZeroExApi.WorstCase

/-! ## What the taker pays -/

/-- What a run takes of the taker: its input on a sell, its output on a buy. -/
def taken (side : MarketOperation) (result : IntermediateQuoteFillResult) : BigNumber :=
  match side with
  | .sell => result.input
  | .buy => result.output

/-- What it takes as a fee. -/
def takenFee (side : MarketOperation) (result : IntermediateQuoteFillResult) : BigNumber :=
  match side with
  | .sell => result.inputFee
  | .buy => result.outputFee

theorem takerAmounts_of_result (ir : IntermediateQuoteFillResult) (quoteInfo : QuoteFillInfo) :
    (fromIntermediateQuoteFillResult ir quoteInfo).takerAssetAmount =
        (taken quoteInfo.side ir).integerValue .up ∧
      (fromIntermediateQuoteFillResult ir quoteInfo).totalTakerAssetAmount =
        ((taken quoteInfo.side ir).integerValue .up).plus
          ((takenFee quoteInfo.side ir).integerValue .up) ∧
      (fromIntermediateQuoteFillResult ir quoteInfo).protocolFeeAmount =
        ir.protocolFee.integerValue .up := by
  unfold fromIntermediateQuoteFillResult
  cases quoteInfo.side <;> exact ⟨rfl, rfl, rfl⟩

/-- A fill of a positive amount, at a positive price on a buy; a native order has no fee in the
taker token. -/
structure FreeFill (side : MarketOperation) (fill : Fill) : Prop where
  input : ∃ i, fill.input = .fin i ∧ 0 < i
  output : side = .buy → ∃ o, fill.output = .fin o ∧ 0 < o
  fee : ∀ nativeOrder, fill.fillData = .native nativeOrder →
    nativeOrder.order.takerTokenFeeAmount = .fin 0 ∧
      ∃ t, nativeOrder.order.takerAmount = .fin t ∧ 0 < t

/-- A call without fees whose input is positive; on a buy its output is positive as well. -/
structure FreeCall (side : MarketOperation) (fo : QuoteFillOrderCall) : Prop where
  plain : fo.Plain
  input_pos : 0 < fo.input
  output : side = .buy → fo.order.fill.output = .fin fo.output ∧ 0 < fo.output ∧
    ∃ t, fo.totalOrderOutput = .fin t ∧ 0 < t

section Calls

variable {side : MarketOperation} {fill : Fill} {order : OptimizedOrder}

/-- The taker pays an amount for the order of such a fill. -/
theorem takerAmount_of_free (hfill : FreeFill side fill) :
    IsAmount (getFillTokenAmounts fill.toFillBase side).2 := by
  obtain ⟨i, hi, hi₀⟩ := hfill.input
  cases side with
  | sell =>
    show IsAmount fill.input
    rw [hi, isAmount_fin]
    exact hi₀.le
  | buy =>
    obtain ⟨o, ho, ho₀⟩ := hfill.output rfl
    show IsAmount (fill.output.integerValue .up)
    rw [ho]
    exact (isAmount_fin.mpr ho₀.le).integerValue .up

/-- There is no fee to pay for it. -/
theorem takerFee_of_free (hfill : FreeFill side fill) (h : Path.SingleHopOrderOf side fill order) :
    takerFee order = .ok ZERO_AMOUNT := by
  obtain ⟨_, _, htaker⟩ := singleHop_amounts h
  obtain ⟨taker, htakerEq, _⟩ := takerAmount_of_free hfill
  rw [htakerEq] at htaker
  unfold takerFee
  cases h with
  | native _ of_fill =>
    obtain ⟨nativeOrder, hdata⟩ := of_fill.native
    rw [of_fill.fillData_eq] at hdata
    obtain ⟨hfee, t, ht, ht₀⟩ := hfill.fee nativeOrder hdata
    rw [of_fill.fillData_eq, hdata]
    split
    · show Except.ok (getNativeAdjustedTakerFeeAmount nativeOrder.order order.takerAmount) = _
      rw [getNativeAdjustedTakerFeeAmount, htaker, hfee, ht, times_fin, mul_zero,
        div_fin _ ht₀.ne', zero_div, integerValue_fin, roundRat_zero]
      rfl
    · rfl
  | bridge _ _ _ of_fill =>
    rw [of_fill.type_eq]
    rfl

theorem freeCall_of_free (hfill : FreeFill side fill) (h : Path.SingleHopOrderOf side fill order) :
    FreeCall side (plainCall side order) := by
  obtain ⟨hbase, hmaker, htaker⟩ := singleHop_amounts h
  obtain ⟨i, hi, hi₀⟩ := hfill.input
  have hinput : order.fill.input = .fin i := by rw [hbase, hi]
  -- a sell asks for what it takes, a buy for what it makes, slipped and rounded up
  cases side with
  | sell =>
    have hin : (plainCall .sell order).input = i := congrArg BigNumber.toRat hinput
    constructor
    · refine ⟨?_, rfl, ?_, rfl, rfl, ?_⟩
      · rw [hin]
        exact hinput
      · rw [hin]
        exact htaker.trans hi
      · rw [hin]
        exact hi₀.le
    · rw [hin]
      exact hi₀
    · intro hbuy
      cases hbuy
  | buy =>
    obtain ⟨o, ho, ho₀⟩ := hfill.output rfl
    have houtput : order.fill.output = .fin o := by rw [hbase, ho]
    have hin : (plainCall .buy order).input = i := congrArg BigNumber.toRat hinput
    have hout : (plainCall .buy order).output = o := congrArg BigNumber.toRat houtput
    constructor
    · refine ⟨?_, rfl, ?_, rfl, rfl, ?_⟩
      · rw [hin]
        exact hinput
      · rw [hin]
        exact hmaker.trans hi
      · rw [hin]
        exact hi₀.le
    · rw [hin]
      exact hi₀
    · intro _
      rw [hout]
      refine ⟨houtput, ho₀, (roundRat .up o : ℤ), ?_, ?_⟩
      · show order.takerAmount = _
        rw [htaker, getFillTokenAmounts, ho, integerValue_fin]
      · rw [roundRat_up_of_nonneg ho₀.le]
        exact Int.cast_pos.mpr (Int.ceil_pos.mpr ho₀)

end Calls

/-! ## The run -/

section Run

variable {side : MarketOperation} {gasSchedule : GasSchedule} {fo : QuoteFillOrderCall}
  {fillOrders : List QuoteFillOrderCall} {result : IntermediateQuoteFillResult}

/-- What a run over such calls has taken: an amount, no fee, and no protocol fee. -/
structure Taken (side : MarketOperation) (result : IntermediateQuoteFillResult) : Prop where
  amount : IsAmount (taken side result)
  fee : takenFee side result = .fin 0
  protocolFee : result.protocolFee = .fin 0

/-- One turn takes some more. -/
theorem fillOrder_taken (gasSchedule : GasSchedule) (h : FreeCall side fo) {remainingInput : ℚ}
    (hr : 0 < remainingInput)
    (htaken : Taken side result) :
    Taken side (fillOrder (.fin 0) gasSchedule fo (.fin remainingInput) result).2 ∧
      ∃ remaining : ℚ,
        (fillOrder (.fin 0) gasSchedule fo (.fin remainingInput) result).1 = .fin remaining := by
  obtain ⟨hremaining, hinput, hinputFee, houtput, houtputFee⟩ :=
    fillOrder_plain (.fin 0) gasSchedule result h.plain h.input_pos hr.le rfl
  refine ⟨?_, _, hremaining⟩
  have hfilled : 0 ≤ min fo.input remainingInput := le_min h.input_pos.le hr.le
  obtain ⟨hamount, hfee, hprotocolFee⟩ := htaken
  -- the protocol fee is that of a gas price of zero
  have hprotocol : (fillOrder (.fin 0) gasSchedule fo (.fin remainingInput)
      result).2.protocolFee = .fin 0 := by
    show result.protocolFee.plus (if hasProtocolFee fo.order then .fin 0 else ZERO_AMOUNT) = _
    rw [hprotocolFee, ZERO_AMOUNT, ite_self, plus_fin, add_zero]
  cases side with
  | sell =>
    change IsAmount result.input at hamount
    change result.inputFee = .fin 0 at hfee
    refine ⟨?_, ?_, hprotocol⟩
    · show IsAmount (fillOrder _ _ _ _ _).2.input
      rw [hinput]
      exact hamount.plus (isAmount_fin.mpr hfilled)
    · show (fillOrder _ _ _ _ _).2.inputFee = _
      rw [hinputFee, hfee, plus_fin, add_zero]
  | buy =>
    change IsAmount result.output at hamount
    change result.outputFee = .fin 0 at hfee
    obtain ⟨hout, hout₀, t, ht, ht₀⟩ := h.output rfl
    refine ⟨?_, ?_, hprotocol⟩
    · show IsAmount (fillOrder _ _ _ _ _).2.output
      rw [houtput, hout, times_fin]
      apply hamount.plus
      rw [isAmount_fin]
      exact mul_nonneg hout₀.le (div_nonneg hfilled h.input_pos.le)
    · show (fillOrder _ _ _ _ _).2.outputFee = _
      rw [houtputFee, hout, times_fin, ht, div_fin _ ht₀.ne', times_fin, mul_zero, hfee, plus_fin,
        add_zero]

/-- A run takes an amount. -/
theorem fillLoop_taken (h : ∀ fo ∈ fillOrders, FreeCall side fo) (remainingInput : ℚ)
    (htaken : Taken side result) :
    Taken side (fillLoop (.fin 0) gasSchedule fillOrders (.fin remainingInput) result) := by
  induction fillOrders generalizing remainingInput result with
  | nil => exact htaken
  | cons fo fillOrders ih =>
    rcases lt_or_ge 0 remainingInput with hpos | hdone
    · obtain ⟨hturn, remaining, hremaining⟩ :=
        fillOrder_taken gasSchedule (h fo List.mem_cons_self) hpos htaken
      rw [fillLoop_of_pos hpos, hremaining]
      exact ih (fun x hx => h x (List.mem_cons_of_mem _ hx)) remaining hturn
    · rw [fillLoop_of_done hdone]
      exact htaken

end Run

/-! ## Both cases -/

/-- A worst case that takes no less of the taker than the best one: the total is the amount, and
there are no protocol fees. -/
structure TakesNoLess (worst best : SwapQuoteInfo) : Prop where
  total_le : AmountLe best.totalTakerAmount worst.totalTakerAmount
  total_eq : worst.totalTakerAmount = worst.takerAmount
  bestProtocolFee : best.protocolFeeInWeiAmount = .fin 0
  worstProtocolFee : worst.protocolFeeInWeiAmount = .fin 0

/-- Cases that take no less one by one take no less added up. -/
theorem sumSwapQuoteInfos_takesNoLess {worst best : SwapQuoteInfo} (h : TakesNoLess worst best)
    {f g : TwoHopOrder → SwapQuoteInfo} {orders : List TwoHopOrder}
    (hfg : ∀ order ∈ orders, TakesNoLess (f order) (g order)) (worstSlippage bestSlippage : ℚ) :
    TakesNoLess (sumSwapQuoteInfos (worst :: orders.map f) worstSlippage)
      (sumSwapQuoteInfos (best :: orders.map g) bestSlippage) := by
  have hzero : ∀ {fees : List BigNumber}, (∀ fee ∈ fees, fee = .fin 0) →
      sumAmounts fees = .fin 0 := by
    intro fees hfees
    induction fees with
    | nil => rfl
    | cons fee fees ih =>
      rw [sumAmounts_cons, hfees fee List.mem_cons_self,
        ih fun x hx => hfees x (List.mem_cons_of_mem _ hx), plus_fin, add_zero]
  unfold sumSwapQuoteInfos
  constructor <;> simp only [List.map_cons, List.map_map, sum_cons]
  · exact h.total_le.plus (amountLe_sumAmounts fun order ho => (hfg order ho).total_le)
  · rw [h.total_eq]
    congr 2
    exact List.map_congr_left fun order ho => (hfg order ho).total_eq
  · rw [h.bestProtocolFee, hzero, plus_fin, add_zero]
    intro fee hfee
    obtain ⟨order, ho, rfl⟩ := List.mem_map.mp hfee
    exact (hfg order ho).bestProtocolFee
  · rw [h.worstProtocolFee, hzero, plus_fin, add_zero]
    intro fee hfee
    obtain ⟨order, ho, rfl⟩ := List.mem_map.mp hfee
    exact (hfg order ho).worstProtocolFee

section Quote

variable {path : Path} {slippage : ℚ}

/-- Where a run has taken an amount, the quote takes it. -/
theorem takesNoLess_of_taken {worst best : IntermediateQuoteFillResult}
    {worstInfo bestInfo : QuoteFillInfo} {side : MarketOperation}
    (hworstSide : worstInfo.side = side)
    (hbestSide : bestInfo.side = side) (hbest : Taken side best)
    (hprotocolFee : worst.protocolFee = .fin 0) (hfee : takenFee side worst = takenFee side best)
    (htaken : AmountLe ((taken side best).integerValue .up) ((taken side worst).integerValue .up))
    (worstSlippage bestSlippage : ℚ) :
    TakesNoLess
      (fillResultsToQuoteInfo (fromIntermediateQuoteFillResult worst worstInfo) worstSlippage)
      (fillResultsToQuoteInfo (fromIntermediateQuoteFillResult best bestInfo) bestSlippage) := by
  obtain ⟨hworstTaker, hworstTotal, hworstProtocol⟩ := takerAmounts_of_result worst worstInfo
  obtain ⟨_, hbestTotal, hbestProtocol⟩ := takerAmounts_of_result best bestInfo
  have hzero : (BigNumber.fin 0).integerValue .up = .fin 0 := by
    rw [integerValue_fin, roundRat_zero, Int.cast_zero]
  have hplus : ∀ {x : BigNumber}, IsAmount x → x.plus (.fin 0) = x := by
    rintro x ⟨q, rfl, _⟩
    rw [plus_fin, add_zero]
  rw [hworstSide] at hworstTaker hworstTotal
  rw [hbestSide] at hbestTotal
  rw [hbest.fee] at hfee
  rw [hfee, hzero, hplus htaken.right, ← hworstTaker] at hworstTotal
  rw [hbest.fee, hzero, hplus htaken.left] at hbestTotal
  unfold fillResultsToQuoteInfo
  constructor
  · dsimp only
    rw [hworstTotal, hworstTaker, hbestTotal]
    exact htaken
  · exact hworstTotal
  · exact hbestProtocol.trans (by rw [hbest.protocolFee, hzero])
  · exact hworstProtocol.trans (by rw [hprotocolFee, hzero])

theorem takenFee_eq (side : MarketOperation) {result result' : IntermediateQuoteFillResult}
    (hinput : result.inputFee = result'.inputFee) (houtput : result.outputFee = result'.outputFee) :
    takenFee side result = takenFee side result' := by
  cases side with
  | sell => exact hinput
  | buy => exact houtput

/-- The worst case of a run takes the same on a sell, and more on a buy. -/
theorem worst_taken {side : MarketOperation} {worst run : IntermediateQuoteFillResult}
    (hinput : worst.input = run.input)
    (houtput : worst.output = slipOutput side run.output slippage)
    (hamount : IsAmount (taken side run)) (h₀ : 0 ≤ slippage) :
    AmountLe ((taken side run).integerValue .up) ((taken side worst).integerValue .up) := by
  cases side with
  | sell =>
    show AmountLe _ (worst.input.integerValue .up)
    rw [hinput]
    exact (hamount.integerValue .up).refl
  | buy =>
    show AmountLe _ (worst.output.integerValue .up)
    rw [houtput, slipOutput, integerValue_integerValue]
    exact slip_up .up hamount h₀

/-- Both simulations of the single-hop orders succeed, and the worst one takes no less. -/
theorem simulations_takeNoLess (hfills : ∀ fill ∈ path.fills, FreeFill path.context.side fill)
    (gasSchedule : GasSchedule) (h₀ : 0 ≤ slippage) (assetFillAmount gasPrice : ℚ) :
    ∃ best worst,
      simulateBestCaseFill
          (singleHopFillInfo (path.ordersByType.nativeOrders ++ path.ordersByType.bridgeOrders)
            path.context.side (.fin assetFillAmount) (.fin gasPrice) gasSchedule 0) = .ok best ∧
        simulateWorstCaseFill
          (singleHopFillInfo (path.ordersByType.nativeOrders ++ path.ordersByType.bridgeOrders)
            path.context.side (.fin assetFillAmount) (.fin gasPrice) gasSchedule slippage)
            = .ok worst ∧
          TakesNoLess (fillResultsToQuoteInfo worst slippage) (fillResultsToQuoteInfo best 0) := by
  have horders : ∀ order ∈ path.ordersByType.nativeOrders ++ path.ordersByType.bridgeOrders,
      takerFee order = .ok ZERO_AMOUNT ∧
        FreeCall path.context.side (plainCall path.context.side order) := by
    intro order horder
    obtain ⟨fill, hfill, hof⟩ := path.exists_fill_of_singleHop horder
    exact ⟨takerFee_of_free (hfills fill hfill) hof, freeCall_of_free (hfills fill hfill) hof⟩
  have hfees := fun order ho => (horders order ho).1
  set quoteInfo := fun slippage => singleHopFillInfo
    (path.ordersByType.nativeOrders ++ path.ordersByType.bridgeOrders) path.context.side
    (.fin assetFillAmount) (.fin gasPrice) gasSchedule slippage
  -- the multiplier is zero, whatever the gas price
  have hprotocolFee : ((quoteInfo slippage).gasPrice.times
      (quoteInfo slippage).protocolFeeMultiplier) = .fin 0 := by
    show (BigNumber.fin gasPrice).times PROTOCOL_FEE_MULTIPLIER = .fin 0
    rw [PROTOCOL_FEE_MULTIPLIER, times_fin, mul_zero]
  have htaken : Taken path.context.side (plainFill (quoteInfo slippage)) := by
    unfold plainFill fillQuoteOrders
    rw [hprotocolFee]
    apply fillLoop_taken
    · intro fo hfo
      obtain ⟨order, ho, rfl⟩ := List.mem_map.mp hfo
      exact (horders order ho).2
    · cases path.context.side <;> exact ⟨isAmount_zero, rfl, rfl⟩
  obtain ⟨worst, hworst, hinput, hinputFee, houtput, houtputFee, hprotocol⟩ :=
    @simulateWorstCaseFill_eq_ok _ (quoteInfo slippage) hfees
  refine ⟨_, _, @simulateBestCaseFill_eq_ok _ (quoteInfo 0) hfees, hworst, ?_⟩
  have hbest : plainFill (quoteInfo 0) = plainFill (quoteInfo slippage) := rfl
  rw [hprotocolFee, times_fin, zero_mul] at hprotocol
  rw [hbest]
  apply takesNoLess_of_taken rfl rfl htaken hprotocol
  · exact takenFee_eq path.context.side hinputFee houtputFee
  · exact worst_taken hinput houtput htaken.amount h₀

/-- A two-hop order takes what its fill does. -/
theorem twoHop_takesNoLess (hfills : ∀ fill ∈ path.fills, FreeFill path.context.side fill)
    {order : TwoHopOrder} (horder : order ∈ path.ordersByType.twoHopOrders)
    (gasSchedule : GasSchedule) (h₀ : 0 ≤ slippage) :
    TakesNoLess
      (calculateTwoHopQuoteInfo order path.context.side gasSchedule slippage).worstCaseQuoteInfo
      (calculateTwoHopQuoteInfo order path.context.side gasSchedule
        slippage).bestCaseQuoteInfo := by
  obtain ⟨fill, hfill, _, _, htaker⟩ := path.twoHop_amounts horder
  have hamount := takerAmount_of_free (hfills fill hfill)
  rw [← htaker] at hamount
  refine ⟨?_, rfl, rfl, rfl⟩
  revert htaker
  cases path.context.side with
  | sell =>
    intro _
    exact hamount.refl
  | buy =>
    intro htaker
    have hslip := slip_up .up hamount h₀
    -- the best case takes an integer, which rounding leaves alone
    rw [htaker, getFillTokenAmounts, integerValue_integerValue] at hslip
    show AmountLe order.firstHopOrder.takerAmount
      ((order.firstHopOrder.takerAmount.times _).integerValue .up)
    rw [htaker, getFillTokenAmounts]
    exact hslip

/-- The quote of a path of such fills takes no less in the worst case. -/
theorem createSwapQuote_takesNoLess
    (hfills : ∀ fill ∈ path.fills, FreeFill path.context.side fill) {makerAmountPerEth : BigNumber}
    {makerToken takerToken : String} {assetFillAmount gasPrice : ℚ} {gasSchedule : GasSchedule}
    (h₀ : 0 ≤ slippage) {quote : SwapQuote}
    (hquote : createSwapQuote path makerAmountPerEth makerToken takerToken path.context.side
      (.fin assetFillAmount) (.fin gasPrice) gasSchedule slippage = .ok quote) :
    TakesNoLess quote.worstCaseQuoteInfo quote.bestCaseQuoteInfo := by
  obtain ⟨best, worst, hbest, hworst, hsingle⟩ :=
    simulations_takeNoLess hfills gasSchedule h₀ assetFillAmount gasPrice
  obtain ⟨info, hinfo, hquote⟩ := bind_eq_ok.mp hquote
  rw [calculateQuoteInfo_run hbest hworst] at hinfo
  cases hinfo
  cases hquote
  apply sumSwapQuoteInfos_takesNoLess hsingle
  intro order horder
  exact twoHop_takesNoLess hfills horder gasSchedule h₀

end Quote

/-! ## The calls -/

section Calldata

variable {consumer : ExchangeProxySwapQuoteConsumer} {quote : SwapQuote}
  {opts : ExchangeProxyContractOpts}

/-- A call that sells ETH needs the amount to sell, or that and the protocol fees. -/
theorem ethAmount_of_fromETH (hopts : opts.isFromETH = true) {info : CalldataInfo}
    (h : consumer.getCalldataOrThrow quote opts = .ok info) :
    info.ethAmount = (getSwapContext quote opts).sellAmount ∨
      info.ethAmount = quote.worstCaseQuoteInfo.protocolFeeInWeiAmount.plus
        (getSwapContext quote opts).sellAmount := by
  have hmap : ∀ {call : Except JsError Calldata} {ethAmount : BigNumber},
      (call.map fun c => consumer.callInfo c ethAmount) = .ok info →
        info.ethAmount = ethAmount := by
    intro call ethAmount hcall
    cases call with
    | error e => cases hcall
    | ok c =>
      cases hcall
      rfl
  obtain ⟨slippedOrders, _, h⟩ := bind_eq_ok.mp h
  rw [hopts, if_pos rfl, if_pos rfl] at h
  split at h
  · exact .inl (hmap h)
  split at h
  · exact .inl (hmap h)
  split at h
  · exact .inl (hmap h)
  split at h
  · exact .inl (hmap h)
  split at h
  · -- RFQ orders are filled directly only where no ETH is sold
    rename_i hrfq
    exact absurd hrfq.2.2.1 Bool.false_ne_true
  split at h
  · exact .inl (hmap h)
  split at h
  · exact .inr (hmap h)
  split at h
  · exact .inr (hmap h)
  · obtain ⟨_, _, h⟩ := bind_eq_ok.mp h
    cases h
    right
    show (quote.worstCaseQuoteInfo.protocolFeeInWeiAmount.plus
      (if opts.isFromETH then (getSwapContext quote opts).sellAmount else 0)) = _
    rw [hopts, if_pos rfl]

/-- The call of a quote that sells ETH needs what the worst case takes. -/
theorem ethAmount_of_takesNoLess
    (hquote : TakesNoLess quote.worstCaseQuoteInfo quote.bestCaseQuoteInfo)
    (hopts : opts.isFromETH = true) {info : CalldataInfo}
    (h : consumer.getCalldataOrThrow quote opts = .ok info) :
    info.ethAmount = quote.worstCaseQuoteInfo.takerAmount := by
  have hsell : (getSwapContext quote opts).sellAmount = quote.worstCaseQuoteInfo.takerAmount := by
    obtain ⟨b, w, hb, hw, _, hle⟩ := hquote.total_le
    show quote.bestCaseQuoteInfo.totalTakerAmount.max quote.worstCaseQuoteInfo.totalTakerAmount = _
    rw [hb, ← hquote.total_eq, hw, max_fin, max_eq_right hle]
  obtain ⟨_, w, _, hw, _⟩ := hquote.total_le
  rcases ethAmount_of_fromETH hopts h with hamount | hamount
  · rw [hamount, hsell]
  · rw [hamount, hsell, hquote.worstProtocolFee, ← hquote.total_eq, hw, plus_fin, zero_add]

end Calldata

/-! ## The value -/

/-- For every path of fills without fees in the taker token, on either side, and its quote for any
amount, gas price, gas schedule and slippage that is not negative: whichever call the consumer
makes to sell ETH, the value of the transaction is the amount of ETH that the call needs.  It is at
least what the best case takes in total and its protocol fee. -/
theorem value_eq_ethAmount {path : Path}
    (hfills : ∀ fill ∈ path.fills, FreeFill path.context.side fill) {makerAmountPerEth : BigNumber}
    {makerToken takerToken : String} {assetFillAmount gasPrice : ℚ} {gasSchedule : GasSchedule}
    {slippage : ℚ} (h₀ : 0 ≤ slippage) {quote : PricedSwapQuote}
    (hquote : createSwapQuote path makerAmountPerEth makerToken takerToken path.context.side
      (.fin assetFillAmount) (.fin gasPrice) gasSchedule slippage = .ok quote.toSwapQuote)
    {params : GetSwapQuoteParams} (hsell : params.isETHSell = true)
    {opts : ExchangeProxyContractOpts}
    (hopts : opts.isFromETH = params.isETHSell) (gaslessSwapFeeEnabled : Bool)
    (sellTokenFeeAmount : BigNumber) (consumer : ExchangeProxySwapQuoteConsumer) :
    let response := apiSwapQuote gaslessSwapFeeEnabled params quote sellTokenFeeAmount
    (∀ info, consumer.getCalldataOrThrow quote.toSwapQuote opts = .ok info →
      info.ethAmount = response.value) ∧
      (response.value.gte (quote.bestCaseQuoteInfo.totalTakerAmount.plus
        quote.bestCaseQuoteInfo.protocolFeeInWeiAmount)) = true := by
  have hcases := createSwapQuote_takesNoLess hfills h₀ hquote
  obtain ⟨b, w, hb, hw, _, hle⟩ := hcases.total_le
  have htaker : quote.worstCaseQuoteInfo.takerAmount = .fin w := hcases.total_eq.symm.trans hw
  have hvalue : (apiSwapQuote gaslessSwapFeeEnabled params quote sellTokenFeeAmount).value =
      .fin w := by
    show (if params.isETHSell then quote.worstCaseQuoteInfo.protocolFeeInWeiAmount.plus
      quote.worstCaseQuoteInfo.takerAmount else _) = _
    rw [hsell, if_pos rfl, hcases.worstProtocolFee, htaker, plus_fin, zero_add]
  constructor
  · intro info hinfo
    rw [hvalue, ← htaker]
    exact ethAmount_of_takesNoLess hcases (hopts.trans hsell) hinfo
  · rw [hvalue, hb, hcases.bestProtocolFee, plus_fin, add_zero, gte_fin]
    exact decide_eq_true hle

/-! ### A buy with ETH over a pool and two hops -/

/-- A fill over a pool and one over two hops. -/
def freeFills : List Fill := mixedFills.tail

theorem freeFills_free (side : MarketOperation) : ∀ fill ∈ freeFills, FreeFill side fill := by
  intro fill hfill
  have hsound := mixedFills_sound fill (List.mem_of_mem_tail hfill)
  obtain ⟨o, ho, ho₁⟩ := hsound.output
  refine ⟨hsound.input, fun _ => ⟨o, ho, by linarith⟩, ?_⟩
  intro nativeOrder hdata
  simp only [freeFills, mixedFills, List.tail_cons, List.mem_cons, List.not_mem_nil,
    or_false] at hfill
  rcases hfill with rfl | rfl
  · cases hdata
  · cases hdata

/-- The quote of a buy of 150 at a slippage of a tenth, on the side of the path. -/
def freeQuote (path : Path) : Except JsError SwapQuote :=
  createSwapQuote path (.fin 0) "output" "input" path.context.side (.fin 150) (.fin 5)
    (fun _ _ => 1) (1 / 10)

def fromETH : ExchangeProxyContractOpts := ⟨true, false, [], [], none, "", none, false⟩

/-- A buy with ETH. -/
def ethBuy : GetSwapQuoteParams where
  sellAmount := none
  buyAmount := some (.fin 150)
  isETHSell := true
  affiliateFee := ⟨.none, "recipient", 0, 0⟩
  isQuote := false
  priceImpactProtectionPercentage := 1

/-- A quote of tokens with 18 decimals. -/
def priced (quote : SwapQuote) : PricedSwapQuote := ⟨quote, 18, 18, .fin 1⟩

/-- There is a call for such a quote. -/
theorem exists_call : ∃ path quote info, (∀ fill ∈ path.fills, FreeFill path.context.side fill) ∧
    freeQuote path = .ok quote ∧
      ExchangeProxyOverhead.mainnetConsumer.getCalldataOrThrow quote fromETH = .ok info := by
  obtain ⟨path, hpath, hcheck⟩ := exists_of_okAnd
    (show okAnd (Path.create ⟨.buy, "input", "output"⟩ freeFills (.fin 150)
        ⟨.fin 0, .fin 0, fun _ => .fin 0⟩)
      (fun path => okAnd (freeQuote path) fun quote =>
        okAnd (ExchangeProxyOverhead.mainnetConsumer.getCalldataOrThrow quote fromETH)
          fun _ => true) = true by decide +kernel)
  obtain ⟨quote, hquote, hcheck⟩ := exists_of_okAnd hcheck
  obtain ⟨info, hinfo, _⟩ := exists_of_okAnd hcheck
  refine ⟨path, quote, info, ?_, hquote, hinfo⟩
  rw [(Path.create_fields hpath).2]
  exact freeFills_free _

/-- The value of a transaction is what its call needs. -/
theorem ethBuy_value : ∃ (quote : PricedSwapQuote) (info : CalldataInfo),
    ExchangeProxyOverhead.mainnetConsumer.getCalldataOrThrow quote.toSwapQuote fromETH = .ok info ∧
      info.ethAmount = (apiSwapQuote false ethBuy quote (.fin 0)).value := by
  obtain ⟨path, quote, info, hfills, hquote, hinfo⟩ := exists_call
  have hslippage : (0 : ℚ) ≤ 1 / 10 := by norm_num
  have hpriced : createSwapQuote path (.fin 0) "output" "input" path.context.side
      (.fin 150) (.fin 5)
      (fun _ _ => 1) (1 / 10) = .ok (priced quote).toSwapQuote := hquote
  obtain ⟨hvalue, _⟩ := value_eq_ethAmount hfills hslippage hpriced
    (show ethBuy.isETHSell = true from rfl) (show fromETH.isFromETH = ethBuy.isETHSell from rfl)
    false (.fin 0) ExchangeProxyOverhead.mainnetConsumer
  exact ⟨priced quote, info, hinfo, hvalue info hinfo⟩

end ZeroExApi.EthValue
