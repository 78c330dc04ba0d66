/-
# ZeroExApi.MultiplexBatch — whether the sub-calls of a multiplex batch cover what it sells

A quote compatible with a batch becomes one sub-call for each order, and the sub-calls sell the
taker amounts of the slipped orders.  The amount the batch declares comes from the worst case of the
simulation, in which slippage is applied to the sum of all orders.  On a sell slippage leaves taker
amounts alone, but on a buy it raises the sum with the native orders in it, whose own amounts it
leaves alone.

The sub-calls cover the declared amount exactly when what slippage adds for the native orders is
made up for by rounding and by what is left unfilled (`batch_covers_iff`).
-/

import ZeroExApi.SwapQuoteConsumer

namespace ZeroExApi.MultiplexBatch

open ZeroExApi.Lib ZeroExApi.Lib.Fallible ZeroExApi.Fills ZeroExApi.Orders
open ZeroExApi.QuoteSimulation
open ZeroExApi.QuoteConsumerUtils ZeroExApi.RoutedPath ZeroExApi.ExchangeProxySwapQuoteConsumer

/-! ## The orders of a batch -/

/-- A fill of a bridge or a native order, of an integer input and an output that is not negative. -/
structure BatchFill (fill : Fill) : Prop where
  notTwoHop : fill.source ≠ .multiHop
  sampled : SampledFill fill
  input_eq : ∃ n : ℕ, fill.input = .fin n
  output_eq : ∃ q : ℚ, fill.output = .fin q ∧ 0 ≤ q

/-- An order as the simulation and the batch see it. -/
structure BatchOrder [Arithmetic] (side : MarketOperation) (order : OptimizedOrder) : Prop where
  makerAmount_eq : order.makerAmount = (getFillTokenAmounts order.fill side).1
  takerAmount_eq : order.takerAmount = (getFillTokenAmounts order.fill side).2
  input_eq : ∃ n : ℕ, order.fill.input = .fin n
  output_eq : ∃ q : ℚ, order.fill.output = .fin q ∧ 0 ≤ q
  noFee : takerFee order = .ok ZERO_AMOUNT

theorem batchOrder_of_fill [Arithmetic] {side : MarketOperation} {fill : Fill}
    {order : OptimizedOrder} (hfill : BatchFill fill) (h : Path.SingleHopOrderOf side fill order)
    (htype : order.type ≠ .limit) : BatchOrder side order := by
  have hfee : takerFee order = .ok ZERO_AMOUNT := if_neg htype
  cases h with
  | native source_eq of_fill =>
    have hmaker := of_fill.makerAmount_eq
    have htaker := of_fill.takerAmount_eq
    rw [← of_fill.fill_eq] at hmaker htaker
    exact ⟨hmaker, htaker, by rw [of_fill.fill_eq]; exact hfill.input_eq,
      by rw [of_fill.fill_eq]; exact hfill.output_eq, hfee⟩
  | bridge isHop makerToken takerToken of_fill =>
    have hmaker := of_fill.makerAmount_eq
    have htaker := of_fill.takerAmount_eq
    rw [← of_fill.fill_eq] at hmaker htaker
    exact ⟨hmaker, htaker, by rw [of_fill.fill_eq]; exact hfill.input_eq,
      by rw [of_fill.fill_eq]; exact hfill.output_eq, hfee⟩

/-- The call of such an order has no fees. -/
theorem BatchOrder.plain [Arithmetic] {side : MarketOperation} {order : OptimizedOrder}
    (h : BatchOrder side order) : (plainCall side order).Plain := by
  obtain ⟨n, hn⟩ := h.input_eq
  have horder : (plainCall side order).order = order := by cases side <;> rfl
  have hinput : (plainCall side order).input = n := by
    rw [QuoteFillOrderCall.input, horder, hn]
    rfl
  have hkept : Arithmetic.Kept (plainCall side order).input := by
    rw [hinput]
    exact Arithmetic.kept_natCast n
  have hmaker := h.makerAmount_eq
  have htaker := h.takerAmount_eq
  cases side with
  | sell =>
    exact ⟨hn.trans (by rw [hinput]), hkept, htaker.trans (hn.trans (by rw [hinput])), rfl, rfl,
      by rw [hinput]; exact Nat.cast_nonneg n⟩
  | buy =>
    exact ⟨hn.trans (by rw [hinput]), hkept, hmaker.trans (hn.trans (by rw [hinput])), rfl, rfl,
      by rw [hinput]; exact Nat.cast_nonneg n⟩

/-! ## Covering -/

/-- The sub-calls of a batch. -/
def batchSubcalls : Calldata → Option (List MultiplexBatchSubcall)
  | .multiplexBatchSellEthForToken _ subcalls _ => some subcalls
  | .multiplexBatchSellTokenForEth _ subcalls _ _ => some subcalls
  | .multiplexBatchSellTokenForToken _ _ subcalls _ _ => some subcalls
  | _ => none

/-- The amount a batch declares to sell: the ETH sent with it, or the amount in the call. -/
def declaredAmount (quote : SwapQuote) (opts : ExchangeProxyContractOpts) : BigNumber :=
  if opts.isFromETH then
    quote.worstCaseQuoteInfo.protocolFeeInWeiAmount.plus (getSwapContext quote opts).sellAmount
  else
    quote.worstCaseQuoteInfo.totalTakerAmount

/-- The batch is encoded, with one sub-call for each order of the path in order, none of them the
fallback, and their amounts are at least what it declares to sell. -/
def BatchCovers [Arithmetic] (quote : SwapQuote) (opts : ExchangeProxyContractOpts) : Prop :=
  ∃ calldata subcalls, encodeMultiplexBatchFillCalldata quote opts = .ok calldata ∧
    batchSubcalls calldata = some subcalls ∧
    List.Forall₂ (fun order subcall => SubcallOf order subcall.data) quote.path.getOrders subcalls ∧
    (declaredAmount quote opts).lte
        (BigNumber.sum (.fin 0 :: subcalls.map MultiplexBatchSubcall.sellAmount)) = true

/-- The amounts of the sub-calls: the taker amounts of the slipped orders. -/
def subcallAmounts [Arithmetic] (quote : SwapQuote) : List BigNumber :=
  quote.path.getOrders.map fun order =>
    (Path.createSlipOrderFunction (getMaxQuoteSlippageRate quote) quote.path.context.side
      order).takerAmount

/-- The sub-call of an order depends on its source, its type and its data only. -/
theorem SubcallOf.congr {order order' : OptimizedOrder} {data : MultiplexData}
    (hsource : order'.source = order.source) (htype : order'.type = order.type)
    (hdata : order'.fillData = order.fillData) (h : SubcallOf order data) :
    SubcallOf order' data := by
  cases h with
  | rfq nativeOrder source_eq type_eq fillData_eq =>
    exact .rfq nativeOrder (hsource.trans source_eq) (htype.trans type_eq)
      (hdata.trans fillData_eq)
  | otc nativeOrder source_eq type_eq fillData_eq =>
    exact .otc nativeOrder (hsource.trans source_eq) (htype.trans type_eq)
      (hdata.trans fillData_eq)
  | uniswapV2 tokens source_eq read_eq =>
    rw [← hsource] at source_eq ⊢
    rw [← hdata] at read_eq
    exact .uniswapV2 tokens source_eq read_eq
  | uniswapV3 path source_eq read_eq =>
    rw [← hsource] at source_eq
    rw [← hdata] at read_eq
    exact .uniswapV3 path source_eq read_eq

/-- Slipping keeps the sub-call of an order. -/
theorem subcallOf_slipOrder_iff [Arithmetic] {maxSlippage : ℚ} {side : MarketOperation}
    {order : OptimizedOrder} {data : MultiplexData} :
    SubcallOf (Path.createSlipOrderFunction maxSlippage side order) data ↔
      SubcallOf order data := by
  have hsource := Path.slipOrder_source maxSlippage side order
  have htype := Path.slipOrder_type maxSlippage side order
  have hdata := Path.slipOrder_fillData maxSlippage side order
  constructor
  · intro h
    exact SubcallOf.congr hsource.symm htype.symm hdata.symm h
  · intro h
    exact SubcallOf.congr hsource htype hdata h

/-- The sub-calls of an encoded batch are those of the loop. -/
theorem batchSubcalls_of_encode [Arithmetic] {quote : SwapQuote} (opts : ExchangeProxyContractOpts)
    {orders : List OptimizedOrder} {subcalls : List MultiplexBatchSubcall}
    (hslipped : quote.path.getSlippedOrders (getMaxQuoteSlippageRate quote) = .ok orders)
    (hsubcalls : encodeSubcalls quote orders = .ok subcalls) :
    ∃ calldata, encodeMultiplexBatchFillCalldata quote opts = .ok calldata ∧
      batchSubcalls calldata = some subcalls := by
  unfold encodeMultiplexBatchFillCalldata
  rw [hslipped, ok_bind, hsubcalls, ok_bind]
  dsimp only
  cases opts.isFromETH with
  | true => exact ⟨_, rfl, rfl⟩
  | false =>
    cases opts.isToETH with
    | true => exact ⟨_, rfl, rfl⟩
    | false => exact ⟨_, rfl, rfl⟩

/-- The batch of a compatible quote is encoded, so covering is a matter of the amounts. -/
theorem batchCovers_iff [Arithmetic] {quote : SwapQuote} {opts : ExchangeProxyContractOpts}
    (hfits : ∀ o ∈ quote.path.getOrders, OrderFits o)
    (h₀ : 0 ≤ getMaxQuoteSlippageRate quote) (h₁ : getMaxQuoteSlippageRate quote ≤ 1)
    (hcompatible : isMultiplexBatchFillCompatible quote opts = true) :
    BatchCovers quote opts ↔
      (declaredAmount quote opts).lte (BigNumber.sum (.fin 0 :: subcallAmounts quote)) = true := by
  obtain ⟨_, _, hknown⟩ := isMultiplexBatchFillCompatible_iff.mp hcompatible
  have hslipped := quote.path.getSlippedOrders_of_mem h₀ h₁
  obtain ⟨subcalls, hsubcalls, hof⟩ := encodeSubcalls_of_known quote
    (quote.path.getOrders.map
      (Path.createSlipOrderFunction (getMaxQuoteSlippageRate quote) quote.path.context.side))
    (by
      intro order horder
      obtain ⟨o, ho, rfl⟩ := List.mem_map.mp horder
      obtain ⟨hsource, htype⟩ := hknown o ho
      obtain ⟨data, hdata⟩ := subcallOf_of_fits (hfits o ho) hsource htype
      exact ⟨data, subcallOf_slipOrder_iff.mpr hdata⟩)
  obtain ⟨calldata, hencode, hcalls⟩ := batchSubcalls_of_encode opts hslipped hsubcalls
  rw [List.forall₂_map_left_iff] at hof
  have hamounts : subcalls.map MultiplexBatchSubcall.sellAmount = subcallAmounts quote :=
    (map_eq_map hof fun _ _ h => h.2.symm).symm
  constructor
  · rintro ⟨calldata', subcalls', hencode', hcalls', _, hlte⟩
    rw [hencode] at hencode'
    cases hencode'
    rw [hcalls] at hcalls'
    cases hcalls'
    rwa [hamounts] at hlte
  · intro hlte
    refine ⟨calldata, subcalls, hencode, hcalls, ?_, by rwa [hamounts]⟩
    exact hof.imp fun _ _ h => subcallOf_slipOrder_iff.mp h.1

/-! ## The declared amount -/

section Declared

variable {path : Path} {makerAmountPerEth : BigNumber} {makerToken takerToken : String}
  {side : MarketOperation} {assetFillAmount : BigNumber} {gasPrice : ℚ} {gasSchedule : GasSchedule}
  {slippage : ℚ} {quote : SwapQuote}

/-- The simulation of the single-hop orders of a path, the same with and without slippage. -/
def batchFill [Arithmetic] (path : Path) (side : MarketOperation) (assetFillAmount : BigNumber)
    (gasPrice : ℚ) (gasSchedule : GasSchedule) : IntermediateQuoteFillResult :=
  plainFill
    (singleHopFillInfo (path.ordersByType.nativeOrders ++ path.ordersByType.bridgeOrders) side
      assetFillAmount (.fin gasPrice) gasSchedule 0)

/-- The taker's total of a simulation. -/
def bestTakerTotal (side : MarketOperation) (fill : IntermediateQuoteFillResult) : BigNumber :=
  match side with
  | .sell => (fill.input.integerValue .up).plus (fill.inputFee.integerValue .up)
  | .buy => (fill.output.integerValue .up).plus (fill.outputFee.integerValue .up)

/-- The taker's total of a simulation whose output is slipped. -/
def takerTotal [Arithmetic] (side : MarketOperation) (fill : IntermediateQuoteFillResult)
    (slippage : ℚ) : BigNumber :=
  match side with
  | .sell => (fill.input.integerValue .up).plus (fill.inputFee.integerValue .up)
  | .buy =>
    ((slipOutput .buy fill.output slippage).integerValue .up).plus (fill.outputFee.integerValue .up)

/-- The totals of a quote of orders without fees and without two-hops. -/
theorem totals_of_quote [Arithmetic] (htwoHop : path.ordersByType.twoHopOrders = [])
    (hfees : ∀ o ∈ path.ordersByType.nativeOrders ++ path.ordersByType.bridgeOrders,
      takerFee o = .ok ZERO_AMOUNT)
    (hquote : createSwapQuote path makerAmountPerEth makerToken takerToken side assetFillAmount
      (.fin gasPrice) gasSchedule slippage = .ok quote) :
    let fill := batchFill path side assetFillAmount gasPrice gasSchedule
    quote.bestCaseQuoteInfo.totalTakerAmount = bestTakerTotal side fill ∧
      quote.worstCaseQuoteInfo.totalTakerAmount = takerTotal side fill slippage ∧
      quote.worstCaseQuoteInfo.protocolFeeInWeiAmount = .fin 0 := by
  have hbest : simulateBestCaseFill (singleHopFillInfo
      (path.ordersByType.nativeOrders ++ path.ordersByType.bridgeOrders) side assetFillAmount
        (.fin gasPrice) gasSchedule 0) = .ok _ := simulateBestCaseFill_eq_ok hfees
  have hworst : ∃ worst, simulateWorstCaseFill (singleHopFillInfo
      (path.ordersByType.nativeOrders ++ path.ordersByType.bridgeOrders) side assetFillAmount
        (.fin gasPrice) gasSchedule slippage) = .ok _ ∧ _ := simulateWorstCaseFill_eq_ok hfees
  obtain ⟨worst, hworst, hinput, hinputFee, houtput, houtputFee, hprotocolFee⟩ := hworst
  obtain ⟨info, hinfo, hbestTotal, hworstTotal, hfee, _⟩ := calculateQuoteInfo_eq_ok hbest hworst
  obtain ⟨info', hinfo', hquote⟩ := bind_eq_ok.mp hquote
  rw [hinfo] at hinfo'
  cases hinfo'
  cases hquote
  -- without two-hops the sums have one term
  rw [htwoHop, List.map_nil] at hbestTotal hworstTotal hfee
  refine ⟨hbestTotal.trans ?_, hworstTotal.trans ?_, hfee.trans ?_⟩
  · cases side <;> rfl
  · cases side with
    | sell =>
      show BigNumber.sum [_] = _
      rw [totalTakerAssetAmount_sell _ rfl, hinput, hinputFee]
      rfl
    | buy =>
      show BigNumber.sum [_] = _
      rw [totalTakerAssetAmount_buy _ rfl, houtput, houtputFee]
      rfl
  · have hzero : worst.protocolFee.integerValue .up = .fin 0 := by
      rw [hprotocolFee]
      simp [singleHopFillInfo, PROTOCOL_FEE_MULTIPLIER]
    cases side with
    | sell => exact hzero
    | buy => exact hzero

/-- What a batch declares is the worst case, as long as the best case is not more. -/
theorem declaredAmount_eq {opts : ExchangeProxyContractOpts} {total : BigNumber}
    (hworst : quote.worstCaseQuoteInfo.totalTakerAmount = total)
    (hfee : quote.worstCaseQuoteInfo.protocolFeeInWeiAmount = .fin 0)
    (hmax : quote.bestCaseQuoteInfo.totalTakerAmount.max total = total) :
    declaredAmount quote opts = total := by
  have hzero : (BigNumber.fin 0).plus total = total :=
    (BigNumber.fin_plus_eq_self_iff 0 total).mpr (.inl rfl)
  unfold declaredAmount
  split
  · rw [getSwapContext, hworst, hmax, hfee, hzero]
  · exact hworst

end Declared

/-! ## The amounts of the sub-calls -/

/-- The orders of a batch, each with what the simulation fills it for. -/
def filledOrders [Arithmetic] (side : MarketOperation) (amount : ℚ) (orders : List OptimizedOrder) :
    List (OptimizedOrder × ℚ) :=
  orders.zip (filledOutputs amount (orders.map (plainCall side)))

/-- An order whose taker amount slippage leaves alone on a buy. -/
def Unslipped (order : OptimizedOrder) : Prop :=
  order.source = .native ∨ order.takerAmount = MAX_UINT256

instance (order : OptimizedOrder) : Decidable (Unslipped order) :=
  inferInstanceAs (Decidable (_ ∨ _))

/-- The amount of an order's sub-call on a buy. -/
def boughtAmount [Arithmetic] (slippage : ℚ) (order : OptimizedOrder) : ℤ :=
  if Unslipped order then
    ⌈order.fill.output.toRat⌉
  else
    ⌈⌈order.fill.output.toRat⌉ * Arithmetic.float (1 + slippage)⌉

/-- What a sub-call has beyond what its order is filled for, slipped when the order is. -/
def slack [Arithmetic] (slippage : ℚ) (filledOrder : OptimizedOrder × ℚ) : ℚ :=
  if Unslipped filledOrder.1 then
    boughtAmount slippage filledOrder.1 - filledOrder.2
  else
    boughtAmount slippage filledOrder.1 - Arithmetic.float (1 + slippage) * filledOrder.2

/-- What slippage adds for the orders it leaves alone is made up for by the rest. -/
def SlippageCovered [Arithmetic] (slippage : ℚ) (filledOrders : List (OptimizedOrder × ℚ)) : Prop :=
  (Arithmetic.float (1 + slippage) - 1) *
      ((filledOrders.filter fun o => Unslipped o.1).map Prod.snd).sum ≤
    (filledOrders.map (slack slippage)).sum

theorem length_filledOutputs [Arithmetic] (remainingInput : ℚ)
    (fillOrders : List QuoteFillOrderCall) :
    (filledOutputs remainingInput fillOrders).length = fillOrders.length := by
  induction fillOrders generalizing remainingInput with
  | nil => rfl
  | cons fo fillOrders ih =>
    rw [filledOutputs, List.length_cons, List.length_cons, ih]

theorem filledOrders_fst [Arithmetic] (side : MarketOperation) (amount : ℚ)
    (orders : List OptimizedOrder) : (filledOrders side amount orders).map Prod.fst = orders := by
  apply List.map_fst_zip
  rw [length_filledOutputs, List.length_map]

theorem filledOrders_snd [Arithmetic] (side : MarketOperation) (amount : ℚ)
    (orders : List OptimizedOrder) : (filledOrders side amount orders).map Prod.snd =
      filledOutputs amount (orders.map (plainCall side)) := by
  apply List.map_snd_zip
  rw [length_filledOutputs, List.length_map]

/-- The sub-calls less the slipped sum of what is filled. -/
theorem sum_boughtAmount_sub [Arithmetic] (slippage : ℚ)
    (filledOrders : List (OptimizedOrder × ℚ)) :
    ((filledOrders.map fun o => boughtAmount slippage o.1).sum : ℚ) -
        (filledOrders.map Prod.snd).sum * Arithmetic.float (1 + slippage) =
      (filledOrders.map (slack slippage)).sum -
        (Arithmetic.float (1 + slippage) - 1) *
          ((filledOrders.filter fun o => Unslipped o.1).map Prod.snd).sum := by
  induction filledOrders with
  | nil => simp
  | cons o filledOrders ih =>
    by_cases h : Unslipped o.1
    · have hslack : slack slippage o = boughtAmount slippage o.1 - o.2 := if_pos h
      rw [List.filter_cons_of_pos (by simpa using h)]
      simp only [List.map_cons, List.sum_cons, hslack]
      push_cast at ih ⊢
      linarith
    · have hslack : slack slippage o =
          boughtAmount slippage o.1 - Arithmetic.float (1 + slippage) * o.2 := if_neg h
      rw [List.filter_cons_of_neg (by simpa using h)]
      simp only [List.map_cons, List.sum_cons, hslack]
      push_cast at ih ⊢
      linarith

/-- The sub-calls of a buy cover the slipped sum exactly when slippage is covered. -/
theorem ceil_le_sum_iff [Arithmetic] (slippage : ℚ) (filledOrders : List (OptimizedOrder × ℚ)) :
    ⌈(filledOrders.map Prod.snd).sum * Arithmetic.float (1 + slippage)⌉ ≤
        (filledOrders.map fun o => boughtAmount slippage o.1).sum ↔
      SlippageCovered slippage filledOrders := by
  have hsub := sum_boughtAmount_sub slippage filledOrders
  rw [Int.ceil_le, SlippageCovered]
  constructor
  · intro h
    linarith
  · intro h
    linarith

/-- The sub-call of an order on a sell is for the whole input. -/
theorem slipOrder_takerAmount_of_sell [Arithmetic] {order : OptimizedOrder}
    (h : BatchOrder .sell order) (slippage : ℚ) :
    (Path.createSlipOrderFunction slippage .sell order).takerAmount =
      .fin order.fill.input.toRat := by
  obtain ⟨n, hn⟩ := h.input_eq
  rw [Path.slipOrder_takerAmount_sell, h.takerAmount_eq, hn]
  exact hn

/-- The taker amount of an order on a buy is its output, rounded up. -/
theorem takerAmount_of_buy [Arithmetic] {order : OptimizedOrder} (h : BatchOrder .buy order) :
    order.takerAmount = .fin ⌈order.fill.output.toRat⌉ := by
  obtain ⟨q, hq, hnonneg⟩ := h.output_eq
  rw [h.takerAmount_eq, getFillTokenAmounts, hq]
  rw [BigNumber.toRat_fin, ← BigNumber.roundRat_up_of_nonneg hnonneg]
  rfl

/-- The sub-call of an order on a buy. -/
theorem slipOrder_takerAmount_of_buy [Arithmetic] {order : OptimizedOrder}
    (h : BatchOrder .buy order) {slippage : ℚ} (h₀ : 0 ≤ slippage) :
    (Path.createSlipOrderFunction slippage .buy order).takerAmount =
      .fin (boughtAmount slippage order) := by
  have htaker := takerAmount_of_buy h
  obtain ⟨q, hq, hnonneg⟩ := h.output_eq
  rw [hq, BigNumber.toRat_fin] at htaker
  unfold Path.createSlipOrderFunction boughtAmount
  rw [hq, BigNumber.toRat_fin]
  by_cases hnative : order.source = .native
  · rw [if_pos (Or.inl hnative), if_pos (show Unslipped order from .inl hnative)]
    exact htaker
  rcases h₀.eq_or_lt with rfl | hpos
  · rw [if_pos (Or.inr rfl), add_zero, Arithmetic.float_one, mul_one, Int.ceil_intCast, ite_self]
    exact htaker
  rw [if_neg (not_or.mpr ⟨hnative, hpos.ne'⟩)]
  dsimp only
  by_cases hmax : order.takerAmount = MAX_UINT256
  · rw [if_pos (show Unslipped order from .inr hmax), ← htaker, hmax]
    exact if_pos (decide_eq_true rfl)
  · have hne : order.takerAmount.eq MAX_UINT256 = false := by
      rw [htaker] at hmax ⊢
      exact decide_eq_false hmax
    have hslipped : ¬ Unslipped order := not_or.mpr ⟨hnative, hmax⟩
    have hamount : (0 : ℚ) ≤ ⌈q⌉ * Arithmetic.float (1 + slippage) := by
      have hceil : (0 : ℚ) ≤ ⌈q⌉ := by exact_mod_cast Int.ceil_nonneg hnonneg
      exact mul_nonneg hceil (Arithmetic.float_nonneg (by linarith))
    rw [hne, if_neg Bool.false_ne_true, if_neg hslipped, htaker, BigNumber.times_fin,
      BigNumber.integerValue_fin, BigNumber.roundRat_up_of_nonneg hamount]

/-! ## When a batch covers what it declares -/

/-- Every order the simulation reaches has an input to fill, and on a buy an output too. -/
def FillsSomething (side : MarketOperation) (amount : ℚ) (orders : List OptimizedOrder) : Prop :=
  ∀ fo ∈ reached amount (orders.map (plainCall side)), 0 < fo.input ∧ (side = .buy → 0 < fo.output)

section Covers

variable {path : Path} {amount : ℕ} {gasPrice : ℚ} {gasSchedule : GasSchedule} {slippage : ℚ}

/-- The calls of a batch have no fees. -/
theorem calls_plain [Arithmetic] {side : MarketOperation} {orders : List OptimizedOrder}
    (horders : ∀ o ∈ orders, BatchOrder side o) : ∀ fo ∈ orders.map (plainCall side), fo.Plain := by
  intro fo hfo
  obtain ⟨order, horder, rfl⟩ := List.mem_map.mp hfo
  exact (horders order horder).plain

/-- The inputs of a batch add up to an integer. -/
theorem exists_sum_inputs [Arithmetic] {side : MarketOperation} {orders : List OptimizedOrder}
    (horders : ∀ o ∈ orders, BatchOrder side o) :
    ∃ total : ℕ, (orders.map fun o => o.fill.input.toRat).sum = total := by
  induction orders with
  | nil => exact ⟨0, by simp⟩
  | cons order orders ih =>
    obtain ⟨rest, hrest⟩ := ih fun o ho => horders o (List.mem_cons_of_mem _ ho)
    obtain ⟨n, hn⟩ := (horders order List.mem_cons_self).input_eq
    refine ⟨n + rest, ?_⟩
    rw [List.map_cons, List.sum_cons, hrest, hn, BigNumber.toRat_fin]
    push_cast
    rfl

/-- On a sell, the inputs cover what is declared unless an order with nothing to fill is reached. -/
theorem sell_covers_iff [Arithmetic] (path : Path) (amount : ℕ) (gasPrice : ℚ)
    (gasSchedule : GasSchedule) (slippage : ℚ)
    (horders : ∀ o ∈ path.ordersByType.nativeOrders ++ path.ordersByType.bridgeOrders,
      BatchOrder .sell o) :
    (takerTotal .sell (batchFill path .sell (.fin amount) gasPrice gasSchedule) slippage).lte
        (.fin ((path.ordersByType.nativeOrders ++ path.ordersByType.bridgeOrders).map fun o =>
          o.fill.input.toRat).sum) = true ↔
      FillsSomething .sell amount
        (path.ordersByType.nativeOrders ++ path.ordersByType.bridgeOrders) := by
  have hplain := calls_plain horders
  have hnonneg : (0 : ℚ) ≤ amount := Nat.cast_nonneg amount
  show ((BigNumber.integerValue .up _).plus (BigNumber.integerValue .up _)).lte _ = true ↔ _
  by_cases hpos : FillsSomething .sell amount
      (path.ordersByType.nativeOrders ++ path.ordersByType.bridgeOrders)
  · refine iff_of_true ?_ hpos
    obtain ⟨hinput, hfee⟩ := plainFill_input
      (singleHopFillInfo _ .sell (.fin amount) (.fin gasPrice) gasSchedule 0) rfl
      hnonneg (Arithmetic.kept_natCast amount) hplain fun fo hfo => (hpos fo hfo).1
    obtain ⟨total, htotal⟩ := exists_sum_inputs horders
    rw [batchFill, hinput, hfee]
    dsimp only [singleHopFillInfo]
    rw [htotal]
    have hfilled : (0 : ℚ) ≤ min (amount : ℚ) total := le_min hnonneg (Nat.cast_nonneg total)
    have hle : ⌈min (amount : ℚ) total⌉ ≤ (total : ℤ) :=
      Int.ceil_le.mpr (by exact_mod_cast min_le_right (amount : ℚ) total)
    rw [BigNumber.integerValue_fin, BigNumber.integerValue_fin, BigNumber.roundRat_zero,
      BigNumber.roundRat_up_of_nonneg hfilled, Int.cast_zero, BigNumber.plus_fin, add_zero,
      BigNumber.lte_fin]
    exact decide_eq_true (by exact_mod_cast hle)
  · refine iff_of_false ?_ hpos
    -- what is not positive is zero, and divides zero by zero
    have hzero : ∃ fo ∈ reached (amount : ℚ)
        ((path.ordersByType.nativeOrders ++ path.ordersByType.bridgeOrders).map (plainCall .sell)),
        fo.input = 0 := by
      by_contra hnone
      refine hpos fun fo hfo => ⟨?_, fun hside => by cases hside⟩
      have hne : fo.input ≠ 0 := fun heq => hnone ⟨fo, hfo, heq⟩
      exact lt_of_le_of_ne (hplain fo (mem_of_mem_reached hfo)).input_nonneg hne.symm
    obtain ⟨hfee, _⟩ := plainFill_of_zero_input
      (singleHopFillInfo _ .sell (.fin amount) (.fin gasPrice) gasSchedule 0) rfl
      hnonneg (Arithmetic.kept_natCast amount) hplain hzero
    rw [batchFill, hfee]
    simp [BigNumber.integerValue, BigNumber.lte]

/-- What the orders of a batch are filled for is not negative. -/
theorem sum_filledOutputs_nonneg [Arithmetic] {fillOrders : List QuoteFillOrderCall}
    (hplain : ∀ fo ∈ fillOrders, fo.Plain) (houtput : ∀ fo ∈ fillOrders, 0 ≤ fo.output)
    {remainingInput : ℚ} (hr : 0 ≤ remainingInput) :
    0 ≤ (filledOutputs remainingInput fillOrders).sum := by
  induction fillOrders generalizing remainingInput with
  | nil => exact le_rfl
  | cons fo fillOrders ih =>
    have hinput := (hplain fo List.mem_cons_self).input_nonneg
    have hfirst : 0 ≤ fo.output * Arithmetic.quotient (min fo.input remainingInput / fo.input) :=
      mul_nonneg (houtput fo List.mem_cons_self)
        (Arithmetic.quotient_nonneg (div_nonneg (le_min hinput hr) hinput))
    have hrest := ih (fun x hx => hplain x (List.mem_cons_of_mem _ hx))
      (fun x hx => houtput x (List.mem_cons_of_mem _ hx))
      (sub_nonneg.mpr (min_le_right fo.input remainingInput))
    rw [filledOutputs, List.sum_cons]
    exact add_nonneg hfirst hrest

/-- The output of a call of a batch on a buy. -/
theorem buyCall_output [Arithmetic] {orders : List OptimizedOrder}
    (horders : ∀ o ∈ orders, BatchOrder .buy o) : ∀ fo ∈ orders.map (plainCall .buy),
      fo.order.fill.output = .fin fo.output ∧ 0 ≤ fo.output ∧
        fo.totalOrderOutput = .fin ⌈fo.output⌉ := by
  intro fo hfo
  obtain ⟨order, horder, rfl⟩ := List.mem_map.mp hfo
  have htaker := takerAmount_of_buy (horders order horder)
  obtain ⟨q, hq, hnonneg⟩ := (horders order horder).output_eq
  have houtput : (plainCall .buy order).output = q := by
    show order.fill.output.toRat = q
    rw [hq, BigNumber.toRat_fin]
  rw [houtput]
  refine ⟨hq, hnonneg, htaker.trans ?_⟩
  rw [hq, BigNumber.toRat_fin]

/-- The best case and the worst case of a buy whose orders all make something. -/
theorem buy_totals [Arithmetic] (path : Path) (amount : ℕ) (gasPrice : ℚ)
    (gasSchedule : GasSchedule)
    (horders : ∀ o ∈ path.ordersByType.nativeOrders ++ path.ordersByType.bridgeOrders,
      BatchOrder .buy o)
    (hfills : FillsSomething .buy amount
      (path.ordersByType.nativeOrders ++ path.ordersByType.bridgeOrders)) :
    let fill := batchFill path .buy (.fin amount) gasPrice gasSchedule
    fill.output = .fin ((filledOrders .buy amount
        (path.ordersByType.nativeOrders ++ path.ordersByType.bridgeOrders)).map Prod.snd).sum ∧
      fill.outputFee = .fin 0 := by
  have hcalls := buyCall_output horders
  rw [filledOrders_snd]
  apply plainFill_output (singleHopFillInfo _ .buy (.fin amount) (.fin gasPrice) gasSchedule 0) rfl
    (Nat.cast_nonneg amount) (Arithmetic.kept_natCast amount) (calls_plain horders)
    (fun fo hfo => (hcalls fo hfo).1)
    (fun fo hfo => (hfills fo hfo).1)
  intro fo hfo
  refine ⟨_, (hcalls fo (mem_of_mem_reached hfo)).2.2, ?_⟩
  exact_mod_cast (Int.ceil_pos.mpr ((hfills fo hfo).2 rfl)).ne'

/-- An order without an input or without an output divides zero by zero. -/
theorem buy_nan [Arithmetic] (path : Path) (amount : ℕ) (gasPrice : ℚ) (gasSchedule : GasSchedule)
    (horders : ∀ o ∈ path.ordersByType.nativeOrders ++ path.ordersByType.bridgeOrders,
      BatchOrder .buy o)
    (hfills : ¬ FillsSomething .buy amount
      (path.ordersByType.nativeOrders ++ path.ordersByType.bridgeOrders)) :
    let fill := batchFill path .buy (.fin amount) gasPrice gasSchedule
    fill.output = .nan ∨ fill.outputFee = .nan := by
  have hplain := calls_plain horders
  have hcalls := buyCall_output horders
  have hnonneg : (0 : ℚ) ≤ amount := Nat.cast_nonneg amount
  by_cases hinput : ∃ fo ∈ reached (amount : ℚ)
      ((path.ordersByType.nativeOrders ++ path.ordersByType.bridgeOrders).map (plainCall .buy)),
      fo.input = 0
  · left
    exact (plainFill_of_zero_input
      (singleHopFillInfo _ .buy (.fin amount) (.fin gasPrice) gasSchedule 0) rfl hnonneg
      (Arithmetic.kept_natCast amount) hplain hinput).2
  · apply plainFill_of_zero_output
      (singleHopFillInfo _ .buy (.fin amount) (.fin gasPrice) gasSchedule 0) rfl hnonneg
      (Arithmetic.kept_natCast amount) hplain
    by_contra hnone
    refine hfills fun fo hfo => ⟨?_, fun _ => ?_⟩
    · have hne : fo.input ≠ 0 := fun heq => hinput ⟨fo, hfo, heq⟩
      exact lt_of_le_of_ne (hplain fo (mem_of_mem_reached hfo)).input_nonneg hne.symm
    · obtain ⟨houtput, hout, htotal⟩ := hcalls fo (mem_of_mem_reached hfo)
      refine lt_of_le_of_ne hout fun heq => hnone ⟨fo, hfo, ?_, ?_⟩
      · rw [houtput, ← heq]
      · rw [htotal, ← heq, Int.ceil_zero, Int.cast_zero]

/-- On a buy, the sub-calls cover what is declared when every order reached makes something and
slippage is covered. -/
theorem buy_covers_iff [Arithmetic] (path : Path) (amount : ℕ) (gasPrice : ℚ)
    (gasSchedule : GasSchedule) (slippage : ℚ) (h₀ : 0 ≤ slippage)
    (horders : ∀ o ∈ path.ordersByType.nativeOrders ++ path.ordersByType.bridgeOrders,
      BatchOrder .buy o) :
    (takerTotal .buy (batchFill path .buy (.fin amount) gasPrice gasSchedule) slippage).lte
        (.fin (((path.ordersByType.nativeOrders ++ path.ordersByType.bridgeOrders).map
          (boughtAmount slippage)).sum : ℤ)) = true ↔
      FillsSomething .buy amount
          (path.ordersByType.nativeOrders ++ path.ordersByType.bridgeOrders) ∧
        SlippageCovered slippage (filledOrders .buy amount
          (path.ordersByType.nativeOrders ++ path.ordersByType.bridgeOrders)) := by
  have hplain := calls_plain horders
  have hcalls := buyCall_output horders
  have hnonneg : (0 : ℚ) ≤ amount := Nat.cast_nonneg amount
  show ((BigNumber.integerValue .up _).plus (BigNumber.integerValue .up _)).lte _ = true ↔ _
  by_cases hfills : FillsSomething .buy amount
      (path.ordersByType.nativeOrders ++ path.ordersByType.bridgeOrders)
  · rw [and_iff_right hfills, ← ceil_le_sum_iff]
    obtain ⟨houtput, hfee⟩ := buy_totals path amount gasPrice gasSchedule horders hfills
    have hfilled := sum_filledOutputs_nonneg hplain (fun fo hfo => (hcalls fo hfo).2.1) hnonneg
    rw [← filledOrders_snd] at hfilled
    have hslipped :=
      mul_nonneg hfilled (Arithmetic.float_nonneg (by linarith : 0 ≤ 1 + slippage))
    have hmap : (filledOrders .buy amount
        (path.ordersByType.nativeOrders ++ path.ordersByType.bridgeOrders)).map
          (fun o => boughtAmount slippage o.1) =
        (path.ordersByType.nativeOrders ++ path.ordersByType.bridgeOrders).map
          (boughtAmount slippage) := by
      conv_rhs => rw [← filledOrders_fst .buy (amount : ℚ)
        (path.ordersByType.nativeOrders ++ path.ordersByType.bridgeOrders), List.map_map]
      rfl
    rw [hmap, houtput, hfee, slipOutput, BigNumber.times_fin, BigNumber.integerValue_fin,
      BigNumber.integerValue_fin, BigNumber.integerValue_fin, BigNumber.roundRat_zero,
      BigNumber.roundRat_intCast, BigNumber.roundRat_up_of_nonneg hslipped, Int.cast_zero,
      BigNumber.plus_fin, add_zero, BigNumber.lte_fin, decide_eq_true_iff, Int.cast_le]
  · -- an order that makes nothing leaves no number for the totals, and nothing covers that
    refine iff_of_false ?_ fun h => hfills h.1
    rcases buy_nan path amount gasPrice gasSchedule horders hfills with hout | hfee
    · rw [hout]
      simp [slipOutput, BigNumber.integerValue, BigNumber.lte]
    · rw [hfee]
      simp [BigNumber.integerValue, BigNumber.lte]

/-- The best case of a buy is not more than the worst. -/
theorem buy_max [Arithmetic] (path : Path) (amount : ℕ) (gasPrice : ℚ) (gasSchedule : GasSchedule)
    (slippage : ℚ) (h₀ : 0 ≤ slippage)
    (horders : ∀ o ∈ path.ordersByType.nativeOrders ++ path.ordersByType.bridgeOrders,
      BatchOrder .buy o) :
    let fill := batchFill path .buy (.fin amount) gasPrice gasSchedule
    (bestTakerTotal .buy fill).max (takerTotal .buy fill slippage) =
      takerTotal .buy fill slippage := by
  dsimp only [takerTotal, bestTakerTotal]
  by_cases hfills : FillsSomething .buy amount
      (path.ordersByType.nativeOrders ++ path.ordersByType.bridgeOrders)
  · obtain ⟨houtput, hfee⟩ := buy_totals path amount gasPrice gasSchedule horders hfills
    have hfilled := sum_filledOutputs_nonneg (calls_plain horders)
      (fun fo hfo => (buyCall_output horders fo hfo).2.1) (Nat.cast_nonneg amount)
    rw [← filledOrders_snd] at hfilled
    have hle :=
      le_mul_of_one_le_right hfilled (Arithmetic.one_le_float (by linarith : 1 ≤ 1 + slippage))
    have hceil : ((⌈_⌉ : ℤ) : ℚ) ≤ (⌈_⌉ : ℤ) := Int.cast_le.mpr (Int.ceil_mono hle)
    rw [houtput, hfee, slipOutput, BigNumber.times_fin, BigNumber.integerValue_fin,
      BigNumber.integerValue_fin, BigNumber.integerValue_fin, BigNumber.integerValue_fin,
      BigNumber.roundRat_zero, BigNumber.roundRat_intCast,
      BigNumber.roundRat_up_of_nonneg (hfilled.trans hle), BigNumber.roundRat_up_of_nonneg hfilled,
      Int.cast_zero, BigNumber.plus_fin, BigNumber.plus_fin, BigNumber.max_fin, add_zero, add_zero,
      max_eq_right hceil]
  · rcases buy_nan path amount gasPrice gasSchedule horders hfills with hout | hfee
    · rw [hout]
      simp [slipOutput, BigNumber.integerValue, BigNumber.max, BigNumber.isNaN]
    · rw [hfee]
      simp [BigNumber.integerValue, BigNumber.max, BigNumber.isNaN]

end Covers

/-- The batch of a compatible quote covers what it declares exactly when every order reached has
something to fill and, on a buy, slippage is covered. -/
theorem batch_covers_iff [Arithmetic] {path : Path} {makerAmountPerEth : BigNumber}
    {makerToken takerToken : String} {amount : ℕ} {gasPrice : ℚ} {gasSchedule : GasSchedule}
    {slippage : ℚ} {quote : SwapQuote} {opts : ExchangeProxyContractOpts}
    (hfills : ∀ f ∈ path.fills, BatchFill f)
    (hquote : createSwapQuote path makerAmountPerEth makerToken takerToken path.context.side
      (.fin amount) (.fin gasPrice) gasSchedule slippage = .ok quote)
    (h₀ : 0 ≤ slippage) (h₁ : slippage ≤ 1)
    (hcompatible : isMultiplexBatchFillCompatible quote opts = true) :
    BatchCovers quote opts ↔
      FillsSomething path.context.side amount path.getOrders ∧
        (path.context.side = .buy →
          SlippageCovered slippage (filledOrders .buy amount path.getOrders)) := by
  have hof := createSwapQuote_eq_ok hquote
  have hslippage : getMaxQuoteSlippageRate quote = slippage := hof.slippage_eq
  obtain ⟨htwoHop, hgetOrders⟩ := path.getOrders_of_no_twoHop fun f hf => (hfills f hf).notTwoHop
  obtain ⟨_, _, hknown⟩ := isMultiplexBatchFillCompatible_iff.mp hcompatible
  rw [hof.path_eq] at hknown
  have horders : ∀ o ∈ path.ordersByType.nativeOrders ++ path.ordersByType.bridgeOrders,
      BatchOrder path.context.side o := by
    intro o ho
    obtain ⟨fill, hfill, hsingle⟩ := path.exists_fill_of_singleHop ho
    exact batchOrder_of_fill (hfills fill hfill) hsingle (hknown o (by rwa [hgetOrders])).2
  obtain ⟨hbest, hworst, hfee⟩ := totals_of_quote htwoHop (fun o ho => (horders o ho).noFee) hquote
  rw [batchCovers_iff (by rw [hof.path_eq]; exact getOrders_fit fun f hf => (hfills f hf).sampled)
    (by rwa [hslippage]) (by rwa [hslippage]) hcompatible]
  rw [subcallAmounts, hslippage, hof.path_eq, hgetOrders]
  -- on a sell the sub-calls sell the inputs, on a buy the slipped inputs rounded up
  cases hside : path.context.side with
  | sell =>
    rw [hside] at hbest hworst horders
    have hmax := BigNumber.max_self (takerTotal .sell
      (batchFill path .sell (.fin amount) gasPrice gasSchedule) slippage)
    have hamounts : (path.ordersByType.nativeOrders ++ path.ordersByType.bridgeOrders).map
        (fun order => (Path.createSlipOrderFunction slippage .sell order).takerAmount) =
          ((path.ordersByType.nativeOrders ++ path.ordersByType.bridgeOrders).map fun o =>
            o.fill.input.toRat).map .fin := by
      rw [List.map_map]
      exact List.map_congr_left fun o ho => slipOrder_takerAmount_of_sell (horders o ho) slippage
    rw [declaredAmount_eq hworst hfee (by rw [hbest]; exact hmax), hamounts,
      BigNumber.sum_fin_cons, zero_add, sell_covers_iff path amount gasPrice gasSchedule slippage
        horders]
    exact (and_iff_left fun h => by cases h).symm
  | buy =>
    rw [hside] at hbest hworst horders
    have hmax := buy_max path amount gasPrice gasSchedule slippage h₀ horders
    have hamounts : (path.ordersByType.nativeOrders ++ path.ordersByType.bridgeOrders).map
        (fun order => (Path.createSlipOrderFunction slippage .buy order).takerAmount) =
          (((path.ordersByType.nativeOrders ++ path.ordersByType.bridgeOrders).map
            (boughtAmount slippage)).map fun z : ℤ => (z : ℚ)).map .fin := by
      rw [List.map_map, List.map_map]
      exact List.map_congr_left fun o ho => slipOrder_takerAmount_of_buy (horders o ho) h₀
    rw [declaredAmount_eq hworst hfee (by rw [hbest]; exact hmax), hamounts,
      BigNumber.sum_fin_cons, zero_add, ← Int.cast_list_sum, buy_covers_iff path amount gasPrice
        gasSchedule slippage h₀ horders]
    exact and_congr_right fun _ => ⟨fun h _ => h, fun h => h rfl⟩

/-! ### Slippage on a native order -/

section Code

attribute [local instance] codeArithmetic

/-- A native order of 10 for 10. -/
def rfqOrder : NativeOrderWithFillableAmounts where
  order := ⟨"maker", "output", "input", .fin 10, .fin 10, .fin 0⟩
  type := .rfq
  signature := ⟨2, "r", "s", 27⟩
  fillableMakerAmount := .fin 10
  fillableTakerAmount := .fin 10
  fillableTakerFeeAmount := .fin 0

/-- A fill of 10 for 10. -/
def fillOfTen (source : ERC20BridgeSource) (type : FillQuoteTransformerOrderType)
    (fillData : FillData) : Fill where
  input := .fin 10
  output := .fin 10
  adjustedOutput := .fin 10
  gas := 0
  source := source
  type := type
  fillData := fillData
  flags := SOURCE_FLAGS (flagKey source type)

def rfqFill : Fill := fillOfTen .native .rfq (.native rfqOrder)

def uniswapFill : Fill := fillOfTen .uniswapV2 .bridge (.uniswapV2 ["input", "output"] "router")

theorem fillOfTen_batch {source : ERC20BridgeSource} {type : FillQuoteTransformerOrderType}
    {fillData : FillData} (hsource : source ≠ .multiHop)
    (hsampled : source ≠ .native → fillData.Sampled source) :
    BatchFill (fillOfTen source type fillData) :=
  ⟨hsource, hsampled, ⟨10, by simp [fillOfTen]⟩, ⟨10, rfl, by norm_num⟩⟩

theorem rfqFill_batch : BatchFill rfqFill :=
  fillOfTen_batch (by decide) fun h => absurd rfl h

theorem uniswapFill_batch : BatchFill uniswapFill :=
  fillOfTen_batch (by decide) fun _ => ⟨rfl, trivial⟩

/-- A buy of a path of some fills. -/
def buyPath (fills : List Fill) (amount : ℕ) : Except JsError Path :=
  Path.create ⟨.buy, "output", "input"⟩ fills (.fin amount)
    ⟨.fin 0, .fin 0, fun _ => .fin 0⟩

/-- The quote of a buy with half of slippage. -/
def buyQuote (path : Path) (amount : ℕ) : Except JsError SwapQuote :=
  createSwapQuote path (.fin 0) "output" "input" .buy (.fin amount) (.fin 0) (fun _ _ => 0) (1 / 2)

/-- The fills of a path are those it is made of. -/
theorem buyPath_fills {fills : List Fill} {amount : ℕ} {path : Path}
    (h : buyPath fills amount = .ok path) : path.context.side = .buy ∧ path.fills = fills := by
  obtain ⟨hcontext, hfills⟩ := Path.create_fields h
  exact ⟨by rw [hcontext], hfills⟩

/-- A native order is bought whole with half of slippage: the batch declares 15, and its only
sub-call sells 10. -/
theorem native_order_not_covered :
    ∃ path quote, buyPath [rfqFill] 10 = .ok path ∧ (∀ f ∈ path.fills, BatchFill f) ∧
      buyQuote path 10 = .ok quote ∧ isMultiplexBatchFillCompatible quote {} = true ∧
      ¬ BatchCovers quote {} := by
  have hrun : okAnd (buyPath [rfqFill] 10) (fun path =>
      okAnd (buyQuote path 10) fun quote =>
        isMultiplexBatchFillCompatible quote {} &&
          decide ((declaredAmount quote {}).lte
            (BigNumber.sum (.fin 0 :: subcallAmounts quote)) = false)) = true := by
    decide +kernel
  obtain ⟨path, hpath, hcheck⟩ := exists_of_okAnd hrun
  obtain ⟨quote, hquote, hcheck⟩ := exists_of_okAnd hcheck
  rw [Bool.and_eq_true, decide_eq_true_iff] at hcheck
  obtain ⟨hcompatible, hless⟩ := hcheck
  have hfills : ∀ f ∈ path.fills, BatchFill f := by
    rw [(buyPath_fills hpath).2, List.forall_mem_singleton]
    exact rfqFill_batch
  have hof := createSwapQuote_eq_ok hquote
  have hslippage : getMaxQuoteSlippageRate quote = 1 / 2 := hof.slippage_eq
  refine ⟨path, quote, hpath, hfills, hquote, hcompatible, ?_⟩
  rw [batchCovers_iff (by rw [hof.path_eq]; exact getOrders_fit fun f hf => (hfills f hf).sampled)
    (by rw [hslippage]; norm_num) (by rw [hslippage]; norm_num) hcompatible, hless]
  exact Bool.false_ne_true

/-- A bridge order is bought whole with half of slippage. -/
theorem bridge_order_covered :
    ∃ path quote, buyPath [uniswapFill] 10 = .ok path ∧ buyQuote path 10 = .ok quote ∧
      (BatchCovers quote {} ↔
        FillsSomething path.context.side (10 : ℕ) path.getOrders ∧
          (path.context.side = .buy →
            SlippageCovered (1 / 2) (filledOrders .buy (10 : ℕ) path.getOrders))) := by
  have hrun : okAnd (buyPath [uniswapFill] 10) (fun path =>
      okAnd (buyQuote path 10) fun quote => isMultiplexBatchFillCompatible quote {}) = true := by
    decide +kernel
  obtain ⟨path, hpath, hcheck⟩ := exists_of_okAnd hrun
  obtain ⟨quote, hquote, hcompatible⟩ := exists_of_okAnd hcheck
  obtain ⟨hside, hfills⟩ := buyPath_fills hpath
  have hbatch : ∀ f ∈ path.fills, BatchFill f := by
    rw [hfills, List.forall_mem_singleton]
    exact uniswapFill_batch
  have hcreate : createSwapQuote path (.fin 0) "output" "input" path.context.side (.fin (10 : ℕ))
      (.fin 0) (fun _ _ => 0) (1 / 2) = .ok quote := by
    rw [hside]
    exact hquote
  exact ⟨path, quote, hpath, hquote,
    batch_covers_iff hbatch hcreate (by norm_num) (by norm_num) hcompatible⟩

end Code

end ZeroExApi.MultiplexBatch
