/-
# ZeroExApi.RfqFillAmounts — what each order of an RFQ call is asked for

On the RFQ route of `quote_consumers/exchange_proxy_swap_quote_consumer.ts` the orders of a quote go
into the call with an amount to fill each (`fillAmountPerOrder`).  These are the shares of a greedy
fill of the amount to sell over the taker amounts (`fillAmountPerOrder_eq`), so what is known of one
is known of the other.
-/

import ZeroExApi.ExchangeProxyOverhead
import ZeroExApi.Lib.GreedyFill
import ZeroExApi.MultiplexBatch

namespace ZeroExApi.RfqFillAmounts

open ZeroExApi.Lib ZeroExApi.Lib.BigNumber ZeroExApi.Lib.Fallible ZeroExApi.Lib.GreedyFill
open ZeroExApi.QuoteConsumerUtils ZeroExApi.ExchangeProxySwapQuoteConsumer

/-! ## A greedy fill -/

/-- Amounts that fill orders greedily: each is within the taker amount of its order, one that is not
zero has only orders before it that are filled whole, and together they are the amount to sell, or
all taker amounts where these are less. -/
structure FillsGreedily (orders : List OptimizedOrder) (sellAmount : BigNumber)
    (fillAmounts : List BigNumber) : Prop where
  within : List.Forall₂ (fun fillAmount order => AmountLe fillAmount order.takerAmount) fillAmounts
    orders
  full_before : (fillAmounts.zip orders).Pairwise fun before after =>
    after.1 ≠ ZERO_AMOUNT → before.1 = before.2.takerAmount
  sum_eq : sumAmounts fillAmounts =
    sellAmount.min (sumAmounts (orders.map OptimizedOrder.takerAmount))

/-- The loop computes a greedy fill. -/
theorem fillAmountPerOrder_eq {orders : List OptimizedOrder}
    (htaker : ∀ o ∈ orders, IsAmount o.takerAmount) (remaining : ℚ) :
    fillAmountPerOrder orders (fin remaining) =
      (greedyFill (orders.map fun o => o.takerAmount.toRat) remaining).map fin := by
  induction orders generalizing remaining with
  | nil => rfl
  | cons order orders ih =>
    rw [List.forall_mem_cons] at htaker
    rw [fillAmountPerOrder, htaker.1.eq_fin, min_fin, minus_fin, ih htaker.2]
    rfl

theorem fillAmountPerOrder_greedy {orders : List OptimizedOrder} {sellAmount : BigNumber}
    (htaker : ∀ o ∈ orders, IsAmount o.takerAmount) (hsell : IsAmount sellAmount) :
    FillsGreedily orders sellAmount (fillAmountPerOrder orders sellAmount) := by
  have hcap : ∀ c ∈ orders.map fun o => o.takerAmount.toRat, 0 ≤ c := by
    intro c hc
    obtain ⟨o, ho, rfl⟩ := List.mem_map.mp hc
    exact (htaker o ho).toRat_nonneg
  have htakerAmounts : orders.map OptimizedOrder.takerAmount =
      (orders.map fun o => o.takerAmount.toRat).map fin := by
    rw [List.map_map]
    exact List.map_congr_left fun o ho => (htaker o ho).eq_fin
  rw [hsell.eq_fin, fillAmountPerOrder_eq htaker]
  constructor
  · have hwithin := greedyFill_within hcap hsell.toRat_nonneg
    rw [List.forall₂_map_right_iff] at hwithin
    rw [List.forall₂_map_left_iff]
    refine (((List.forall₂_and_left _ _).mpr ⟨htaker, hwithin.flip⟩).imp ?_).flip
    rintro order fill ⟨horder, hnonneg, hle⟩
    exact ⟨fill, order.takerAmount.toRat, rfl, horder.eq_fin, hnonneg, hle⟩
  · have hfull := greedyFill_full_before hcap sellAmount.toRat
    rw [List.zip_map_right, List.pairwise_map] at hfull
    rw [List.zip_map_left, List.pairwise_map]
    refine hfull.imp_of_mem ?_
    rintro ⟨fill, order⟩ ⟨fill', order'⟩ hmem _ hbefore htakes
    have horder := htaker order (List.of_mem_zip hmem).2
    have heq : fill = order.takerAmount.toRat :=
      hbefore fun hzero => htakes (congrArg fin hzero)
    exact (congrArg fin heq).trans horder.eq_fin.symm
  · have hsum : ∀ qs : List ℚ, sumAmounts (qs.map fin) = fin qs.sum := by
      intro qs
      have h := sumAmounts_fin id qs
      rwa [List.map_id] at h
    rw [htakerAmounts, hsum, hsum, min_fin, sum_greedyFill hcap hsell.toRat_nonneg]

/-! ## The route -/

/-- The quote takes the RFQ route: its slipped orders are all RFQ orders, nothing asks for a
transformERC20 or for ETH, and no route before it is taken. -/
def TakesRfqRoute (consumer : ExchangeProxySwapQuoteConsumer) (quote : SwapQuote)
    (opts : ExchangeProxyContractOpts) (slippedOrders : List OptimizedOrder) : Prop :=
  (consumer.chainId ∈ [ChainId.mainnet, .polygon] ∧ opts.isToETH = false ∧ opts.isFromETH = false ∧
      (∀ o ∈ slippedOrders, o.type = .rfq) ∧ requiresTransformERC20 opts = false) ∧
    ¬ (consumer.chainId = .mainnet ∧
      isDirectSwapCompatible quote.path opts [.uniswapV2, .sushiSwap] = true) ∧
    ¬ (consumer.chainId = .mainnet ∧ isDirectSwapCompatible quote.path opts [.uniswapV3] = true) ∧
    ¬ (consumer.chainId = .mainnet ∧ isDirectSwapCompatible quote.path opts [.curve] = true ∧
      consumer.mainnetFeeToken ∉ [quote.takerToken, quote.makerToken])

instance (consumer : ExchangeProxySwapQuoteConsumer) (quote : SwapQuote)
    (opts : ExchangeProxyContractOpts) (slippedOrders : List OptimizedOrder) :
    Decidable (TakesRfqRoute consumer quote opts slippedOrders) :=
  inferInstanceAs (Decidable (_ ∧ _))

/-- The amounts an RFQ call asks its orders for. -/
def rfqFillAmounts : Calldata → Option (List BigNumber)
  | .fillRfqOrder _ _ fillAmount => some [fillAmount]
  | .batchFillRfqOrders _ _ fillAmounts _ => some fillAmounts
  | _ => none

theorem rfqFillAmounts_of_rfqCalldata {context : SwapContext} {orders : List OptimizedOrder}
    {calldata : Calldata} (h : rfqCalldata context orders = .ok calldata) :
    rfqFillAmounts calldata = some (fillAmountPerOrder orders context.sellAmount) := by
  obtain ⟨data, _, h⟩ := bind_eq_ok.mp h
  dsimp only at h
  split at h
  · rename_i hfill _
    cases h
    rw [hfill]
    rfl
  · cases h
    rfl

variable {consumer : ExchangeProxySwapQuoteConsumer} {quote : SwapQuote}
  {opts : ExchangeProxyContractOpts} {slippedOrders : List OptimizedOrder}

theorem getCalldataOrThrow_of_rfqRoute
    (hslipped : quote.path.getSlippedOrders (getSwapContext quote opts).maxSlippage =
      .ok slippedOrders) (hroute : TakesRfqRoute consumer quote opts slippedOrders) :
    consumer.getCalldataOrThrow quote opts =
      (rfqCalldata (getSwapContext quote opts) slippedOrders).map fun c =>
        consumer.callInfo c ZERO_AMOUNT := by
  obtain ⟨⟨hchain, htoEth, hfromEth, htypes, hrequires⟩, hv2, hv3, hcurve⟩ := hroute
  have hbsc : ¬ consumer.chainId = .bsc := by
    intro h
    rw [h] at hchain
    exact absurd hchain (by decide)
  unfold getCalldataOrThrow
  dsimp only
  rw [hslipped, ok_bind, if_neg hv2, if_neg hv3, if_neg fun h => hbsc h.1, if_neg hcurve, if_pos]
  simp only [htoEth, hfromEth, hrequires, Bool.not_false, true_and, and_true, List.all_eq_true,
    beq_iff_eq]
  exact ⟨hchain, htypes⟩

/-- On the RFQ route the orders are filled greedily from the amount to sell, and the call asks them
for these amounts. -/
theorem rfqRoute_fillAmountPerOrder
    (hslipped : quote.path.getSlippedOrders (getSwapContext quote opts).maxSlippage =
      .ok slippedOrders) (hroute : TakesRfqRoute consumer quote opts slippedOrders)
    (htaker : ∀ o ∈ slippedOrders, IsAmount o.takerAmount)
    (hsell : IsAmount (getSwapContext quote opts).sellAmount) :
    FillsGreedily slippedOrders (getSwapContext quote opts).sellAmount
        (fillAmountPerOrder slippedOrders (getSwapContext quote opts).sellAmount) ∧
      ∀ info, consumer.getCalldataOrThrow quote opts = .ok info →
        rfqFillAmounts info.calldata =
          some (fillAmountPerOrder slippedOrders (getSwapContext quote opts).sellAmount) := by
  refine ⟨fillAmountPerOrder_greedy htaker hsell, ?_⟩
  intro info hinfo
  rw [getCalldataOrThrow_of_rfqRoute hslipped hroute] at hinfo
  cases hcalldata : rfqCalldata (getSwapContext quote opts) slippedOrders with
  | error e =>
    rw [hcalldata] at hinfo
    cases hinfo
  | ok calldata =>
    rw [hcalldata] at hinfo
    cases hinfo
    exact rfqFillAmounts_of_rfqCalldata hcalldata

/-! ### Two orders of ten for fifteen -/

/-- A sell of some fills. -/
def sellPath (fills : List Fill) (amount : ℕ) : Except JsError Path :=
  Path.create ⟨.sell, "input", "output"⟩ fills (.fin amount) ⟨.fin 0, .fin 0, fun _ => .fin 0⟩

theorem rfqRoute_fillAmountPerOrder_fifteen :
    ∃ quote slippedOrders info,
      FillsGreedily slippedOrders (getSwapContext quote {}).sellAmount
          (fillAmountPerOrder slippedOrders (getSwapContext quote {}).sellAmount) ∧
        ExchangeProxyOverhead.mainnetConsumer.getCalldataOrThrow quote {} = .ok info ∧
        rfqFillAmounts info.calldata = some [.fin 10, .fin 5] := by
  have hrun : okAnd (sellPath [MultiplexBatch.rfqFill, MultiplexBatch.rfqFill] 15) (fun path =>
      okAnd (createSwapQuote path (.fin 0) "output" "input" .sell (.fin 15) (.fin 0)
        (fun _ _ => 0) 0) fun quote =>
        okAnd (quote.path.getSlippedOrders (getSwapContext quote {}).maxSlippage)
            (fun slippedOrders =>
              decide (TakesRfqRoute ExchangeProxyOverhead.mainnetConsumer quote {} slippedOrders) &&
                decide (slippedOrders.map OptimizedOrder.takerAmount = [.fin 10, .fin 10])) &&
          decide ((getSwapContext quote {}).sellAmount = .fin 15) &&
            okAnd (ExchangeProxyOverhead.mainnetConsumer.getCalldataOrThrow quote {}) fun info =>
              decide (rfqFillAmounts info.calldata = some [.fin 10, .fin 5])) = true := by
    decide +kernel
  obtain ⟨path, _, hcheck⟩ := exists_of_okAnd hrun
  obtain ⟨quote, _, hcheck⟩ := exists_of_okAnd hcheck
  rw [Bool.and_eq_true, Bool.and_eq_true, decide_eq_true_iff] at hcheck
  obtain ⟨⟨hcheck, hsell⟩, hinfo⟩ := hcheck
  obtain ⟨slippedOrders, hslipped, hcheck⟩ := exists_of_okAnd hcheck
  rw [Bool.and_eq_true, decide_eq_true_iff, decide_eq_true_iff] at hcheck
  obtain ⟨hroute, htakerAmounts⟩ := hcheck
  obtain ⟨info, hinfo, hamounts⟩ := exists_of_okAnd hinfo
  have htaker : ∀ o ∈ slippedOrders, IsAmount o.takerAmount := by
    intro o ho
    have hmem := List.mem_map_of_mem (f := OptimizedOrder.takerAmount) ho
    rw [htakerAmounts] at hmem
    have hten : o.takerAmount = .fin 10 := by simpa using hmem
    exact ⟨10, hten, by norm_num⟩
  have hfills := rfqRoute_fillAmountPerOrder hslipped hroute htaker ⟨15, hsell, by norm_num⟩
  exact ⟨quote, slippedOrders, info, hfills.1, hinfo, of_decide_eq_true hamounts⟩

end ZeroExApi.RfqFillAmounts
