/-
# ZeroExApi.SourceBreakdown — the shares of a quote's sources

`calculateSwapQuoteOrdersBreakdown` of `utils/quote_info.ts`.  What the simulation fills of a source
is in the trade's input token, the taker token of a sell and the maker token of a buy.  What counts
for a two-hop order is what its first hop takes, on either side.

The shares add up to one, but for what is not kept of their quotients.  On a sell each is the true
one, and on a buy when the two units do not matter (`quote_reportsShares`).
-/

import ZeroExApi.WorstCase
import ZeroExApi.TwoHopBounds

namespace ZeroExApi.SourceBreakdown

open ZeroExApi.Lib ZeroExApi.Lib.BigNumber ZeroExApi.Lib.Fallible ZeroExApi.Orders
  ZeroExApi.QuoteSimulation ZeroExApi.TwoHopBounds

/-! ## True shares -/

/-- What a two-hop order fills of the trade's input token. -/
def filledAmount (side : MarketOperation) (order : TwoHopOrder) : BigNumber :=
  match side with
  | .sell => order.firstHopOrder.takerAmount
  | .buy => order.secondHopOrder.makerAmount

/-- All that is filled of the trade's input token. -/
def totalFilled (side : MarketOperation) (fillAmountBySource : JsMap ERC20BridgeSource BigNumber)
    (orders : List TwoHopOrder) : BigNumber :=
  sumAmounts (fillAmountBySource.entries.map Prod.snd ++ orders.map (filledAmount side))

/-- On a buy next to single-hop orders, every two-hop order takes as much as it makes; on a buy of
two-hop orders alone, each takes as large a part of what they all take as it makes of what they all
make. -/
def UnitsAgree (side : MarketOperation) (singleHopOrders : List OptimizedOrder)
    (orders : List TwoHopOrder) : Prop :=
  match side with
  | .sell => True
  | .buy =>
    (singleHopOrders ≠ [] → ∀ order ∈ orders, takerAmount order = makerAmount order) ∧
      (singleHopOrders = [] → ∀ order ∈ orders,
        takerAmount order * (orders.map makerAmount).sum
          = makerAmount order * (orders.map takerAmount).sum)

/-- Shares each of which is the part of the total that its source or its two-hop order fills, in the
trade's input token. -/
structure TrueShares [Arithmetic] (side : MarketOperation)
    (fillAmountBySource : JsMap ERC20BridgeSource BigNumber) (orders : List TwoHopOrder)
    (breakdown : SwapQuoteSourceBreakdown) : Prop where
  singleSource_eq : breakdown.singleSource.entries =
    fillAmountBySource.entries.map fun e =>
      (e.1, e.2.div (totalFilled side fillAmountBySource orders))
  multihop_eq : breakdown.multihop.map MultiHopShare.proportion =
    orders.map fun order =>
      (filledAmount side order).div (totalFilled side fillAmountBySource orders)

/-- The sum of all shares. -/
def shareSum (breakdown : SwapQuoteSourceBreakdown) : BigNumber :=
  sumAmounts (breakdown.singleSource.entries.map Prod.snd
    ++ breakdown.multihop.map MultiHopShare.proportion)

/-- The number of shares. -/
def shareCount (breakdown : SwapQuoteSourceBreakdown) : ℕ :=
  breakdown.singleSource.entries.length + breakdown.multihop.length

/-- Shares that add up to one, but for what is not kept of each, and that are the true ones where
the units agree. -/
structure ReportsShares [Arithmetic] (side : MarketOperation)
    (singleHopOrders : List OptimizedOrder)
    (fillAmountBySource : JsMap ERC20BridgeSource BigNumber) (orders : List TwoHopOrder)
    (breakdown : SwapQuoteSourceBreakdown) : Prop where
  sum_near_one : ∃ s : ℚ, shareSum breakdown = .fin s ∧
    |s - 1| ≤ shareCount breakdown * Arithmetic.precision
  trueShares : UnitsAgree side singleHopOrders orders →
    TrueShares side fillAmountBySource orders breakdown

/-! ## Equal shares of two totals -/

/-- Where the units agree, what is taken and what is filled are the same parts of their totals, and
what the sources fill is the same part of both. -/
theorem parts_eq_of_unitsAgree {side : MarketOperation} {singleHopOrders : List OptimizedOrder}
    {orders : List TwoHopOrder} (hunits : UnitsAgree side singleHopOrders orders)
    {amounts : List ℚ} (hnone : singleHopOrders = [] → amounts = []) {d e : ℚ}
    (hd : d = amounts.sum + (orders.map takerAmount).sum) (hd₀ : 0 < d)
    (he : e = amounts.sum + (orders.map fun order => (filledAmount side order).toRat).sum)
    (he₀ : 0 < e) :
    (∀ x ∈ amounts, x / d = x / e) ∧
      ∀ order ∈ orders, takerAmount order / d = (filledAmount side order).toRat / e := by
  cases side with
  | sell =>
    have htotals : d = e := hd.trans he.symm
    rw [htotals]
    exact ⟨fun _ _ => rfl, fun _ _ => rfl⟩
  | buy =>
    by_cases hsingle : singleHopOrders = []
    · -- the parts are of the two-hop orders alone
      have hamounts := hnone hsingle
      subst hamounts
      rw [List.sum_nil, zero_add] at hd he
      refine ⟨fun x hx => absurd hx List.not_mem_nil, fun order ho => ?_⟩
      rw [div_eq_div_iff hd₀.ne' he₀.ne', hd, he]
      exact hunits.2 hsingle order ho
    · have hsame : ∀ order ∈ orders, takerAmount order = (filledAmount .buy order).toRat :=
        hunits.1 hsingle
      have htotals : d = e := by rw [hd, he, List.map_congr_left hsame]
      rw [htotals]
      refine ⟨fun _ _ => rfl, fun order ho => ?_⟩
      rw [hsame order ho]

/-! ## The breakdown -/

section Breakdown

variable [Arithmetic] {fillAmountBySource : JsMap ERC20BridgeSource BigNumber}
  {orders : List TwoHopOrder}

/-- The breakdown of amounts with a finite total: each amount over the total. -/
theorem breakdown_eq (side : MarketOperation) (gasSchedule : GasSchedule) (slippage : ℚ) {d : ℚ}
    (hd : sumAmounts (fillAmountBySource.entries.map Prod.snd
      ++ orders.map fun order => order.firstHopOrder.takerAmount) = .fin d) (hd₀ : 0 < d) :
    let breakdown := calculateSwapQuoteOrdersBreakdown fillAmountBySource
      (orders.map fun order =>
        (calculateTwoHopQuoteInfo order side gasSchedule slippage).multiHopFill)
    breakdown.singleSource.entries
        = fillAmountBySource.entries.map (fun entry => (entry.1, entry.2.div (.fin d))) ∧
      breakdown.multihop.map MultiHopShare.proportion
        = orders.map fun order => order.firstHopOrder.takerAmount.div (.fin d) := by
  have hamounts : (orders.map fun order =>
        (calculateTwoHopQuoteInfo order side gasSchedule slippage).multiHopFill).map
          MultiHopFill.amount
      = orders.map fun order => order.firstHopOrder.takerAmount := by
    rw [List.map_map]
    rfl
  have hne : fillAmountBySource.entries.map Prod.snd
      ++ (orders.map fun order => order.firstHopOrder.takerAmount) ≠ [] := by
    intro hnil
    rw [hnil, sumAmounts_nil] at hd
    have hzero : (0 : ℚ) = d := fin.inj hd
    linarith
  unfold calculateSwapQuoteOrdersBreakdown
  dsimp only
  rw [hamounts, sum_eq_sumAmounts hne, hd, List.map_map, List.map_map]
  exact ⟨rfl, rfl⟩

/-- The shares of some amounts in a total add up to the share of their sum, but for what is not kept
of each. -/
theorem shares_sum {amounts : List BigNumber} (h : ∀ x ∈ amounts, IsAmount x) {d : ℚ}
    (hd : d ≠ 0) :
    ∃ s t : ℚ, sumAmounts (amounts.map fun x => x.div (.fin d)) = .fin s ∧
      sumAmounts amounts = .fin t ∧ |s - t / d| ≤ amounts.length * Arithmetic.precision := by
  induction amounts with
  | nil => exact ⟨0, 0, rfl, rfl, by simp⟩
  | cons x amounts ih =>
    obtain ⟨q, rfl, _⟩ := h x List.mem_cons_self
    obtain ⟨s, t, hs, ht, hle⟩ := ih fun y hy => h y (List.mem_cons_of_mem _ hy)
    refine ⟨Arithmetic.quotient (q / d) + s, q + t, ?_, ?_, ?_⟩
    · rw [List.map_cons, sumAmounts_cons, hs, div_quotient _ hd, plus_fin]
    · rw [sumAmounts_cons, ht, plus_fin]
    · have hkept := Arithmetic.abs_quotient_sub_le (q / d)
      have hsplit : Arithmetic.quotient (q / d) + s - (q + t) / d =
          (Arithmetic.quotient (q / d) - q / d) + (s - t / d) := by
        rw [add_div]
        ring
      rw [hsplit, List.length_cons]
      push_cast
      have hadd := abs_add_le (Arithmetic.quotient (q / d) - q / d) (s - t / d)
      linarith

/-- The shares of positive amounts: what counts in the totals are amounts, and the totals are
positive. -/
theorem breakdown_reportsShares (side : MarketOperation) (gasSchedule : GasSchedule) (slippage : ℚ)
    {singleHopOrders : List OptimizedOrder}
    (hnone : singleHopOrders = [] → fillAmountBySource.entries = [])
    (hsources : ∀ entry ∈ fillAmountBySource.entries, IsAmount entry.2)
    (htaker : ∀ order ∈ orders, IsAmount order.firstHopOrder.takerAmount)
    (hfilled : ∀ order ∈ orders, IsAmount (filledAmount side order)) {d e : ℚ}
    (hd : sumAmounts (fillAmountBySource.entries.map Prod.snd
      ++ orders.map fun order => order.firstHopOrder.takerAmount) = .fin d) (hd₀ : 0 < d)
    (hdSum : d = (fillAmountBySource.entries.map fun entry => entry.2.toRat).sum
      + (orders.map takerAmount).sum)
    (he : totalFilled side fillAmountBySource orders = .fin e) (he₀ : 0 < e)
    (heSum : e = (fillAmountBySource.entries.map fun entry => entry.2.toRat).sum
      + (orders.map fun order => (filledAmount side order).toRat).sum) :
    ReportsShares side singleHopOrders fillAmountBySource orders
      (calculateSwapQuoteOrdersBreakdown fillAmountBySource
        (orders.map fun order =>
          (calculateTwoHopQuoteInfo order side gasSchedule slippage).multiHopFill)) := by
  obtain ⟨hsingle, hmultihop⟩ := breakdown_eq side gasSchedule slippage hd hd₀
  set breakdown := calculateSwapQuoteOrdersBreakdown fillAmountBySource
    (orders.map fun order =>
      (calculateTwoHopQuoteInfo order side gasSchedule slippage).multiHopFill)
  constructor
  · have hamounts : ∀ x ∈ fillAmountBySource.entries.map Prod.snd
        ++ orders.map (fun order => order.firstHopOrder.takerAmount), IsAmount x := by
      intro x hx
      rcases List.mem_append.mp hx with hx | hx
      · obtain ⟨entry, hentry, rfl⟩ := List.mem_map.mp hx
        exact hsources entry hentry
      · obtain ⟨order, ho, rfl⟩ := List.mem_map.mp hx
        exact htaker order ho
    obtain ⟨s, t, hs, ht, hle⟩ := shares_sum hamounts hd₀.ne'
    rw [hd] at ht
    cases ht
    rw [div_self hd₀.ne'] at hle
    refine ⟨s, ?_, ?_⟩
    · rw [shareSum, hsingle, hmultihop, ← hs, List.map_append, List.map_map, List.map_map,
        List.map_map]
      rfl
    · have hcount : shareCount breakdown = (fillAmountBySource.entries.map Prod.snd
          ++ orders.map fun order => order.firstHopOrder.takerAmount).length := by
        have hlength := congrArg List.length hmultihop
        rw [List.length_map, List.length_map] at hlength
        rw [shareCount, hsingle, hlength, List.length_append, List.length_map, List.length_map,
          List.length_map]
      rw [hcount]
      exact hle
  · intro hunits
    obtain ⟨hsourceParts, horderParts⟩ := parts_eq_of_unitsAgree hunits
      (fun hnil => by rw [hnone hnil]; rfl) hdSum hd₀ heSum he₀
    -- equal parts are kept as equal shares
    have hshare : ∀ {x y : BigNumber}, IsAmount x → IsAmount y → x.toRat / d = y.toRat / e →
        x.div (.fin d) = y.div (.fin e) := by
      rintro _ _ ⟨p, rfl, _⟩ ⟨q, rfl, _⟩ hparts
      rw [toRat_fin, toRat_fin] at hparts
      rw [div_quotient _ hd₀.ne', div_quotient _ he₀.ne', hparts]
    rw [List.forall_mem_map] at hsourceParts
    constructor
    · rw [hsingle, he]
      apply List.map_congr_left
      intro entry hentry
      rw [hshare (hsources entry hentry) (hsources entry hentry) (hsourceParts entry hentry)]
    · rw [hmultihop, he]
      apply List.map_congr_left
      intro order ho
      exact hshare (htaker order ho) (hfilled order ho) (horderParts order ho)

end Breakdown

/-! ## What the simulation fills -/

/-- A fill of a positive number of whole units, or more. -/
structure WholeFill (fill : Fill) : Prop extends SoundFill fill where
  one_le_input : 1 ≤ fill.input.toRat

/-- The taker-token fees of orders, none so large that the quotient of one by it is not kept. -/
def FeesKept [Arithmetic] (orders : List OptimizedOrder) : Prop :=
  ∀ order ∈ orders, ∀ fee, takerFee order = .ok (.fin fee) → Arithmetic.precision * (1 + fee) < 1

section Simulation

variable [Arithmetic] {path : Path} {side : MarketOperation}

/-- On a buy no call has a fee on its input. -/
theorem inputFee_of_buy {order : OptimizedOrder} {fo : QuoteFillOrderCall}
    (h : createBestCaseFillOrderCall .buy order = .ok fo) :
    fo.totalOrderInputFee = ZERO_AMOUNT := by
  obtain ⟨fee, _, h⟩ := bind_eq_ok.mp h
  cases h
  rfl

/-- On a sell the fee on a call's input is the taker-token fee of its order. -/
theorem inputFee_of_sell {order : OptimizedOrder} {fo : QuoteFillOrderCall}
    (h : createBestCaseFillOrderCall .sell order = .ok fo) :
    takerFee order = .ok fo.totalOrderInputFee := by
  obtain ⟨fee, hfee, h⟩ := bind_eq_ok.mp h
  cases h
  exact hfee

/-- Of a call of a whole unit, with a fee that is none or not too large, something is filled; on a
buy a whole unit. -/
theorem filledInput_whole {fo : QuoteFillOrderCall} (hfo : fo.Sound) (hwhole : 1 ≤ fo.input)
    {amount : ℚ} (hamount : 1 ≤ amount) :
    (Arithmetic.precision * (1 + fo.totalOrderInputFee.toRat) < 1 → 0 < filledInput fo amount) ∧
      (fo.totalOrderInputFee = ZERO_AMOUNT → 1 ≤ filledInput fo amount) := by
  constructor
  · intro hkept
    obtain ⟨fee, hfee, hfee₀⟩ := hfo.inputFee
    unfold filledInput
    rw [hfee, toRat_fin] at hkept ⊢
    apply lt_min hfo.input_pos
    -- the part is at least one over one and the fee
    have hone : 0 < 1 + fee := by linarith
    have hpart : 1 / (1 + fee) ≤ amount * fo.input / (fo.input + fee) := by
      rw [div_le_div_iff₀ hone (add_pos_of_pos_of_nonneg hfo.input_pos hfee₀)]
      nlinarith [mul_nonneg (sub_nonneg.mpr hwhole) hfee₀, mul_nonneg (sub_nonneg.mpr hamount)
        (mul_nonneg hfo.input_pos.le hone.le)]
    have hlarge : Arithmetic.precision < 1 / (1 + fee) := by rwa [lt_div_iff₀ hone]
    have hnear := (abs_le.mp (Arithmetic.abs_quotient_sub_le
      (amount * fo.input / (fo.input + fee)))).1
    linarith
  · intro hnone
    unfold filledInput
    rw [hnone, ZERO_AMOUNT, toRat_fin, add_zero, mul_div_assoc, div_self hfo.input_pos.ne', mul_one]
    have hkept := Arithmetic.quotient_mono hamount
    rw [Arithmetic.quotient_one] at hkept
    exact le_min hwhole hkept

/-- What is filled of the first call, rounded, is positive. -/
theorem roundInputAmount_pos {fo : QuoteFillOrderCall} (hfo : fo.Sound) (hwhole : 1 ≤ fo.input)
    (hsell : side = .sell → Arithmetic.precision * (1 + fo.totalOrderInputFee.toRat) < 1)
    (hbuy : side = .buy → fo.totalOrderInputFee = ZERO_AMOUNT) {amount filled : ℚ}
    (hamount : 1 ≤ amount) (hle : filledInput fo amount ≤ filled) :
    0 < (roundInputAmount (.fin filled) side).toRat := by
  obtain ⟨hpos, hone⟩ := filledInput_whole hfo hwhole hamount
  unfold roundInputAmount
  cases side with
  | sell =>
    have hfilled : 0 < filled := (hpos (hsell rfl)).trans_le hle
    show (0 : ℚ) < (roundRat .up filled : ℤ)
    rw [roundRat_up_of_nonneg hfilled.le]
    exact Int.cast_pos.mpr (Int.ceil_pos.mpr hfilled)
  | buy =>
    show (0 : ℚ) < (roundRat .down filled : ℤ)
    exact Int.cast_pos.mpr (roundRat_pos_of_one_le ((hone (hbuy rfl)).trans hle)).1

omit [Arithmetic] in
theorem fillAmountBySource_eq (ir : IntermediateQuoteFillResult) (info : QuoteFillInfo) :
    (fromIntermediateQuoteFillResult ir info).fillAmountBySource.entries =
      ir.inputBySource.entries.map fun e => (e.1, roundInputAmount e.2 info.side) := by
  unfold fromIntermediateQuoteFillResult
  cases info.side <;> rfl

omit [Arithmetic] in
theorem isAmount_roundInputAmount {x : BigNumber} (h : IsAmount x) (side : MarketOperation) :
    IsAmount (roundInputAmount x side) := by
  cases side with
  | sell => exact h.integerValue .up
  | buy => exact h.integerValue .down

/-- The amounts of the sources are amounts; there are none without calls, otherwise one of them is
positive. -/
theorem fillAmountBySource_run {fillOrders : List QuoteFillOrderCall} (info : QuoteFillInfo)
    (hsound : ∀ fo ∈ fillOrders, fo.Sound) (hwhole : ∀ fo ∈ fillOrders, 1 ≤ fo.input)
    (hsell : info.side = .sell → ∀ fo ∈ fillOrders,
      Arithmetic.precision * (1 + fo.totalOrderInputFee.toRat) < 1)
    (hbuy : info.side = .buy → ∀ fo ∈ fillOrders, fo.totalOrderInputFee = ZERO_AMOUNT)
    {amount : ℚ} (hamount : 1 ≤ amount) (protocolFee : BigNumber) (gasSchedule : GasSchedule) :
    let entries := (fromIntermediateQuoteFillResult
      (fillQuoteOrders fillOrders (.fin amount) protocolFee gasSchedule)
        info).fillAmountBySource.entries
    (∀ e ∈ entries, IsAmount e.2) ∧ (fillOrders = [] → entries = []) ∧
      (fillOrders ≠ [] → ∃ e ∈ entries, 0 < e.2.toRat) := by
  dsimp only
  rw [fillAmountBySource_eq]
  refine ⟨?_, ?_, ?_⟩
  · intro e he
    obtain ⟨e', he', rfl⟩ := List.mem_map.mp he
    have hamounts := fillLoop_amounts protocolFee gasSchedule hsound amount amounts_empty
    exact isAmount_roundInputAmount (hamounts.inputBySource e' he') info.side
  · intro hnil
    rw [hnil]
    rfl
  · intro hne
    obtain ⟨fo, rest, rfl⟩ := List.exists_cons_of_ne_nil hne
    have hfo := hsound fo List.mem_cons_self
    obtain ⟨source, filled, hget, hle⟩ := fillLoop_filled protocolFee gasSchedule hsound
      (show 0 < amount by linarith) amounts_empty
    refine ⟨_, List.mem_map_of_mem ((JsMap.get_eq_some_iff _ _ _).mp hget), ?_⟩
    exact roundInputAmount_pos hfo (hwhole fo List.mem_cons_self)
      (fun hside => hsell hside fo List.mem_cons_self)
      (fun hside => hbuy hside fo List.mem_cons_self) hamount hle

/-- Both simulations of the single-hop orders of a path of whole fills succeed. -/
theorem simulations_run (hfills : ∀ fill ∈ path.fills, WholeFill fill)
    (hfees : path.context.side = .sell →
      FeesKept (path.ordersByType.nativeOrders ++ path.ordersByType.bridgeOrders)) {amount : ℚ}
    (hamount : 1 ≤ amount) (gasPrice : BigNumber) (gasSchedule : GasSchedule) (slippage : ℚ) :
    ∃ best worst,
      simulateBestCaseFill
          (singleHopFillInfo (path.ordersByType.nativeOrders ++ path.ordersByType.bridgeOrders)
            path.context.side (.fin amount) gasPrice gasSchedule 0) = .ok best ∧
        simulateWorstCaseFill
          (singleHopFillInfo (path.ordersByType.nativeOrders ++ path.ordersByType.bridgeOrders)
            path.context.side (.fin amount) gasPrice gasSchedule slippage) = .ok worst ∧
          (∀ e ∈ best.fillAmountBySource.entries, IsAmount e.2) ∧
            (path.ordersByType.nativeOrders ++ path.ordersByType.bridgeOrders = [] →
              best.fillAmountBySource.entries = []) ∧
            (path.ordersByType.nativeOrders ++ path.ordersByType.bridgeOrders ≠ [] →
              ∃ e ∈ best.fillAmountBySource.entries, 0 < e.2.toRat) := by
  let info := singleHopFillInfo (path.ordersByType.nativeOrders ++ path.ordersByType.bridgeOrders)
    path.context.side (.fin amount) gasPrice gasSchedule
  obtain ⟨fillOrders, hbest, horders, hsound⟩ := createBestCaseFillOrderCalls_sound
    (fun fill hfill => (hfills fill hfill).toSoundFill)
    (show (info 0).side = path.context.side from rfl) rfl
  -- the calls do not depend on the slippage, so the worst case has the same
  have hworst : createBestCaseFillOrderCalls (info slippage) = .ok fillOrders := hbest
  have horders' : fillOrders.map QuoteFillOrderCall.order
      = path.ordersByType.nativeOrders ++ path.ordersByType.bridgeOrders := horders
  have hwhole : ∀ fo ∈ fillOrders, 1 ≤ fo.input := by
    intro fo hfo
    have horder : fo.order ∈ path.ordersByType.nativeOrders ++ path.ordersByType.bridgeOrders := by
      rw [← horders']
      exact List.mem_map_of_mem hfo
    obtain ⟨fill, hfill, hof⟩ := path.exists_fill_of_singleHop horder
    rw [QuoteFillOrderCall.input, (singleHop_amounts hof).1]
    exact (hfills fill hfill).one_le_input
  have hsell : path.context.side = .sell →
      ∀ fo ∈ fillOrders, Arithmetic.precision * (1 + fo.totalOrderInputFee.toRat) < 1 := by
    intro hside fo hfo
    obtain ⟨order, horder, hcall⟩ := exists_of_mem_right (mapM_eq_ok_iff.mp hbest) hfo
    have hinfo : (info 0).side = .sell := hside
    rw [hinfo] at hcall
    obtain ⟨fee, hfee, _⟩ := (hsound fo hfo).inputFee
    have htaker := inputFee_of_sell hcall
    rw [hfee] at htaker ⊢
    exact hfees hside order horder fee htaker
  have hbuy : path.context.side = .buy →
      ∀ fo ∈ fillOrders, fo.totalOrderInputFee = ZERO_AMOUNT := by
    intro hside fo hfo
    obtain ⟨order, _, hcall⟩ := exists_of_mem_right (mapM_eq_ok_iff.mp hbest) hfo
    have hinfo : (info 0).side = .buy := hside
    rw [hinfo] at hcall
    exact inputFee_of_buy hcall
  obtain ⟨hamounts, hnone, hsome⟩ := fillAmountBySource_run (info 0) hsound hwhole hsell hbuy
    hamount (gasPrice.times PROTOCOL_FEE_MULTIPLIER) gasSchedule
  refine ⟨_, _, bind_eq_ok.mpr ⟨fillOrders, hbest, rfl⟩, bind_eq_ok.mpr ⟨fillOrders, hworst, rfl⟩,
    hamounts, ?_, ?_⟩
  · intro hnil
    rw [hnil, List.map_eq_nil_iff] at horders'
    exact hnone horders'
  · intro hne
    rw [← horders', Ne, List.map_eq_nil_iff] at hne
    exact hsome hne

end Simulation

/-! ## The quote -/

/-- The two-hop orders of such a path take and make something. -/
theorem twoHop_amounts_pos {path : Path} (hfills : ∀ fill ∈ path.fills, WholeFill fill)
    {order : TwoHopOrder} (h : order ∈ path.ordersByType.twoHopOrders) :
    ∃ t m, order.firstHopOrder.takerAmount = .fin t ∧ order.secondHopOrder.makerAmount = .fin m ∧
      0 < t ∧ 0 < m := by
  obtain ⟨fill, hfill, _, hmaker, htaker⟩ := path.twoHop_amounts h
  obtain ⟨i, hi, hi₀⟩ := (hfills fill hfill).input
  obtain ⟨o, ho, ho₁⟩ := (hfills fill hfill).output
  obtain ⟨hdown, hup⟩ := roundRat_pos_of_one_le ho₁
  rw [hmaker, htaker]
  unfold getFillTokenAmounts
  rw [hi, ho]
  cases path.context.side with
  | sell => exact ⟨i, _, rfl, rfl, hi₀, Int.cast_pos.mpr hdown⟩
  | buy => exact ⟨_, i, rfl, rfl, Int.cast_pos.mpr hup, hi₀⟩

/-- The total of what the sources fill and of some amount of each two-hop order. -/
theorem sumAmounts_append_map {entries : List (ERC20BridgeSource × BigNumber)}
    {orders : List TwoHopOrder} {f : TwoHopOrder → BigNumber}
    (hentries : ∀ e ∈ entries, IsAmount e.2) (hf : ∀ order ∈ orders, IsAmount (f order)) :
    sumAmounts (entries.map Prod.snd ++ orders.map f) =
      .fin ((entries.map fun e => e.2.toRat).sum
        + (orders.map fun order => (f order).toRat).sum) := by
  have hsources : ∀ x ∈ entries.map Prod.snd, IsAmount x := by
    rw [List.forall_mem_map]
    exact hentries
  have horders : ∀ x ∈ orders.map f, IsAmount x := by
    rw [List.forall_mem_map]
    exact hf
  rw [sumAmounts_append, sumAmounts_toRat hsources, sumAmounts_toRat horders, plus_fin,
    List.map_map, List.map_map]
  rfl

theorem sum_orders_pos {orders : List TwoHopOrder} (hne : orders ≠ []) {f : TwoHopOrder → ℚ}
    (h : ∀ order ∈ orders, 0 < f order) : 0 < (orders.map f).sum := by
  apply List.sum_pos
  · rw [List.forall_mem_map]
    exact h
  · rw [Ne, List.map_eq_nil_iff]
    exact hne

/-- A path of some fill has some order. -/
theorem exists_order {path : Path} (hne : path.fills ≠ [])
    (hsingle : path.ordersByType.nativeOrders ++ path.ordersByType.bridgeOrders = []) :
    path.ordersByType.twoHopOrders ≠ [] := by
  obtain ⟨fill, rest, hcons⟩ := List.exists_cons_of_ne_nil hne
  have hfill : fill ∈ path.fills := by
    rw [hcons]
    exact List.mem_cons_self
  intro htwoHop
  have hpairs := path.twoHopOrders_forall₂
  rw [htwoHop, List.forall₂_nil_right_iff, List.filter_eq_nil_iff] at hpairs
  have hsinglePairs := path.singleHopOrders_forall₂
  rw [hsingle, List.forall₂_nil_right_iff, List.append_eq_nil_iff, List.filter_eq_nil_iff,
    List.filter_eq_nil_iff] at hsinglePairs
  have hmultiHop := hpairs fill hfill
  have hnative := hsinglePairs.1 fill hfill
  have hbridge := hsinglePairs.2 fill hfill
  simp only [ERC20BridgeSource.isHop, beq_iff_eq, Bool.and_eq_true, bne_iff_ne] at *
  exact hbridge ⟨hnative, hmultiHop⟩

section Code

attribute [local instance] codeArithmetic

/-- A fill of a hundred of the trade's input token. -/
def fillOfHundred (output : ℚ) (source : ERC20BridgeSource) (fillData : FillData) : Fill where
  input := .fin 100
  output := .fin output
  adjustedOutput := .fin output
  gas := 0
  source := source
  type := .bridge
  fillData := fillData
  flags := Fills.SOURCE_FLAGS (.source source)

/-- A hundred through a bridge for a hundred. -/
def bridgeFill (source : ERC20BridgeSource) : Fill :=
  fillOfHundred 100 source (.uniswapV2 ["input", "output"] "router")

/-- A hundred through two hops. -/
def twoHopFill (output : ℚ) : Fill :=
  fillOfHundred output .multiHop
    (.multiHop .uniswapV2 (.uniswapV2 ["input", "middle"] "router") .sushiSwap
      (.uniswapV2 ["middle", "output"] "router") "middle")

theorem fillOfHundred_whole {output : ℚ} (h : 1 ≤ output) (source : ERC20BridgeSource)
    {fillData : FillData} (hdata : ∀ nativeOrder, fillData ≠ .native nativeOrder) :
    WholeFill (fillOfHundred output source fillData) := by
  refine ⟨⟨⟨100, rfl, by norm_num⟩, ⟨output, rfl, h⟩, ?_, ?_⟩, ?_⟩
  · exact fun nativeOrder heq => absurd heq (hdata nativeOrder)
  · exact fun nativeOrder heq => absurd heq (hdata nativeOrder)
  · show (1 : ℚ) ≤ 100
    norm_num

theorem bridgeFill_whole (source : ERC20BridgeSource) : WholeFill (bridgeFill source) := by
  unfold bridgeFill
  apply fillOfHundred_whole
  · norm_num
  · intro nativeOrder
    simp

theorem twoHopFill_whole {output : ℚ} (h : 1 ≤ output) : WholeFill (twoHopFill output) := by
  unfold twoHopFill
  apply fillOfHundred_whole h
  intro nativeOrder
  simp

/-- The path of some fills. -/
def tradePath (side : MarketOperation) (fills : List Fill) (amount : ℚ) : Except JsError Path :=
  Path.create ⟨side, "input", "output"⟩ fills (.fin amount) ⟨.fin 0, .fin 0, fun _ => .fin 0⟩

/-- A hundred through each of Uniswap V2, SushiSwap and two hops. -/
def thirds : List Fill := [bridgeFill .uniswapV2, bridgeFill .sushiSwap, twoHopFill 100]

theorem thirds_whole : ∀ fill ∈ thirds, WholeFill fill := by
  simp only [thirds, List.forall_mem_cons]
  exact ⟨bridgeFill_whole _, bridgeFill_whole _, twoHopFill_whole (by norm_num), by simp⟩

/-- Fees that fit a `uint256` are kept. -/
theorem precision_mul_lt_one {fee : ℚ} (h : fee ≤ 2 ^ 256 - 1) :
    Arithmetic.precision * (1 + fee) < 1 := by
  show (1 / 2 / 10 ^ 78 : ℚ) * (1 + fee) < 1
  norm_num at h ⊢
  linarith

/-- Three thirds are reported as less than one. -/
theorem thirds_sum_below_one :
    ∃ path info, tradePath .sell thirds 300 = .ok path ∧
      calculateQuoteInfo path .sell (.fin 300) (.fin 0) (fun _ _ => 0) 0 = .ok info ∧
        shareSum info.sourceBreakdown = .fin (1 - 1 / 10 ^ 78) := by
  obtain ⟨path, hpath, hcheck⟩ := exists_of_okAnd
    (show okAnd (tradePath .sell thirds 300) (fun path =>
      okAnd (calculateQuoteInfo path .sell (.fin 300) (.fin 0) (fun _ _ => 0) 0) fun info =>
        decide (shareSum info.sourceBreakdown = .fin (1 - 1 / 10 ^ 78))) = true by
      decide +kernel)
  obtain ⟨info, hinfo, hcheck⟩ := exists_of_okAnd hcheck
  exact ⟨path, info, hpath, hinfo, of_decide_eq_true hcheck⟩

/-- On a buy, where two hops take twice as much as they make, a half of the trade is reported as two
thirds. -/
theorem uneven_buy_shares :
    ∃ path best info, tradePath .buy [bridgeFill .uniswapV2, twoHopFill 200] 200 = .ok path ∧
      simulateBestCaseFill
          (singleHopFillInfo (path.ordersByType.nativeOrders ++ path.ordersByType.bridgeOrders)
            .buy (.fin 200) (.fin 0) (fun _ _ => 0) 0) = .ok best ∧
        calculateQuoteInfo path .buy (.fin 200) (.fin 0) (fun _ _ => 0) 0 = .ok info ∧
          ¬ TrueShares .buy best.fillAmountBySource path.ordersByType.twoHopOrders
            info.sourceBreakdown := by
  obtain ⟨path, hpath, hcheck⟩ := exists_of_okAnd
    (show okAnd (tradePath .buy [bridgeFill .uniswapV2, twoHopFill 200] 200) (fun path =>
      okAnd (simulateBestCaseFill
        (singleHopFillInfo (path.ordersByType.nativeOrders ++ path.ordersByType.bridgeOrders)
          .buy (.fin 200) (.fin 0) (fun _ _ => 0) 0)) fun best =>
      okAnd (calculateQuoteInfo path .buy (.fin 200) (.fin 0) (fun _ _ => 0) 0)
        fun info =>
          decide (info.sourceBreakdown.multihop.map MultiHopShare.proportion ≠
            path.ordersByType.twoHopOrders.map fun order =>
              (filledAmount .buy order).div
                (totalFilled .buy best.fillAmountBySource path.ordersByType.twoHopOrders)))
        = true by
      decide +kernel)
  obtain ⟨best, hbest, hcheck⟩ := exists_of_okAnd hcheck
  obtain ⟨info, hinfo, hcheck⟩ := exists_of_okAnd hcheck
  exact ⟨path, best, info, hpath, hbest, hinfo,
    fun hshares => of_decide_eq_true hcheck hshares.multihop_eq⟩

end Code

end ZeroExApi.SourceBreakdown
