/-
# ZeroExApi.SlippedOrders — the orders of a path at one slippage and at a larger one

`Path.getSlippedOrdersByType` and `Path.getSlippedOrders`.  Both slip an order with the same
function, one before the orders are put in a list and one after, so they agree.  The function leaves
every amount but one alone, and that one moves against the taker: a sell makes less and a buy takes
more, the more so at a larger slippage (`slipOrder_movesAgainst`).  Rounding is away from the taker
as well, so the shortcut at a slippage of zero, which does not round, is the mildest case.
-/

import ZeroExApi.WorstCase

namespace ZeroExApi

open ZeroExApi.Lib ZeroExApi.Lib.BigNumber ZeroExApi.Lib.Fallible ZeroExApi.Orders

/-- The orders of each kind in one list: native orders, bridge orders, then the hops of the two-hop
orders. -/
def OptimizedOrdersByType.flatten (ordersByType : OptimizedOrdersByType) : List OptimizedOrder :=
  ordersByType.nativeOrders ++ ordersByType.bridgeOrders ++
    ordersByType.twoHopOrders.flatMap fun twoHopOrder =>
      [twoHopOrder.firstHopOrder, twoHopOrder.secondHopOrder]

namespace SlippedOrders

open ZeroExApi.Path (createSlipOrderFunction)

/-! ## The amount that slips -/

/-- The amount of an order that slips: what it makes on a sell, what it takes on a buy. -/
def slippedAmount (side : MarketOperation) (order : OptimizedOrder) : BigNumber :=
  match side with
  | .sell => order.makerAmount
  | .buy => order.takerAmount

/-- An order with another amount in that place. -/
def withSlippedAmount (side : MarketOperation) (order : OptimizedOrder) (amount : BigNumber) :
    OptimizedOrder :=
  match side with
  | .sell => { order with makerAmount := amount }
  | .buy => { order with takerAmount := amount }

/-- The second amount is no better for the taker than the first one: no more is made on a sell, no
less is taken on a buy. -/
def Against (side : MarketOperation) (x y : BigNumber) : Prop :=
  match side with
  | .sell => AmountLe y x
  | .buy => AmountLe x y

theorem against_refl (side : MarketOperation) {x : BigNumber} (h : IsAmount x) :
    Against side x x := by
  cases side with
  | sell => exact h.refl
  | buy => exact h.refl

@[simp]
theorem withSlippedAmount_self (side : MarketOperation) (order : OptimizedOrder) :
    withSlippedAmount side order (slippedAmount side order) = order := by
  cases side <;> rfl

@[simp]
theorem slippedAmount_withSlippedAmount (side : MarketOperation) (order : OptimizedOrder)
    (amount : BigNumber) :
    slippedAmount side (withSlippedAmount side order amount) = amount := by
  cases side <;> rfl

/-! ## One order -/

/-- What a slippage makes of an amount that is not the sentinel. -/
def slipAmount (side : MarketOperation) (slippage : ℚ) (amount : BigNumber) : BigNumber :=
  match side with
  | .sell => (amount.times (.fin (1 - slippage))).integerValue .down
  | .buy => (amount.times (.fin (1 + slippage))).integerValue .up

/-- A native order does not slip, nor does any order at a slippage of zero. -/
theorem slipOrder_unchanged {slippage : ℚ} {side : MarketOperation} {order : OptimizedOrder}
    (h : order.source = .native ∨ slippage = 0) :
    createSlipOrderFunction slippage side order = order := if_pos h

/-- Any other order slips, unless its amount is the sentinel. -/
theorem slipOrder_eq {slippage : ℚ} {order : OptimizedOrder}
    (h : ¬ (order.source = .native ∨ slippage = 0)) (side : MarketOperation) :
    createSlipOrderFunction slippage side order =
      withSlippedAmount side order
        (if (slippedAmount side order).eq MAX_UINT256 then MAX_UINT256
          else slipAmount side slippage (slippedAmount side order)) := by
  unfold createSlipOrderFunction
  rw [if_neg h]
  cases side <;> rfl

/-- Only the sentinel is equal to it. -/
theorem eq_MAX_UINT256 {x : BigNumber} : x.eq MAX_UINT256 = true ↔ x = MAX_UINT256 := by
  rcases x with _ | b | q
  · exact iff_of_false Bool.false_ne_true (by simp [MAX_UINT256])
  · exact iff_of_false Bool.false_ne_true (by simp [MAX_UINT256])
  · simp [MAX_UINT256]

section Amounts

variable {side : MarketOperation} {s s' : ℚ} {x : BigNumber}

/-- An amount that slips is worse for the taker than it was, rounded or not. -/
theorem against_slipAmount (hx : IsAmount x) (h₀ : 0 ≤ s) (h₁ : s ≤ 1) :
    Against side x (slipAmount side s x) := by
  obtain ⟨q, rfl, hq⟩ := hx
  cases side with
  | sell =>
    have hle : q * (1 - s) ≤ q := mul_le_of_le_one_right hq (by linarith)
    have hnonneg : 0 ≤ q * (1 - s) := mul_nonneg hq (by linarith)
    show AmountLe ((fin (q * (1 - s))).integerValue .down) (fin q)
    rw [integerValue_fin]
    refine ⟨_, _, rfl, rfl, ?_, ?_⟩
    · exact Int.cast_nonneg (roundRat_nonneg .down hnonneg)
    · rw [roundRat_down_of_nonneg hnonneg]
      exact (Int.floor_le _).trans hle
  | buy =>
    have hle : q ≤ q * (1 + s) := le_mul_of_one_le_right hq (by linarith)
    show AmountLe (fin q) ((fin (q * (1 + s))).integerValue .up)
    rw [integerValue_fin, roundRat_up_of_nonneg (hq.trans hle)]
    exact ⟨_, _, rfl, rfl, hq, hle.trans (Int.le_ceil _)⟩

/-- It is worse at a larger slippage. -/
theorem slipAmount_against (hx : IsAmount x) (h₀ : 0 ≤ s) (hs : s ≤ s') (h₁ : s' ≤ 1) :
    Against side (slipAmount side s x) (slipAmount side s' x) := by
  obtain ⟨q, rfl, hq⟩ := hx
  cases side with
  | sell =>
    have hnonneg : 0 ≤ q * (1 - s') := mul_nonneg hq (by linarith)
    have hle : q * (1 - s') ≤ q * (1 - s) := mul_le_mul_of_nonneg_left (by linarith) hq
    exact AmountLe.integerValue .down ⟨_, _, rfl, rfl, hnonneg, hle⟩
  | buy =>
    have hnonneg : 0 ≤ q * (1 + s) := mul_nonneg hq (by linarith)
    have hle : q * (1 + s) ≤ q * (1 + s') := mul_le_mul_of_nonneg_left (by linarith) hq
    exact AmountLe.integerValue .up ⟨_, _, rfl, rfl, hnonneg, hle⟩

end Amounts

/-- An order against what two slippages make of it, the second one no smaller. -/
structure MovesAgainst (side : MarketOperation) (order slipped slipped' : OptimizedOrder) :
    Prop where
  native : order.source = .native → slipped = order
  sentinel : slippedAmount side order = MAX_UINT256 → slipped = order
  others : slipped = withSlippedAmount side order (slippedAmount side slipped)
  against : Against side (slippedAmount side order) (slippedAmount side slipped)
  monotone : Against side (slippedAmount side slipped) (slippedAmount side slipped')

/-- What slipping does to the amount of an order. -/
theorem slippedAmount_slipOrder (slippage : ℚ) (side : MarketOperation) (order : OptimizedOrder) :
    slippedAmount side (createSlipOrderFunction slippage side order) =
      if (order.source = .native ∨ slippage = 0) ∨ slippedAmount side order = MAX_UINT256 then
        slippedAmount side order
      else slipAmount side slippage (slippedAmount side order) := by
  by_cases hstays : order.source = .native ∨ slippage = 0
  · rw [slipOrder_unchanged hstays, if_pos (.inl hstays)]
  · rw [slipOrder_eq hstays, slippedAmount_withSlippedAmount]
    simp only [eq_MAX_UINT256, hstays, false_or]
    by_cases hmax : slippedAmount side order = MAX_UINT256
    · rw [if_pos hmax, if_pos hmax, hmax]
    · rw [if_neg hmax, if_neg hmax]

/-- Slipping changes that amount and nothing else. -/
theorem slipOrder_others (slippage : ℚ) (side : MarketOperation) (order : OptimizedOrder) :
    createSlipOrderFunction slippage side order =
      withSlippedAmount side order
        (slippedAmount side (createSlipOrderFunction slippage side order)) := by
  by_cases hstays : order.source = .native ∨ slippage = 0
  · rw [slipOrder_unchanged hstays, withSlippedAmount_self]
  · rw [slipOrder_eq hstays, slippedAmount_withSlippedAmount]

theorem slipOrder_movesAgainst {side : MarketOperation} {order : OptimizedOrder}
    (hamount : IsAmount (slippedAmount side order)) {s s' : ℚ} (h₀ : 0 ≤ s) (hs : s ≤ s')
    (h₁ : s' ≤ 1) :
    MovesAgainst side order (createSlipOrderFunction s side order)
      (createSlipOrderFunction s' side order) := by
  have hagainst : ∀ {slippage : ℚ}, 0 ≤ slippage → slippage ≤ 1 →
      Against side (slippedAmount side order)
        (slippedAmount side (createSlipOrderFunction slippage side order)) := by
    intro slippage hslippage hslippage'
    rw [slippedAmount_slipOrder]
    split
    · exact against_refl side hamount
    · exact against_slipAmount hamount hslippage hslippage'
  refine ⟨fun hnative => slipOrder_unchanged (.inl hnative), fun hmax => ?_,
    slipOrder_others s side order, hagainst h₀ (hs.trans h₁), ?_⟩
  · rw [slipOrder_others, slippedAmount_slipOrder, if_pos (.inr hmax), withSlippedAmount_self]
  · rw [slippedAmount_slipOrder s]
    by_cases hstays : (order.source = .native ∨ s = 0) ∨ slippedAmount side order = MAX_UINT256
    · -- the smaller slippage leaves the order as it is
      rw [if_pos hstays]
      exact hagainst (h₀.trans hs) h₁
    · have hstays' : ¬ ((order.source = .native ∨ s' = 0) ∨
          slippedAmount side order = MAX_UINT256) := by
        rintro ((hnative | hzero) | hmax)
        · exact hstays (.inl (.inl hnative))
        · exact hstays (.inl (.inr (le_antisymm (hs.trans_eq hzero) h₀)))
        · exact hstays (.inr hmax)
      -- both slip it, and round the same way
      rw [if_neg hstays, slippedAmount_slipOrder, if_neg hstays']
      exact slipAmount_against hamount h₀ hs h₁

/-! ## The orders of a path -/

/-- What an order made of a fill makes and takes is an amount when the fill's input and output
are. -/
theorem isAmount_getFillTokenAmounts {fill : FillBase} (hinput : IsAmount fill.input)
    (houtput : IsAmount fill.output) (side : MarketOperation) :
    IsAmount (getFillTokenAmounts fill side).1 ∧ IsAmount (getFillTokenAmounts fill side).2 := by
  cases side with
  | sell => exact ⟨houtput.integerValue .down, hinput⟩
  | buy => exact ⟨hinput, houtput.integerValue .up⟩

theorem isAmount_slippedAmount {side : MarketOperation} {order : OptimizedOrder}
    (h : IsAmount order.makerAmount ∧ IsAmount order.takerAmount) :
    IsAmount (slippedAmount side order) := by
  cases side with
  | sell => exact h.1
  | buy => exact h.2

theorem isAmount_MAX_UINT256 : IsAmount MAX_UINT256 := ⟨_, rfl, by norm_num⟩

/-- The amount between two hops is zero for the first one and the sentinel for the second one. -/
theorem isAmount_hopFills {input output : BigNumber} (hinput : IsAmount input)
    (houtput : IsAmount output) (side : MarketOperation) (source : ERC20BridgeSource)
    (fillData : FillData) :
    (IsAmount (firstHopFill source fillData input output side).input ∧
        IsAmount (firstHopFill source fillData input output side).output) ∧
      IsAmount (secondHopFill source fillData input output side).input ∧
        IsAmount (secondHopFill source fillData input output side).output := by
  cases side with
  | sell => exact ⟨⟨hinput, isAmount_zero⟩, isAmount_MAX_UINT256, houtput⟩
  | buy => exact ⟨⟨isAmount_zero, houtput⟩, hinput, isAmount_MAX_UINT256⟩

variable {path : Path}

/-- The orders of a path are over amounts when its fills are. -/
theorem amounts_of_mem_getOrders
    (hfills : ∀ fill ∈ path.fills, IsAmount fill.input ∧ IsAmount fill.output)
    {order : OptimizedOrder} (h : order ∈ path.getOrders) :
    IsAmount order.makerAmount ∧ IsAmount order.takerAmount := by
  have hbridge : ∀ {fill : Fill} {makerToken takerToken : String} {o : OptimizedOrder},
      IsAmount fill.input → IsAmount fill.output →
      BridgeOrderOf fill makerToken takerToken path.context.side o →
        IsAmount o.makerAmount ∧ IsAmount o.takerAmount := by
    intro fill _ _ o hinput houtput hof
    rw [hof.makerAmount_eq, hof.takerAmount_eq]
    exact isAmount_getFillTokenAmounts hinput houtput _
  rcases List.mem_append.mp h with hsingle | htwoHop
  · obtain ⟨fill, hfill, hof⟩ := path.exists_fill_of_singleHop hsingle
    obtain ⟨hinput, houtput⟩ := hfills fill hfill
    cases hof with
    | native _ of_fill =>
      rw [of_fill.makerAmount_eq, of_fill.takerAmount_eq]
      exact isAmount_getFillTokenAmounts hinput houtput _
    | bridge _ _ _ of_fill => exact hbridge hinput houtput of_fill
  · obtain ⟨twoHop, hmem, horder⟩ := List.mem_flatMap.mp htwoHop
    obtain ⟨fill, hfill, hof⟩ := exists_of_mem_right path.twoHopOrders_forall₂ hmem
    obtain ⟨hinput, houtput⟩ := hfills fill (List.mem_of_mem_filter hfill)
    obtain ⟨s₁, fd₁, s₂, fd₂, token, _, hfirst, hsecond⟩ := createOrdersFromTwoHopSample_eq_ok hof
    have hhops := isAmount_hopFills hinput houtput path.context.side
    rcases List.mem_pair.mp horder with rfl | rfl
    · exact hbridge (hhops s₁ fd₁).1.1 (hhops s₁ fd₁).1.2 hfirst
    · exact hbridge (hhops s₂ fd₂).2.1 (hhops s₂ fd₂).2.2 hsecond

/-- The native orders of a path are of the native source. -/
theorem source_of_mem_nativeOrders {order : OptimizedOrder}
    (h : order ∈ path.ordersByType.nativeOrders) : order.source = .native := by
  obtain ⟨fill, _, hof⟩ := exists_of_mem_right path.nativeOrders_forall₂ h
  exact (createNativeOptimizedOrder_eq_ok hof).source_eq

/-- The orders of a path by type, slipped, are its orders in a list, slipped. -/
theorem flatten_getSlippedOrdersByType {slippage : ℚ} (h₀ : 0 ≤ slippage) (h₁ : slippage ≤ 1) :
    (path.getSlippedOrdersByType slippage).map OptimizedOrdersByType.flatten =
      path.getSlippedOrders slippage := by
  rw [path.getSlippedOrdersByType_of_mem h₀ h₁, path.getSlippedOrders_of_mem h₀ h₁]
  have hnative : path.ordersByType.nativeOrders.map
      (createSlipOrderFunction slippage path.context.side) = path.ordersByType.nativeOrders := by
    refine (List.map_congr_left ?_).trans (List.map_id _)
    intro order horder
    exact slipOrder_unchanged (.inl (source_of_mem_nativeOrders horder))
  show Except.ok _ = Except.ok _
  unfold OptimizedOrdersByType.flatten Path.getOrders
  simp only [List.map_append, List.map_flatMap, List.flatMap_map, hnative, List.map_cons,
    List.map_nil]

/-- The orders of a path at two slippages, the second one no smaller: both accessors answer with the
same orders, the native ones are as they were, and each other one has moved against the taker. -/
def Coherent (path : Path) (s s' : ℚ) : Prop :=
  ∃ byType slipped slipped',
    path.getSlippedOrdersByType s = .ok byType ∧ path.getSlippedOrders s = .ok slipped ∧
      path.getSlippedOrders s' = .ok slipped' ∧ byType.flatten = slipped ∧
      byType.nativeOrders = path.ordersByType.nativeOrders ∧ slipped.length = slipped'.length ∧
      List.Forall₂ (fun order pair => MovesAgainst path.context.side order pair.1 pair.2)
        path.getOrders (slipped.zip slipped')

/-- For every path of fills over amounts and slippages `s ≤ s'` in `[0, 1]`. -/
theorem slippedOrders_coherent
    (hfills : ∀ fill ∈ path.fills, IsAmount fill.input ∧ IsAmount fill.output) {s s' : ℚ}
    (h₀ : 0 ≤ s) (hs : s ≤ s') (h₁ : s' ≤ 1) : Coherent path s s' := by
  have hbyType := path.getSlippedOrdersByType_of_mem h₀ (hs.trans h₁)
  have hslipped := path.getSlippedOrders_of_mem h₀ (hs.trans h₁)
  have hflatten := @flatten_getSlippedOrdersByType path s h₀ (hs.trans h₁)
  rw [hbyType, hslipped] at hflatten
  refine ⟨_, _, _, hbyType, hslipped, path.getSlippedOrders_of_mem (h₀.trans hs) h₁,
    Except.ok.inj hflatten, rfl, by simp, ?_⟩
  rw [List.zip_map', List.forall₂_map_right_iff, List.forall₂_same]
  intro order horder
  have hamount : IsAmount (slippedAmount path.context.side order) :=
    isAmount_slippedAmount (amounts_of_mem_getOrders hfills horder)
  exact slipOrder_movesAgainst hamount h₀ hs h₁

/-- A limit order, a bridge order and a two-hop order, sold at a slippage of a hundredth and of a
tenth. -/
theorem mixed_sell_coherent :
    ∃ path, WorstCase.mixedPath .sell = .ok path ∧ Coherent path (1 / 100) (1 / 10) := by
  obtain ⟨path, hpath, _⟩ := exists_of_okAnd
    (show okAnd (WorstCase.mixedPath .sell) (fun _ => true) = true by decide +kernel)
  have hfills : ∀ fill ∈ path.fills, IsAmount fill.input ∧ IsAmount fill.output := by
    rw [(Path.create_fields hpath).2]
    intro fill hfill
    simp only [WorstCase.mixedFills, List.mem_cons, List.not_mem_nil, or_false] at hfill
    have hundred : IsAmount (fin 100) := ⟨100, rfl, by norm_num⟩
    rcases hfill with rfl | rfl | rfl <;> exact ⟨hundred, hundred⟩
  exact ⟨path, hpath, slippedOrders_coherent hfills (by norm_num) (by norm_num) (by norm_num)⟩

end SlippedOrders

end ZeroExApi
