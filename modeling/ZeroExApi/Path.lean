/-
# ZeroExApi.Path — a path: fills, the orders made of them, and slippage

`market_operation_utils/path.ts`.  A `Path` is built only by `Path.create`, so it carries the proofs
that its orders are the ones made of its fills and that its flags are those of its fills; nothing
downstream has to ask.  Slippage lowers what an order makes on a sell and raises what it takes on a
buy, for bridge orders only.

The last section reads the orders of a path off its fills, kind by kind.
-/

import ZeroExApi.Orders
import ZeroExApi.Fills

namespace ZeroExApi

open ZeroExApi.Lib ZeroExApi.Lib.Fallible ZeroExApi.Lib.BitFlags ZeroExApi.Orders ZeroExApi.Fills

/-! ## Paths -/

/-- `PathSize`. -/
structure PathSize where
  input : BigNumber
  output : BigNumber

/-- `PathPenaltyOpts`. -/
structure PathPenaltyOpts where
  outputAmountPerEth : BigNumber
  inputAmountPerEth : BigNumber
  exchangeProxyOverhead : ExchangeProxyOverhead

/-- `createAdjustedSize`: the fills up to the target input, the last one in proportion but with its
whole penalty. -/
def createAdjustedSize [Arithmetic] (targetInput : BigNumber) (fills : List Fill) : PathSize :=
  fills.foldl
    (fun currentSize fill =>
      if (currentSize.input.plus fill.input).gt targetInput then
        let remainingInput := targetInput.minus currentSize.input
        let scaledFillOutput := fill.output.times (remainingInput.div fill.input)
        let penalty := fill.adjustedOutput.minus fill.output
        ⟨targetInput, (currentSize.output.plus scaledFillOutput).plus penalty⟩
      else
        ⟨currentSize.input.plus fill.input, currentSize.output.plus fill.adjustedOutput⟩)
    ⟨ZERO_AMOUNT, ZERO_AMOUNT⟩

/-- `createOrdersByType`. -/
def createOrdersByType (fills : List Fill) (context : PathContext) :
    Except JsError OptimizedOrdersByType := do
  let nativeOrders ← (fills.filter fun fill => fill.source == .native).mapM fun fill =>
    createNativeOptimizedOrder fill context.side
  let twoHopOrders ← (fills.filter fun fill => fill.source == .multiHop).mapM fun fill =>
    createOrdersFromTwoHopSample fill.fillData fill.input fill.output context
  let (makerToken, takerToken) := getMakerTakerTokens context
  let bridgeOrders ← (fills.filter fun fill => fill.source.isHop).mapM fun fill =>
    createBridgeOrder fill makerToken takerToken context.side
  .ok ⟨nativeOrders, twoHopOrders, bridgeOrders⟩

/-- `Path`. -/
structure Path where
  context : PathContext
  fills : List Fill
  ordersByType : OptimizedOrdersByType
  targetInput : BigNumber
  pathPenaltyOpts : PathPenaltyOpts
  sourceFlags : ℕ
  adjustedSize : PathSize
  orders_created : createOrdersByType fills context = .ok ordersByType
  flags_merged : sourceFlags = mergeFlags (fills.map Fill.flags)

namespace Path

/-- `Path.create`. -/
def create [Arithmetic] (context : PathContext) (fills : List Fill) (targetInput : BigNumber)
    (pathPenaltyOpts : PathPenaltyOpts) : Except JsError Path :=
  match h : createOrdersByType fills context with
  | .error e => .error e
  | .ok ordersByType =>
    .ok
      { context := context
        fills := fills
        ordersByType := ordersByType
        targetInput := targetInput
        pathPenaltyOpts := pathPenaltyOpts
        sourceFlags := mergeFlags (fills.map Fill.flags)
        adjustedSize := createAdjustedSize targetInput fills
        orders_created := h
        flags_merged := rfl }

/-- `hasTwoHop`. -/
def hasTwoHop (path : Path) : Bool :=
  decide (0 < path.sourceFlags &&& SOURCE_FLAGS (.source .multiHop))

/-- `getOrders`: native orders, bridge orders, then the hops of the two-hop orders. -/
def getOrders (path : Path) : List OptimizedOrder :=
  let twoHopOrders := path.ordersByType.twoHopOrders.flatMap fun twoHopOrder =>
    [twoHopOrder.firstHopOrder, twoHopOrder.secondHopOrder]
  path.ordersByType.nativeOrders ++ path.ordersByType.bridgeOrders ++ twoHopOrders

/-! ## Rates -/

/-- `getRate`. -/
def getRate [Arithmetic] (side : MarketOperation) (input output : BigNumber) : BigNumber :=
  if input.eq 0 || output.eq 0 then
    ZERO_AMOUNT
  else
    match side with
    | .sell => output.div input
    | .buy => input.div output

/-- A size charged what the exchange proxy adds for a set of flags. -/
def applyExchangeProxyOverhead (side : MarketOperation) (pathPenaltyOpts : PathPenaltyOpts)
    (sourceFlags : ℕ) (size : PathSize) : PathSize :=
  let gasOverhead := pathPenaltyOpts.exchangeProxyOverhead sourceFlags
  let pathPenalty := ethToOutputAmount size.input size.output gasOverhead
    pathPenaltyOpts.inputAmountPerEth pathPenaltyOpts.outputAmountPerEth
  ⟨size.input, adjustOutput side size.output pathPenalty⟩

/-- `getExchangeProxyOverheadAppliedSize`. -/
def getExchangeProxyOverheadAppliedSize (path : Path) : PathSize :=
  applyExchangeProxyOverhead path.context.side path.pathPenaltyOpts path.sourceFlags
    path.adjustedSize

/-- `adjustedRate`. -/
def adjustedRate [Arithmetic] (path : Path) : BigNumber :=
  let size := path.getExchangeProxyOverheadAppliedSize
  getRate path.context.side size.input size.output

/-! ## Slippage -/

/-- `checkSlippage`. -/
def checkSlippage (maxSlippage : ℚ) : Except JsError Unit :=
  if maxSlippage < 0 ∨ maxSlippage > 1 then
    .error (.error s!"slippage must be [0, 1]. Given: {maxSlippage}")
  else
    .ok ()

/-- `createSlipOrderFunction`: the largest integer stands for an unknown amount and stays. -/
def createSlipOrderFunction [Arithmetic] (maxSlippage : ℚ) (side : MarketOperation)
    (order : OptimizedOrder) : OptimizedOrder :=
  if order.source = .native ∨ maxSlippage = 0 then
    order
  else
    match side with
    | .sell =>
      { order with
        makerAmount :=
          if order.makerAmount.eq MAX_UINT256 then
            MAX_UINT256
          else
            (order.makerAmount.times (.fin (Arithmetic.float (1 - maxSlippage)))).integerValue
              .down }
    | .buy =>
      { order with
        takerAmount :=
          if order.takerAmount.eq MAX_UINT256 then
            MAX_UINT256
          else
            (order.takerAmount.times (.fin (Arithmetic.float (1 + maxSlippage)))).integerValue
              .up }

/-- `getSlippedOrdersByType`. -/
def getSlippedOrdersByType [Arithmetic] (path : Path) (maxSlippage : ℚ) :
    Except JsError OptimizedOrdersByType := do
  checkSlippage maxSlippage
  let slipOrder := createSlipOrderFunction maxSlippage path.context.side
  .ok
    { nativeOrders := path.ordersByType.nativeOrders
      twoHopOrders := path.ordersByType.twoHopOrders.map fun twoHopOrder =>
        ⟨slipOrder twoHopOrder.firstHopOrder, slipOrder twoHopOrder.secondHopOrder⟩
      bridgeOrders := path.ordersByType.bridgeOrders.map slipOrder }

/-- `getSlippedOrders`. -/
def getSlippedOrders [Arithmetic] (path : Path) (maxSlippage : ℚ) :
    Except JsError (List OptimizedOrder) := do
  checkSlippage maxSlippage
  .ok (path.getOrders.map (createSlipOrderFunction maxSlippage path.context.side))

theorem checkSlippage_of_mem {maxSlippage : ℚ} (h₀ : 0 ≤ maxSlippage) (h₁ : maxSlippage ≤ 1) :
    checkSlippage maxSlippage = .ok () :=
  if_neg (not_or.mpr ⟨not_lt.mpr h₀, not_lt.mpr h₁⟩)

theorem getSlippedOrdersByType_of_mem [Arithmetic] (path : Path) {maxSlippage : ℚ}
    (h₀ : 0 ≤ maxSlippage) (h₁ : maxSlippage ≤ 1) :
    path.getSlippedOrdersByType maxSlippage =
      .ok
        { nativeOrders := path.ordersByType.nativeOrders
          twoHopOrders := path.ordersByType.twoHopOrders.map fun twoHopOrder =>
            ⟨createSlipOrderFunction maxSlippage path.context.side twoHopOrder.firstHopOrder,
              createSlipOrderFunction maxSlippage path.context.side twoHopOrder.secondHopOrder⟩
          bridgeOrders :=
            path.ordersByType.bridgeOrders.map
              (createSlipOrderFunction maxSlippage path.context.side) } := by
  rw [getSlippedOrdersByType, checkSlippage_of_mem h₀ h₁]
  rfl

theorem getSlippedOrders_of_mem [Arithmetic] (path : Path) {maxSlippage : ℚ} (h₀ : 0 ≤ maxSlippage)
    (h₁ : maxSlippage ≤ 1) :
    path.getSlippedOrders maxSlippage =
      .ok (path.getOrders.map (createSlipOrderFunction maxSlippage path.context.side)) := by
  rw [getSlippedOrders, checkSlippage_of_mem h₀ h₁]
  rfl

section Slip

variable [Arithmetic] (maxSlippage : ℚ) (side : MarketOperation) (order : OptimizedOrder)

/-- Slipping changes one amount of an order and nothing else. -/
theorem slipOrder_source :
    (createSlipOrderFunction maxSlippage side order).source = order.source := by
  unfold createSlipOrderFunction
  cases side <;> split <;> rfl

theorem slipOrder_type : (createSlipOrderFunction maxSlippage side order).type = order.type := by
  unfold createSlipOrderFunction
  cases side <;> split <;> rfl

theorem slipOrder_fillData :
    (createSlipOrderFunction maxSlippage side order).fillData = order.fillData := by
  unfold createSlipOrderFunction
  cases side <;> split <;> rfl

theorem slipOrder_takerAmount_sell :
    (createSlipOrderFunction maxSlippage .sell order).takerAmount = order.takerAmount := by
  unfold createSlipOrderFunction
  split <;> rfl

theorem slipOrder_makerAmount_buy :
    (createSlipOrderFunction maxSlippage .buy order).makerAmount = order.makerAmount := by
  unfold createSlipOrderFunction
  split <;> rfl

end Slip

/-! ## The orders of a path -/

/-- A path is created when its orders are. -/
theorem create_succeeds_iff [Arithmetic] {context : PathContext} {fills : List Fill}
    {targetInput : BigNumber} {pathPenaltyOpts : PathPenaltyOpts} :
    Succeeds (create context fills targetInput pathPenaltyOpts) ↔
      Succeeds (createOrdersByType fills context) := by
  unfold create
  split
  · rename_i e h
    rw [h]
    exact iff_of_false (not_succeeds_error e) (not_succeeds_error e)
  · rename_i orders h
    exact iff_of_true (succeeds_ok _) ⟨orders, h⟩

theorem create_fields [Arithmetic] {context : PathContext} {fills : List Fill}
    {targetInput : BigNumber} {pathPenaltyOpts : PathPenaltyOpts} {path : Path}
    (h : create context fills targetInput pathPenaltyOpts = .ok path) :
    path.context = context ∧ path.fills = fills := by
  unfold create at h
  split at h
  · cases h
  · cases h
    exact ⟨rfl, rfl⟩

/-- What a created path keeps of what its size and its rate are made of. -/
theorem create_sizes [Arithmetic] {context : PathContext} {fills : List Fill}
    {targetInput : BigNumber} {pathPenaltyOpts : PathPenaltyOpts} {path : Path}
    (h : create context fills targetInput pathPenaltyOpts = .ok path) :
    path.targetInput = targetInput ∧ path.pathPenaltyOpts = pathPenaltyOpts ∧
      path.sourceFlags = mergeFlags (fills.map Fill.flags) ∧
      path.adjustedSize = createAdjustedSize targetInput fills := by
  unfold create at h
  split at h
  · cases h
  · cases h
    exact ⟨rfl, rfl, rfl, rfl⟩

variable (path : Path)

/-- The native orders of a path are made of its native fills, in order; likewise the two-hop orders
and the bridge orders. -/
theorem nativeOrders_forall₂ :
    List.Forall₂ (fun fill order => createNativeOptimizedOrder fill path.context.side = .ok order)
      (path.fills.filter fun fill => fill.source == .native) path.ordersByType.nativeOrders := by
  obtain ⟨natives, hnatives, h⟩ := bind_eq_ok.mp path.orders_created
  obtain ⟨twoHops, _, h⟩ := bind_eq_ok.mp h
  obtain ⟨bridges, _, h⟩ := bind_eq_ok.mp h
  rw [← Except.ok.inj h]
  exact mapM_eq_ok_iff.mp hnatives

theorem twoHopOrders_forall₂ :
    List.Forall₂
      (fun fill order =>
        createOrdersFromTwoHopSample fill.fillData fill.input fill.output path.context = .ok order)
      (path.fills.filter fun fill => fill.source == .multiHop) path.ordersByType.twoHopOrders := by
  obtain ⟨natives, _, h⟩ := bind_eq_ok.mp path.orders_created
  obtain ⟨twoHops, htwoHops, h⟩ := bind_eq_ok.mp h
  obtain ⟨bridges, _, h⟩ := bind_eq_ok.mp h
  rw [← Except.ok.inj h]
  exact mapM_eq_ok_iff.mp htwoHops

theorem bridgeOrders_forall₂ :
    List.Forall₂
      (fun fill order =>
        createBridgeOrder fill (getMakerTakerTokens path.context).1
          (getMakerTakerTokens path.context).2 path.context.side = .ok order)
      (path.fills.filter fun fill => fill.source.isHop) path.ordersByType.bridgeOrders := by
  obtain ⟨natives, _, h⟩ := bind_eq_ok.mp path.orders_created
  obtain ⟨twoHops, _, h⟩ := bind_eq_ok.mp h
  obtain ⟨bridges, hbridges, h⟩ := bind_eq_ok.mp h
  rw [← Except.ok.inj h]
  exact mapM_eq_ok_iff.mp hbridges

/-- A single-hop order, with the fill it is made of. -/
inductive SingleHopOrderOf (side : MarketOperation) (fill : Fill) (order : OptimizedOrder) : Prop
  | native (source_eq : fill.source = .native) (of_fill : NativeOrderOf fill side order)
  | bridge (isHop : fill.source.isHop = true) (makerToken takerToken : String)
      (of_fill : BridgeOrderOf fill makerToken takerToken side order)

/-- The single-hop orders of a path are made of its native fills and its bridge fills. -/
theorem singleHopOrders_forall₂ :
    List.Forall₂ (SingleHopOrderOf path.context.side)
      ((path.fills.filter fun fill => fill.source == .native) ++
        path.fills.filter fun fill => fill.source.isHop)
      (path.ordersByType.nativeOrders ++ path.ordersByType.bridgeOrders) := by
  apply List.rel_append
  · apply ((List.forall₂_and_left _ _).mpr
      ⟨fun f hf => (List.mem_filter.mp hf).2, path.nativeOrders_forall₂⟩).imp
    rintro fill order ⟨hsource, h⟩
    exact .native (beq_iff_eq.mp hsource) (createNativeOptimizedOrder_eq_ok h)
  · apply ((List.forall₂_and_left _ _).mpr
      ⟨fun f hf => (List.mem_filter.mp hf).2, path.bridgeOrders_forall₂⟩).imp
    rintro fill order ⟨hhop, h⟩
    exact .bridge hhop _ _ (createBridgeOrder_eq_ok h)

/-- Each single-hop order is made of a fill of the path. -/
theorem exists_fill_of_singleHop {order : OptimizedOrder}
    (h : order ∈ path.ordersByType.nativeOrders ++ path.ordersByType.bridgeOrders) :
    ∃ fill ∈ path.fills, SingleHopOrderOf path.context.side fill order := by
  obtain ⟨fill, hfill, hof⟩ := exists_of_mem_right path.singleHopOrders_forall₂ h
  refine ⟨fill, ?_, hof⟩
  rcases List.mem_append.mp hfill with hmem | hmem
  · exact List.mem_of_mem_filter hmem
  · exact List.mem_of_mem_filter hmem

theorem SingleHopOrderOf.source_eq {side : MarketOperation} {fill : Fill} {order : OptimizedOrder}
    (h : SingleHopOrderOf side fill order) : order.source = fill.source := by
  cases h with
  | native source_eq of_fill => rw [of_fill.source_eq, source_eq]
  | bridge _ _ _ of_fill => exact of_fill.source_eq

/-- What a two-hop order takes and makes is what its fill does. -/
theorem twoHop_amounts {order : TwoHopOrder} (h : order ∈ path.ordersByType.twoHopOrders) :
    ∃ fill ∈ path.fills, fill.source = .multiHop ∧
      order.secondHopOrder.makerAmount
          = (getFillTokenAmounts fill.toFillBase path.context.side).1 ∧
        order.firstHopOrder.takerAmount
          = (getFillTokenAmounts fill.toFillBase path.context.side).2 := by
  obtain ⟨fill, hfill, hof⟩ := exists_of_mem_right path.twoHopOrders_forall₂ h
  obtain ⟨hmem, hsource⟩ := List.mem_filter.mp hfill
  obtain ⟨s₁, fd₁, s₂, fd₂, token, _, hfirst, hsecond⟩ := createOrdersFromTwoHopSample_eq_ok hof
  refine ⟨fill, hmem, beq_iff_eq.mp hsource, ?_, ?_⟩
  · rw [hsecond.makerAmount_eq]
    cases path.context.side <;> rfl
  · rw [hfirst.takerAmount_eq]
    cases path.context.side <;> rfl

/-- Without two-hop fills, the orders of a path are the single-hop orders. -/
theorem getOrders_of_no_twoHop (h : ∀ f ∈ path.fills, f.source ≠ .multiHop) :
    path.ordersByType.twoHopOrders = [] ∧
      path.getOrders = path.ordersByType.nativeOrders ++ path.ordersByType.bridgeOrders := by
  have hnone : path.fills.filter (fun fill => fill.source == .multiHop) = [] := by
    apply List.filter_eq_nil_iff.mpr
    intro f hf
    rw [beq_iff_eq]
    exact h f hf
  have htwoHop := path.twoHopOrders_forall₂
  rw [hnone, List.forall₂_nil_left_iff] at htwoHop
  refine ⟨htwoHop, ?_⟩
  rw [getOrders, htwoHop, List.flatMap_nil, List.append_nil]

end Path

end ZeroExApi
