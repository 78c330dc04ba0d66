/-
# ZeroExApi.SellQuote — whether the quote of a routed sell sells the amount asked for

The quote adds two accounts: the single-hop fills are simulated against the whole amount, so that
they are capped by it, and the two-hop fills are summed as they are.  Both are made of shares that
were rounded up.  Without two-hop fills the cap absorbs the rounding; with them it does not, and the
total is the amount exactly when no share had to be rounded (`sells_amount_iff`).
-/

import ZeroExApi.RoutedPath
import Mathlib.Algebra.BigOperators.Ring.Finset

namespace ZeroExApi.SellQuote

open ZeroExApi.Lib ZeroExApi.Lib.Fallible ZeroExApi.Lib.Apportion ZeroExApi.Orders ZeroExApi.Fills
open ZeroExApi.QuoteSimulation ZeroExApi.QuoteConsumerUtils ZeroExApi.PathOptimizer
open ZeroExApi.RoutedPath

/-! ## The fills of a routed sell -/

/-- A native order that can be filled with an input: as much of it is fillable, and it has no
taker-token fee. -/
structure CoversInput (order : NativeOrderWithFillableAmounts) (input : ℤ) : Prop where
  fillable : ∃ t : ℚ, order.fillableTakerAmount = .fin t ∧ (input : ℚ) ≤ t
  fillableFee : order.fillableTakerFeeAmount = .fin 0
  fee : order.order.takerTokenFeeAmount = .fin 0
  takerAmount : ∃ t : ℚ, order.order.takerAmount = .fin t ∧ t ≠ 0

/-- The native order of an entry, if it has one, can be filled with an input. -/
def EntryCoversInput (entry : RouteEntry) (input : ℤ) : Prop :=
  ∀ orders order, entry.routablePath = .nativeOrders orders → orders.getLast? = some order →
    CoversInput order input

/-- A fill of a sell with an integer input, whose native order has no taker-token fee. -/
structure SellFill (fill : Fill) (input : ℤ) : Prop where
  input_eq : fill.input = .fin input
  fee : ∀ nativeOrder, fill.fillData = .native nativeOrder →
    nativeOrder.order.takerTokenFeeAmount = .fin 0 ∧
      ∃ t : ℚ, nativeOrder.order.takerAmount = .fin t ∧ t ≠ 0

/-- The input of a fill as an integer. -/
def inputOf (fill : Fill) : ℚ := fill.input.toRat

theorem sellFill_of_entry {o : PathOptimizer} (hside : o.pathContext.side = .sell) {input : ℤ}
    {entry : RouteEntry} (hcovers : EntryCoversInput entry input) {fill : Fill}
    (h : o.FillOfEntry (.fin input) entry fill) : SellFill fill input := by
  cases h with
  | dexSamples routeSamples first rest hpath hsamples hinput houtput hsource htype hdata hflags =>
    refine ⟨hinput, fun nativeOrder hnative => ?_⟩
    -- sampled fill data is not native
    have hsampled := (closestSample (.fin input) entry.outputAmount first rest).sampled.1
    have hne := (closestSample (.fin input) entry.outputAmount first rest).notNative
    rw [← hdata, hnative] at hsampled
    exact absurd hsampled.symm (sampledShape_ne_native hne)
  | nativeOrder orders order hpath horder hinput _ _ _ hdata _ =>
    have hcover := hcovers orders order hpath horder
    obtain ⟨t, ht, hle⟩ := hcover.fillable
    refine ⟨?_, fun nativeOrder hnative => ?_⟩
    · rw [hinput, hside]
      simp only [nativeOrderToNormalizedAmounts, ht, hcover.fillableFee, BigNumber.plus_fin,
        add_zero, BigNumber.min_fin, min_eq_left hle]
    · rw [hdata] at hnative
      cases hnative
      exact ⟨hcover.fee, hcover.takerAmount⟩

/-! ## Their orders in the simulation -/

/-- An order of a sell as the simulation sees it: an integer input, which is what it takes, and no
fee. -/
structure SellOrder (order : OptimizedOrder) (fill : Fill) : Prop where
  fill_eq : order.fill = fill.toFillBase
  takerAmount_eq : order.takerAmount = fill.input
  noFee : takerFee order = .ok ZERO_AMOUNT

theorem sellOrder_native {fill : Fill} {input : ℤ} {order : OptimizedOrder}
    (hfill : SellFill fill input) (h : createNativeOptimizedOrder fill .sell = .ok order) :
    SellOrder order fill := by
  have hof := createNativeOptimizedOrder_eq_ok h
  refine ⟨hof.fill_eq, hof.takerAmount_eq, ?_⟩
  obtain ⟨nativeOrder, hdata⟩ := hof.native
  obtain ⟨hfee, t, ht, htne⟩ := hfill.fee nativeOrder (by rw [← hof.fillData_eq, hdata])
  have htaker : order.takerAmount = .fin input := hof.takerAmount_eq.trans hfill.input_eq
  unfold takerFee
  split
  · rw [hdata]
    dsimp only
    rw [getNativeAdjustedTakerFeeAmount, htaker, hfee, ht, BigNumber.times_fin,
      BigNumber.div_fin _ htne, mul_zero, zero_div]
    simp [ZERO_AMOUNT]
  · rfl

theorem sellOrder_bridge {fill : Fill} {makerToken takerToken : String} {order : OptimizedOrder}
    (h : createBridgeOrder fill makerToken takerToken .sell = .ok order) :
    SellOrder order fill := by
  have hof := createBridgeOrder_eq_ok h
  refine ⟨hof.fill_eq, hof.takerAmount_eq, ?_⟩
  rw [takerFee, hof.type_eq, if_neg (by decide)]

/-- The call of such an order. -/
theorem sellOrder_plain {order : OptimizedOrder} {fill : Fill} {input : ℤ} (hinput : 0 ≤ input)
    (hfill : SellFill fill input) (h : SellOrder order fill) :
    (plainCall .sell order).Plain ∧ (plainCall .sell order).input = input := by
  have hbase : order.fill.input = .fin input := by rw [h.fill_eq]; exact hfill.input_eq
  have hcall : (plainCall .sell order).input = input := by
    show order.fill.input.toRat = input
    rw [hbase]
    rfl
  refine ⟨⟨?_, rfl, ?_, rfl, rfl, ?_⟩, hcall⟩
  · rw [hcall]
    exact hbase
  · rw [hcall]
    exact h.takerAmount_eq.trans hfill.input_eq
  · rw [hcall]
    exact_mod_cast hinput

/-! ## The two accounts of a routed sell -/

/-- What is known of the fills of a routed sell: integer inputs that are positive when there is
something to sell. -/
def SellFills (amount : ℕ) (fills : List Fill) : Prop :=
  ∀ fill ∈ fills, ∃ input : ℤ, SellFill fill input ∧ 0 ≤ input ∧ (0 < amount → 0 < input)

/-- The inputs of the single-hop orders are those of the single-hop fills. -/
theorem sum_singleHopOrders (path : Path) :
    ((path.ordersByType.nativeOrders ++ path.ordersByType.bridgeOrders).map fun order =>
        order.fill.input.toRat).sum =
      ((path.fills.filter fun fill => fill.source == .native).map inputOf).sum +
        ((path.fills.filter fun fill => fill.source.isHop).map inputOf).sum := by
  have hnative := map_eq_map path.nativeOrders_forall₂ (f := inputOf)
    (g := fun order => order.fill.input.toRat) fun fill order h => by
      rw [(createNativeOptimizedOrder_eq_ok h).fill_eq]
      rfl
  have hbridge := map_eq_map path.bridgeOrders_forall₂ (f := inputOf)
    (g := fun order => order.fill.input.toRat) fun fill order h => by
      rw [(createBridgeOrder_eq_ok h).fill_eq]
      rfl
  rw [List.map_append, List.sum_append, hnative, hbridge]

section Accounts

variable {path : Path} {amount : ℕ}

/-- Each single-hop order is one of a sell fill. -/
theorem singleHopOrders_sell (hside : path.context.side = .sell)
    (hfills : SellFills amount path.fills) :
    ∀ order ∈ path.ordersByType.nativeOrders ++ path.ordersByType.bridgeOrders,
      ∃ fill ∈ path.fills, SellOrder order fill := by
  intro order horder
  rcases List.mem_append.mp horder with hnative | hbridge
  · obtain ⟨fill, hmem, h⟩ := exists_of_mem_right path.nativeOrders_forall₂ hnative
    have hfill := List.mem_of_mem_filter hmem
    obtain ⟨input, hsell, _⟩ := hfills fill hfill
    rw [hside] at h
    exact ⟨fill, hfill, sellOrder_native hsell h⟩
  · obtain ⟨fill, hmem, h⟩ := exists_of_mem_right path.bridgeOrders_forall₂ hbridge
    rw [hside] at h
    exact ⟨fill, List.mem_of_mem_filter hmem, sellOrder_bridge h⟩

/-- The taker amounts of the two-hop orders are the inputs of the two-hop fills. -/
theorem twoHopOrders_takerAmounts (hside : path.context.side = .sell)
    (hfills : SellFills amount path.fills) :
    (path.ordersByType.twoHopOrders.map fun t => t.firstHopOrder.takerAmount) =
      ((path.fills.filter fun fill => fill.source == .multiHop).map inputOf).map .fin := by
  rw [List.map_map]
  symm
  have hmem : ∀ f ∈ path.fills.filter fun fill => fill.source == .multiHop,
      f.input = .fin (inputOf f) := fun f hf => by
    obtain ⟨input, hsell, _⟩ := hfills f (List.mem_of_mem_filter hf)
    rw [inputOf, hsell.input_eq]
    rfl
  apply map_eq_map ((List.forall₂_and_left _ _).mpr ⟨hmem, path.twoHopOrders_forall₂⟩)
  rintro fill order ⟨hinput, h⟩
  obtain ⟨s₁, fd₁, s₂, fd₂, token, _, hfirst, _⟩ := createOrdersFromTwoHopSample_eq_ok h
  rw [hfirst.takerAmount_eq, hside]
  exact hinput.symm

/-- Some of the fills' inputs add up to an integer, positive when there is one to sell for. -/
theorem exists_sum_inputs (hfills : SellFills amount path.fills) (fills : List Fill)
    (hsub : ∀ f ∈ fills, f ∈ path.fills) :
    ∃ total : ℤ, (fills.map inputOf).sum = total ∧ 0 ≤ total ∧
      (0 < amount → fills ≠ [] → 0 < total) := by
  induction fills with
  | nil => exact ⟨0, by simp, le_rfl, fun _ hne => absurd rfl hne⟩
  | cons f fills ih =>
    obtain ⟨rest, hrest, hnonneg, _⟩ := ih fun x hx => hsub x (List.mem_cons_of_mem _ hx)
    obtain ⟨input, hsell, hinput, hpos⟩ := hfills f (hsub f List.mem_cons_self)
    refine ⟨input + rest, ?_, by omega, fun hamount _ => ?_⟩
    · rw [List.map_cons, List.sum_cons, hrest, inputOf, hsell.input_eq]
      push_cast
      rfl
    · have := hpos hamount
      omega

/-- The quote's totals: the single-hop inputs up to the amount, and all the two-hop inputs. -/
theorem createSwapQuote_totals (hside : path.context.side = .sell)
    (hfills : SellFills amount path.fills) (makerAmountPerEth : BigNumber)
    (makerToken takerToken : String)
    (gasPrice : BigNumber) (gasSchedule : GasSchedule) (slippage : ℚ) {single twoHop : ℤ}
    (hsingle :
      ((path.fills.filter fun fill => fill.source == .native).map inputOf).sum +
        ((path.fills.filter fun fill => fill.source.isHop).map inputOf).sum = single)
    (htwoHop :
      ((path.fills.filter fun fill => fill.source == .multiHop).map inputOf).sum = twoHop) :
    ∃ quote,
      createSwapQuote path makerAmountPerEth makerToken takerToken .sell (.fin amount) gasPrice
          gasSchedule slippage =
        .ok quote ∧
      quote.bestCaseQuoteInfo.totalTakerAmount = .fin ((min (amount : ℤ) single + twoHop : ℤ) : ℚ) ∧
      quote.worstCaseQuoteInfo.totalTakerAmount =
        .fin ((min (amount : ℤ) single + twoHop : ℤ) : ℚ) := by
  have horders := singleHopOrders_sell hside hfills
  have hplain : ∀ fo ∈ (path.ordersByType.nativeOrders ++ path.ordersByType.bridgeOrders).map
      (plainCall .sell), fo.Plain ∧ (0 < amount → 0 < fo.input) := by
    intro fo hfo
    obtain ⟨order, horder, rfl⟩ := List.mem_map.mp hfo
    obtain ⟨fill, hfill, hof⟩ := horders order horder
    obtain ⟨input, hsell, hnonneg, hpos⟩ := hfills fill hfill
    obtain ⟨hcall, hinput⟩ := sellOrder_plain hnonneg hsell hof
    refine ⟨hcall, fun hamount => ?_⟩
    rw [hinput]
    exact_mod_cast hpos hamount
  -- nothing is reached when there is nothing to sell
  have hreached : ∀ fo ∈ reached amount
      ((path.ordersByType.nativeOrders ++ path.ordersByType.bridgeOrders).map (plainCall .sell)),
      0 < fo.input := by
    intro fo hfo
    rcases Nat.eq_zero_or_pos amount with hzero | hpos
    · rw [hzero, Nat.cast_zero] at hfo
      exact absurd hfo (by rw [reached_of_done le_rfl]; exact List.not_mem_nil)
    · exact (hplain fo (mem_of_mem_reached hfo)).2 hpos
  have hsimulate : ∀ s, _ := fun s =>
    simulate_sell
      (singleHopFillInfo (path.ordersByType.nativeOrders ++ path.ordersByType.bridgeOrders) .sell
        (.fin amount) gasPrice gasSchedule s)
      rfl rfl (Nat.cast_nonneg amount) rfl
      (fun o ho => by
        obtain ⟨fill, _, hof⟩ := horders o ho
        exact hof.noFee)
      (fun fo hfo => (hplain fo hfo).1) hreached
  obtain ⟨best, hbest, hbestTotal⟩ := (hsimulate 0).1
  obtain ⟨worst, hworst, hworstTotal⟩ := (hsimulate slippage).2
  obtain ⟨info, hinfo, hinfoBest, hinfoWorst, _⟩ := calculateQuoteInfo_eq_ok hbest hworst
  have hfilled : BigNumber.roundRat .up (min (amount : ℚ)
      ((path.ordersByType.nativeOrders ++ path.ordersByType.bridgeOrders).map fun order =>
        order.fill.input.toRat).sum) = min (amount : ℤ) single := by
    rw [sum_singleHopOrders, hsingle, ← BigNumber.roundRat_intCast .up (min (amount : ℤ) single)]
    push_cast
    rfl
  refine ⟨_, bind_eq_ok.mpr ⟨info, hinfo, rfl⟩, ?_, ?_⟩
  · dsimp only
    rw [hinfoBest, hbestTotal, twoHopOrders_takerAmounts hside hfills, BigNumber.sum_fin_cons,
      htwoHop]
    dsimp only [singleHopFillInfo]
    rw [hfilled]
    push_cast
    rfl
  · dsimp only
    have hworstTaker : path.ordersByType.twoHopOrders.map (worstTwoHopTakerAmount .sell slippage) =
        path.ordersByType.twoHopOrders.map fun t => t.firstHopOrder.takerAmount := rfl
    rw [hinfoWorst, hworstTotal, hworstTaker, twoHopOrders_takerAmounts hside hfills,
      BigNumber.sum_fin_cons, htwoHop]
    dsimp only [singleHopFillInfo]
    rw [hfilled]
    push_cast
    rfl

end Accounts

/-! ## Selling the amount -/

/-- The inputs of the fills of a routed sell are the shares of the entries. -/
theorem routed_sell {o : PathOptimizer} (hside : o.pathContext.side = .sell) {amount : ℕ}
    (hamount : o.inputAmount = .fin amount) {route : Route} (hvalid : ∀ e ∈ route, e.Valid)
    (hcovers : ∀ e ∈ route.used,
      EntryCoversInput e (ceilShare amount route.total e.input)) {path : Path}
    (h : o.createPathFromRoute route = .ok (some path)) :
    path.context.side = .sell ∧ 0 < route.total ∧ SellFills amount path.fills ∧
      (path.fills.map inputOf).sum =
        ((route.used.map RouteEntry.input).map (ceilShare amount route.total)).sum ∧
      ((∀ e ∈ route.used, e.isTwoHop = false) ↔
        path.fills.filter (fun fill => fill.source == .multiHop) = []) := by
  obtain ⟨hcontext, htotal, hfills⟩ := o.fills_of_route_exact hamount hvalid h
  have hsell : List.Forall₂
      (fun e fill => SellFill fill (ceilShare amount route.total e.input) ∧
        fill.source = e.routablePath.source) route.used path.fills := by
    apply ((List.forall₂_and_left _ _).mpr ⟨hcovers, hfills⟩).imp
    rintro e fill ⟨hcover, hof⟩
    exact ⟨sellFill_of_entry hside hcover hof, source_of_entry hof⟩
  refine ⟨by rw [hcontext, hside], htotal, fun fill hfill => ?_, ?_, ?_⟩
  · obtain ⟨e, he, hof, _⟩ := exists_of_mem_right hsell hfill
    have hpos := Route.input_pos_of_used he
    exact ⟨_, hof, ceilShare_nonneg htotal hpos.le,
      fun hamount => ceilShare_pos htotal hamount hpos⟩
  · have hmap := map_eq_map hsell
      (f := fun e => ((ceilShare amount route.total e.input : ℤ) : ℚ)) (g := inputOf)
      (by
        rintro e fill ⟨hof, _⟩
        rw [inputOf, hof.input_eq]
        rfl)
    rw [← hmap, List.map_map, Int.cast_list_sum, List.map_map]
    rfl
  · rw [List.filter_eq_nil_iff]
    apply forall_mem_iff hsell
    rintro e fill ⟨_, hsource⟩
    rw [RouteEntry.isTwoHop, hsource, Bool.not_eq_true]

/-- The quote of a routed sell sells the amount asked for exactly when no two-hop entry is used, or
the share of no used entry had to be rounded. -/
theorem sells_amount_iff (o : PathOptimizer) (hside : o.pathContext.side = .sell) {amount : ℕ}
    (hamount : o.inputAmount = .fin amount) {route : Route} (hvalid : ∀ e ∈ route, e.Valid)
    (houtput : ∀ e ∈ route, 0 < e.input → 0 < e.output)
    (hcovers : ∀ e ∈ route.used,
      EntryCoversInput e (ceilShare amount route.total e.input)) {path : Path}
    (h : o.createPathFromRoute route = .ok (some path)) (makerAmountPerEth : BigNumber)
    (makerToken takerToken : String) (gasPrice : BigNumber) (gasSchedule : GasSchedule)
    (slippage : ℚ) (opts : ExchangeProxyContractOpts) :
    ∃ quote,
      createSwapQuote path makerAmountPerEth makerToken takerToken .sell (.fin amount) gasPrice
          gasSchedule slippage =
        .ok quote ∧
      ((quote.bestCaseQuoteInfo.totalTakerAmount = .fin amount ∧
          (getSwapContext quote opts).sellAmount = .fin amount) ↔
        (∀ e ∈ route.used, e.isTwoHop = false) ∨
          ∀ e ∈ route.used, Exact amount route.total e.input) := by
  obtain ⟨hpathSide, htotal, hfills, hsum, htwoHopIff⟩ := routed_sell hside hamount hvalid hcovers h
  obtain ⟨native, hnative, hnative₀, _⟩ := exists_sum_inputs hfills
    (path.fills.filter fun fill => fill.source == .native) fun f hf => List.mem_of_mem_filter hf
  obtain ⟨hop, hhop, hhop₀, _⟩ := exists_sum_inputs hfills
    (path.fills.filter fun fill => fill.source.isHop) fun f hf => List.mem_of_mem_filter hf
  obtain ⟨twoHop, htwoHop, htwoHop₀, htwoHopPos⟩ := exists_sum_inputs hfills
    (path.fills.filter fun fill => fill.source == .multiHop) fun f hf => List.mem_of_mem_filter hf
  have hsingle :
      ((path.fills.filter fun fill => fill.source == .native).map inputOf).sum +
        ((path.fills.filter fun fill => fill.source.isHop).map inputOf).sum =
          ((native + hop : ℤ) : ℚ) := by
    rw [hnative, hhop]
    push_cast
    rfl
  obtain ⟨quote, hquote, hbest, hworst⟩ := createSwapQuote_totals hpathSide hfills
    makerAmountPerEth makerToken takerToken gasPrice gasSchedule slippage hsingle htwoHop
  refine ⟨quote, hquote, ?_⟩
  -- both totals are the same number, and so is their larger one
  have htotals : (quote.bestCaseQuoteInfo.totalTakerAmount = .fin amount ∧
      (getSwapContext quote opts).sellAmount = .fin amount) ↔
        min (amount : ℤ) (native + hop) + twoHop = amount := by
    simp only [getSwapContext, hbest, hworst, BigNumber.max_fin, max_self, and_self,
      BigNumber.fin.injEq]
    constructor
    · intro heq
      exact_mod_cast heq
    · intro heq
      exact_mod_cast heq
  -- the accounts are the shares of the amount
  have hshares : native + hop + twoHop =
      ((route.used.map RouteEntry.input).map (ceilShare amount route.total)).sum := by
    rw [sum_fills, hnative, hhop, htwoHop] at hsum
    exact_mod_cast hsum
  have hinputs := Route.sum_used_input hvalid houtput
  have hcover := le_sum_ceilShare amount htotal hinputs
  have hexact := sum_ceilShare_eq_iff amount htotal hinputs
  rw [← hshares] at hcover hexact
  rw [List.forall_mem_map] at hexact
  rw [htotals, htwoHopIff, ← hexact]
  rcases Nat.eq_zero_or_pos amount with hzero | hpos
  · -- nothing is asked for, and every share of nothing is exact
    have hnone : native + hop + twoHop = amount := hexact.mpr fun e _ => ⟨0, by simp [hzero]⟩
    omega
  · rcases eq_or_ne (path.fills.filter fun fill => fill.source == .multiHop) [] with hnil | hne
    · -- the cap absorbs what rounding added
      rw [hnil, List.map_nil, List.sum_nil] at htwoHop
      have htwoHopZero : twoHop = 0 := by exact_mod_cast htwoHop.symm
      have hmin : min (amount : ℤ) (native + hop) = amount := by omega
      exact iff_of_true (by omega) (.inl hnil)
    · have htwoHopPos' := htwoHopPos hpos hne
      rw [or_iff_right hne]
      omega

/-! ### Halves of an odd amount -/

/-- Two-hop fill data over Uniswap V2 and SushiSwap. -/
def twoHopFillData : FillData :=
  .multiHop .uniswapV2 (.uniswapV2 ["input", "middle"] "router") .sushiSwap
    (.uniswapV2 ["middle", "output"] "router") "middle"

theorem twoHopFillData_sampled : twoHopFillData.Sampled .multiHop := ⟨rfl, rfl, rfl, rfl, rfl⟩

theorem multiHop_ne_native : ERC20BridgeSource.multiHop ≠ .native := nofun

/-- An amount halved between Uniswap V2 and a two-hop. -/
def halvesRoute : Route :=
  [entryAtTens .uniswapV2 (.uniswapV2 ["input", "output"] "router") uniswapV2_sampled
      uniswapV2_ne_native 1,
    entryAtTens .multiHop twoHopFillData twoHopFillData_sampled multiHop_ne_native 1]

theorem halvesRoute_valid : ∀ e ∈ halvesRoute, e.Valid := by
  simp only [halvesRoute, List.forall_mem_cons]
  exact ⟨entryAtTens_valid (by norm_num), entryAtTens_valid (by norm_num), by simp⟩

/-- Each half of 3 is rounded up to 2, and the quote sells 4. -/
theorem halves_of_three_sell_four :
    (∀ e ∈ halvesRoute, e.Valid) ∧
      ∃ path quote, (plainOptimizer .sell 3).createPathFromRoute halvesRoute = .ok (some path) ∧
        createSwapQuote path (.fin 0) "output" "input" .sell (.fin 3) (.fin 0) (fun _ _ => 0) 0 =
          .ok quote ∧
        quote.bestCaseQuoteInfo.totalTakerAmount = .fin 4 ∧
        (getSwapContext quote {}).sellAmount = .fin 4 := by
  refine ⟨halvesRoute_valid, ?_⟩
  obtain ⟨path, hpath, hcheck⟩ := (plainOptimizer .sell 3).exists_path_of_madePath halvesRoute
    (fun path =>
      okAnd (createSwapQuote path (.fin 0) "output" "input" .sell (.fin 3) (.fin 0)
        (fun _ _ => 0) 0) fun quote =>
        decide (quote.bestCaseQuoteInfo.totalTakerAmount = .fin 4 ∧
          (getSwapContext quote {}).sellAmount = .fin 4))
    (by decide +kernel)
  obtain ⟨quote, hquote, hcheck⟩ := exists_of_okAnd hcheck
  exact ⟨path, quote, hpath, hquote, of_decide_eq_true hcheck⟩

/-- Each half of 2 is 1, and the quote sells 2. -/
theorem halves_of_two_sell_two :
    ∃ path, (plainOptimizer .sell 2).createPathFromRoute halvesRoute = .ok (some path) ∧
      ∃ quote,
        createSwapQuote path (.fin 0) "output" "input" .sell (.fin (2 : ℕ)) (.fin 0)
            (fun _ _ => 0) 0 =
          .ok quote ∧
        ((quote.bestCaseQuoteInfo.totalTakerAmount = .fin (2 : ℕ) ∧
            (getSwapContext quote {}).sellAmount = .fin (2 : ℕ)) ↔
          (∀ e ∈ halvesRoute.used, e.isTwoHop = false) ∨
            ∀ e ∈ halvesRoute.used, Exact 2 halvesRoute.total e.input) := by
  obtain ⟨path, hpath, _⟩ := (plainOptimizer .sell 2).exists_path_of_madePath halvesRoute
    (fun _ => true) (by decide +kernel)
  have houtput : ∀ e ∈ halvesRoute, 0 < e.input → 0 < e.output := by
    simp only [halvesRoute, List.forall_mem_cons]
    exact ⟨id, id, by simp⟩
  have hcovers : ∀ e ∈ halvesRoute.used,
      EntryCoversInput e (ceilShare 2 halvesRoute.total e.input) := by
    intro e he orders order hpath
    have hmem := List.mem_of_mem_filter he
    simp only [halvesRoute, List.mem_cons, List.not_mem_nil, or_false] at hmem
    rcases hmem with rfl | rfl
    · cases hpath
    · cases hpath
  exact ⟨path, hpath, sells_amount_iff (plainOptimizer .sell 2) rfl rfl halvesRoute_valid houtput
    hcovers hpath (.fin 0) "output" "input" (.fin 0) (fun _ _ => 0) 0 {}⟩

end ZeroExApi.SellQuote
