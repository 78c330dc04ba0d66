/-
# ZeroExApi.RoutedPath — paths made of a route: their kinds of fills, and encoding their orders

What `createPathFromRoute` builds, followed to the calldata.  Its orders are read off its fills,
kind by kind, and its fills off the entries of the route (`fills_of_route`), so that the result is
about the route: the orders can be encoded exactly when each Aave V3 order is of an amount that
calldata was sampled for (`routedOrders_encode_iff`).  The amounts sampled are those of the samples,
the amounts routed are whatever the router chose.
-/

import ZeroExApi.PathOptimizer
import ZeroExApi.QuoteConsumerUtils

namespace ZeroExApi.RoutedPath

open ZeroExApi.Lib ZeroExApi.Lib.Fallible ZeroExApi.Lib.Apportion ZeroExApi.Orders ZeroExApi.Fills
open ZeroExApi.QuoteSimulation ZeroExApi.QuoteConsumerUtils ZeroExApi.PathOptimizer

/-! ## The kinds of fills -/

/-- A source is native, a two-hop, or one a hop can have. -/
theorem source_cases (source : ERC20BridgeSource) :
    (source = .native ∧ (source == .native) = true ∧ (source == .multiHop) = false ∧
        source.isHop = false) ∨
      (source = .multiHop ∧ (source == .native) = false ∧ (source == .multiHop) = true ∧
        source.isHop = false) ∨
      ((source == .native) = false ∧ (source == .multiHop) = false ∧ source.isHop = true) := by
  cases source <;> decide

/-- Each fill is of one kind. -/
theorem forall_fills_iff {fills : List Fill} {P : Fill → Prop} :
    (∀ f ∈ fills, P f) ↔
      (∀ f ∈ fills.filter fun fill => fill.source == .native, P f) ∧
        (∀ f ∈ fills.filter fun fill => fill.source.isHop, P f) ∧
        ∀ f ∈ fills.filter fun fill => fill.source == .multiHop, P f := by
  constructor
  · intro h
    exact ⟨fun f hf => h f (List.mem_of_mem_filter hf), fun f hf => h f (List.mem_of_mem_filter hf),
      fun f hf => h f (List.mem_of_mem_filter hf)⟩
  · rintro ⟨hnative, hhop, htwoHop⟩ f hf
    rcases source_cases f.source with ⟨_, h, _⟩ | ⟨_, _, h, _⟩ | ⟨_, _, h⟩
    · exact hnative f (List.mem_filter.mpr ⟨hf, h⟩)
    · exact htwoHop f (List.mem_filter.mpr ⟨hf, h⟩)
    · exact hhop f (List.mem_filter.mpr ⟨hf, h⟩)

/-- A sum over fills, kind by kind. -/
theorem sum_fills (fills : List Fill) (g : Fill → ℚ) :
    (fills.map g).sum =
      ((fills.filter fun fill => fill.source == .native).map g).sum +
        ((fills.filter fun fill => fill.source.isHop).map g).sum +
          ((fills.filter fun fill => fill.source == .multiHop).map g).sum := by
  induction fills with
  | nil => simp
  | cons f fills ih =>
    rcases source_cases f.source with ⟨_, hn, hm, hh⟩ | ⟨_, hn, hm, hh⟩ | ⟨hn, hm, hh⟩
    · simp only [List.filter_cons, hn, hm, hh, List.map_cons, List.sum_cons, ih, if_true,
        Bool.false_eq_true, if_false]
      ring
    · simp only [List.filter_cons, hn, hm, hh, List.map_cons, List.sum_cons, ih, if_true,
        Bool.false_eq_true, if_false]
      ring
    · simp only [List.filter_cons, hn, hm, hh, List.map_cons, List.sum_cons, ih, if_true,
        Bool.false_eq_true, if_false]
      ring

theorem sampledShape_ne_multiHop {source : ERC20BridgeSource} (h : source.isHop = true) :
    source.sampledShape ≠ .multiHop := by
  revert h
  cases source <;> decide

theorem sampledShape_ne_native {source : ERC20BridgeSource} (h : source ≠ .native) :
    source.sampledShape ≠ .native := by
  revert h
  cases source <;> decide

/-! ## Encoding the orders of a path -/

/-- The orders made of a fill hold what encoding them looks up: for a two-hop fill each hop is an
order, between an amount of the fill and the unknown amount between the hops. -/
def HoldsAmounts (side : MarketOperation) (fillData : FillData) (input output : BigNumber) : Prop :=
  match fillData with
  | .multiHop _ firstHopFillData _ secondHopFillData _ =>
    match side with
    | .sell =>
      HoldsAmount firstHopFillData ZERO_AMOUNT input ∧
        HoldsAmount secondHopFillData (output.integerValue .down) MAX_UINT256
    | .buy =>
      HoldsAmount firstHopFillData ZERO_AMOUNT (output.integerValue .up) ∧
        HoldsAmount secondHopFillData input MAX_UINT256
  | _ =>
    match side with
    | .sell => HoldsAmount fillData (output.integerValue .down) input
    | .buy => HoldsAmount fillData input (output.integerValue .up)

theorem integerValue_zero (mode : RoundingMode) :
    ZERO_AMOUNT.integerValue mode = ZERO_AMOUNT := by
  simp [ZERO_AMOUNT]

theorem integerValue_maxUint256 (mode : RoundingMode) :
    MAX_UINT256.integerValue mode = MAX_UINT256 := by
  have h := BigNumber.roundRat_intCast mode (2 ^ 256 - 1)
  have hcast : (2 ^ 256 - 1 : ℚ) = ((2 ^ 256 - 1 : ℤ) : ℚ) := by norm_num
  rw [MAX_UINT256, BigNumber.integerValue_fin, hcast, h]

/-- The order of a fill that is neither native nor a two-hop. -/
theorem bridgeOrder_encodable_iff {fill : Fill} {makerToken takerToken : String}
    {side : MarketOperation} {order : OptimizedOrder} (hsource : fill.source.isHop = true)
    (hsampled : fill.fillData.shape = fill.source.sampledShape)
    (h : BridgeOrderOf fill makerToken takerToken side order) :
    Encodable order ↔ HoldsAmounts side fill.fillData fill.input fill.output := by
  have hshape : order.fillData.shape = orderShape order.source := by
    rw [h.source_eq]
    exact h.shape_eq hsampled
  rw [encodable_bridge_iff h.type_eq (by rw [h.source_eq]; exact hsource) hshape,
    h.holdsAmount_iff, h.makerAmount_eq, h.takerAmount_eq]
  unfold HoldsAmounts
  split
  · rename_i hdata
    rw [hdata] at hsampled
    exact absurd hsampled.symm (sampledShape_ne_multiHop hsource)
  · cases side <;> rfl

/-- The orders of a two-hop fill. -/
theorem twoHopOrder_encodable_iff {fillData : FillData} (hsampled : fillData.Sampled .multiHop)
    {input output : BigNumber} {context : PathContext} {order : TwoHopOrder}
    (h : createOrdersFromTwoHopSample fillData input output context = .ok order) :
    (Encodable order.firstHopOrder ∧ Encodable order.secondHopOrder) ↔
      HoldsAmounts context.side fillData input output := by
  obtain ⟨s₁, fd₁, s₂, fd₂, token, rfl, hfirst, hsecond⟩ := createOrdersFromTwoHopSample_eq_ok h
  obtain ⟨_, hhop₁, hshape₁, hhop₂, hshape₂⟩ := hsampled
  have hencode₁ : Encodable order.firstHopOrder ↔ _ :=
    encodable_bridge_iff hfirst.type_eq
      (by rw [hfirst.source_eq]; cases context.side <;> exact hhop₁)
      (by
        have := hfirst.shape_eq (by cases context.side <;> exact hshape₁)
        rwa [← hfirst.source_eq] at this)
  have hencode₂ : Encodable order.secondHopOrder ↔ _ :=
    encodable_bridge_iff hsecond.type_eq
      (by rw [hsecond.source_eq]; cases context.side <;> exact hhop₂)
      (by
        have := hsecond.shape_eq (by cases context.side <;> exact hshape₂)
        rwa [← hsecond.source_eq] at this)
  rw [hencode₁, hencode₂, hfirst.holdsAmount_iff, hsecond.holdsAmount_iff, hfirst.makerAmount_eq,
    hfirst.takerAmount_eq, hsecond.makerAmount_eq, hsecond.takerAmount_eq]
  cases context.side with
  | sell =>
    simp only [HoldsAmounts, getFillTokenAmounts, firstHopFill, secondHopFill, hopFill,
      integerValue_zero]
  | buy =>
    simp only [HoldsAmounts, getFillTokenAmounts, firstHopFill, secondHopFill, hopFill,
      integerValue_maxUint256]

/-- A fill as a route gives it: its fill data is that of its source. -/
def SampledFill (fill : Fill) : Prop := fill.source ≠ .native → fill.fillData.Sampled fill.source

/-- The orders of a path can be encoded when those of each fill can. -/
theorem getOrders_encodable_iff {path : Path} (hsampled : ∀ f ∈ path.fills, SampledFill f) :
    (∀ order ∈ path.getOrders, Encodable order) ↔
      ∀ f ∈ path.fills, HoldsAmounts path.context.side f.fillData f.input f.output := by
  have hall := forall_fills_iff.mp hsampled
  -- native orders are always encoded
  have hnative := forall_mem_iff path.nativeOrders_forall₂
    (P := fun f => HoldsAmounts path.context.side f.fillData f.input f.output) (Q := Encodable)
    (by
      intro fill order h
      have hof := createNativeOptimizedOrder_eq_ok h
      obtain ⟨nativeOrder, hdata⟩ := hof.native
      refine iff_of_true ?_ (encodable_native hof.type_ne hdata)
      rw [hof.fillData_eq] at hdata
      rw [hdata]
      cases path.context.side <;> trivial)
  have hbridge := forall_mem_iff
    ((List.forall₂_and_left _ _).mpr
      ⟨fun f hf => And.intro (hall.2.1 f hf) (List.mem_filter.mp hf).2, path.bridgeOrders_forall₂⟩)
    (P := fun f => HoldsAmounts path.context.side f.fillData f.input f.output) (Q := Encodable)
    (by
      rintro fill order ⟨⟨hdata, hhop⟩, h⟩
      have hne : fill.source ≠ .native := fun heq => by
        rw [heq] at hhop
        exact absurd hhop (by decide)
      exact (bridgeOrder_encodable_iff hhop (hdata hne).1 (createBridgeOrder_eq_ok h)).symm)
  have htwoHop := forall_mem_iff
    ((List.forall₂_and_left _ _).mpr
      ⟨fun f hf => And.intro (hall.2.2 f hf) (List.mem_filter.mp hf).2, path.twoHopOrders_forall₂⟩)
    (P := fun f => HoldsAmounts path.context.side f.fillData f.input f.output)
    (Q := fun t => Encodable t.firstHopOrder ∧ Encodable t.secondHopOrder)
    (by
      rintro fill order ⟨⟨hdata, hsource⟩, h⟩
      have heq : fill.source = .multiHop := beq_iff_eq.mp hsource
      have hsampled : fill.fillData.Sampled .multiHop := by
        have := hdata (by rw [heq]; decide)
        rwa [heq] at this
      exact (twoHopOrder_encodable_iff hsampled h).symm)
  rw [forall_fills_iff, hnative, hbridge, htwoHop, Path.getOrders]
  simp only [List.forall_mem_append, List.forall_mem_flatMap, List.forall_mem_cons,
    List.not_mem_nil, false_implies, implies_true, and_true, and_assoc]

/-! ## Encoding a routed path -/

/-- The amounts an entry of a route is turned into orders of hold what encoding them looks up: its
routed input, and the output of the closest sample, as it is rounded and capped. -/
def EntryHoldsAmounts (side : MarketOperation) (routedInput : BigNumber) (entry : RouteEntry) :
    Prop :=
  match entry.routablePath with
  | .nativeOrders _ => True
  | .dexSamples routeSamples =>
    match routeSamples.samples with
    | [] => True
    | first :: rest =>
      let sample := closestSample routedInput entry.outputAmount first rest
      let maxSampledOutput :=
        (BigNumber.maxOf first.output (rest.map DexSample.output)).integerValue .halfUp
      HoldsAmounts side sample.fillData routedInput (scaleOutput maxSampledOutput sample.output)

theorem entryHoldsAmounts_iff [Arithmetic] {o : PathOptimizer} {routedInput : BigNumber}
    {entry : RouteEntry} {fill : Fill} (h : o.FillOfEntry routedInput entry fill) :
    EntryHoldsAmounts o.pathContext.side routedInput entry ↔
      HoldsAmounts o.pathContext.side fill.fillData fill.input fill.output := by
  unfold EntryHoldsAmounts
  cases h with
  | dexSamples routeSamples first rest hpath hsamples hinput houtput _ _ hdata _ =>
    rw [hpath, hinput, houtput, hdata]
    dsimp only
    rw [hsamples]
  | nativeOrder orders order hpath _ _ _ _ _ hdata _ =>
    rw [hpath, hdata]
    cases o.pathContext.side <;> exact iff_of_true trivial trivial

theorem source_of_entry [Arithmetic] {o : PathOptimizer} {routedInput : BigNumber}
    {entry : RouteEntry} {fill : Fill} (h : o.FillOfEntry routedInput entry fill) :
    fill.source = entry.routablePath.source := by
  cases h with
  | dexSamples routeSamples first rest hpath _ _ _ hsource => rw [hsource, hpath]; rfl
  | nativeOrder orders order hpath _ _ _ hsource => rw [hsource, hpath]; rfl

theorem sampledFill_of_entry [Arithmetic] {o : PathOptimizer} {routedInput : BigNumber}
    {entry : RouteEntry}
    {fill : Fill} (h : o.FillOfEntry routedInput entry fill) : SampledFill fill := by
  intro hne
  cases h with
  | dexSamples routeSamples first rest hpath hsamples _ _ hsource _ hdata _ =>
    have hmem : ∀ x ∈ first :: rest, x.source = routeSamples.source :=
      hsamples ▸ routeSamples.source_eq
    have hsampled := (closestSample routedInput entry.outputAmount first rest).sampled
    rwa [closestSample_source routedInput entry.outputAmount hmem, ← hdata, ← hsource] at hsampled
  | nativeOrder _ _ _ _ _ _ hsource => exact absurd hsource hne

/-- The orders of a path made from a valid route are encoded exactly when each used entry holds what
encoding its amounts looks up. -/
theorem routedOrders_encode_iff [Arithmetic] (o : PathOptimizer) {amount : ℕ}
    (hamount : o.inputAmount = .fin amount) {route : Route} (hvalid : ∀ e ∈ route, e.Valid)
    {path : Path} (h : o.createPathFromRoute route = .ok (some path)) :
    Succeeds (getFQTTransformerDataFromOptimizedOrders path.getOrders) ↔
      ∀ e ∈ route.used,
        EntryHoldsAmounts o.pathContext.side (.fin (scaledShare amount route.total e.input)) e := by
  obtain ⟨hcontext, _, hfills⟩ := o.fills_of_route hamount hvalid h
  have hsampled : ∀ f ∈ path.fills, SampledFill f := fun f hf => by
    obtain ⟨e, _, hof⟩ := exists_of_mem_right hfills hf
    exact sampledFill_of_entry hof
  rw [getFQTTransformerData_succeeds_iff, getOrders_encodable_iff hsampled, hcontext]
  exact (forall_mem_iff hfills fun e f hof => entryHoldsAmounts_iff hof).symm

/-! ### An amount between two samples -/

section Code

attribute [local instance] codeArithmetic

/-- An optimizer without fees or adjustments. -/
def plainOptimizer (side : MarketOperation) (amount : ℕ) : PathOptimizer where
  pathContext := ⟨side, "input", "output"⟩
  feeSchedule := fun _ _ => ⟨0, .fin 0⟩
  fillAdjustor := identityFillAdjustor
  pathPenaltyOpts := ⟨.fin 0, .fin 0, fun _ => .fin 0⟩
  inputAmount := .fin amount

/-- A source sampled at 10, 20 and 30 for as much output. -/
def samplesAtTens (source : ERC20BridgeSource) (fillData : FillData)
    (sampled : fillData.Sampled source) (notNative : source ≠ .native) : SourceSamples where
  source := source
  samples := [10, 20, 30].map fun amount : ℚ =>
    ⟨source, fillData, .fin amount, .fin amount, sampled, notNative⟩
  source_eq := by simp

/-- An entry of a source sampled at 10, 20 and 30. -/
def entryAtTens (source : ERC20BridgeSource) (fillData : FillData)
    (sampled : fillData.Sampled source) (notNative : source ≠ .native)
    (input : ℚ) : RouteEntry where
  inputAmount := .fin input
  outputAmount := .fin input
  routablePath := .dexSamples (samplesAtTens source fillData sampled notNative)

theorem entryAtTens_valid {source : ERC20BridgeSource} {fillData : FillData}
    {sampled : fillData.Sampled source} {notNative : source ≠ .native} {input : ℚ}
    (h : 0 ≤ input) : (entryAtTens source fillData sampled notNative input).Valid :=
  ⟨rfl, rfl, h, h⟩

/-- Aave V3 fill data with calldata for the sampled amounts. -/
def aaveV3AtTens : FillData :=
  .aaveV3 "pool" "aToken" "underlying" "input"
    [⟨.fin 10, "calldata for 10"⟩, ⟨.fin 20, "calldata for 20"⟩, ⟨.fin 30, "calldata for 30"⟩]

theorem aaveV3AtTens_sampled : aaveV3AtTens.Sampled .aaveV3 := ⟨rfl, trivial⟩

theorem aaveV3_ne_native : ERC20BridgeSource.aaveV3 ≠ .native := nofun

theorem uniswapV2_sampled : (FillData.uniswapV2 ["input", "output"] "router").Sampled .uniswapV2 :=
  ⟨rfl, trivial⟩

theorem uniswapV2_ne_native : ERC20BridgeSource.uniswapV2 ≠ .native := nofun

/-- An amount of 30 between Aave V3 and Uniswap V2. -/
def aaveV3Route (aaveV3Input : ℚ) : Route :=
  [entryAtTens .aaveV3 aaveV3AtTens aaveV3AtTens_sampled aaveV3_ne_native aaveV3Input,
    entryAtTens .uniswapV2 (.uniswapV2 ["input", "output"] "router") uniswapV2_sampled
      uniswapV2_ne_native (30 - aaveV3Input)]

theorem aaveV3Route_valid {aaveV3Input : ℚ} (h₀ : 0 ≤ aaveV3Input) (h₁ : aaveV3Input ≤ 30) :
    ∀ e ∈ aaveV3Route aaveV3Input, e.Valid := by
  simp only [aaveV3Route, List.forall_mem_cons]
  exact ⟨entryAtTens_valid h₀, entryAtTens_valid (sub_nonneg.mpr h₁), by simp⟩

/-- Half of the amount, 15, lies between two samples: the path is made, and cannot be encoded. -/
theorem aaveV3_between_samples_not_encoded :
    (∀ e ∈ aaveV3Route 15, e.Valid) ∧
      ∃ path, (plainOptimizer .sell 30).createPathFromRoute (aaveV3Route 15) = .ok (some path) ∧
        ¬ Succeeds (getFQTTransformerDataFromOptimizedOrders path.getOrders) := by
  refine ⟨aaveV3Route_valid (by norm_num) (by norm_num), ?_⟩
  obtain ⟨path, hpath, hcheck⟩ := (plainOptimizer .sell 30).exists_path_of_madePath (aaveV3Route 15)
    (fun path => !(getFQTTransformerDataFromOptimizedOrders path.getOrders).isOk)
    (by decide +kernel)
  refine ⟨path, hpath, ?_⟩
  rintro ⟨data, hdata⟩
  rw [hdata] at hcheck
  exact absurd hcheck Bool.false_ne_true

/-- A sampled amount, 20, is encoded. -/
theorem routedOrders_encode_at_sample :
    ∃ path, (plainOptimizer .sell 30).createPathFromRoute (aaveV3Route 20) = .ok (some path) ∧
      (Succeeds (getFQTTransformerDataFromOptimizedOrders path.getOrders) ↔
        ∀ e ∈ (aaveV3Route 20).used,
          EntryHoldsAmounts .sell (.fin (scaledShare 30 (aaveV3Route 20).total e.input)) e) := by
  obtain ⟨path, hpath, _⟩ := (plainOptimizer .sell 30).exists_path_of_madePath (aaveV3Route 20)
    (fun _ => true) (by decide +kernel)
  exact ⟨path, hpath, routedOrders_encode_iff (plainOptimizer .sell 30) rfl
    (aaveV3Route_valid (by norm_num) (by norm_num)) hpath⟩

end Code

end ZeroExApi.RoutedPath
