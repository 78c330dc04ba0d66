/-
# ZeroExApi.RoutablePaths — what the optimizer passes to the router, and how it reads the answer

`market_operation_utils/path_optimizer.ts`, from the samples and orders to the router and from its
answer to the paths: `findRoutesAndCreateOptimalPath`.  Samples of a source, two-hop samples and
native orders go through filters of their own and are serialized, each in its own way; the router
answers with an input and an output for each position of what it was given, and the answer is read
position by position.

The two-hop samples of a pair are filtered one by one, but no list of them is dropped, not even an
empty one.  Every path that is serialized is well formed exactly if no list is empty after that
(`pathsIn_wellFormed_iff`).
-/

import ZeroExApi.RoutedPath
import Mathlib.Data.List.DropRight

namespace ZeroExApi

open ZeroExApi.Lib ZeroExApi.Lib.BigNumber ZeroExApi.Lib.Fallible ZeroExApi.Fills
open ZeroExApi.RoutedPath

/-! ## Serialized paths -/

/-- The id of a sample: what the texts of the source are made of. -/
inductive SampleId where
  | dexSample (source : ERC20BridgeSource) (pathIndex sampleIndex : ℕ)
  | twoHop (firstHopSource secondHopSource : ERC20BridgeSource)
  | native (type : FillQuoteTransformerOrderType) (pathIndex orderIndex sampleIndex : ℕ)
  deriving DecidableEq

/-- `SerializedPath`. -/
structure SerializedPath where
  ids : List SampleId
  inputs : List BigNumber
  outputs : List BigNumber
  outputFees : List BigNumber
  isVip : Bool
  deriving DecidableEq

/-- `RoutablePath`, with what is serialized of it. -/
structure SerializedRoutablePath where
  routablePath : RoutablePath
  serializedPath : SerializedPath

/-- `DexSample<MultiHopFillData>` as the sampler leaves it: without hops where all of them
reverted. -/
structure TwoHopQuote where
  firstHopSource : Option HopSource
  secondHopSource : Option HopSource
  intermediateToken : String
  input : BigNumber
  output : BigNumber

/-- The filter of `validTwoHopSamples`: a quote with both hops and a positive output. -/
def TwoHopQuote.valid (quote : TwoHopQuote) : Option TwoHopSample :=
  match quote.firstHopSource, quote.secondHopSource with
  | some firstHopSource, some secondHopSource =>
    if quote.output.gt ZERO_AMOUNT then
      some ⟨firstHopSource, secondHopSource, quote.intermediateToken, quote.input, quote.output⟩
    else
      none
  | _, _ => none

theorem toDexSample_source (samples : List TwoHopSample) :
    ∀ s ∈ samples.map TwoHopSample.toDexSample, s.source = .multiHop := by
  intro s hs
  obtain ⟨sample, _, rfl⟩ := List.mem_map.mp hs
  rfl

/-- Two-hop samples as the samples of a source. -/
def twoHopSourceSamples (samples : List TwoHopSample) : SourceSamples where
  source := .multiHop
  samples := samples.map TwoHopSample.toDexSample
  source_eq := toDexSample_source samples

def MIN_NUM_SAMPLE_INPUTS : ℕ := 3

/-- `VIP_ERC20_BRIDGE_SOURCES_BY_CHAIN_ID`. -/
def VIP_ERC20_BRIDGE_SOURCES_BY_CHAIN_ID : ChainId → List ERC20BridgeSource
  | .mainnet => [.uniswapV2, .sushiSwap, .uniswapV3, .curve, .native]
  | .bsc => [.pancakeSwap, .pancakeSwapV2, .bakerySwap, .sushiSwap, .apeSwap, .native]
  | _ => []

/-- `PathOptimizer` with what it serializes paths by. -/
structure NeonPathOptimizer extends PathOptimizer where
  chainId : ChainId
  neonRouterNumSamples : ℕ

/-- What the router is given. -/
structure OptimizerCapture where
  side : MarketOperation
  targetInput : BigNumber
  pathsIn : List SerializedPath

/-- What the router answers for a position: the input and the output of its path. -/
structure RoutedAmounts where
  inputAmount : BigNumber
  outputAmount : BigNumber

/-- What the router writes into the arrays it is given: of all sources, and of the VIP sources. -/
structure NeonRouterOutput where
  allSourcesRoute : ℕ → RoutedAmounts
  vipSourcesRoute : ℕ → RoutedAmounts

/-- `route` of the router, which is not part of the repository. -/
abbrev NeonRouter := OptimizerCapture → ℕ → NeonRouterOutput

namespace PathOptimizer

variable (o : PathOptimizer)

/-- The fill an adjustor makes of one fill. -/
def adjustFill (fill : Fill) : Fill :=
  match o.fillAdjustor.adjustFills o.pathContext.side [fill] with
  | adjustedFill :: _ => adjustedFill
  | [] => fill

/-- `createFillFromTwoHopSample`: the worse of the adjustments for either hop. -/
def createFillFromTwoHopSample (sample : TwoHopSample) : Fill :=
  let side := o.pathContext.side
  let fill :=
    twoHopSampleToFill side sample o.pathPenaltyOpts.outputAmountPerEth (o.feeSchedule .multiHop)
  let adjustedFillFirstHop := o.adjustFill { fill with source := sample.firstHopSource.source }
  let adjustedFillSecondHop := o.adjustFill { fill with source := sample.secondHopSource.source }
  match side with
  | .sell =>
    if adjustedFillFirstHop.adjustedOutput.lt adjustedFillSecondHop.adjustedOutput then
      adjustedFillFirstHop
    else
      adjustedFillSecondHop
  | .buy =>
    if adjustedFillFirstHop.adjustedOutput.lt adjustedFillSecondHop.adjustedOutput then
      adjustedFillSecondHop
    else
      adjustedFillFirstHop

/-- `calculateOutputFee` of a native order. -/
def calculateOutputFee (nativeOrder : NativeOrderWithFillableAmounts) : BigNumber :=
  let (input, output) := nativeOrderToNormalizedAmounts o.pathContext.side nativeOrder
  ethToOutputAmount input output (o.feeSchedule .native (.native nativeOrder)).fee
    o.pathPenaltyOpts.inputAmountPerEth o.pathPenaltyOpts.outputAmountPerEth

end PathOptimizer

/-- The penalty of a fill: the difference between its output and its adjusted output. -/
def outputFee (fill : Fill) : BigNumber :=
  (fill.output.minus fill.adjustedOutput).abs.integerValue .halfUp

namespace NeonPathOptimizer

variable (o : NeonPathOptimizer)

/-! ## Samples of one source -/

/-- The samples without the ones at the end that have no output or an invalid one. -/
def withOutput (singleSourceSamples : List DexSample) : List DexSample :=
  singleSourceSamples.rdropWhile fun sample => sample.output.isZero || !sample.output.isFinite

/-- The serialized path of the samples of a source, at its position. -/
def serializeSamples (pathIndex : ℕ) (samples : List DexSample) : SerializedPath :=
  let fills := samples.map o.createFillFromDexSample
  { ids := fills.mapIdx fun sampleIdx fill => .dexSample fill.source pathIndex sampleIdx
    inputs := fills.map fun fill => fill.input.integerValue .halfUp
    outputs := fills.map fun fill => fill.output.integerValue .halfUp
    outputFees := fills.map outputFee
    isVip := samples.head?.any fun sample =>
      sample.source ∈ VIP_ERC20_BRIDGE_SOURCES_BY_CHAIN_ID o.chainId }

theorem withOutput_source (s : SourceSamples) : ∀ x ∈ withOutput s.samples, x.source = s.source :=
  fun x hx => s.source_eq x ((List.rdropWhile_prefix _ _).subset hx)

/-- The samples of a source that are routed. -/
def SourceSamplesWithOutput (s : SourceSamples) : SourceSamples where
  source := s.source
  samples := withOutput s.samples
  source_eq := withOutput_source s

/-- The loop of `singleSourceSamplesToRoutablePaths`. -/
def addSingleSourcePaths : List SourceSamples → List SerializedRoutablePath →
    List SerializedRoutablePath
  | [], routablePaths => routablePaths
  | singleSourceSamples :: samples, routablePaths =>
    let samplesWithOutput := SourceSamplesWithOutput singleSourceSamples
    if singleSourceSamples.samples.length = 0 then
      addSingleSourcePaths samples routablePaths
    else if samplesWithOutput.samples.length < MIN_NUM_SAMPLE_INPUTS then
      addSingleSourcePaths samples routablePaths
    else
      addSingleSourcePaths samples
        (routablePaths ++
          [⟨.dexSamples samplesWithOutput,
            o.serializeSamples routablePaths.length samplesWithOutput.samples⟩])

/-- `singleSourceSamplesToRoutablePaths`. -/
def singleSourceSamplesToRoutablePaths (samples : List SourceSamples) :
    List SerializedRoutablePath :=
  o.addSingleSourcePaths samples []

/-! ## Two-hop samples -/

/-- The serialized path of two-hop samples. -/
def serializeTwoHopSamples (samples : List TwoHopSample) : SerializedPath :=
  let fills := samples.map o.createFillFromTwoHopSample
  { ids := samples.map fun sample =>
      .twoHop sample.firstHopSource.source sample.secondHopSource.source
    inputs := fills.map fun fill => fill.input.integerValue .halfUp
    outputs := fills.map fun fill => fill.output.integerValue .halfUp
    outputFees := fills.map outputFee
    isVip := false }

/-- `twoHopSamplesToRoutablePaths`. -/
def twoHopSamplesToRoutablePaths (twoHopSamples : List (List TwoHopSample)) :
    List SerializedRoutablePath :=
  twoHopSamples.map fun samples =>
    ⟨.dexSamples (twoHopSourceSamples samples), o.serializeTwoHopSamples samples⟩

/-! ## Native orders -/

/-- The amount of a native order at a fraction of what is asked of it. -/
def nativeSample (normalizedAmount scaleToInput : BigNumber) (fraction : ℚ) : BigNumber :=
  (((normalizedAmount.times scaleToInput).times (.fin fraction)).min normalizedAmount).integerValue
    .halfUp

/-- The serialized path of a native order, the one at an index of the orders. -/
def serializeNativeOrder [Arithmetic] (pathIndex orderIndex : ℕ)
    (nativeOrder : NativeOrderWithFillableAmounts) : SerializedPath :=
  let (input, output) := nativeOrderToNormalizedAmounts o.pathContext.side nativeOrder
  let fee := (o.calculateOutputFee nativeOrder).integerValue .halfUp
  let scaleToInput := (o.inputAmount.div input).min 1
  let indices := (List.range o.neonRouterNumSamples).tail
  let fraction := fun i : ℕ => (i : ℚ) / (o.neonRouterNumSamples - 1)
  { ids := indices.map fun i => .native nativeOrder.type pathIndex orderIndex i
    inputs := indices.map fun i => nativeSample input scaleToInput (fraction i)
    outputs := indices.map fun i => nativeSample output scaleToInput (fraction i)
    outputFees := indices.map fun _ => fee
    isVip := nativeOrder.type ≠ .limit }

/-- A dummy order, which has nothing to fill on one side or the other. -/
def isDummy (nativeOrder : NativeOrderWithFillableAmounts) : Bool :=
  let (input, output) := nativeOrderToNormalizedAmounts o.pathContext.side nativeOrder
  input.lte 0 || output.lte 0

/-- The loop of `nativeOrdersToRoutablePaths`. -/
def addNativeOrderPaths [Arithmetic] :
    ℕ → List NativeOrderWithFillableAmounts → List SerializedRoutablePath →
    List SerializedRoutablePath
  | _, [], routablePaths => routablePaths
  | idx, nativeOrder :: nativeOrders, routablePaths =>
    if o.isDummy nativeOrder then
      addNativeOrderPaths (idx + 1) nativeOrders routablePaths
    else
      addNativeOrderPaths (idx + 1) nativeOrders
        (routablePaths ++
          [⟨.nativeOrders [nativeOrder],
            o.serializeNativeOrder routablePaths.length idx nativeOrder⟩])

/-- `nativeOrdersToRoutablePaths`. -/
def nativeOrdersToRoutablePaths [Arithmetic] (nativeOrders : List NativeOrderWithFillableAmounts) :
    List SerializedRoutablePath :=
  o.addNativeOrderPaths 0 nativeOrders []

/-! ## Routing -/

/-- `allRoutablePaths`. -/
def allRoutablePaths [Arithmetic] (samples : List SourceSamples)
    (twoHopSamples : List (List TwoHopQuote))
    (nativeOrders : List NativeOrderWithFillableAmounts) : List SerializedRoutablePath :=
  let validTwoHopSamples := twoHopSamples.map fun samples => samples.filterMap TwoHopQuote.valid
  o.singleSourceSamplesToRoutablePaths samples ++
    o.twoHopSamplesToRoutablePaths validTwoHopSamples ++
      o.nativeOrdersToRoutablePaths nativeOrders

/-- The array of what the router answers, one entry for each path in. -/
def answered (numPathsIn : ℕ) (amounts : ℕ → RoutedAmounts) : List RoutedAmounts :=
  (List.range numPathsIn).map amounts

/-- `routesAndPath`: the answer position by position, with the paths. -/
def zipRoute (amounts : List RoutedAmounts) (routablePaths : List SerializedRoutablePath) : Route :=
  List.zipWith (fun amount path => ⟨amount.inputAmount, amount.outputAmount, path.routablePath⟩)
    amounts routablePaths

/-- What the router is called with; `none` where it is not called. -/
def optimizerCapture [Arithmetic] (samples : List SourceSamples)
    (twoHopSamples : List (List TwoHopQuote))
    (nativeOrders : List NativeOrderWithFillableAmounts) : Option OptimizerCapture :=
  if o.inputAmount.lte 1 then
    none
  else
    let serializedPaths :=
      (o.allRoutablePaths samples twoHopSamples nativeOrders).map fun path => path.serializedPath
    if serializedPaths.length = 0 then
      none
    else
      some ⟨o.pathContext.side, o.inputAmount, serializedPaths⟩

/-- The paths of the two routes of an answer. -/
def createPathsFromRoutes [Arithmetic] (allSourcesRoute vipSourcesRoute : Route) :
    Except JsError (Option (Option Path × Option Path)) := do
  let allSourcesPath ← o.createPathFromRoute allSourcesRoute
  let vipSourcesPath ← o.createPathFromRoute vipSourcesRoute
  .ok (some (allSourcesPath, vipSourcesPath))

/-- `findRoutesAndCreateOptimalPath`: the paths of all sources and of the VIP sources. -/
def findRoutesAndCreateOptimalPath [Arithmetic] (router : NeonRouter) (samples : List SourceSamples)
    (twoHopSamples : List (List TwoHopQuote))
    (nativeOrders : List NativeOrderWithFillableAmounts) :
    Except JsError (Option (Option Path × Option Path)) :=
  match o.optimizerCapture samples twoHopSamples nativeOrders with
  | none => .ok none
  | some capture =>
    let allRoutablePaths := o.allRoutablePaths samples twoHopSamples nativeOrders
    let output := router capture o.neonRouterNumSamples
    let numPathsIn := capture.pathsIn.length
    o.createPathsFromRoutes
      (zipRoute (answered numPathsIn output.allSourcesRoute) allRoutablePaths)
      (zipRoute (answered numPathsIn output.vipSourcesRoute) allRoutablePaths)

/-! ## What the paths are built from -/

/-- A routable path and its serialization are built from one source: the routed samples of a source,
the two-hop samples of a pair, or a native order that is not a dummy. -/
inductive BuiltFrom : SerializedRoutablePath → Prop
  | dexSamples (s : SourceSamples) (pathIndex : ℕ)
    (enough : MIN_NUM_SAMPLE_INPUTS ≤ (withOutput s.samples).length) :
    BuiltFrom ⟨.dexSamples (SourceSamplesWithOutput s),
      o.serializeSamples pathIndex (withOutput s.samples)⟩
  | twoHopSamples (samples : List TwoHopSample) :
    BuiltFrom ⟨.dexSamples (twoHopSourceSamples samples), o.serializeTwoHopSamples samples⟩
  | nativeOrder (nativeOrder : NativeOrderWithFillableAmounts) (pathIndex orderIndex : ℕ)
    (notDummy : o.isDummy nativeOrder = false) :
    BuiltFrom ⟨.nativeOrders [nativeOrder],
      o.serializeNativeOrder pathIndex orderIndex nativeOrder⟩

theorem addSingleSourcePaths_forall {P : SerializedRoutablePath → Prop}
    (samples : List SourceSamples) {routablePaths : List SerializedRoutablePath}
    (hadded : ∀ s ∈ samples, ∀ i, MIN_NUM_SAMPLE_INPUTS ≤ (withOutput s.samples).length →
      P ⟨.dexSamples (SourceSamplesWithOutput s), o.serializeSamples i (withOutput s.samples)⟩)
    (h : ∀ path ∈ routablePaths, P path) :
    ∀ path ∈ o.addSingleSourcePaths samples routablePaths, P path := by
  induction samples generalizing routablePaths with
  | nil => exact h
  | cons s samples ih =>
    have hrest := fun x hx => hadded x (List.mem_cons_of_mem _ hx)
    unfold addSingleSourcePaths
    dsimp only
    split
    · exact ih hrest h
    · split
      · exact ih hrest h
      · rename_i henough
        apply ih hrest
        intro path hpath
        rcases List.mem_append.mp hpath with hpath | hpath
        · exact h path hpath
        · rw [List.mem_singleton.mp hpath]
          exact hadded s List.mem_cons_self _ (not_lt.mp henough)

theorem addNativeOrderPaths_forall [Arithmetic] {P : SerializedRoutablePath → Prop} (idx : ℕ)
    (nativeOrders : List NativeOrderWithFillableAmounts)
    {routablePaths : List SerializedRoutablePath}
    (hadded : ∀ order ∈ nativeOrders, ∀ i j, o.isDummy order = false →
      P ⟨.nativeOrders [order], o.serializeNativeOrder i j order⟩)
    (h : ∀ path ∈ routablePaths, P path) :
    ∀ path ∈ o.addNativeOrderPaths idx nativeOrders routablePaths, P path := by
  induction nativeOrders generalizing idx routablePaths with
  | nil => exact h
  | cons order nativeOrders ih =>
    have hrest := fun x hx => hadded x (List.mem_cons_of_mem _ hx)
    unfold addNativeOrderPaths
    split
    · exact ih _ hrest h
    · rename_i hdummy
      apply ih _ hrest
      intro path hpath
      rcases List.mem_append.mp hpath with hpath | hpath
      · exact h path hpath
      · rw [List.mem_singleton.mp hpath]
        exact hadded order List.mem_cons_self _ _ (Bool.eq_false_of_not_eq_true hdummy)

theorem mem_addNativeOrderPaths_of_mem (idx : ℕ)
    (nativeOrders : List NativeOrderWithFillableAmounts)
    {routablePaths : List SerializedRoutablePath} {path : SerializedRoutablePath}
    (h : path ∈ routablePaths) : path ∈ o.addNativeOrderPaths idx nativeOrders routablePaths := by
  induction nativeOrders generalizing idx routablePaths with
  | nil => exact h
  | cons order nativeOrders ih =>
    unfold addNativeOrderPaths
    split
    · exact ih _ h
    · exact ih _ (List.mem_append_left _ h)

/-- Every native order that is no dummy is serialized. -/
theorem exists_mem_addNativeOrderPaths (idx : ℕ)
    {nativeOrders : List NativeOrderWithFillableAmounts}
    (routablePaths : List SerializedRoutablePath) {order : NativeOrderWithFillableAmounts}
    (horder : order ∈ nativeOrders) (hdummy : o.isDummy order = false) :
    ∃ i j, ⟨.nativeOrders [order], o.serializeNativeOrder i j order⟩ ∈
      o.addNativeOrderPaths idx nativeOrders routablePaths := by
  induction nativeOrders generalizing idx routablePaths with
  | nil => exact absurd horder List.not_mem_nil
  | cons first nativeOrders ih =>
    unfold addNativeOrderPaths
    rcases List.mem_cons.mp horder with rfl | hrest
    · rw [hdummy, if_neg Bool.false_ne_true]
      exact ⟨_, _, o.mem_addNativeOrderPaths_of_mem _ _
        (List.mem_append_right _ List.mem_cons_self)⟩
    · split
      · exact ih _ _ hrest
      · exact ih _ _ hrest

section Paths

variable {samples : List SourceSamples} {twoHopSamples : List (List TwoHopQuote)}
  {nativeOrders : List NativeOrderWithFillableAmounts}

/-- What holds of what is built from each source holds of all paths. -/
theorem allRoutablePaths_forall [Arithmetic] {P : SerializedRoutablePath → Prop}
    (hsamples : ∀ s ∈ samples, ∀ i, MIN_NUM_SAMPLE_INPUTS ≤ (withOutput s.samples).length →
      P ⟨.dexSamples (SourceSamplesWithOutput s), o.serializeSamples i (withOutput s.samples)⟩)
    (htwoHop : ∀ quotes ∈ twoHopSamples,
      P ⟨.dexSamples (twoHopSourceSamples (quotes.filterMap TwoHopQuote.valid)),
        o.serializeTwoHopSamples (quotes.filterMap TwoHopQuote.valid)⟩)
    (hnative : ∀ order ∈ nativeOrders, ∀ i j, o.isDummy order = false →
      P ⟨.nativeOrders [order], o.serializeNativeOrder i j order⟩) :
    ∀ path ∈ o.allRoutablePaths samples twoHopSamples nativeOrders, P path := by
  intro path hpath
  rcases List.mem_append.mp hpath with hpath | hpath
  · rcases List.mem_append.mp hpath with hpath | hpath
    · exact o.addSingleSourcePaths_forall samples hsamples (by simp) path hpath
    · obtain ⟨valid, hvalid, rfl⟩ := List.mem_map.mp hpath
      obtain ⟨quotes, hquotes, rfl⟩ := List.mem_map.mp hvalid
      exact htwoHop quotes hquotes
  · exact o.addNativeOrderPaths_forall 0 nativeOrders hnative (by simp) path hpath

theorem allRoutablePaths_builtFrom :
    ∀ path ∈ o.allRoutablePaths samples twoHopSamples nativeOrders, o.BuiltFrom path :=
  o.allRoutablePaths_forall (fun s _ i henough => .dexSamples s i henough)
    (fun _ _ => .twoHopSamples _) fun order _ i j hdummy => .nativeOrder order i j hdummy

theorem twoHop_mem_allRoutablePaths {quotes : List TwoHopQuote} (h : quotes ∈ twoHopSamples) :
    ⟨.dexSamples (twoHopSourceSamples (quotes.filterMap TwoHopQuote.valid)),
        o.serializeTwoHopSamples (quotes.filterMap TwoHopQuote.valid)⟩ ∈
      o.allRoutablePaths samples twoHopSamples nativeOrders := by
  apply List.mem_append_left
  apply List.mem_append_right
  exact List.mem_map.mpr ⟨_, List.mem_map_of_mem h, rfl⟩

theorem native_mem_allRoutablePaths {order : NativeOrderWithFillableAmounts}
    (h : order ∈ nativeOrders) (hdummy : o.isDummy order = false) :
    ∃ i j, ⟨.nativeOrders [order], o.serializeNativeOrder i j order⟩ ∈
      o.allRoutablePaths samples twoHopSamples nativeOrders := by
  obtain ⟨i, j, hmem⟩ := o.exists_mem_addNativeOrderPaths 0 [] h hdummy
  exact ⟨i, j, List.mem_append_right _ hmem⟩

end Paths

/-! ## Reading the answer -/

/-- The route that reads what is answered for a position with the path of that position. -/
def routeByPosition (routablePaths : List SerializedRoutablePath) (amounts : ℕ → RoutedAmounts) :
    Route :=
  routablePaths.mapIdx fun j path =>
    ⟨(amounts j).inputAmount, (amounts j).outputAmount, path.routablePath⟩

theorem zipRoute_answered (amounts : ℕ → RoutedAmounts)
    (routablePaths : List SerializedRoutablePath) :
    zipRoute (answered routablePaths.length amounts) routablePaths =
      routeByPosition routablePaths amounts := by
  apply List.ext_getElem
  · simp [zipRoute, answered, routeByPosition]
  · intro j _ _
    simp [zipRoute, answered, routeByPosition]

/-! ## Well-formed paths -/

/-- A path as the router needs it: its lists are as long as each other and not empty; of a single
source it has enough samples, the last one with a finite positive output; of a native order it has
one entry less than the router's number of samples. -/
structure WellFormed (path : SerializedRoutablePath) : Prop where
  inputs_length : path.serializedPath.inputs.length = path.serializedPath.ids.length
  outputs_length : path.serializedPath.outputs.length = path.serializedPath.ids.length
  outputFees_length : path.serializedPath.outputFees.length = path.serializedPath.ids.length
  nonempty : path.serializedPath.ids ≠ []
  singleSource : ∀ s, path.routablePath = .dexSamples s → s.source ≠ .multiHop →
    MIN_NUM_SAMPLE_INPUTS ≤ path.serializedPath.ids.length ∧
      ∃ last : ℚ, path.serializedPath.outputs.getLast? = some (.fin last) ∧ 0 < last
  nativeOrder : ∀ orders, path.routablePath = .nativeOrders orders →
    path.serializedPath.ids.length = o.neonRouterNumSamples - 1

/-- A sampled amount, where it is a number at all, is one of the integers a contract returns. -/
def IsSampledAmount (x : BigNumber) : Prop := x.isFinite = true → ∃ n : ℕ, x = .fin n

/-- The last of the routed samples has an output. -/
theorem withOutput_getLast {samples : List DexSample}
    (hsampled : ∀ s ∈ samples, IsSampledAmount s.output) (hne : withOutput samples ≠ []) :
    ∃ n : ℕ, ((withOutput samples).getLast hne).output = .fin n ∧ 0 < n := by
  have hlast := List.rdropWhile_last_not _ samples hne
  rw [Bool.or_eq_true, not_or] at hlast
  obtain ⟨hzero, hfinite⟩ := hlast
  change ¬ ((withOutput samples).getLast hne).output.isZero = true at hzero
  change ¬ (!((withOutput samples).getLast hne).output.isFinite) = true at hfinite
  rw [Bool.not_eq_true, Bool.not_eq_false'] at hfinite
  have hmem : (withOutput samples).getLast hne ∈ samples :=
    (List.rdropWhile_prefix _ _).subset (List.getLast_mem hne)
  obtain ⟨n, hn⟩ := hsampled _ hmem hfinite
  refine ⟨n, hn, Nat.pos_of_ne_zero ?_⟩
  rintro rfl
  rw [hn, Nat.cast_zero] at hzero
  exact hzero rfl

theorem createFillFromDexSample_output (sample : DexSample) :
    (o.createFillFromDexSample sample).output = sample.output := rfl

theorem wellFormed_samples {s : SourceSamples} (pathIndex : ℕ)
    (hsampled : ∀ x ∈ s.samples, IsSampledAmount x.output)
    (henough : MIN_NUM_SAMPLE_INPUTS ≤ (withOutput s.samples).length) :
    o.WellFormed ⟨.dexSamples (SourceSamplesWithOutput s),
      o.serializeSamples pathIndex (withOutput s.samples)⟩ := by
  have hlength : (o.serializeSamples pathIndex (withOutput s.samples)).ids.length =
      (withOutput s.samples).length := by
    simp [serializeSamples]
  have hne : withOutput s.samples ≠ [] := by
    intro hnil
    rw [hnil] at henough
    exact absurd henough (by decide)
  refine ⟨?_, ?_, ?_, ?_, ?_, ?_⟩
  · simp [serializeSamples]
  · simp [serializeSamples]
  · simp [serializeSamples]
  · rw [← List.length_pos_iff, hlength]
    exact List.length_pos_iff.mpr hne
  · intro _ _ _
    obtain ⟨n, hn, hpos⟩ := withOutput_getLast hsampled hne
    refine ⟨hlength ▸ henough, n, ?_, by exact_mod_cast hpos⟩
    show (((withOutput s.samples).map o.createFillFromDexSample).map
      fun fill => fill.output.integerValue .halfUp).getLast? = some (.fin n)
    rw [List.map_map, List.getLast?_map, List.getLast?_eq_some_getLast hne, Option.map_some,
      Function.comp_apply, createFillFromDexSample_output, hn, integerValue_fin,
      ← Int.cast_natCast, roundRat_intCast]
  · intro _ h
    cases h

theorem wellFormed_twoHopSamples_iff {samples : List TwoHopSample} :
    o.WellFormed ⟨.dexSamples (twoHopSourceSamples samples), o.serializeTwoHopSamples samples⟩ ↔
      samples ≠ [] := by
  constructor
  · rintro h rfl
    exact h.nonempty rfl
  · intro hne
    refine ⟨?_, ?_, ?_, ?_, ?_, ?_⟩
    · simp [serializeTwoHopSamples]
    · simp [serializeTwoHopSamples]
    · simp [serializeTwoHopSamples]
    · simpa [serializeTwoHopSamples] using hne
    · intro s h hsource
      cases h
      exact absurd rfl hsource
    · intro _ h
      cases h

theorem wellFormed_nativeOrder_iff {order : NativeOrderWithFillableAmounts}
    {pathIndex orderIndex : ℕ} :
    o.WellFormed ⟨.nativeOrders [order], o.serializeNativeOrder pathIndex orderIndex order⟩ ↔
      2 ≤ o.neonRouterNumSamples := by
  have hlength : (o.serializeNativeOrder pathIndex orderIndex order).ids.length =
      o.neonRouterNumSamples - 1 := by
    simp [serializeNativeOrder]
  constructor
  · intro h
    have hpos := List.length_pos_iff.mpr h.nonempty
    change 0 < (o.serializeNativeOrder pathIndex orderIndex order).ids.length at hpos
    omega
  · intro h
    refine ⟨?_, ?_, ?_, ?_, ?_, ?_⟩
    · simp [serializeNativeOrder]
    · simp [serializeNativeOrder]
    · simp [serializeNativeOrder]
    · rw [← List.length_pos_iff, hlength]
      omega
    · intro _ h
      cases h
    · intro _ _
      exact hlength

/-! ## Calling the router -/

/-- A call of the router as it is meant: every path that is passed is well formed and built from a
source, and whatever the router answers for its position is read with that source. -/
structure WellFormedCall (samples : List SourceSamples) (twoHopSamples : List (List TwoHopQuote))
    (nativeOrders : List NativeOrderWithFillableAmounts) (capture : OptimizerCapture) : Prop where
  pathsIn_eq : capture.pathsIn =
    (o.allRoutablePaths samples twoHopSamples nativeOrders).map fun path => path.serializedPath
  wellFormed : ∀ path ∈ o.allRoutablePaths samples twoHopSamples nativeOrders, o.WellFormed path
  builtFrom : ∀ path ∈ o.allRoutablePaths samples twoHopSamples nativeOrders, o.BuiltFrom path
  reads : ∀ router : NeonRouter,
    o.findRoutesAndCreateOptimalPath router samples twoHopSamples nativeOrders =
      o.createPathsFromRoutes
        (routeByPosition (o.allRoutablePaths samples twoHopSamples nativeOrders)
          (router capture o.neonRouterNumSamples).allSourcesRoute)
        (routeByPosition (o.allRoutablePaths samples twoHopSamples nativeOrders)
          (router capture o.neonRouterNumSamples).vipSourcesRoute)

/-- No source leaves an empty path: every pair has a two-hop sample with both hops and an output,
and an order that is no dummy is sampled at all. -/
def NothingEmpty (twoHopSamples : List (List TwoHopQuote))
    (nativeOrders : List NativeOrderWithFillableAmounts) : Prop :=
  (∀ quotes ∈ twoHopSamples, ∃ quote ∈ quotes, quote.valid.isSome = true) ∧
    ∀ order ∈ nativeOrders, o.isDummy order = false → 2 ≤ o.neonRouterNumSamples

section Call

variable {samples : List SourceSamples} {twoHopSamples : List (List TwoHopQuote)}
  {nativeOrders : List NativeOrderWithFillableAmounts}

theorem optimizerCapture_eq_some_iff [Arithmetic] {capture : OptimizerCapture} :
    o.optimizerCapture samples twoHopSamples nativeOrders = some capture ↔
      o.inputAmount.lte 1 = false ∧
        o.allRoutablePaths samples twoHopSamples nativeOrders ≠ [] ∧
        capture = ⟨o.pathContext.side, o.inputAmount,
          (o.allRoutablePaths samples twoHopSamples nativeOrders).map fun path =>
            path.serializedPath⟩ := by
  unfold optimizerCapture
  simp only [List.length_map, List.length_eq_zero_iff]
  rcases hunit : o.inputAmount.lte 1 with _ | _
  · rw [if_neg Bool.false_ne_true]
    split
    · rename_i hnil
      simp [hnil]
    · rename_i hne
      simp [hne, eq_comm]
  · simp

theorem findRoutesAndCreateOptimalPath_eq [Arithmetic] (router : NeonRouter)
    {capture : OptimizerCapture}
    (h : o.optimizerCapture samples twoHopSamples nativeOrders = some capture) :
    o.findRoutesAndCreateOptimalPath router samples twoHopSamples nativeOrders =
      o.createPathsFromRoutes
        (routeByPosition (o.allRoutablePaths samples twoHopSamples nativeOrders)
          (router capture o.neonRouterNumSamples).allSourcesRoute)
        (routeByPosition (o.allRoutablePaths samples twoHopSamples nativeOrders)
          (router capture o.neonRouterNumSamples).vipSourcesRoute) := by
  obtain ⟨_, _, hcapture⟩ := o.optimizerCapture_eq_some_iff.mp h
  have hlength : capture.pathsIn.length =
      (o.allRoutablePaths samples twoHopSamples nativeOrders).length := by
    rw [hcapture, List.length_map]
  unfold findRoutesAndCreateOptimalPath
  rw [h]
  dsimp only
  rw [hlength, zipRoute_answered, zipRoute_answered]

/-- Every path is well formed exactly if no source leaves an empty one. -/
theorem allRoutablePaths_wellFormed_iff
    (hsampled : ∀ s ∈ samples, ∀ x ∈ s.samples, IsSampledAmount x.output) :
    (∀ path ∈ o.allRoutablePaths samples twoHopSamples nativeOrders, o.WellFormed path) ↔
      o.NothingEmpty twoHopSamples nativeOrders := by
  have hvalid : ∀ quotes : List TwoHopQuote, quotes.filterMap TwoHopQuote.valid ≠ [] ↔
      ∃ quote ∈ quotes, quote.valid.isSome = true := by
    intro quotes
    simp [List.filterMap_eq_nil_iff, Option.isSome_iff_ne_none]
  constructor
  · intro h
    constructor
    · intro quotes hquotes
      rw [← hvalid]
      exact o.wellFormed_twoHopSamples_iff.mp (h _ (o.twoHop_mem_allRoutablePaths hquotes))
    · intro order horder hdummy
      obtain ⟨i, j, hmem⟩ := o.native_mem_allRoutablePaths horder hdummy
      exact o.wellFormed_nativeOrder_iff.mp (h _ hmem)
  · rintro ⟨htwoHop, hnative⟩
    refine o.allRoutablePaths_forall (P := o.WellFormed) ?_ ?_ ?_
    · intro s hs i henough
      exact o.wellFormed_samples i (hsampled s hs) henough
    · intro quotes hquotes
      exact o.wellFormed_twoHopSamples_iff.mpr ((hvalid quotes).mpr (htwoHop quotes hquotes))
    · intro order horder i j hdummy
      exact o.wellFormed_nativeOrder_iff.mpr (hnative order horder hdummy)

/-- The router is called as it has to be, if it is called, exactly if no source leaves an empty
path, or the amount is too small to call it. -/
theorem pathsIn_wellFormed_iff
    (hsampled : ∀ s ∈ samples, ∀ x ∈ s.samples, IsSampledAmount x.output) :
    (∀ capture, o.optimizerCapture samples twoHopSamples nativeOrders = some capture →
        o.WellFormedCall samples twoHopSamples nativeOrders capture) ↔
      o.inputAmount.lte 1 = true ∨ o.NothingEmpty twoHopSamples nativeOrders := by
  rw [← o.allRoutablePaths_wellFormed_iff hsampled]
  constructor
  · intro h
    cases hunit : o.inputAmount.lte 1 with
    | true => exact .inl rfl
    | false =>
      refine .inr fun path hpath => ?_
      have hne := List.ne_nil_of_mem hpath
      exact (h _ (o.optimizerCapture_eq_some_iff.mpr ⟨hunit, hne, rfl⟩)).wellFormed path hpath
  · rintro hcases capture hcapture
    obtain ⟨hunit, _, heq⟩ := o.optimizerCapture_eq_some_iff.mp hcapture
    refine ⟨by rw [heq], ?_, o.allRoutablePaths_builtFrom, ?_⟩
    · rcases hcases with hone | hall
      · rw [hunit] at hone
        cases hone
      · exact hall
    · intro router
      exact o.findRoutesAndCreateOptimalPath_eq router hcapture

/-! ### A two-hop without an output -/

/-- An optimizer for ten units on Mainnet, for a router with so many samples. -/
def neonOptimizer (neonRouterNumSamples : ℕ) : NeonPathOptimizer :=
  { plainOptimizer .sell 10 with
    chainId := .mainnet
    neonRouterNumSamples := neonRouterNumSamples }

theorem uniswapV2_isHop : ERC20BridgeSource.uniswapV2.isHop = true := rfl

/-- A hop through Uniswap V2. -/
def uniswapV2Hop : HopSource where
  source := .uniswapV2
  fillData := .uniswapV2 ["input", "output"] "router"
  isHop := uniswapV2_isHop
  shape_eq := uniswapV2_sampled.1

/-- A quote through two such hops. -/
def twoHopQuote (output : ℚ) : TwoHopQuote :=
  ⟨some uniswapV2Hop, some uniswapV2Hop, "token", .fin 10, .fin output⟩

/-- With an output, the two-hop is passed to the router well formed. -/
theorem twoHopQuote_wellFormed :
    ∃ capture, (neonOptimizer 14).optimizerCapture [] [[twoHopQuote 5]] [] = some capture ∧
      (neonOptimizer 14).WellFormedCall [] [[twoHopQuote 5]] [] capture := by
  refine ⟨_, rfl, ?_⟩
  refine ((neonOptimizer 14).pathsIn_wellFormed_iff (by simp)).mpr (.inr ⟨?_, by simp⟩) _ rfl
  simp [TwoHopQuote.valid, twoHopQuote, ZERO_AMOUNT]

/-- Without an output, the router is passed a path with nothing in it. -/
theorem emptyTwoHop_passed :
    ∃ capture, (neonOptimizer 14).optimizerCapture [] [[twoHopQuote 0]] [] = some capture ∧
      capture.pathsIn = [⟨[], [], [], [], false⟩] ∧
      ¬ (neonOptimizer 14).WellFormedCall [] [[twoHopQuote 0]] [] capture := by
  have hcapture : (neonOptimizer 14).optimizerCapture [] [[twoHopQuote 0]] [] =
      some ⟨.sell, .fin 10, [⟨[], [], [], [], false⟩]⟩ := by rfl
  refine ⟨_, hcapture, rfl, fun h => ?_⟩
  have hwellFormed :=
    h.wellFormed _ ((neonOptimizer 14).twoHop_mem_allRoutablePaths List.mem_cons_self)
  exact hwellFormed.nonempty rfl

end Call

end NeonPathOptimizer

end ZeroExApi
