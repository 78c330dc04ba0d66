/-
# ZeroExApi.UniswapV3PathAmounts — the path of a Uniswap V3 fill

`samplers/uniswapv3_sampler.ts` records, for each sampled amount, the best path and its gas; a fill
takes the path of the smallest sampled amount that is enough, or of the largest one
(`getBestUniswapV3PathAmountForInputAmount` in `market_operation_utils/orders.ts`).  Samples that
cannot be filled have an empty path and are passed over.

The scan finds the entry it is meant to find in any sorted list with some real path
(`getBestUniswapV3PathAmountForInputAmount_spec`).  The contract gives a path exactly where it gives
an amount (`WellMarked`).  What is routed of a source ends in a positive output, and hops are set
where both have one, so every fill has a real path (`uniswapV3Fill_spec`).
-/

import ZeroExApi.Lib.JsString
import ZeroExApi.RoutablePaths
import ZeroExApi.TwoHopSampler
import ZeroExApi.UniswapV3Sampler

namespace ZeroExApi.UniswapV3PathAmounts

open ZeroExApi.Lib ZeroExApi.Lib.BigNumber ZeroExApi.Orders ZeroExApi.UniswapV3Sampler
open ZeroExApi.TwoHopSampler (Kept HopInfo EndsInAmounts Winner BestTwoHop)
open ZeroExApi.SamplerBatch (Bytes SamplerCallResult)

/-! ## The scan -/

/-- An entry with a path. -/
def IsReal (pathAmount : PathAmount) : Prop := pathAmount.path ≠ "0x"

/-- The entry for an input: the smallest one that is enough, else the largest, of the real ones. -/
structure IsBestFor (pathAmounts : List PathAmount) (inputAmount : BigNumber)
    (best : PathAmount) : Prop where
  mem : best ∈ pathAmounts
  real : IsReal best
  best :
    (best.inputAmount.gte inputAmount = true ∧
        ∀ other ∈ pathAmounts, IsReal other → other.inputAmount.gte inputAmount = true →
          other.inputAmount.gte best.inputAmount = true) ∨
      (∀ other ∈ pathAmounts, IsReal other → other.inputAmount.gte inputAmount = false ∧
        best.inputAmount.gte other.inputAmount = true)

/-- Amounts in ascending order, all of them numbers. -/
structure Ascending (pathAmounts : List PathAmount) : Prop where
  sorted : pathAmounts.Pairwise fun p q => q.inputAmount.gte p.inputAmount = true
  finite : ∀ p ∈ pathAmounts, p.inputAmount.isFinite = true

theorem gte_self {x : BigNumber} (h : x.isFinite = true) : x.gte x = true := by
  obtain ⟨q, rfl⟩ := isFinite_iff.mp h
  simp

section Scan

variable {pathAmounts : List PathAmount} (h : Ascending pathAmounts)

include h

/-- The first entry that is enough is the smallest. -/
theorem Ascending.find? {inputAmount : BigNumber} {best : PathAmount}
    (hbest : pathAmounts.find? (fun p => p.inputAmount.gte inputAmount) = some best) :
    ∀ other ∈ pathAmounts, other.inputAmount.gte inputAmount = true →
      other.inputAmount.gte best.inputAmount = true := by
  obtain ⟨_, before, after, rfl, hbefore⟩ := List.find?_eq_some_iff_append.mp hbest
  intro other hmem hgte
  rcases List.mem_append.mp hmem with hother | hother
  · have hnot := hbefore other hother
    rw [hgte] at hnot
    cases hnot
  · rcases List.mem_cons.mp hother with rfl | hother
    · exact gte_self (h.finite other hmem)
    · have hsorted := (List.pairwise_append.mp h.sorted).2.1
      exact (List.pairwise_cons.mp hsorted).1 other hother

/-- The last entry is the largest. -/
theorem Ascending.getLast? {last : PathAmount} (hlast : pathAmounts.getLast? = some last) :
    ∀ other ∈ pathAmounts, last.inputAmount.gte other.inputAmount = true := by
  obtain ⟨before, rfl⟩ := List.getLast?_eq_some_iff.mp hlast
  intro other hmem
  rcases List.mem_append.mp hmem with hother | hother
  · exact (List.pairwise_append.mp h.sorted).2.2 other hother last List.mem_cons_self
  · rw [List.mem_singleton.mp hother]
    exact gte_self (h.finite last (List.mem_append_right _ List.mem_cons_self))

theorem Ascending.filter (p : PathAmount → Bool) : Ascending (pathAmounts.filter p) :=
  ⟨h.sorted.filter p, fun x hx => h.finite x (List.mem_of_mem_filter hx)⟩

/-- With some real path, the scan returns the entry for the input. -/
theorem getBestUniswapV3PathAmountForInputAmount_spec (hreal : ∃ p ∈ pathAmounts, IsReal p)
    (inputAmount : BigNumber) :
    ∃ best, getBestUniswapV3PathAmountForInputAmount pathAmounts inputAmount = .ok (some best) ∧
      IsBestFor pathAmounts inputAmount best := by
  obtain ⟨p, hp, hpath⟩ := hreal
  unfold getBestUniswapV3PathAmountForInputAmount
  have hlength : ¬ pathAmounts.length = 0 := by
    rw [List.length_eq_zero_iff]
    exact List.ne_nil_of_mem hp
  rw [if_neg hlength]
  dsimp only
  have hmem : ∀ other, other ∈ pathAmounts.filter (fun p => p.path != "0x") ↔
      other ∈ pathAmounts ∧ IsReal other := by
    intro other
    rw [List.mem_filter, bne_iff_ne]
    rfl
  have hsorted := h.filter fun p => p.path != "0x"
  generalize pathAmounts.filter (fun p => p.path != "0x") = nonempty at hmem hsorted ⊢
  split
  · rename_i best hfind
    obtain ⟨hbest, hbest_real⟩ := (hmem best).mp (List.mem_of_find?_eq_some hfind)
    have hbest_gte : best.inputAmount.gte inputAmount = true :=
      List.find?_some (p := fun p : PathAmount => p.inputAmount.gte inputAmount) hfind
    refine ⟨best, rfl, hbest, hbest_real, .inl ⟨hbest_gte, ?_⟩⟩
    intro other hother hother_real hgte
    exact hsorted.find? hfind other ((hmem other).mpr ⟨hother, hother_real⟩) hgte
  · rename_i hfind
    have hne : nonempty ≠ [] := List.ne_nil_of_mem ((hmem p).mpr ⟨hp, hpath⟩)
    obtain ⟨last, hlast⟩ : ∃ last, nonempty.getLast? = some last :=
      ⟨_, List.getLast?_eq_some_getLast hne⟩
    obtain ⟨hlast_mem, hlast_real⟩ := (hmem last).mp (List.mem_of_getLast? hlast)
    refine ⟨last, by rw [hlast], hlast_mem, hlast_real, .inr ?_⟩
    intro other hother hother_real
    have hother_mem := (hmem other).mpr ⟨hother, hother_real⟩
    refine ⟨?_, hsorted.getLast? hlast other hother_mem⟩
    exact Bool.eq_false_iff.mpr (List.find?_eq_none.mp hfind other hother_mem)

end Scan

/-! ## What the sampler records -/

/-- The digits of a number, so many of them. -/
def hexDigits (width n : ℕ) : List Char :=
  (List.range width).reverse.map fun k => JsString.hexChar (n / 16 ^ k % 16)

/-- A packed path as it is decoded: addresses of twenty bytes and fees of three. -/
def hexPath (path : UniswapPath) : String :=
  String.ofList ('0' :: 'x' :: path.flatMap fun
    | .token address => hexDigits 40 address
    | .fee value => hexDigits 6 value)

/-- `postProcessSamplerFunctionOutput`, of arrays with an entry for each amount. -/
def postProcessSamplerFunctionOutput (amounts : List BigNumber) (paths : List String)
    (gasUsed : List ℕ) : List PathAmount :=
  List.zipWith (fun path (inputAmount, gasUsed) => { path, inputAmount, gasUsed }) paths
    (amounts.zip gasUsed)

theorem hexPath_eq_iff {path : UniswapPath} : hexPath path = "0x" ↔ path = [] := by
  constructor
  · intro h
    have hchars := congrArg String.toList h
    unfold hexPath at hchars
    rw [String.toList_ofList] at hchars
    cases path with
    | nil => rfl
    | cons item path =>
      have hlength := congrArg List.length hchars
      rw [List.flatMap_cons] at hlength
      cases item with
      | token address => simp [hexDigits] at hlength
      | fee value => simp [hexDigits] at hlength
  · rintro rfl
    rfl

/-! ## What the contract marks -/

theorem packPath_ne_nil (chain : Chain) {tokenPath : List Address} (h : tokenPath ≠ [])
    (poolPath : List Address) : packPath chain tokenPath poolPath ≠ [] := by
  cases tokenPath with
  | nil => exact absurd rfl h
  | cons token tokenPath =>
    cases poolPath with
    | nil => exact List.cons_ne_nil _ _
    | cons pool poolPath => exact List.cons_ne_nil _ _

/-- A quote that a sampler reports has a path exactly where it has an amount. -/
def Quote.Marked (q : Quote) : Prop := q.uniswapPath = [] ↔ q.amount = 0

theorem marked_noQuote : Quote.Marked noQuote := iff_of_true rfl rfl

theorem marked_candidateQuote {quote : UniswapPath → List ℕ → CallOutcome}
    {quotedPath keptPath : List Address → UniswapPath} (hkept : ∀ poolPath, keptPath poolPath ≠ [])
    {amounts : List ℕ} {j : ℕ} {poolPaths : List (List Address)} {q : Quote}
    (h : q ∈ poolPaths.filterMap (candidateQuote quote quotedPath keptPath amounts j)) :
    Quote.Marked q := by
  obtain ⟨poolPath, _, hquote⟩ := List.mem_filterMap.mp h
  have hamount := amount_ne_zero_of_candidateQuote hquote
  obtain ⟨result, _, hcounted⟩ := Option.bind_eq_some_iff.mp hquote
  obtain ⟨amount, _, rfl⟩ := Option.map_eq_some_iff.mp hcounted
  exact iff_of_false (hkept poolPath) hamount

section Returned

variable {chain : Chain} {path : List Address} {amounts : List ℕ} {result : Samples}

theorem length_of_getPoolPaths {inputAmount : ℕ} {poolPaths : List (List Address)}
    (h : getPoolPaths chain path inputAmount = .ok poolPaths) :
    path.length = 2 ∨ path.length = 3 := by
  unfold getPoolPaths at h
  split at h
  · exact .inl rfl
  · exact .inr rfl
  · cases h

theorem ne_nil_of_length (h : path.length = 2 ∨ path.length = 3) : path ≠ [] := by
  rintro rfl
  cases h with
  | inl htwo => cases htwo
  | inr hthree => cases hthree

theorem ne_nil_of_read {lastAmount : ℕ}
    (h : UniswapV3Sampler.read amounts (amounts.length - 1) = .ok lastAmount) : amounts ≠ [] := by
  rintro rfl
  cases h

/-- What a sampler returns has an entry for each amount, and marks those without a quote. -/
def WellMarked (result : Samples) (n : ℕ) : Prop :=
  result.HasLength n ∧ ∀ j < n, Quote.Marked (result.entry j)

theorem sampleSells_marked (h : sampleSellsFromUniswapV3 chain path amounts = .ok result) :
    WellMarked result amounts.length := by
  obtain ⟨_, hlast, hrest⟩ := Fallible.bind_eq_ok.mp h
  obtain ⟨_, hpools, _⟩ := Fallible.bind_eq_ok.mp hrest
  have hpath := length_of_getPoolPaths hpools
  obtain ⟨samples, hsamples, hlength, hbest⟩ := sampleSells_best chain hpath (ne_nil_of_read hlast)
  cases h.symm.trans hsamples
  refine ⟨hlength, fun j hj => ?_⟩
  rcases hbest j hj with ⟨_, hnone⟩ | ⟨hmem, _⟩
  · rw [hnone]
    exact marked_noQuote
  · exact marked_candidateQuote (packPath_ne_nil chain (ne_nil_of_length hpath)) hmem

theorem sampleBuys_marked (h : sampleBuysFromUniswapV3 chain path amounts = .ok result) :
    WellMarked result amounts.length := by
  obtain ⟨_, hlast, hrest⟩ := Fallible.bind_eq_ok.mp h
  obtain ⟨_, hpools, _⟩ := Fallible.bind_eq_ok.mp hrest
  have hpath := length_of_getPoolPaths hpools
  rw [List.length_reverse] at hpath
  obtain ⟨samples, hsamples, hlength, hbest⟩ := sampleBuys_best chain hpath (ne_nil_of_read hlast)
  cases h.symm.trans hsamples
  refine ⟨hlength, fun j hj => ?_⟩
  rcases hbest j hj with ⟨_, hnone⟩ | ⟨hmem, _⟩
  · rw [hnone]
    exact marked_noQuote
  · have hkept := packPath_ne_nil chain (ne_nil_of_length hpath)
    exact marked_candidateQuote (fun poolPath => hkept poolPath.reverse) hmem

end Returned

/-! ## Operations -/

/-- An operation of `createSamplerOperation` after its callback: the amounts it was created with and
what the contract returned.  A hop may be called with other amounts, as many as these. -/
structure Operation where
  tokenAddressPath : List String
  router : String
  amounts : List ℕ
  sorted : amounts.Pairwise (· ≤ ·)
  result : Samples
  returned : ∃ (chain : Chain) (path : List Address) (called : List ℕ),
    called.length = amounts.length ∧
      (sampleSellsFromUniswapV3 chain path called = .ok result ∨
        sampleBuysFromUniswapV3 chain path called = .ok result)

namespace Operation

variable (op : Operation)

/-- `fillData.pathAmounts`. -/
def pathAmounts : List PathAmount :=
  postProcessSamplerFunctionOutput (op.amounts.map fun amount : ℕ => .fin amount)
    (op.result.uniswapPaths.map hexPath) op.result.uniswapGasUsed

/-- `fillData`. -/
def fillData : FillData := .tickDexMultiPath op.tokenAddressPath op.router op.pathAmounts

/-- The samples that `getSellQuotes` and `getBuyQuotes` make of it, which share its fill data. -/
def dexSamples : List DexSample :=
  List.zipWith (fun (input output : ℕ) =>
    { source := .uniswapV3
      fillData := op.fillData
      input := .fin input
      output := .fin output
      sampled := ⟨rfl, trivial⟩
      notNative := nofun }) op.amounts op.result.amounts

/-- A sampler result with a positive output. -/
def Positive : Prop := ∃ amount ∈ op.result.amounts, 0 < amount

theorem wellMarked : WellMarked op.result op.amounts.length := by
  obtain ⟨chain, path, called, hlength, hsells | hbuys⟩ := op.returned
  · rw [← hlength]
    exact sampleSells_marked hsells
  · rw [← hlength]
    exact sampleBuys_marked hbuys

theorem length_pathAmounts : op.pathAmounts.length = op.amounts.length := by
  obtain ⟨hlength, _⟩ := op.wellMarked
  simp [pathAmounts, postProcessSamplerFunctionOutput, hlength.paths, hlength.gas]

theorem getElem_pathAmounts {j : ℕ} (hj : j < op.pathAmounts.length)
    (hamount : j < op.amounts.length) :
    op.pathAmounts[j].inputAmount = .fin op.amounts[j] ∧
      op.pathAmounts[j].path = hexPath (op.result.entry j).uniswapPath := by
  obtain ⟨hlength, _⟩ := op.wellMarked
  have hpath : j < op.result.uniswapPaths.length := by
    rw [hlength.paths]
    exact hamount
  simp [pathAmounts, postProcessSamplerFunctionOutput, Samples.entry, hpath]

theorem inputAmounts_eq :
    op.pathAmounts.map PathAmount.inputAmount = op.amounts.map fun amount : ℕ => .fin amount := by
  apply List.ext_getElem
  · rw [List.length_map, List.length_map, op.length_pathAmounts]
  · intro j hj hj'
    rw [List.length_map] at hj hj'
    rw [List.getElem_map, List.getElem_map, (op.getElem_pathAmounts hj hj').1]

theorem ascending : Ascending op.pathAmounts := by
  constructor
  · rw [← List.pairwise_map (f := PathAmount.inputAmount)
      (R := fun x y => BigNumber.gte y x = true), op.inputAmounts_eq, List.pairwise_map]
    refine op.sorted.imp fun {a b} hle => ?_
    rw [gte_fin, decide_eq_true_iff]
    exact_mod_cast hle
  · intro p hp
    have hmem := List.mem_map_of_mem (f := PathAmount.inputAmount) hp
    rw [op.inputAmounts_eq] at hmem
    obtain ⟨amount, _, heq⟩ := List.mem_map.mp hmem
    rw [← heq]
    rfl

theorem mem_dexSamples {sample : DexSample} (h : sample ∈ op.dexSamples) :
    sample.fillData = op.fillData ∧
      ∃ amount ∈ op.result.amounts, sample.output = .fin (amount : ℕ) := by
  obtain ⟨j, hj, rfl⟩ := List.getElem_of_mem h
  unfold dexSamples at hj ⊢
  rw [List.getElem_zipWith]
  exact ⟨rfl, _, List.getElem_mem _, rfl⟩

/-- A result with a positive output has a real path. -/
theorem exists_real (h : op.Positive) : ∃ p ∈ op.pathAmounts, IsReal p := by
  obtain ⟨amount, hmem, hpos⟩ := h
  obtain ⟨j, hj, rfl⟩ := List.getElem_of_mem hmem
  obtain ⟨hlength, hmarked⟩ := op.wellMarked
  have hamount : j < op.amounts.length := by
    rw [← hlength.amounts]
    exact hj
  have hpath : j < op.pathAmounts.length := by
    rw [op.length_pathAmounts]
    exact hamount
  refine ⟨op.pathAmounts[j], List.getElem_mem hpath, ?_⟩
  have hmark : (op.result.entry j).uniswapPath = [] ↔ (op.result.entry j).amount = 0 :=
    hmarked j hamount
  unfold IsReal
  rw [(op.getElem_pathAmounts hpath hamount).2, ne_eq, hexPath_eq_iff, hmark]
  have hentry : (op.result.entry j).amount = op.result.amounts[j] := by
    simp [Samples.entry, hj]
  rw [hentry]
  exact hpos.ne'

/-- Any amount gets the entry for it. -/
theorem best_spec (h : op.Positive) (inputAmount : BigNumber) :
    ∃ best, getBestUniswapV3PathAmountForInputAmount op.pathAmounts inputAmount = .ok (some best) ∧
      IsBestFor op.pathAmounts inputAmount best :=
  getBestUniswapV3PathAmountForInputAmount_spec op.ascending (op.exists_real h) inputAmount

/-- An operation whose data won a hop of a two-hop has a positive output. -/
theorem positive_of_winner {beats : ℕ → ℕ → Bool} {sentinel numSamples : ℕ}
    (hbeats : ∀ amount, beats amount sentinel = true → 0 < amount) (hsamples : numSamples < 2 ^ 256)
    {outcomes : List SamplerCallResult} {kept : Kept}
    (h : Winner beats sentinel numSamples outcomes kept)
    (hends : EndsInAmounts numSamples kept.hop.returnData op.result.amounts) : op.Positive := by
  have hpos := hbeats _ h.qualifies
  rw [← hends.unique hsamples h.quotes.ends] at hpos
  unfold TwoHopSampler.lastAmount at hpos
  refine ⟨op.result.amounts.getLastD 0, ?_, hpos⟩
  rw [List.getLastD_eq_getLast?] at hpos ⊢
  cases hlast : op.result.amounts.getLast? with
  | none =>
    rw [hlast] at hpos
    exact absurd hpos (lt_irrefl 0)
  | some last => exact List.mem_of_getLast? hlast

/-- The operations that the hops of a two-hop are set to have positive outputs: hops are set where
its last amount is not the sentinel. -/
theorem positive_of_bestTwoHop {beats : ℕ → ℕ → Bool} {sentinel numSamples : ℕ}
    (hbeats : ∀ amount, beats amount sentinel = true → 0 < amount) (hpos : 0 < numSamples)
    (hsamples : numSamples < 2 ^ 256) {call : ℕ → Bytes → SamplerCallResult}
    {calls otherCalls : List Bytes} {hop otherHop : HopInfo} {amounts : List ℕ}
    (h : BestTwoHop beats sentinel numSamples call calls otherCalls hop otherHop amounts)
    (hne : TwoHopSampler.lastAmount amounts ≠ sentinel) {setHop : HopInfo}
    (hset : setHop = hop ∨ setHop = otherHop)
    (hends : EndsInAmounts numSamples setHop.returnData op.result.amounts) : op.Positive := by
  obtain ⟨intermediateAmounts, hwinner, hother⟩ := h.winners hpos hne
  rcases hset with rfl | rfl
  · exact op.positive_of_winner hbeats hsamples hwinner hends
  · exact op.positive_of_winner hbeats hsamples hother hends

end Operation

/-! ## Fills -/

/-- What the sampler gives the optimizer: samples of no two-hop among those of single sources, those
of Uniswap V3 of an operation that did not revert, and hops only with a positive output
(`Operation.positive_of_bestTwoHop`). -/
structure FromSampler (samples : List SourceSamples) (twoHopSamples : List (List TwoHopQuote)) :
    Prop where
  source_ne : ∀ s ∈ samples, s.source ≠ .multiHop
  samples : ∀ s ∈ samples, s.source = .uniswapV3 →
    s.samples = [] ∨ ∃ op : Operation, s.samples = op.dexSamples
  hops : ∀ quotes ∈ twoHopSamples, ∀ quote ∈ quotes, ∀ hop,
    quote.firstHopSource = some hop ∨ quote.secondHopSource = some hop →
      hop.source = .uniswapV3 → ∃ op : Operation, op.Positive ∧ hop.fillData = op.fillData

/-- A fill that the optimizer makes of what the router answers for its paths. -/
def RoutedFill [Arithmetic] (o : NeonPathOptimizer) (samples : List SourceSamples)
    (twoHopSamples : List (List TwoHopQuote)) (nativeOrders : List NativeOrderWithFillableAmounts)
    (fill : Fill) : Prop :=
  ∃ (amounts : ℕ → RoutedAmounts) (precisionErrorScalar : BigNumber) (fills : List Fill),
    o.addFills precisionErrorScalar
        (NeonPathOptimizer.routeByPosition
          (o.allRoutablePaths samples twoHopSamples nativeOrders) amounts) [] = .ok (some fills) ∧
      fill ∈ fills

/-- A fill that an order is created of: one that was routed, or a hop of a two-hop that was. -/
inductive Created [Arithmetic] (o : NeonPathOptimizer) (samples : List SourceSamples)
    (twoHopSamples : List (List TwoHopQuote)) (nativeOrders : List NativeOrderWithFillableAmounts) :
    Fill → Prop
  | routed {fill : Fill} (routed : RoutedFill o samples twoHopSamples nativeOrders fill) :
    Created o samples twoHopSamples nativeOrders fill
  | firstHop {fill : Fill} {firstSource secondSource : ERC20BridgeSource}
    {firstData secondData : FillData} {intermediateToken : String}
    (routed : RoutedFill o samples twoHopSamples nativeOrders fill)
    (fillData_eq :
      fill.fillData = .multiHop firstSource firstData secondSource secondData intermediateToken) :
    Created o samples twoHopSamples nativeOrders
      (firstHopFill firstSource firstData fill.input fill.output o.pathContext.side)
  | secondHop {fill : Fill} {firstSource secondSource : ERC20BridgeSource}
    {firstData secondData : FillData} {intermediateToken : String}
    (routed : RoutedFill o samples twoHopSamples nativeOrders fill)
    (fillData_eq :
      fill.fillData = .multiHop firstSource firstData secondSource secondData intermediateToken) :
    Created o samples twoHopSamples nativeOrders
      (secondHopFill secondSource secondData fill.input fill.output o.pathContext.side)

/-- What a fill is made of: a native order, a routed sample of a source or a valid two-hop quote. -/
inductive MadeOf (samples : List SourceSamples) (twoHopSamples : List (List TwoHopQuote))
    (fill : Fill) : Prop
  | nativeOrder (order : NativeOrderWithFillableAmounts) (source_eq : fill.source = .native)
    (fillData_eq : fill.fillData = .native order)
  | dexSample (s : SourceSamples) (mem : s ∈ samples)
    (enough : MIN_NUM_SAMPLE_INPUTS ≤ (NeonPathOptimizer.withOutput s.samples).length)
    (sample : DexSample) (sample_mem : sample ∈ s.samples) (source_eq : fill.source = s.source)
    (fillData_eq : fill.fillData = sample.fillData)
  | twoHop (quotes : List TwoHopQuote) (mem : quotes ∈ twoHopSamples) (quote : TwoHopQuote)
    (quote_mem : quote ∈ quotes) (sample : TwoHopSample) (valid : quote.valid = some sample)
    (source_eq : fill.source = .multiHop) (fillData_eq : fill.fillData = sample.fillData)

section Fills

variable [Arithmetic] {o : NeonPathOptimizer} {samples : List SourceSamples}
  {twoHopSamples : List (List TwoHopQuote)} {nativeOrders : List NativeOrderWithFillableAmounts}
  {fill : Fill}

/-- The fills of the paths that the optimizer answers with are routed. -/
theorem routedFill_of_findRoutes {router : NeonRouter} {allSourcesPath vipSourcesPath : Option Path}
    (h : o.findRoutesAndCreateOptimalPath router samples twoHopSamples nativeOrders =
      .ok (some (allSourcesPath, vipSourcesPath)))
    {path : Path} (hpath : allSourcesPath = some path ∨ vipSourcesPath = some path)
    (hfill : fill ∈ path.fills) : RoutedFill o samples twoHopSamples nativeOrders fill := by
  have hrouted : ∀ amounts, o.createPathFromRoute (NeonPathOptimizer.routeByPosition
      (o.allRoutablePaths samples twoHopSamples nativeOrders) amounts) = .ok (some path) →
        RoutedFill o samples twoHopSamples nativeOrders fill := by
    intro amounts hcreated
    obtain ⟨fills, _, hadded, _, hfills⟩ := o.createPathFromRoute_eq_some hcreated
    exact ⟨amounts, _, fills, hadded, hfills ▸ hfill⟩
  cases hcapture : o.optimizerCapture samples twoHopSamples nativeOrders with
  | none =>
    unfold NeonPathOptimizer.findRoutesAndCreateOptimalPath at h
    rw [hcapture] at h
    cases h
  | some capture =>
    rw [o.findRoutesAndCreateOptimalPath_eq router hcapture] at h
    obtain ⟨_, hall, h⟩ := Fallible.bind_eq_ok.mp h
    obtain ⟨_, hvip, h⟩ := Fallible.bind_eq_ok.mp h
    cases h
    rcases hpath with rfl | rfl
    · exact hrouted _ hall
    · exact hrouted _ hvip

/-- A routed fill is that of an entry for one of the paths. -/
theorem RoutedFill.entry (h : RoutedFill o samples twoHopSamples nativeOrders fill) :
    ∃ path ∈ o.allRoutablePaths samples twoHopSamples nativeOrders,
      ∃ (entry : RouteEntry) (routedInput : BigNumber),
        entry.routablePath = path.routablePath ∧ o.FillOfEntry routedInput entry fill := by
  obtain ⟨amounts, scalar, fills, hfills, hmem⟩ := h
  obtain ⟨added, rfl, hadded⟩ := o.addFills_eq_some hfills
  obtain ⟨entry, hentry, hfill⟩ := Fallible.exists_of_mem_right hadded hmem
  obtain ⟨j, hj, rfl⟩ := List.mem_mapIdx.mp (List.mem_of_mem_filter hentry)
  exact ⟨_, List.getElem_mem hj, _, _, rfl, o.fillOfEntry hfill⟩

/-- The fill of an entry of samples has the fill data of one of them. -/
theorem fillData_of_samples {routedInput : BigNumber} {entry : RouteEntry} {s : SourceSamples}
    (hpath : entry.routablePath = .dexSamples s) (h : o.FillOfEntry routedInput entry fill) :
    fill.source = s.source ∧ ∃ sample ∈ s.samples, fill.fillData = sample.fillData := by
  cases h with
  | nativeOrder orders order path_eq =>
    rw [hpath] at path_eq
    cases path_eq
  | dexSamples routeSamples first rest path_eq samples_eq _ _ source_eq _ fillData_eq =>
    rw [hpath] at path_eq
    cases path_eq
    refine ⟨source_eq, ?_⟩
    obtain ⟨sample, hmem, hclosest⟩ :=
      PathOptimizer.closestSample_cases routedInput entry.outputAmount first rest
    rw [← samples_eq] at hmem
    refine ⟨sample, hmem, fillData_eq.trans ?_⟩
    rcases hclosest with heq | heq
    · rw [heq]
    · rw [heq]

/-- Every routed fill is made of something that was passed to the router. -/
theorem RoutedFill.madeOf (h : RoutedFill o samples twoHopSamples nativeOrders fill) :
    MadeOf samples twoHopSamples fill := by
  obtain ⟨path, hpath, entry, routedInput, heq, hof⟩ := h.entry
  -- what kind of path it is decides what its fills are made of
  refine o.allRoutablePaths_forall (P := fun path => entry.routablePath = path.routablePath →
    MadeOf samples twoHopSamples fill) ?_ ?_ ?_ path hpath heq
  · intro s hs i henough heq
    obtain ⟨hsource, sample, hmem, hdata⟩ := fillData_of_samples heq hof
    exact .dexSample s hs henough sample ((List.rdropWhile_prefix _ _).subset hmem) hsource hdata
  · intro quotes hquotes heq
    obtain ⟨hsource, sample, hmem, hdata⟩ := fillData_of_samples heq hof
    obtain ⟨twoHop, htwoHop, rfl⟩ := List.mem_map.mp hmem
    obtain ⟨quote, hquote, hvalid⟩ := List.mem_filterMap.mp htwoHop
    exact .twoHop quotes hquotes quote hquote twoHop hvalid hsource hdata
  · intro order _ i j _ heq
    cases hof with
    | dexSamples routeSamples first rest path_eq =>
      rw [heq] at path_eq
      cases path_eq
    | nativeOrder orders order _ _ _ _ source_eq _ fillData_eq =>
      exact .nativeOrder order source_eq fillData_eq

/-! ### What the optimizer admits -/

omit [Arithmetic] in
theorem source_eq_multiHop {source : ERC20BridgeSource} (h : source.sampledShape = .multiHop) :
    source = .multiHop := by
  cases source <;> first
    | rfl
    | cases h

omit [Arithmetic] in
/-- The hops of a valid quote are those that were set. -/
theorem hops_of_valid {quote : TwoHopQuote} {sample : TwoHopSample}
    (h : quote.valid = some sample) :
    quote.firstHopSource = some sample.firstHopSource ∧
      quote.secondHopSource = some sample.secondHopSource := by
  unfold TwoHopQuote.valid at h
  split at h
  · rename_i hfirst hsecond
    split at h
    · cases h
      exact ⟨hfirst, hsecond⟩
    · cases h
  · cases h

omit [Arithmetic] in
/-- A source with enough routed samples had a positive output. -/
theorem positive_of_withOutput {op : Operation}
    (henough : MIN_NUM_SAMPLE_INPUTS ≤ (NeonPathOptimizer.withOutput op.dexSamples).length) :
    op.Positive := by
  have hne : NeonPathOptimizer.withOutput op.dexSamples ≠ [] := by
    intro hnil
    rw [hnil] at henough
    exact absurd henough (by decide)
  have hlast := (List.rdropWhile_prefix _ _).subset (List.getLast_mem hne)
  have hsampled : ∀ sample ∈ op.dexSamples,
      NeonPathOptimizer.IsSampledAmount sample.output := by
    intro sample hsample _
    obtain ⟨_, amount, _, houtput⟩ := op.mem_dexSamples hsample
    exact ⟨amount, houtput⟩
  obtain ⟨n, hn, hpos⟩ := NeonPathOptimizer.withOutput_getLast hsampled hne
  obtain ⟨_, amount, hmem, houtput⟩ := op.mem_dexSamples hlast
  rw [hn] at houtput
  refine ⟨amount, hmem, ?_⟩
  cases Nat.cast_injective (BigNumber.fin.inj houtput)
  exact hpos

/-- The fill data of a routed fill of Uniswap V3 is that of an operation with a positive output. -/
theorem RoutedFill.uniswapV3 (h : RoutedFill o samples twoHopSamples nativeOrders fill)
    (hsampler : FromSampler samples twoHopSamples) (hsource : fill.source = .uniswapV3) :
    ∃ op : Operation, op.Positive ∧ fill.fillData = op.fillData := by
  cases h.madeOf with
  | nativeOrder order source_eq =>
    rw [hsource] at source_eq
    cases source_eq
  | twoHop _ _ _ _ _ _ source_eq =>
    rw [hsource] at source_eq
    cases source_eq
  | dexSample s mem enough sample sample_mem source_eq fillData_eq =>
    obtain hnil | ⟨op, hop⟩ := hsampler.samples s mem (source_eq.symm.trans hsource)
    · rw [hnil] at sample_mem
      cases sample_mem
    · rw [hop] at enough sample_mem
      exact ⟨op, positive_of_withOutput enough, fillData_eq.trans (op.mem_dexSamples sample_mem).1⟩

/-- The hops of a routed two-hop fill are those of a quote of the sampler. -/
theorem RoutedFill.multiHop (h : RoutedFill o samples twoHopSamples nativeOrders fill)
    (hsampler : FromSampler samples twoHopSamples) {firstSource secondSource : ERC20BridgeSource}
    {firstData secondData : FillData} {intermediateToken : String}
    (hdata :
      fill.fillData = .multiHop firstSource firstData secondSource secondData intermediateToken) :
    (firstSource = .uniswapV3 → ∃ op : Operation, op.Positive ∧ firstData = op.fillData) ∧
      (secondSource = .uniswapV3 → ∃ op : Operation, op.Positive ∧ secondData = op.fillData) := by
  cases h.madeOf with
  | nativeOrder order _ fillData_eq =>
    rw [hdata] at fillData_eq
    cases fillData_eq
  | dexSample s mem _ sample sample_mem source_eq fillData_eq =>
    -- only a two-hop source has fill data of that shape
    have hshape := sample.sampled.1
    rw [← fillData_eq, hdata, s.source_eq sample sample_mem] at hshape
    exact absurd (source_eq_multiHop hshape.symm) (hsampler.source_ne s mem)
  | twoHop quotes mem quote quote_mem sample valid _ fillData_eq =>
    rw [hdata] at fillData_eq
    cases fillData_eq
    obtain ⟨hfirst, hsecond⟩ := hops_of_valid valid
    exact ⟨hsampler.hops quotes mem quote quote_mem _ (.inl hfirst),
      hsampler.hops quotes mem quote quote_mem _ (.inr hsecond)⟩

/-- A fill that an order is created of has the fill data of an operation with a positive output. -/
theorem Created.uniswapV3 (h : Created o samples twoHopSamples nativeOrders fill)
    (hsampler : FromSampler samples twoHopSamples) (hsource : fill.source = .uniswapV3) :
    ∃ op : Operation, op.Positive ∧ fill.fillData = op.fillData := by
  cases h with
  | routed routed => exact routed.uniswapV3 hsampler hsource
  | firstHop routed fillData_eq =>
    unfold firstHopFill at hsource ⊢
    split at hsource
    · exact (routed.multiHop hsampler fillData_eq).1 hsource
    · exact (routed.multiHop hsampler fillData_eq).1 hsource
  | secondHop routed fillData_eq =>
    unfold secondHopFill at hsource ⊢
    split at hsource
    · exact (routed.multiHop hsampler fillData_eq).2 hsource
    · exact (routed.multiHop hsampler fillData_eq).2 hsource

/-- Every fill of Uniswap V3 that an order is created of gets the entry for its input, whatever that
is. -/
theorem uniswapV3Fill_spec (hsampler : FromSampler samples twoHopSamples)
    (h : Created o samples twoHopSamples nativeOrders fill) (hsource : fill.source = .uniswapV3) :
    ∃ tokenAddressPath router pathAmounts,
      fill.fillData = .tickDexMultiPath tokenAddressPath router pathAmounts ∧
        ∀ inputAmount : BigNumber, ∃ best,
          getBestUniswapV3PathAmountForInputAmount pathAmounts inputAmount = .ok (some best) ∧
            IsBestFor pathAmounts inputAmount best ∧
              createFinalBridgeOrderFillDataFromCollapsedFill fill.source fill.fillData inputAmount
                = .ok (.finalTickDexMultiPath tokenAddressPath router best.path best.gasUsed) := by
  obtain ⟨op, hpos, hdata⟩ := h.uniswapV3 hsampler hsource
  refine ⟨op.tokenAddressPath, op.router, op.pathAmounts, hdata, fun inputAmount => ?_⟩
  obtain ⟨best, hok, hbest⟩ := op.best_spec hpos inputAmount
  refine ⟨best, hok, hbest, ?_⟩
  rw [hsource, hdata]
  unfold createFinalBridgeOrderFillDataFromCollapsedFill Operation.fillData
  dsimp only
  rw [hok]
  rfl

end Fills

/-! ### Ten bought through one pool -/

/-- A pool sells at two for one, and has forty. -/
def cappedQuotes (amounts : List ℕ) : CallOutcome :=
  .reverted
    (.result (amounts.map fun amount => if amount ≤ 40 then 2 * amount else 0)
      (amounts.map fun _ => 100))

theorem cappedQuotes_answers (amounts : List ℕ) :
    (cappedQuotes amounts).Answers amounts.length := by
  intro outputs gasEstimates h
  cases h
  simp

/-- The chain with that pool. -/
def cappedChain : Chain :=
  { sampleChain with
    multiQuoter :=
      { sampleChain.multiQuoter with
        quoteExactMultiOutput := fun _ amounts => cappedQuotes amounts
        output_answers := fun _ amounts => cappedQuotes_answers amounts } }

/-- What the sampler returns for 10, 20, 40 and 80: the last is marked by an empty path. -/
def cappedResult : Samples where
  uniswapPaths := List.replicate 3 [.token 1, .fee 500, .token 2] ++ [[]]
  uniswapGasUsed := [100, 100, 100, 0]
  amounts := [20, 40, 80, 0]

theorem sampleBuys_capped :
    sampleBuysFromUniswapV3 cappedChain [1, 2] [10, 20, 40, 80] = .ok cappedResult := by
  decide +kernel

/-- The operation of that call. -/
def cappedOperation : Operation where
  tokenAddressPath := ["input", "output"]
  router := "router"
  amounts := [10, 20, 40, 80]
  sorted := by decide
  result := cappedResult
  returned := ⟨cappedChain, [1, 2], [10, 20, 40, 80], rfl, .inr sampleBuys_capped⟩

/-- The samples of Uniswap V3 that the optimizer is given. -/
def cappedSamples : SourceSamples where
  source := .uniswapV3
  samples := cappedOperation.dexSamples
  source_eq := by simp [Operation.dexSamples, cappedOperation, cappedResult]

/-- An optimizer for a buy. -/
def buyOptimizer : NeonPathOptimizer :=
  { RoutedPath.plainOptimizer .buy 10 with chainId := .mainnet, neonRouterNumSamples := 14 }

/-- The fill is for all of the ten, and none of its inputs gets the empty path. -/
theorem uniswapV3Fill_spec_capped :
    ∃ fill, Created buyOptimizer [cappedSamples] [] [] fill ∧
      fill.source = .uniswapV3 ∧
        ∃ tokenAddressPath router pathAmounts,
          fill.fillData = .tickDexMultiPath tokenAddressPath router pathAmounts ∧
            ∀ inputAmount : BigNumber, ∃ best,
              getBestUniswapV3PathAmountForInputAmount pathAmounts inputAmount = .ok (some best) ∧
                IsBestFor pathAmounts inputAmount best ∧
                  createFinalBridgeOrderFillDataFromCollapsedFill fill.source fill.fillData
                    inputAmount
                    = .ok
                      (.finalTickDexMultiPath tokenAddressPath router best.path best.gasUsed) := by
  have hsampler : FromSampler [cappedSamples] [] := by
    constructor
    · simp [cappedSamples]
    · simp only [List.forall_mem_singleton]
      exact fun _ => .inr ⟨cappedOperation, rfl⟩
    · simp
  obtain ⟨fill, hrouted, hsource⟩ : ∃ fill,
      RoutedFill buyOptimizer [cappedSamples] [] [] fill ∧ fill.source = .uniswapV3 :=
    ⟨_, ⟨fun _ => ⟨.fin 10, .fin 20⟩, 1, _, rfl, List.mem_cons_self⟩, by decide +kernel⟩
  exact ⟨fill, .routed hrouted, hsource, uniswapV3Fill_spec hsampler (.routed hrouted) hsource⟩

end ZeroExApi.UniswapV3PathAmounts
