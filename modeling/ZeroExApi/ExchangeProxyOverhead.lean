/-
# ZeroExApi.ExchangeProxyOverhead — the gas a path is ranked with, and the call its quote becomes

`EXCHANGE_PROXY_OVERHEAD_FULLY_FEATURED` of `options.ts` estimates, from the source flags of a path,
what the exchange proxy adds to filling it: little for the routes with a feature of their own, the
overhead of the fill-quote transformer for all others.  The consumer decides between these routes by
the orders of the path.

The two agree on which paths avoid transformERC20 except for two kinds (`overhead_agrees_iff`).
-/

import ZeroExApi.SwapQuoteConsumer

namespace ZeroExApi.ExchangeProxyOverhead

open ZeroExApi.Lib ZeroExApi.Lib.Fallible ZeroExApi.Lib.BitFlags ZeroExApi.Orders ZeroExApi.Fills
open ZeroExApi.QuoteConsumerUtils ZeroExApi.RoutedPath ZeroExApi.ExchangeProxySwapQuoteConsumer

/-! ## The overhead -/

def TX_BASE_GAS : BigNumber := .fin 21000

def FILL_QUOTE_TRANSFORMER_GAS_OVERHEAD : BigNumber := .fin 150000

def MULTIPLEX_BATCH_FILL_SOURCE_FLAGS : ℕ :=
  SOURCE_FLAGS (.source .uniswapV2) ||| SOURCE_FLAGS (.source .sushiSwap) |||
    SOURCE_FLAGS .rfqOrder ||| SOURCE_FLAGS (.source .uniswapV3) ||| SOURCE_FLAGS .otcOrder

def MULTIPLEX_MULTIHOP_FILL_SOURCE_FLAGS : ℕ :=
  SOURCE_FLAGS (.source .uniswapV2) ||| SOURCE_FLAGS (.source .sushiSwap) |||
    SOURCE_FLAGS (.source .uniswapV3)

/-- `EXCHANGE_PROXY_OVERHEAD_FULLY_FEATURED` for the configured chain. -/
def EXCHANGE_PROXY_OVERHEAD_FULLY_FEATURED (chainId : ChainId) (sourceFlags : ℕ) : BigNumber :=
  if sourceFlags ∈ [SOURCE_FLAGS (.source .uniswapV2), SOURCE_FLAGS (.source .sushiSwap)] then
    TX_BASE_GAS
  else if
    sourceFlags ∈
        [SOURCE_FLAGS (.source .sushiSwap), SOURCE_FLAGS (.source .pancakeSwap),
          SOURCE_FLAGS (.source .pancakeSwapV2), SOURCE_FLAGS (.source .bakerySwap),
          SOURCE_FLAGS (.source .apeSwap)] ∧
      chainId = .bsc then
    TX_BASE_GAS
  else if SOURCE_FLAGS (.source .uniswapV3) = sourceFlags then
    TX_BASE_GAS.plus (.fin 5000)
  else if SOURCE_FLAGS (.source .curve) = sourceFlags then
    TX_BASE_GAS.plus (.fin 40000)
  else if SOURCE_FLAGS .rfqOrder = sourceFlags then
    TX_BASE_GAS.plus (.fin 5000)
  else if SOURCE_FLAGS .otcOrder = sourceFlags then
    TX_BASE_GAS
  else if
    MULTIPLEX_BATCH_FILL_SOURCE_FLAGS ||| sourceFlags = MULTIPLEX_BATCH_FILL_SOURCE_FLAGS then
    if sourceFlags &&& SOURCE_FLAGS .otcOrder = SOURCE_FLAGS .otcOrder then
      TX_BASE_GAS.plus (.fin 10000)
    else
      TX_BASE_GAS.plus (.fin 15000)
  else if
    MULTIPLEX_MULTIHOP_FILL_SOURCE_FLAGS ||| sourceFlags =
      MULTIPLEX_MULTIHOP_FILL_SOURCE_FLAGS ||| SOURCE_FLAGS (.source .multiHop) then
    TX_BASE_GAS.plus (.fin 25000)
  else
    FILL_QUOTE_TRANSFORMER_GAS_OVERHEAD

/-! ## Which flags have a small overhead -/

/-- The keys of `MULTIPLEX_BATCH_FILL_SOURCE_FLAGS`. -/
def batchKeys : List SourceFlagKey :=
  [.source .uniswapV2, .source .sushiSwap, .rfqOrder, .source .uniswapV3, .otcOrder]

/-- The keys of `MULTIPLEX_MULTIHOP_FILL_SOURCE_FLAGS`. -/
def multiHopKeys : List SourceFlagKey :=
  [.source .uniswapV2, .source .sushiSwap, .source .uniswapV3]

/-- The flags a set of keys of paths has. -/
def flagsOf (keys : List SourceFlagKey) : ℕ := mergeFlags (keys.map SOURCE_FLAGS)

section Keys

variable {keys : List SourceFlagKey} {key : SourceFlagKey}

/-- Without the empty flag of native orders, the bits are the indices of the keys. -/
theorem flagsOf_eq (hkeys : ∀ k ∈ keys, k ≠ .source .native) :
    flagsOf keys = mergeFlags ((keys.map SourceFlagKey.index).map flag) := by
  rw [flagsOf, List.map_map]
  congr 1
  exact List.map_congr_left fun k hk => SOURCE_FLAGS_of_ne (hkeys k hk)

theorem testBit_flagsOf (hkeys : ∀ k ∈ keys, k ≠ .source .native) (i : ℕ) :
    (flagsOf keys).testBit i = true ↔ ∃ k ∈ keys, k.index = i := by
  rw [flagsOf_eq hkeys, testBit_mergeFlags, List.mem_map]

/-- The flags are one flag when all keys are that key. -/
theorem flagsOf_eq_flag_iff (hkeys : ∀ k ∈ keys, k ≠ .source .native) (hne : keys ≠ [])
    (hkey : key ≠ .source .native) :
    flagsOf keys = SOURCE_FLAGS key ↔ ∀ k ∈ keys, k = key := by
  rw [flagsOf_eq hkeys, SOURCE_FLAGS_of_ne hkey, mergeFlags_eq_flag_iff, List.forall_mem_map]
  constructor
  · rintro ⟨_, hall⟩ k hk
    exact SourceFlagKey.index_injective (hall k hk)
  · intro hall
    obtain ⟨k, hk⟩ := List.exists_mem_of_ne_nil _ hne
    refine ⟨List.mem_map.mpr ⟨k, hk, by rw [hall k hk]⟩, fun k' hk' => by rw [hall k' hk']⟩

theorem testBit_batchFlags (i : ℕ) :
    MULTIPLEX_BATCH_FILL_SOURCE_FLAGS.testBit i = true ↔ ∃ k ∈ batchKeys, k.index = i := by
  have hflags : MULTIPLEX_BATCH_FILL_SOURCE_FLAGS = flagsOf batchKeys := by decide
  rw [hflags]
  exact testBit_flagsOf (by decide) i

theorem testBit_multiHopFlags (i : ℕ) :
    MULTIPLEX_MULTIHOP_FILL_SOURCE_FLAGS.testBit i = true ↔ ∃ k ∈ multiHopKeys, k.index = i := by
  have hflags : MULTIPLEX_MULTIHOP_FILL_SOURCE_FLAGS = flagsOf multiHopKeys := by decide
  rw [hflags]
  exact testBit_flagsOf (by decide) i

/-- A branch with a small overhead makes the choice of the branch count. -/
theorem ite_lt_iff {c : Prop} [Decidable c] {small other : BigNumber}
    (h : small.lt FILL_QUOTE_TRANSFORMER_GAS_OVERHEAD = true) :
    (if c then small else other).lt FILL_QUOTE_TRANSFORMER_GAS_OVERHEAD = true ↔
      c ∨ other.lt FILL_QUOTE_TRANSFORMER_GAS_OVERHEAD = true := by
  split
  · rename_i hc
    exact iff_of_true h (.inl hc)
  · rename_i hc
    rw [or_iff_right hc]

/-- The flags for which a branch with a small overhead is taken. -/
theorem overhead_lt_iff_flags (flags : ℕ) :
    (EXCHANGE_PROXY_OVERHEAD_FULLY_FEATURED .mainnet flags).lt
        FILL_QUOTE_TRANSFORMER_GAS_OVERHEAD = true ↔
      flags ∈ [SOURCE_FLAGS (.source .uniswapV2), SOURCE_FLAGS (.source .sushiSwap)] ∨
        SOURCE_FLAGS (.source .uniswapV3) = flags ∨ SOURCE_FLAGS (.source .curve) = flags ∨
        SOURCE_FLAGS .rfqOrder = flags ∨ SOURCE_FLAGS .otcOrder = flags ∨
        MULTIPLEX_BATCH_FILL_SOURCE_FLAGS ||| flags = MULTIPLEX_BATCH_FILL_SOURCE_FLAGS ∨
        MULTIPLEX_MULTIHOP_FILL_SOURCE_FLAGS ||| flags =
          MULTIPLEX_MULTIHOP_FILL_SOURCE_FLAGS ||| SOURCE_FLAGS (.source .multiHop) := by
  have hbase : TX_BASE_GAS.lt FILL_QUOTE_TRANSFORMER_GAS_OVERHEAD = true := by decide +kernel
  have hplus : ∀ more : ℚ, more ≤ 40000 →
      (TX_BASE_GAS.plus (.fin more)).lt FILL_QUOTE_TRANSFORMER_GAS_OVERHEAD = true := by
    intro more hmore
    rw [TX_BASE_GAS, FILL_QUOTE_TRANSFORMER_GAS_OVERHEAD, BigNumber.plus_fin, BigNumber.lt_fin,
      decide_eq_true_iff]
    linarith
  unfold EXCHANGE_PROXY_OVERHEAD_FULLY_FEATURED
  rw [ite_lt_iff hbase, if_neg fun h => absurd h.2 (by decide), ite_lt_iff (hplus _ (by norm_num)),
    ite_lt_iff (hplus _ (by norm_num)), ite_lt_iff (hplus _ (by norm_num)), ite_lt_iff hbase,
    ite_lt_iff, ite_lt_iff (hplus _ (by norm_num))]
  · have hlast : FILL_QUOTE_TRANSFORMER_GAS_OVERHEAD.lt FILL_QUOTE_TRANSFORMER_GAS_OVERHEAD =
        false := by decide +kernel
    simp only [hlast, Bool.false_eq_true, or_false]
  · split
    · exact hplus _ (by norm_num)
    · exact hplus _ (by norm_num)

/-- The keys of the paths with a small overhead: only Curve, only sources of a batch, or two-hops
and nothing but sources of a multi-hop. -/
theorem overhead_lt_iff (hkeys : ∀ k ∈ keys, k ≠ .source .native) (hne : keys ≠ []) :
    (EXCHANGE_PROXY_OVERHEAD_FULLY_FEATURED .mainnet (flagsOf keys)).lt
        FILL_QUOTE_TRANSFORMER_GAS_OVERHEAD = true ↔
      (∀ k ∈ keys, k = .source .curve) ∨ (∀ k ∈ keys, k ∈ batchKeys) ∨
        (.source .multiHop ∈ keys ∧ ∀ k ∈ keys, k = .source .multiHop ∨ k ∈ multiHopKeys) := by
  have hindex : ∀ {k : SourceFlagKey} {ks : List SourceFlagKey},
      (∃ k' ∈ ks, k'.index = k.index) ↔ k ∈ ks := by
    intro k ks
    constructor
    · rintro ⟨k', hk', heq⟩
      rwa [← SourceFlagKey.index_injective heq]
    · intro hk
      exact ⟨k, hk, rfl⟩
  have hbatch : MULTIPLEX_BATCH_FILL_SOURCE_FLAGS ||| flagsOf keys =
      MULTIPLEX_BATCH_FILL_SOURCE_FLAGS ↔ ∀ k ∈ keys, k ∈ batchKeys := by
    rw [or_eq_left_iff]
    simp only [testBit_flagsOf hkeys, testBit_batchFlags]
    constructor
    · intro h k hk
      exact hindex.mp (h k.index ⟨k, hk, rfl⟩)
    · rintro h i ⟨k, hk, rfl⟩
      exact hindex.mpr (h k hk)
  have hmultiHop : MULTIPLEX_MULTIHOP_FILL_SOURCE_FLAGS ||| flagsOf keys =
      MULTIPLEX_MULTIHOP_FILL_SOURCE_FLAGS ||| SOURCE_FLAGS (.source .multiHop) ↔
        .source .multiHop ∈ keys ∧ ∀ k ∈ keys, k = .source .multiHop ∨ k ∈ multiHopKeys := by
    have hfresh : MULTIPLEX_MULTIHOP_FILL_SOURCE_FLAGS.testBit
        (SourceFlagKey.source .multiHop).index = false := by decide
    rw [SOURCE_FLAGS_of_ne (by decide), or_eq_or_flag_iff hfresh]
    simp only [testBit_flagsOf hkeys, testBit_multiHopFlags, hindex]
    constructor
    · rintro ⟨hmem, hall⟩
      refine ⟨hmem, fun k hk => (hall k.index ⟨k, hk, rfl⟩).imp ?_ hindex.mp⟩
      intro heq
      exact SourceFlagKey.index_injective heq
    · rintro ⟨hmem, hall⟩
      refine ⟨hmem, ?_⟩
      rintro i ⟨k, hk, rfl⟩
      exact (hall k hk).imp (congrArg _) hindex.mpr
  have hone : ∀ {key : SourceFlagKey}, key ≠ .source .native →
      (flagsOf keys = SOURCE_FLAGS key ↔ ∀ k ∈ keys, k = key) :=
    fun hkey => flagsOf_eq_flag_iff hkeys hne hkey
  -- a single source other than Curve is one of a batch
  have hsingle : ∀ {key : SourceFlagKey}, key ∈ batchKeys → flagsOf keys = SOURCE_FLAGS key →
      ∀ k ∈ keys, k ∈ batchKeys := by
    intro key hkey heq k hk
    have hnative : key ≠ .source .native := fun h => absurd (h ▸ hkey) (by decide)
    rw [(hone hnative).mp heq k hk]
    exact hkey
  rw [overhead_lt_iff_flags, List.mem_pair, hbatch, hmultiHop]
  constructor
  · rintro ((h | h) | h | h | h | h | h | h)
    · exact .inr (.inl (hsingle (by decide) h))
    · exact .inr (.inl (hsingle (by decide) h))
    · exact .inr (.inl (hsingle (by decide) h.symm))
    · exact .inl ((hone (by decide)).mp h.symm)
    · exact .inr (.inl (hsingle (by decide) h.symm))
    · exact .inr (.inl (hsingle (by decide) h.symm))
    · exact .inr (.inl h)
    · exact .inr (.inr h)
  · rintro (h | h | h)
    · exact .inr (.inr (.inl ((hone (by decide)).mpr h).symm))
    · exact .inr (.inr (.inr (.inr (.inr (.inl h)))))
    · exact .inr (.inr (.inr (.inr (.inr (.inr h)))))

end Keys

/-! ## The keys of a path -/

/-- A fill with the flag of its source. -/
def FlaggedFill (fill : Fill) : Prop := fill.flags = SOURCE_FLAGS (flagKey fill.source fill.type)

/-- The keys of the fills of a path. -/
def pathKeys (path : Path) : List SourceFlagKey :=
  path.fills.map fun fill => flagKey fill.source fill.type

theorem flaggedFill_of_entry {o : PathOptimizer} {routedInput : BigNumber} {entry : RouteEntry}
    {fill : Fill} (h : o.FillOfEntry routedInput entry fill) : FlaggedFill fill := by
  cases h with
  | dexSamples routeSamples first rest hpath hsamples _ _ hsource htype _ hflags =>
    rw [FlaggedFill, hsource, htype]
    exact hflags
  | nativeOrder orders order _ _ _ _ hsource htype _ hflags =>
    rw [FlaggedFill, hsource, htype]
    exact hflags

theorem pathKeys_ne_native (path : Path) : ∀ k ∈ pathKeys path, k ≠ .source .native := by
  intro k hk
  obtain ⟨fill, _, rfl⟩ := List.mem_map.mp hk
  exact flagKey_ne_native fill.source fill.type

theorem sourceFlags_eq {path : Path} (hflagged : ∀ f ∈ path.fills, FlaggedFill f) :
    path.sourceFlags = flagsOf (pathKeys path) := by
  rw [path.flags_merged, flagsOf, pathKeys, List.map_map]
  congr 1
  exact List.map_congr_left hflagged

/-- The key of a source other than native orders. -/
theorem flagKey_eq_source_iff {source key : ERC20BridgeSource}
    {type : FillQuoteTransformerOrderType}
    (hkey : key ≠ .native) : flagKey source type = .source key ↔ source = key := by
  unfold flagKey
  split
  · rename_i hnative
    refine iff_of_false ?_ (fun h => hkey (h.symm.trans hnative))
    cases type <;> exact SourceFlagKey.noConfusion
  · exact ⟨SourceFlagKey.source.inj, congrArg _⟩

/-- A path has a two-hop when it has a two-hop fill. -/
theorem hasTwoHop_iff {path : Path} (hflagged : ∀ f ∈ path.fills, FlaggedFill f) :
    path.hasTwoHop = true ↔ ∃ f ∈ path.fills, f.source = .multiHop := by
  have hbit : path.sourceFlags.testBit (SourceFlagKey.source .multiHop).index = true ↔
      ∃ f ∈ path.fills, f.source = .multiHop := by
    rw [sourceFlags_eq hflagged, testBit_flagsOf (pathKeys_ne_native path)]
    constructor
    · rintro ⟨k, hk, hindex⟩
      obtain ⟨f, hf, rfl⟩ := List.mem_map.mp hk
      exact ⟨f, hf, (flagKey_eq_source_iff (by decide)).mp (SourceFlagKey.index_injective hindex)⟩
    · rintro ⟨f, hf, hsource⟩
      exact ⟨_, List.mem_map_of_mem hf,
        congrArg _ ((flagKey_eq_source_iff (by decide)).mpr hsource)⟩
  rw [← hbit, Path.hasTwoHop, decide_eq_true_iff, SOURCE_FLAGS_of_ne (by decide), flag,
    Nat.one_shiftLeft, Nat.and_two_pow]
  cases path.sourceFlags.testBit (SourceFlagKey.source .multiHop).index with
  | false => simp
  | true => simp

/-! ## The call of a path, by its fills -/

section Path

variable {consumer : ExchangeProxySwapQuoteConsumer} {quote : SwapQuote}
  {opts : ExchangeProxyContractOpts}

/-- A path of sources of a batch is compatible with one. -/
theorem batchCompatible_of_keys (hopts : requiresTransformERC20 opts = false)
    (hflagged : ∀ f ∈ quote.path.fills, FlaggedFill f)
    (hkeys : ∀ k ∈ pathKeys quote.path, k ∈ batchKeys) :
    isMultiplexBatchFillCompatible quote opts = true := by
  have hfill : ∀ f ∈ quote.path.fills, flagKey f.source f.type ∈ batchKeys :=
    fun f hf => hkeys _ (List.mem_map_of_mem hf)
  have hnone : ∀ f ∈ quote.path.fills, f.source ≠ .multiHop := by
    intro f hf hsource
    have hkey := hfill f hf
    rw [(flagKey_eq_source_iff (by decide)).mpr hsource] at hkey
    exact absurd hkey (by decide)
  obtain ⟨_, horders⟩ := quote.path.getOrders_of_no_twoHop hnone
  refine isMultiplexBatchFillCompatible_iff.mpr ⟨hopts, ?_, fun order horder => ?_⟩
  · rw [← Bool.not_eq_true, hasTwoHop_iff hflagged]
    rintro ⟨f, hf, hsource⟩
    exact hnone f hf hsource
  · rw [horders] at horder
    obtain ⟨fill, hmem, hof⟩ := quote.path.exists_fill_of_singleHop horder
    have hkey := hfill fill hmem
    cases hof with
    | native source_eq of_fill =>
      refine ⟨by rw [of_fill.source_eq]; decide, ?_⟩
      rw [of_fill.type_eq]
      intro htype
      rw [source_eq, htype] at hkey
      exact absurd hkey (by decide)
    | bridge isHop _ _ of_fill =>
      refine ⟨?_, by rw [of_fill.type_eq]; decide⟩
      rw [of_fill.source_eq]
      have hne : fill.source ≠ .native := fun heq => by
        rw [heq] at isHop
        exact absurd isHop (by decide)
      rw [flagKey, if_neg hne] at hkey
      revert hkey
      cases fill.source <;> decide

/-- The hops of two-hop fill data. -/
def hopSources : FillData → List ERC20BridgeSource
  | .multiHop firstHopSource _ secondHopSource _ _ => [firstHopSource, secondHopSource]
  | _ => []

/-- Only Curve orders, for which there is no route: several, or one that trades the native token's
wrapper. -/
def CurveWithoutRoute (consumer : ExchangeProxySwapQuoteConsumer) (quote : SwapQuote) : Prop :=
  (∀ f ∈ quote.path.fills, f.source = .curve) ∧
    (quote.path.fills.length ≠ 1 ∨
      consumer.mainnetFeeToken ∈ [quote.takerToken, quote.makerToken])

/-- Two-hops, and nothing but the sources a multi-hop can have, for which there is no route: more
than one fill, or a hop of another source. -/
def TwoHopWithoutRoute (path : Path) : Prop :=
  (∃ f ∈ path.fills, f.source = .multiHop) ∧
    (∀ f ∈ path.fills, f.source = .multiHop ∨ f.source ∈ MULTIPLEX_MULTIHOP_FILL_SOURCES) ∧
    ¬ ∃ f, path.fills = [f] ∧
      ∀ source ∈ hopSources f.fillData, source ∈ MULTIPLEX_MULTIHOP_FILL_SOURCES

/-- Curve orders have a route when there is one and it does not trade the native token's wrapper. -/
theorem otherRoute_curve_iff (hne : quote.path.fills ≠ [])
    (hcurve : ∀ f ∈ quote.path.fills, f.source = .curve) :
    consumer.OtherRoute quote opts ↔ ¬ CurveWithoutRoute consumer quote := by
  have hnone : ∀ f ∈ quote.path.fills, f.source ≠ .multiHop := fun f hf => by
    rw [hcurve f hf]
    decide
  obtain ⟨_, horders⟩ := quote.path.getOrders_of_no_twoHop hnone
  -- there are as many orders as fills, bridge orders of Curve all of them
  have hnative : quote.path.fills.filter (fun fill => fill.source == .native) = [] := by
    apply List.filter_eq_nil_iff.mpr
    intro f hf
    rw [hcurve f hf]
    decide
  have hhop : quote.path.fills.filter (fun fill => fill.source.isHop) = quote.path.fills := by
    apply List.filter_eq_self.mpr
    intro f hf
    rw [hcurve f hf]
    rfl
  have hall := quote.path.singleHopOrders_forall₂
  rw [hnative, hhop, List.nil_append, ← horders] at hall
  have hlength : quote.path.fills.length = quote.path.getOrders.length := hall.length_eq
  have horder : ∀ order ∈ quote.path.getOrders, order.source = .curve ∧ order.type = .bridge := by
    intro order hmem
    obtain ⟨fill, hfill, hof⟩ := exists_of_mem_right hall hmem
    refine ⟨hof.source_eq.trans (hcurve fill hfill), ?_⟩
    cases hof with
    | native source_eq => exact absurd (source_eq.symm.trans (hcurve fill hfill)) (by decide)
    | bridge _ _ _ of_fill => exact of_fill.type_eq
  obtain ⟨first, hfirst⟩ : ∃ order, order ∈ quote.path.getOrders := by
    apply List.exists_mem_of_ne_nil
    intro hnil
    rw [hnil] at hlength
    exact hne (List.eq_nil_of_length_eq_zero hlength)
  obtain ⟨hfirstSource, hfirstType⟩ := horder first hfirst
  have hsame : ∀ {order : OptimizedOrder}, quote.path.getOrders = [order] → order = first := by
    intro order heq
    rw [heq] at hfirst
    exact (List.mem_singleton.mp hfirst).symm
  constructor
  · rintro hroute ⟨_, hwithout⟩
    cases hroute with
    | uniswapV2 order orders_eq source_eq =>
      rw [hsame orders_eq, hfirstSource] at source_eq
      exact absurd source_eq (by decide)
    | uniswapV3 order orders_eq source_eq =>
      rw [hsame orders_eq, hfirstSource] at source_eq
      exact absurd source_eq (by decide)
    | curve order orders_eq source_eq tokens_ne =>
      rcases hwithout with hmany | hwrapper
      · exact hmany (by rw [hlength, orders_eq]; rfl)
      · exact tokens_ne hwrapper
    | rfq _ _ types_eq =>
      rw [types_eq first hfirst] at hfirstType
      exact absurd hfirstType (by decide)
    | otc order orders_eq type_eq =>
      rw [hsame orders_eq, hfirstType] at type_eq
      exact absurd type_eq (by decide)
    | batch compatible =>
      have hsource := ((isMultiplexBatchFillCompatible_iff.mp compatible).2.2 first hfirst).1
      rw [hfirstSource] at hsource
      exact absurd hsource (by decide)
    | multiHop compatible =>
      obtain ⟨_, hbridges, hnatives, _⟩ := isMultiplexMultiHopFillCompatible_iff.mp compatible
      rw [horders, hbridges, hnatives] at hfirst
      exact absurd hfirst List.not_mem_nil
  · intro hwith
    have hsupported : quote.path.fills.length = 1 ∧
        consumer.mainnetFeeToken ∉ [quote.takerToken, quote.makerToken] := by
      constructor
      · by_contra hmany
        exact hwith ⟨hcurve, .inl hmany⟩
      · intro hwrapper
        exact hwith ⟨hcurve, .inr hwrapper⟩
    rw [hlength] at hsupported
    obtain ⟨order, heq⟩ := List.length_eq_one_iff.mp hsupported.1
    exact .curve order heq (horder order (by rw [heq]; exact List.mem_singleton_self _)).1
      hsupported.2

/-- The hops of an order's fill data are the sources of its two orders. -/
theorem hopSources_eq {fillData : FillData} {input output : BigNumber} {context : PathContext}
    {order : TwoHopOrder}
    (h : createOrdersFromTwoHopSample fillData input output context = .ok order) :
    hopSources fillData = [order.firstHopOrder.source, order.secondHopOrder.source] := by
  obtain ⟨s₁, fd₁, s₂, fd₂, token, rfl, hfirst, hsecond⟩ := createOrdersFromTwoHopSample_eq_ok h
  have hsource₁ := hfirst.source_eq
  have hsource₂ := hsecond.source_eq
  rw [hopSources, hsource₁, hsource₂]
  cases context.side <;> rfl

/-- Two-hops have a route when there is one, alone, and both its hops are sources of a multi-hop. -/
theorem otherRoute_twoHop_iff (hopts : requiresTransformERC20 opts = false)
    (hflagged : ∀ f ∈ quote.path.fills, FlaggedFill f)
    (htwoHop : ∃ f ∈ quote.path.fills, f.source = .multiHop)
    (hsources : ∀ f ∈ quote.path.fills,
      f.source = .multiHop ∨ f.source ∈ MULTIPLEX_MULTIHOP_FILL_SOURCES) :
    consumer.OtherRoute quote opts ↔ ¬ TwoHopWithoutRoute quote.path := by
  obtain ⟨twoHopFill, hfill, hsource⟩ := htwoHop
  obtain ⟨twoHopOrder, horder, hof⟩ := exists_of_mem_left quote.path.twoHopOrders_forall₂
    (List.mem_filter.mpr ⟨hfill, beq_iff_eq.mpr hsource⟩)
  have hmany : 1 < quote.path.getOrders.length := by
    obtain ⟨before, after, heq⟩ := List.append_of_mem horder
    rw [Path.getOrders, heq]
    simp only [List.flatMap_append, List.flatMap_cons, List.length_append, List.length_cons,
      List.length_nil]
    omega
  have hnotSingle : ∀ order, quote.path.getOrders ≠ [order] := by
    intro order heq
    rw [heq, List.length_singleton] at hmany
    omega
  have hmem : twoHopOrder.firstHopOrder ∈ quote.path.getOrders :=
    List.mem_append_right _ (List.mem_flatMap.mpr ⟨twoHopOrder, horder, List.mem_cons_self⟩)
  constructor
  · rintro hroute ⟨_, _, hwithout⟩
    cases hroute with
    | uniswapV2 order orders_eq => exact hnotSingle order orders_eq
    | uniswapV3 order orders_eq => exact hnotSingle order orders_eq
    | curve order orders_eq => exact hnotSingle order orders_eq
    | otc order orders_eq => exact hnotSingle order orders_eq
    | rfq _ _ types_eq =>
      obtain ⟨_, _, _, _, _, _, hfirst, _⟩ := createOrdersFromTwoHopSample_eq_ok hof
      have htype := types_eq _ hmem
      rw [hfirst.type_eq] at htype
      exact absurd htype (by decide)
    | batch compatible =>
      have hnone := (isMultiplexBatchFillCompatible_iff.mp compatible).2.1
      rw [(hasTwoHop_iff hflagged).mpr ⟨twoHopFill, hfill, hsource⟩] at hnone
      exact absurd hnone (by decide)
    | multiHop compatible =>
      obtain ⟨_, hbridges, hnatives, order, heq, hfirst, hsecond⟩ :=
        isMultiplexMultiHopFillCompatible_iff.mp compatible
      -- all fills are two-hops, and there is one
      have hall : quote.path.fills.filter (fun fill => fill.source == .multiHop) =
          quote.path.fills := by
        apply List.filter_eq_self.mpr
        intro f hf
        have hbridge := quote.path.bridgeOrders_forall₂
        have hnative := quote.path.nativeOrders_forall₂
        rw [hbridges, List.forall₂_nil_right_iff, List.filter_eq_nil_iff] at hbridge
        rw [hnatives, List.forall₂_nil_right_iff, List.filter_eq_nil_iff] at hnative
        rcases source_cases f.source with ⟨_, h, _⟩ | ⟨_, _, h, _⟩ | ⟨_, _, h⟩
        · exact absurd h (hnative f hf)
        · exact h
        · exact absurd h (hbridge f hf)
      have htwoHops := quote.path.twoHopOrders_forall₂
      rw [hall, heq, List.forall₂_cons_right_iff] at htwoHops
      obtain ⟨f, rest, hf, hrest, hfills⟩ := htwoHops
      rw [List.forall₂_nil_right_iff.mp hrest] at hfills
      refine hwithout ⟨f, hfills, ?_⟩
      rw [hopSources_eq hf, List.forall_mem_cons, List.forall_mem_singleton]
      exact ⟨hfirst, hsecond⟩
  · intro hwith
    obtain ⟨f, hfills, hhops⟩ : ∃ f, quote.path.fills = [f] ∧
        ∀ source ∈ hopSources f.fillData, source ∈ MULTIPLEX_MULTIHOP_FILL_SOURCES := by
      by_contra hnone
      exact hwith ⟨⟨twoHopFill, hfill, hsource⟩, hsources, hnone⟩
    rw [hfills] at hfill
    rw [List.mem_singleton.mp hfill] at hsource
    have htwoHops := quote.path.twoHopOrders_forall₂
    have hbridge := quote.path.bridgeOrders_forall₂
    have hnative := quote.path.nativeOrders_forall₂
    rw [hfills, List.filter_cons_of_pos (by rw [hsource]; rfl), List.filter_nil,
      List.forall₂_cons_left_iff] at htwoHops
    rw [hfills, List.filter_cons_of_neg (by rw [hsource]; decide), List.filter_nil,
      List.forall₂_nil_left_iff] at hbridge hnative
    obtain ⟨order, rest, hf, hrest, heq⟩ := htwoHops
    rw [List.forall₂_nil_left_iff.mp hrest] at heq
    rw [hopSources_eq hf, List.forall_mem_cons, List.forall_mem_singleton] at hhops
    exact .multiHop (isMultiplexMultiHopFillCompatible_iff.mpr
      ⟨hopts, hbridge, hnative, order, heq, hhops.1, hhops.2⟩)

end Path

/-! ## Where the overhead and the call agree -/

theorem curveKeys_iff {path : Path} :
    (∀ k ∈ pathKeys path, k = .source .curve) ↔ ∀ f ∈ path.fills, f.source = .curve := by
  rw [pathKeys, List.forall_mem_map]
  simp only [flagKey_eq_source_iff (show ERC20BridgeSource.curve ≠ .native by decide)]

theorem twoHopKeys_iff {path : Path} :
    (.source .multiHop ∈ pathKeys path ∧
        ∀ k ∈ pathKeys path, k = .source .multiHop ∨ k ∈ multiHopKeys) ↔
      (∃ f ∈ path.fills, f.source = .multiHop) ∧
        ∀ f ∈ path.fills, f.source = .multiHop ∨ f.source ∈ MULTIPLEX_MULTIHOP_FILL_SOURCES := by
  rw [pathKeys, List.forall_mem_map, List.mem_map]
  simp only [multiHopKeys, MULTIPLEX_MULTIHOP_FILL_SOURCES, List.mem_cons, List.not_mem_nil,
    or_false, flagKey_eq_source_iff (show ERC20BridgeSource.multiHop ≠ .native by decide),
    flagKey_eq_source_iff (show ERC20BridgeSource.uniswapV2 ≠ .native by decide),
    flagKey_eq_source_iff (show ERC20BridgeSource.sushiSwap ≠ .native by decide),
    flagKey_eq_source_iff (show ERC20BridgeSource.uniswapV3 ≠ .native by decide)]

/-- On Mainnet, for a routed path and its quote: whenever the path is ranked with less than the
overhead of the fill-quote transformer the call is not a transformERC20, exactly when the path is
not one of Curve orders or of two-hops without a route. -/
theorem overhead_agrees_iff {consumer : ExchangeProxySwapQuoteConsumer}
    (hchain : consumer.chainId = .mainnet) (o : PathOptimizer) {amount : ℕ}
    (hamount : o.inputAmount = .fin amount) {route : Route} (hvalid : ∀ e ∈ route, e.Valid)
    {path : Path} (h : o.createPathFromRoute route = .ok (some path))
    {makerAmountPerEth : BigNumber} {makerToken takerToken : String}
    {assetFillAmount gasPrice : BigNumber} {gasSchedule : GasSchedule} {slippage : ℚ}
    {quote : SwapQuote}
    (hquote : createSwapQuote path makerAmountPerEth makerToken takerToken o.pathContext.side
      assetFillAmount gasPrice gasSchedule slippage = .ok quote)
    (h₀ : 0 ≤ slippage) (h₁ : slippage ≤ 1) {opts : ExchangeProxyContractOpts}
    (hopts : requiresTransformERC20 opts = false) :
    ((EXCHANGE_PROXY_OVERHEAD_FULLY_FEATURED consumer.chainId path.sourceFlags).lt
          FILL_QUOTE_TRANSFORMER_GAS_OVERHEAD = true →
        AvoidsTransformERC20 (consumer.getCalldataOrThrow quote opts)) ↔
      ¬ CurveWithoutRoute consumer quote ∧ ¬ TwoHopWithoutRoute path := by
  obtain ⟨_, _, hfills⟩ := o.fills_of_route_exact hamount hvalid h
  have hof := createSwapQuote_eq_ok hquote
  have hflagged : ∀ f ∈ path.fills, FlaggedFill f := fun f hf => by
    obtain ⟨e, _, hentry⟩ := exists_of_mem_right hfills hf
    exact flaggedFill_of_entry hentry
  have hsampled : ∀ f ∈ path.fills, SampledFill f := fun f hf => by
    obtain ⟨e, _, hentry⟩ := exists_of_mem_right hfills hf
    exact sampledFill_of_entry hentry
  have hne := o.fills_ne_nil h
  have hfits : ∀ order ∈ quote.path.getOrders, OrderFits order := by
    rw [hof.path_eq]
    exact getOrders_fit hsampled
  have havoids := consumer.avoidsTransformERC20_iff hchain hopts hfits
    (by rw [getMaxQuoteSlippageRate, hof.slippage_eq]; exact h₀)
    (by rw [getMaxQuoteSlippageRate, hof.slippage_eq]; exact h₁)
  have hkeysNe : pathKeys path ≠ [] := by simpa [pathKeys] using hne
  rw [hchain, sourceFlags_eq hflagged, overhead_lt_iff (pathKeys_ne_native path) hkeysNe, havoids,
    curveKeys_iff, twoHopKeys_iff]
  rw [← hof.path_eq] at hflagged hne ⊢
  constructor
  · intro hagree
    refine ⟨fun hcurve => ?_, fun htwoHop => ?_⟩
    · exact (otherRoute_curve_iff hne hcurve.1).mp (hagree (.inl hcurve.1)) hcurve
    · have hsmall := And.intro htwoHop.1 htwoHop.2.1
      exact (otherRoute_twoHop_iff hopts hflagged hsmall.1 hsmall.2).mp
        (hagree (.inr (.inr hsmall))) htwoHop
  · rintro ⟨hcurve, htwoHop⟩ hsmall
    -- one order of Curve, a batch, or one two-hop order
    rcases hsmall with hsmall | hsmall | hsmall
    · exact (otherRoute_curve_iff hne hsmall).mpr hcurve
    · exact .batch (batchCompatible_of_keys hopts hflagged hsmall)
    · exact (otherRoute_twoHop_iff hopts hflagged hsmall.1 hsmall.2).mpr htwoHop

/-! ### A two-hop and another source -/

/-- The consumer for Mainnet, with names for addresses. -/
def mainnetConsumer : ExchangeProxySwapQuoteConsumer where
  chainId := .mainnet
  contractAddresses := ⟨"exchangeProxy", "WETH"⟩
  getContractAddressesForChainOrThrow := fun _ => ⟨"exchangeProxy", "WETH"⟩
  encodeFillQuoteTransformerData := TransformERC20Rule.encodeUint256

/-- The halves between Uniswap V2 and a two-hop are ranked as a multi-hop, and their call is a
transformERC20. -/
theorem halves_ranked_as_multiHop :
    (∀ e ∈ SellQuote.halvesRoute, e.Valid) ∧
      ∃ path quote,
        (plainOptimizer .sell 2).createPathFromRoute SellQuote.halvesRoute = .ok (some path) ∧
          createSwapQuote path (.fin 0) "output" "input" .sell (.fin 2) (.fin 0) (fun _ _ => 0) 0 =
            .ok quote ∧
          (EXCHANGE_PROXY_OVERHEAD_FULLY_FEATURED .mainnet path.sourceFlags).lt
              FILL_QUOTE_TRANSFORMER_GAS_OVERHEAD = true ∧
          ¬ AvoidsTransformERC20 (mainnetConsumer.getCalldataOrThrow quote {}) := by
  refine ⟨SellQuote.halvesRoute_valid, ?_⟩
  obtain ⟨path, hpath, hcheck⟩ := (plainOptimizer .sell 2).exists_path_of_madePath
    SellQuote.halvesRoute
    (fun path =>
      okAnd (createSwapQuote path (.fin 0) "output" "input" .sell (.fin 2) (.fin 0)
        (fun _ _ => 0) 0) fun quote =>
        (EXCHANGE_PROXY_OVERHEAD_FULLY_FEATURED .mainnet path.sourceFlags).lt
            FILL_QUOTE_TRANSFORMER_GAS_OVERHEAD &&
          okAnd (mainnetConsumer.getCalldataOrThrow quote {}) fun info =>
            isTransformERC20 info.calldata)
    (by decide +kernel)
  obtain ⟨quote, hquote, hcheck⟩ := exists_of_okAnd hcheck
  obtain ⟨hsmall, hcheck⟩ := Bool.and_eq_true_iff.mp hcheck
  obtain ⟨info, hinfo, htransform⟩ := exists_of_okAnd hcheck
  refine ⟨path, quote, hpath, hquote, hsmall, ?_⟩
  rintro ⟨other, hother, havoids⟩
  rw [hinfo] at hother
  cases hother
  rw [htransform] at havoids
  exact absurd havoids (by decide)

/-- A path of one Uniswap V2 order is ranked by its own feature, which its call is of. -/
theorem uniswapV2_ranked_by_feature :
    ∃ path quote,
      (plainOptimizer .sell 30).createPathFromRoute (aaveV3Route 0) = .ok (some path) ∧
        createSwapQuote path (.fin 0) "output" "input" .sell (.fin 30) (.fin 0) (fun _ _ => 0) 0 =
          .ok quote ∧
        (((EXCHANGE_PROXY_OVERHEAD_FULLY_FEATURED mainnetConsumer.chainId path.sourceFlags).lt
              FILL_QUOTE_TRANSFORMER_GAS_OVERHEAD = true →
            AvoidsTransformERC20 (mainnetConsumer.getCalldataOrThrow quote {})) ↔
          ¬ CurveWithoutRoute mainnetConsumer quote ∧ ¬ TwoHopWithoutRoute path) := by
  obtain ⟨path, hpath, hcheck⟩ := (plainOptimizer .sell 30).exists_path_of_madePath (aaveV3Route 0)
    (fun path =>
      okAnd (createSwapQuote path (.fin 0) "output" "input" .sell (.fin 30) (.fin 0)
        (fun _ _ => 0) 0) fun _ => true)
    (by decide +kernel)
  obtain ⟨quote, hquote, _⟩ := exists_of_okAnd hcheck
  exact ⟨path, quote, hpath, hquote,
    overhead_agrees_iff rfl (plainOptimizer .sell 30) rfl
      (aaveV3Route_valid (by norm_num) (by norm_num)) hpath hquote (by norm_num) (by norm_num)
      rfl⟩

end ZeroExApi.ExchangeProxyOverhead
