/-
# ZeroExApi.Orders — from fills to orders, and from bridge orders to the data their bridge reads

`market_operation_utils/orders.ts`.  A fill becomes an order by `createBridgeOrder`,
`createNativeOptimizedOrder` or, for a two-hop, `createOrdersFromTwoHopSample`; the encoder
`createBridgeDataForBridgeOrder` then picks the fields of the order's fill data that the bridge of
its source needs.  An ABI encoder is total on the values it is given, so encoded data is here the
list of those values.

The last sections say what an order keeps of its fill, and when the encoder answers: always, for
fill data of its source's shape, except that the Aave V3 bridge looks its calldata up by the exact
amount (`encodesBridgeData_iff`).
-/

import ZeroExApi.Types
import ZeroExApi.Lib.Fallible

namespace ZeroExApi.Orders

open ZeroExApi.Lib ZeroExApi.Lib.Fallible

/-! ## Amounts and tokens -/

/-- `getMakerTakerTokens`: the maker token and the taker token. -/
def getMakerTakerTokens (pathContext : PathContext) : String × String :=
  match pathContext.side with
  | .sell => (pathContext.outputToken, pathContext.inputToken)
  | .buy => (pathContext.inputToken, pathContext.outputToken)

/-- `getFillTokenAmounts`: the maker amount and the taker amount of a fill. -/
def getFillTokenAmounts (fill : FillBase) (side : MarketOperation) : BigNumber × BigNumber :=
  match side with
  | .sell => (fill.output.integerValue .down, fill.input)
  | .buy => (fill.input, fill.output.integerValue .up)

/-! ## Orders from fills -/

/-- `getBestUniswapV3PathAmountForInputAmount`; `none` is the `undefined` of an empty list's last
element. -/
def getBestUniswapV3PathAmountForInputAmount (pathAmounts : List PathAmount)
    (inputAmount : BigNumber) : Except JsError (Option PathAmount) :=
  if pathAmounts.length = 0 then
    .error (.error "No Uniswap V3 paths")
  else
    let nonempty := pathAmounts.filter fun p => p.path != "0x"
    match nonempty.find? fun p => p.inputAmount.gte inputAmount with
    | some pathAmount => .ok (some pathAmount)
    | none => .ok nonempty.getLast?

/-- `createFinalBridgeOrderFillDataFromCollapsedFill`: a Uniswap V3 fill gets the path for its
input. -/
def createFinalBridgeOrderFillDataFromCollapsedFill (source : ERC20BridgeSource)
    (fillData : FillData) (input : BigNumber) : Except JsError FillData :=
  match source with
  | .uniswapV3 =>
    match fillData with
    | .tickDexMultiPath tokenAddressPath router pathAmounts => do
      match ← getBestUniswapV3PathAmountForInputAmount pathAmounts input with
      | some best => .ok (.finalTickDexMultiPath tokenAddressPath router best.path best.gasUsed)
      | none => .error .typeError
    | _ => .error .typeError
  | _ => .ok fillData

/-- `createBridgeOrder`. -/
def createBridgeOrder (fill : Fill) (makerToken takerToken : String) (side : MarketOperation) :
    Except JsError OptimizedOrder := do
  let (makerAmount, takerAmount) := getFillTokenAmounts fill.toFillBase side
  let fillData ←
    createFinalBridgeOrderFillDataFromCollapsedFill fill.source fill.fillData fill.input
  .ok
    { source := fill.source
      fillData := fillData
      type := .bridge
      makerToken := makerToken
      takerToken := takerToken
      makerAmount := makerAmount
      takerAmount := takerAmount
      fill := fill.toFillBase }

/-- `createNativeOptimizedOrder`. -/
def createNativeOptimizedOrder (fill : Fill) (side : MarketOperation) :
    Except JsError OptimizedOrder :=
  match fill.fillData with
  | .native nativeOrder =>
    let (makerAmount, takerAmount) := getFillTokenAmounts fill.toFillBase side
    match fill.type with
    | .bridge => .error (.error "BridgeOrder is not a Native Order")
    | type =>
      .ok
        { source := .native
          fillData := fill.fillData
          type := type
          makerToken := nativeOrder.order.makerToken
          takerToken := nativeOrder.order.takerToken
          makerAmount := makerAmount
          takerAmount := takerAmount
          fill := fill.toFillBase }
  | _ => .error .typeError

/-- The fill of one hop: a bridge fill without flags. -/
def hopFill (source : ERC20BridgeSource) (fillData : FillData)
    (input output : BigNumber) : Fill where
  source := source
  type := .bridge
  input := input
  output := output
  adjustedOutput := output
  fillData := fillData
  flags := 0
  gas := 1

/-- The fill of the first hop, from the input to an amount that is not known: zero on a sell, where
it may be exceeded, and zero of it asked for on a buy. -/
def firstHopFill (source : ERC20BridgeSource) (fillData : FillData) (input output : BigNumber)
    (side : MarketOperation) : Fill :=
  match side with
  | .sell => hopFill source fillData input ZERO_AMOUNT
  | .buy => hopFill source fillData ZERO_AMOUNT output

/-- The fill of the second hop, from an amount that is not known, the largest integer. -/
def secondHopFill (source : ERC20BridgeSource) (fillData : FillData) (input output : BigNumber)
    (side : MarketOperation) : Fill :=
  match side with
  | .sell => hopFill source fillData MAX_UINT256 output
  | .buy => hopFill source fillData input MAX_UINT256

/-- `createOrdersFromTwoHopSample`. -/
def createOrdersFromTwoHopSample (fillData : FillData) (input output : BigNumber)
    (pathContext : PathContext) : Except JsError TwoHopOrder :=
  match fillData with
  | .multiHop firstHopSource firstHopFillData secondHopSource secondHopFillData
      intermediateToken => do
    let side := pathContext.side
    let (makerToken, takerToken) := getMakerTakerTokens pathContext
    let firstHopOrder ←
      createBridgeOrder (firstHopFill firstHopSource firstHopFillData input output side)
        intermediateToken takerToken side
    let secondHopOrder ←
      createBridgeOrder (secondHopFill secondHopSource secondHopFillData input output side)
        makerToken intermediateToken side
    .ok ⟨firstHopOrder, secondHopOrder⟩
  | _ => .error .typeError

/-! ## Bridge sources -/

/-- The bridge protocols. -/
inductive BridgeProtocol where
  | balancer
  | balancerV2Batch
  | bancor
  | curve
  | cryptoCom
  | dodo
  | dodoV2
  | makerPsm
  | mooniswap
  | mStable
  | shell
  | uniswap
  | uniswapV2
  | uniswapV3
  | kyberDmm
  | curveV2
  | lido
  | nerve
  | aaveV2
  | aaveV3
  | compound
  | gmx
  | platypus
  | bancorV3
  | solidly
  | synthetix
  | wooFi
  deriving DecidableEq

/-- `getErc20BridgeSourceToBridgeSource`: the protocol and the name a bridge source id is made
of. -/
def getErc20BridgeSourceToBridgeSource :
    ERC20BridgeSource → Except JsError (BridgeProtocol × String)
  | .balancer => .ok (.balancer, "Balancer")
  | .balancerV2 => .ok (.balancerV2Batch, "BalancerV2")
  | .bancor => .ok (.bancor, "Bancor")
  | .curve => .ok (.curve, "Curve")
  | .cryptoCom => .ok (.cryptoCom, "CryptoCom")
  | .dodo => .ok (.dodo, "Dodo")
  | .makerPsm => .ok (.makerPsm, "MakerPsm")
  | .mooniswap => .ok (.mooniswap, "Mooniswap")
  | .mStable => .ok (.mStable, "MStable")
  | .shell => .ok (.shell, "Shell")
  | .sushiSwap => .ok (.uniswapV2, "SushiSwap")
  | .uniswap => .ok (.uniswap, "Uniswap")
  | .uniswapV2 => .ok (.uniswapV2, "UniswapV2")
  | .dodoV2 => .ok (.dodoV2, "DodoV2")
  | .pancakeSwap => .ok (.uniswapV2, "PancakeSwap")
  | .pancakeSwapV2 => .ok (.uniswapV2, "PancakeSwapV2")
  | .bakerySwap => .ok (.uniswapV2, "BakerySwap")
  | .nerve => .ok (.nerve, "Nerve")
  | .synapse => .ok (.nerve, "Synapse")
  | .belt => .ok (.curve, "Belt")
  | .ellipsis => .ok (.curve, "Ellipsis")
  | .component => .ok (.shell, "Component")
  | .saddle => .ok (.nerve, "Saddle")
  | .apeSwap => .ok (.uniswapV2, "ApeSwap")
  | .uniswapV3 => .ok (.uniswapV3, "UniswapV3")
  | .kyberDmm => .ok (.kyberDmm, "KyberDmm")
  | .quickSwap => .ok (.uniswapV2, "QuickSwap")
  | .dfyn => .ok (.uniswapV2, "Dfyn")
  | .curveV2 => .ok (.curveV2, "CurveV2")
  | .waultSwap => .ok (.uniswapV2, "WaultSwap")
  | .firebirdOneSwap => .ok (.nerve, "FirebirdOneSwap")
  | .lido => .ok (.lido, "Lido")
  | .shibaSwap => .ok (.uniswapV2, "ShibaSwap")
  | .ironSwap => .ok (.nerve, "IronSwap")
  | .aCryptos => .ok (.curve, "ACryptoS")
  | .pangolin => .ok (.uniswapV2, "Pangolin")
  | .traderJoe => .ok (.uniswapV2, "TraderJoe")
  | .ubeSwap => .ok (.uniswapV2, "UbeSwap")
  | .beethovenx => .ok (.balancerV2Batch, "Beethovenx")
  | .spiritSwap => .ok (.uniswapV2, "SpiritSwap")
  | .spookySwap => .ok (.uniswapV2, "SpookySwap")
  | .morpheusSwap => .ok (.uniswapV2, "MorpheusSwap")
  | .yoshi => .ok (.uniswapV2, "Yoshi")
  | .aaveV2 => .ok (.aaveV2, "AaveV2")
  | .aaveV3 => .ok (.aaveV3, "AaveV3")
  | .compound => .ok (.compound, "Compound")
  | .mobiusMoney => .ok (.nerve, "MobiusMoney")
  | .biSwap => .ok (.uniswapV2, "BiSwap")
  | .mDex => .ok (.uniswapV2, "MDex")
  | .knightSwap => .ok (.uniswapV2, "KnightSwap")
  | .gmx => .ok (.gmx, "GMX")
  | .platypus => .ok (.platypus, "Platypus")
  | .meshSwap => .ok (.uniswapV2, "MeshSwap")
  | .bancorV3 => .ok (.bancorV3, "BancorV3")
  | .velodrome => .ok (.solidly, "Velodrome")
  | .dystopia => .ok (.solidly, "Dystopia")
  | .synthetix => .ok (.synthetix, "Synthetix")
  | .wooFi => .ok (.wooFi, "WOOFi")
  | .native | .multiHop => .error (.error NO_BRIDGE_FOR_SOURCE)

/-! ## Bridge data -/

/-- A value handed to an ABI encoder. -/
inductive AbiValue where
  | text (value : String)
  | texts (values : List String)
  | index (value : ℕ)
  | flag (value : Bool)
  | swapSteps (steps : List BalancerBatchSwapStep)
  deriving DecidableEq

/-- Bridge data, as the values that are encoded. -/
abbrev BridgeData := List AbiValue

/-- The text of the error for an order the encoder has no data for. -/
def INVALID_ORDER : String := "Invalid order to encode for Bridge Data"

/-- `createBridgeDataForBridgeOrder`.  Every source but the two excluded at the start has an
encoder. -/
def createBridgeDataForBridgeOrder (order : OptimizedOrder) : Except JsError BridgeData :=
  match order.source with
  | .multiHop | .native => .error (.error INVALID_ORDER)
  | .curve | .curveV2 | .nerve | .synapse | .belt | .ellipsis | .saddle | .firebirdOneSwap
  | .ironSwap | .aCryptos | .mobiusMoney =>
    match order.fillData with
    | .curve fromTokenIdx toTokenIdx pool =>
      .ok [.text pool.poolAddress, .text pool.exchangeFunctionSelector, .index fromTokenIdx,
        .index toTokenIdx]
    | _ => .error .typeError
  | .balancer =>
    match order.fillData with
    | .balancer poolAddress => .ok [.text poolAddress]
    | _ => .error .typeError
  | .beethovenx | .balancerV2 =>
    match order.fillData with
    | .balancerV2Batch vault swapSteps assets =>
      .ok [.text vault, .swapSteps swapSteps, .texts assets]
    | _ => .error .typeError
  | .bancor | .bancorV3 =>
    match order.fillData with
    | .bancor path networkAddress => .ok [.text networkAddress, .texts path]
    | _ => .error .typeError
  | .uniswapV2 | .sushiSwap | .cryptoCom | .pancakeSwap | .pancakeSwapV2 | .bakerySwap | .apeSwap
  | .quickSwap | .dfyn | .waultSwap | .shibaSwap | .pangolin | .traderJoe | .ubeSwap | .spiritSwap
  | .spookySwap | .morpheusSwap | .biSwap | .mDex | .knightSwap | .yoshi | .meshSwap =>
    match order.fillData with
    | .uniswapV2 tokenAddressPath router => .ok [.text router, .texts tokenAddressPath]
    | _ => .error .typeError
  | .mooniswap =>
    match order.fillData with
    | .mooniswap poolAddress => .ok [.text poolAddress]
    | _ => .error .typeError
  | .dodo =>
    match order.fillData with
    | .dodo poolAddress isSellBase helperAddress =>
      .ok [.text helperAddress, .text poolAddress, .flag isSellBase]
    | _ => .error .typeError
  | .dodoV2 =>
    match order.fillData with
    | .dodo poolAddress isSellBase _ => .ok [.text poolAddress, .flag isSellBase]
    | _ => .error .typeError
  | .shell | .component =>
    match order.fillData with
    | .shell poolAddress => .ok [.text poolAddress]
    | _ => .error .typeError
  | .uniswap | .mStable | .wooFi =>
    match order.fillData with
    | .genericRouter router => .ok [.text router]
    | .wooFi router _ _ => .ok [.text router]
    | _ => .error .typeError
  | .makerPsm =>
    match order.fillData with
    | .makerPsm psmAddress gemTokenAddress => .ok [.text psmAddress, .text gemTokenAddress]
    | _ => .error .typeError
  | .uniswapV3 =>
    match order.fillData with
    | .finalTickDexMultiPath _ router path _ => .ok [.text router, .text path]
    | _ => .error .typeError
  | .kyberDmm =>
    match order.fillData with
    | .kyberDmm tokenAddressPath router poolsPath =>
      .ok [.text router, .texts poolsPath, .texts tokenAddressPath]
    | _ => .error .typeError
  | .lido =>
    match order.fillData with
    | .lido stEthTokenAddress wstEthTokenAddress _ _ =>
      .ok [.text stEthTokenAddress, .text wstEthTokenAddress]
    | _ => .error .typeError
  | .aaveV3 =>
    match order.fillData with
    | .aaveV3 lendingPool aToken _ _ l2EncodedParams =>
      -- the parameter is looked up by the exact amount
      match l2EncodedParams.find? fun l =>
        l.inputAmount.eq order.makerAmount || l.inputAmount.eq order.takerAmount with
      | some l => .ok [.text lendingPool, .text aToken, .text l.l2Parameter]
      | none => .error (.error INVALID_ORDER)
    | _ => .error .typeError
  | .aaveV2 =>
    match order.fillData with
    | .aaveV2 lendingPool aToken _ _ => .ok [.text lendingPool, .text aToken]
    | _ => .error .typeError
  | .compound =>
    match order.fillData with
    | .compound cToken _ _ => .ok [.text cToken]
    | _ => .error .typeError
  | .gmx =>
    match order.fillData with
    | .gmx router reader vault tokenAddressPath =>
      .ok [.text router, .text reader, .text vault, .texts tokenAddressPath]
    | _ => .error .typeError
  | .platypus =>
    match order.fillData with
    | .platypus router pool tokenAddressPath =>
      .ok [.text router, .texts pool, .texts tokenAddressPath]
    | _ => .error .typeError
  | .dystopia | .velodrome =>
    match order.fillData with
    | .velodrome router stable => .ok [.text router, .flag stable]
    | _ => .error .typeError
  | .synthetix =>
    match order.fillData with
    | .synthetix synthetix takerTokenSymbolBytes32 makerTokenSymbolBytes32 =>
      .ok [.text synthetix, .text takerTokenSymbolBytes32, .text makerTokenSymbolBytes32]
    | _ => .error .typeError

/-! ## When an order can be encoded -/

/-- The shape of the fill data of a bridge order: the sampled one, with the path chosen for Uniswap
V3. -/
def orderShape : ERC20BridgeSource → FillDataShape
  | .uniswapV3 => .finalTickDexMultiPath
  | source => source.sampledShape

/-- Fill data that holds what encoding an order of these amounts looks up.  Only the Aave V3 bridge
looks anything up by an amount. -/
def HoldsAmount (fillData : FillData) (makerAmount takerAmount : BigNumber) : Prop :=
  match fillData with
  | .aaveV3 _ _ _ _ l2EncodedParams =>
    ∃ l ∈ l2EncodedParams, l.inputAmount.eq makerAmount = true ∨ l.inputAmount.eq takerAmount = true
  | _ => True

/-- The Aave V3 encoder answers when some calldata was computed for one of the two amounts. -/
theorem encodesBridgeData_aaveV3 {order : OptimizedOrder} (hsource : order.source = .aaveV3)
    (hshape : order.fillData.shape = .aaveV3) :
    Succeeds (createBridgeDataForBridgeOrder order) ↔
      HoldsAmount order.fillData order.makerAmount order.takerAmount := by
  obtain ⟨source, fillData, type, makerToken, takerToken, makerAmount, takerAmount, fill⟩ := order
  subst hsource
  cases fillData with
  | aaveV3 lendingPool aToken underlyingToken token l2EncodedParams =>
    simp only [createBridgeDataForBridgeOrder, HoldsAmount]
    cases hfind : l2EncodedParams.find? fun l =>
        l.inputAmount.eq makerAmount || l.inputAmount.eq takerAmount with
    | none =>
      refine iff_of_false (not_succeeds_error _) ?_
      rintro ⟨l, hl, hamount⟩
      exact List.find?_eq_none.mp hfind l hl (Bool.or_eq_true_iff.mpr hamount)
    | some l =>
      refine iff_of_true (succeeds_ok _) ⟨l, List.mem_of_find?_eq_some hfind, ?_⟩
      have hfound := List.find?_some hfind
      exact Bool.or_eq_true_iff.mp hfound
  | _ => exact nomatch hshape

/-- The encoder answers for fill data of the order's source, unless it is an Aave V3 order of an
amount no calldata was computed for. -/
theorem encodesBridgeData_iff {order : OptimizedOrder} (hsource : order.source.isHop = true)
    (hshape : order.fillData.shape = orderShape order.source) :
    Succeeds (createBridgeDataForBridgeOrder order) ↔
      HoldsAmount order.fillData order.makerAmount order.takerAmount := by
  obtain ⟨source, fillData, type, makerToken, takerToken, makerAmount, takerAmount, fill⟩ := order
  -- a source and fill data of its shape, or a contradiction
  cases source <;>
    first
      | cases hsource; done
      | exact encodesBridgeData_aaveV3 rfl hshape
      | cases fillData <;> first
          | cases hshape; done
          | exact iff_of_true (succeeds_ok _) trivial

/-! ## What an order keeps of its fill -/

/-- The fill data of an order keeps the shape and what is looked up by amount. -/
theorem finalFillData_eq_ok {source : ERC20BridgeSource} {fillData final : FillData}
    {input : BigNumber}
    (h : createFinalBridgeOrderFillDataFromCollapsedFill source fillData input = .ok final) :
    (fillData.shape = source.sampledShape → final.shape = orderShape source) ∧
      ∀ makerAmount takerAmount,
        HoldsAmount final makerAmount takerAmount ↔
          HoldsAmount fillData makerAmount takerAmount := by
  unfold createFinalBridgeOrderFillDataFromCollapsedFill at h
  split at h
  · split at h
    · obtain ⟨best, _, h⟩ := bind_eq_ok.mp h
      split at h
      · cases h
        exact ⟨fun _ => rfl, fun _ _ => Iff.rfl⟩
      · cases h
    · cases h
  · rename_i hsource
    cases h
    refine ⟨fun hshape => hshape.trans ?_, fun _ _ => Iff.rfl⟩
    unfold orderShape
    split
    · exact absurd rfl hsource
    · rfl

/-- What `createBridgeOrder` makes of a fill. -/
structure BridgeOrderOf (fill : Fill) (makerToken takerToken : String) (side : MarketOperation)
    (order : OptimizedOrder) : Prop where
  source_eq : order.source = fill.source
  type_eq : order.type = .bridge
  makerToken_eq : order.makerToken = makerToken
  takerToken_eq : order.takerToken = takerToken
  makerAmount_eq : order.makerAmount = (getFillTokenAmounts fill.toFillBase side).1
  takerAmount_eq : order.takerAmount = (getFillTokenAmounts fill.toFillBase side).2
  fill_eq : order.fill = fill.toFillBase
  shape_eq : fill.fillData.shape = fill.source.sampledShape →
    order.fillData.shape = orderShape fill.source
  holdsAmount_iff : ∀ makerAmount takerAmount,
    HoldsAmount order.fillData makerAmount takerAmount ↔
      HoldsAmount fill.fillData makerAmount takerAmount

theorem createBridgeOrder_eq_ok {fill : Fill} {makerToken takerToken : String}
    {side : MarketOperation} {order : OptimizedOrder}
    (h : createBridgeOrder fill makerToken takerToken side = .ok order) :
    BridgeOrderOf fill makerToken takerToken side order := by
  obtain ⟨fillData, hfillData, h⟩ := bind_eq_ok.mp h
  cases h
  obtain ⟨hshape, hholds⟩ := finalFillData_eq_ok hfillData
  exact ⟨rfl, rfl, rfl, rfl, rfl, rfl, rfl, hshape, hholds⟩

/-- What `createNativeOptimizedOrder` makes of a fill. -/
structure NativeOrderOf (fill : Fill) (side : MarketOperation) (order : OptimizedOrder) : Prop where
  source_eq : order.source = .native
  type_eq : order.type = fill.type
  type_ne : order.type ≠ .bridge
  makerAmount_eq : order.makerAmount = (getFillTokenAmounts fill.toFillBase side).1
  takerAmount_eq : order.takerAmount = (getFillTokenAmounts fill.toFillBase side).2
  fill_eq : order.fill = fill.toFillBase
  fillData_eq : order.fillData = fill.fillData
  native : ∃ nativeOrder, order.fillData = .native nativeOrder

theorem createNativeOptimizedOrder_eq_ok {fill : Fill} {side : MarketOperation}
    {order : OptimizedOrder} (h : createNativeOptimizedOrder fill side = .ok order) :
    NativeOrderOf fill side order := by
  unfold createNativeOptimizedOrder at h
  split at h
  · rename_i nativeOrder hdata
    dsimp only at h
    split at h
    · cases h
    · rename_i htype
      cases h
      exact ⟨rfl, rfl, htype, rfl, rfl, rfl, rfl, nativeOrder, hdata⟩
  · cases h

/-- What `createOrdersFromTwoHopSample` makes of two-hop fill data: a bridge order for each hop. -/
theorem createOrdersFromTwoHopSample_eq_ok {fillData : FillData} {input output : BigNumber}
    {context : PathContext} {order : TwoHopOrder}
    (h : createOrdersFromTwoHopSample fillData input output context = .ok order) :
    ∃ s₁ fd₁ s₂ fd₂ token, fillData = .multiHop s₁ fd₁ s₂ fd₂ token ∧
      BridgeOrderOf (firstHopFill s₁ fd₁ input output context.side) token
        (getMakerTakerTokens context).2 context.side order.firstHopOrder ∧
      BridgeOrderOf (secondHopFill s₂ fd₂ input output context.side)
        (getMakerTakerTokens context).1 token context.side order.secondHopOrder := by
  unfold createOrdersFromTwoHopSample at h
  split at h
  · rename_i s₁ fd₁ s₂ fd₂ token
    obtain ⟨first, hfirst, h⟩ := bind_eq_ok.mp h
    obtain ⟨second, hsecond, h⟩ := bind_eq_ok.mp h
    cases h
    exact ⟨s₁, fd₁, s₂, fd₂, token, rfl, createBridgeOrder_eq_ok hfirst,
      createBridgeOrder_eq_ok hsecond⟩
  · cases h

end ZeroExApi.Orders
