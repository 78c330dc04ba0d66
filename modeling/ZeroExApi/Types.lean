/-
# ZeroExApi.Types — the vocabulary of the swapper: sources, fill data, samples, fills and orders

The types of `asset-swapper/types.ts` and `market_operation_utils/types.ts` that the quoting code
reads and builds.  Two things differ from the source in form.  `FillData` is there an empty
interface that each consumer casts to the shape it expects; here it is one type with a constructor
for each shape, and reading it as another shape is the error the cast would lead to.  And a sample
carries the proof that its fill data has the shape of its source, which is what the sampler
operation of that source returns.

Amounts are `BigNumber`s.  A JavaScript number is a rational where it cannot be anything else
(gas, slippage) and a `BigNumber` where the code tests it for being finite (the amounts of a
route).  Random ids, which nothing computes with, are left out.

What the code divides and what it adds to a slippage is written over any `Arithmetic`; the one it
runs with is `codeArithmetic`.
-/

import ZeroExApi.Lib.BigNumber
import ZeroExApi.Lib.JsNumber

namespace ZeroExApi

open ZeroExApi.Lib

/-! ## Arithmetic -/

/-- The arithmetic of the code: `@0x/utils` has `BigNumber` keep 78 decimals of a quotient, the last
one rounded half up, and a slippage is a JavaScript number. -/
@[reducible]
def codeArithmetic : Arithmetic where
  quotient := BigNumber.decimalQuotient 78
  precision := 1 / 2 / 10 ^ 78
  float := JsNumber.number
  quotient_mono := BigNumber.decimalQuotient_mono 78
  quotient_intCast := BigNumber.decimalQuotient_intCast 78
  abs_quotient_sub_le := BigNumber.abs_decimalQuotient_sub_le 78
  quotient_sub := BigNumber.decimalQuotient_sub 78
  float_mono := JsNumber.number_mono
  float_zero := JsNumber.number_zero
  float_one := JsNumber.number_one

/-! ## Errors -/

/-- What a call can throw: an `Error` with its message, or the `TypeError` of reading a property
that is not there. -/
inductive JsError where
  | error (message : String)
  | typeError
  deriving DecidableEq

/-- `AggregationError.NoBridgeForSource`. -/
def NO_BRIDGE_FOR_SOURCE : String := "NO_BRIDGE_FOR_SOURCE"

/-! ## Enumerations -/

/-- `MarketOperation`. -/
inductive MarketOperation where
  | sell
  | buy
  deriving DecidableEq

/-- The chains the code distinguishes. -/
inductive ChainId where
  | mainnet
  | goerli
  | bsc
  | polygon
  | polygonMumbai
  | avalanche
  | fantom
  | celo
  | optimism
  | arbitrum
  | ganache
  deriving DecidableEq

/-- `ERC20BridgeSource`, in the order of the enumeration. -/
inductive ERC20BridgeSource where
  | native
  | uniswap
  | uniswapV2
  | curve
  | balancer
  | balancerV2
  | bancor
  | makerPsm
  | mStable
  | mooniswap
  | multiHop
  | shell
  | sushiSwap
  | dodo
  | dodoV2
  | cryptoCom
  | kyberDmm
  | component
  | saddle
  | uniswapV3
  | curveV2
  | lido
  | shibaSwap
  | aaveV2
  | aaveV3
  | compound
  | synapse
  | bancorV3
  | synthetix
  | wooFi
  | pancakeSwap
  | pancakeSwapV2
  | biSwap
  | mDex
  | knightSwap
  | bakerySwap
  | nerve
  | belt
  | ellipsis
  | apeSwap
  | aCryptos
  | quickSwap
  | dfyn
  | waultSwap
  | firebirdOneSwap
  | ironSwap
  | meshSwap
  | dystopia
  | pangolin
  | traderJoe
  | platypus
  | gmx
  | ubeSwap
  | mobiusMoney
  | spiritSwap
  | spookySwap
  | beethovenx
  | morpheusSwap
  | yoshi
  | velodrome
  deriving DecidableEq

/-- The value of a member of `ERC20BridgeSource`. -/
def ERC20BridgeSource.value : ERC20BridgeSource → String
  | .native => "Native"
  | .uniswap => "Uniswap"
  | .uniswapV2 => "Uniswap_V2"
  | .curve => "Curve"
  | .balancer => "Balancer"
  | .balancerV2 => "Balancer_V2"
  | .bancor => "Bancor"
  | .makerPsm => "MakerPsm"
  | .mStable => "mStable"
  | .mooniswap => "Mooniswap"
  | .multiHop => "MultiHop"
  | .shell => "Shell"
  | .sushiSwap => "SushiSwap"
  | .dodo => "DODO"
  | .dodoV2 => "DODO_V2"
  | .cryptoCom => "CryptoCom"
  | .kyberDmm => "KyberDMM"
  | .component => "Component"
  | .saddle => "Saddle"
  | .uniswapV3 => "Uniswap_V3"
  | .curveV2 => "Curve_V2"
  | .lido => "Lido"
  | .shibaSwap => "ShibaSwap"
  | .aaveV2 => "Aave_V2"
  | .aaveV3 => "Aave_V3"
  | .compound => "Compound"
  | .synapse => "Synapse"
  | .bancorV3 => "BancorV3"
  | .synthetix => "Synthetix"
  | .wooFi => "WOOFi"
  | .pancakeSwap => "PancakeSwap"
  | .pancakeSwapV2 => "PancakeSwap_V2"
  | .biSwap => "BiSwap"
  | .mDex => "MDex"
  | .knightSwap => "KnightSwap"
  | .bakerySwap => "BakerySwap"
  | .nerve => "Nerve"
  | .belt => "Belt"
  | .ellipsis => "Ellipsis"
  | .apeSwap => "ApeSwap"
  | .aCryptos => "ACryptoS"
  | .quickSwap => "QuickSwap"
  | .dfyn => "Dfyn"
  | .waultSwap => "WaultSwap"
  | .firebirdOneSwap => "FirebirdOneSwap"
  | .ironSwap => "IronSwap"
  | .meshSwap => "MeshSwap"
  | .dystopia => "Dystopia"
  | .pangolin => "Pangolin"
  | .traderJoe => "TraderJoe"
  | .platypus => "Platypus"
  | .gmx => "GMX"
  | .ubeSwap => "UbeSwap"
  | .mobiusMoney => "MobiusMoney"
  | .spiritSwap => "SpiritSwap"
  | .spookySwap => "SpookySwap"
  | .beethovenx => "Beethovenx"
  | .morpheusSwap => "MorpheusSwap"
  | .yoshi => "Yoshi"
  | .velodrome => "Velodrome"

/-- `FillQuoteTransformerOrderType`. -/
inductive FillQuoteTransformerOrderType where
  | bridge
  | limit
  | rfq
  | otc
  deriving DecidableEq

/-! ## Native orders -/

/-- The parts of an order signature. -/
structure Signature where
  signatureType : ℕ
  r : String
  s : String
  v : ℕ
  deriving DecidableEq

/-- The fields of a native order the swapper computes with; only limit orders have a taker-token
fee. -/
structure NativeOrderFields where
  maker : String
  makerToken : String
  takerToken : String
  makerAmount : BigNumber
  takerAmount : BigNumber
  takerTokenFeeAmount : BigNumber
  deriving DecidableEq

/-- `NativeOrderWithFillableAmounts`. -/
structure NativeOrderWithFillableAmounts where
  order : NativeOrderFields
  type : FillQuoteTransformerOrderType
  signature : Signature
  fillableMakerAmount : BigNumber
  fillableTakerAmount : BigNumber
  fillableTakerFeeAmount : BigNumber
  deriving DecidableEq

/-! ## Fill data -/

/-- `CurveInfo`, as far as an order is encoded with it. -/
structure CurveInfo where
  exchangeFunctionSelector : String
  poolAddress : String
  deriving DecidableEq

/-- `BalancerBatchSwapStep`. -/
structure BalancerBatchSwapStep where
  poolId : String
  assetInIndex : ℕ
  assetOutIndex : ℕ
  amount : BigNumber
  userData : String
  deriving DecidableEq

/-- `PathAmount`: a Uniswap V3 path and the largest sampled input it is the best path for. -/
structure PathAmount where
  path : String
  inputAmount : BigNumber
  gasUsed : ℕ
  deriving DecidableEq

/-- `AaveV3L2EncodedParameter`: the calldata parameter for one sampled amount. -/
structure AaveV3L2EncodedParameter where
  inputAmount : BigNumber
  l2Parameter : String
  deriving DecidableEq

/-- `FillData`: one constructor for each shape in the source. -/
inductive FillData where
  | curve (fromTokenIdx toTokenIdx : ℕ) (pool : CurveInfo)
  | balancer (poolAddress : String)
  | balancerV2Batch (vault : String) (swapSteps : List BalancerBatchSwapStep) (assets : List String)
  | uniswapV2 (tokenAddressPath : List String) (router : String)
  | shell (poolAddress : String)
  | bancor (path : List String) (networkAddress : String)
  | mooniswap (poolAddress : String)
  | dodo (poolAddress : String) (isSellBase : Bool) (helperAddress : String)
  | genericRouter (router : String)
  | makerPsm (psmAddress gemTokenAddress : String)
  | tickDexMultiPath (tokenAddressPath : List String) (router : String)
      (pathAmounts : List PathAmount)
  | finalTickDexMultiPath (tokenAddressPath : List String) (router path : String) (gasUsed : ℕ)
  | kyberDmm (tokenAddressPath : List String) (router : String) (poolsPath : List String)
  | lido (stEthTokenAddress wstEthTokenAddress takerToken makerToken : String)
  | aaveV2 (lendingPool aToken underlyingToken takerToken : String)
  | aaveV3 (lendingPool aToken underlyingToken takerToken : String)
      (l2EncodedParams : List AaveV3L2EncodedParameter)
  | compound (cToken takerToken makerToken : String)
  | gmx (router reader vault : String) (tokenAddressPath : List String)
  | platypus (router : String) (pool tokenAddressPath : List String)
  | wooFi (router takerToken makerToken : String)
  | velodrome (router : String) (stable : Bool)
  | synthetix (synthetix takerTokenSymbolBytes32 makerTokenSymbolBytes32 : String)
  | multiHop (firstHopSource : ERC20BridgeSource) (firstHopFillData : FillData)
      (secondHopSource : ERC20BridgeSource) (secondHopFillData : FillData)
      (intermediateToken : String)
  | native (order : NativeOrderWithFillableAmounts)

/-- The shapes of fill data. -/
inductive FillDataShape where
  | curve
  | balancer
  | balancerV2Batch
  | uniswapV2
  | shell
  | bancor
  | mooniswap
  | dodo
  | genericRouter
  | makerPsm
  | tickDexMultiPath
  | finalTickDexMultiPath
  | kyberDmm
  | lido
  | aaveV2
  | aaveV3
  | compound
  | gmx
  | platypus
  | wooFi
  | velodrome
  | synthetix
  | multiHop
  | native
  deriving DecidableEq

def FillData.shape : FillData → FillDataShape
  | .curve .. => .curve
  | .balancer .. => .balancer
  | .balancerV2Batch .. => .balancerV2Batch
  | .uniswapV2 .. => .uniswapV2
  | .shell .. => .shell
  | .bancor .. => .bancor
  | .mooniswap .. => .mooniswap
  | .dodo .. => .dodo
  | .genericRouter .. => .genericRouter
  | .makerPsm .. => .makerPsm
  | .tickDexMultiPath .. => .tickDexMultiPath
  | .finalTickDexMultiPath .. => .finalTickDexMultiPath
  | .kyberDmm .. => .kyberDmm
  | .lido .. => .lido
  | .aaveV2 .. => .aaveV2
  | .aaveV3 .. => .aaveV3
  | .compound .. => .compound
  | .gmx .. => .gmx
  | .platypus .. => .platypus
  | .wooFi .. => .wooFi
  | .velodrome .. => .velodrome
  | .synthetix .. => .synthetix
  | .multiHop .. => .multiHop
  | .native .. => .native

/-- The shape of the fill data the sampler operation of a source returns. -/
def ERC20BridgeSource.sampledShape : ERC20BridgeSource → FillDataShape
  | .native => .native
  | .multiHop => .multiHop
  | .curve | .curveV2 | .nerve | .synapse | .belt | .ellipsis | .saddle | .firebirdOneSwap
  | .ironSwap | .aCryptos | .mobiusMoney => .curve
  | .balancer => .balancer
  | .balancerV2 | .beethovenx => .balancerV2Batch
  | .bancor | .bancorV3 => .bancor
  | .uniswap | .mStable => .genericRouter
  | .shell | .component => .shell
  | .mooniswap => .mooniswap
  | .dodo | .dodoV2 => .dodo
  | .makerPsm => .makerPsm
  | .uniswapV3 => .tickDexMultiPath
  | .kyberDmm => .kyberDmm
  | .lido => .lido
  | .aaveV2 => .aaveV2
  | .aaveV3 => .aaveV3
  | .compound => .compound
  | .gmx => .gmx
  | .platypus => .platypus
  | .wooFi => .wooFi
  | .velodrome | .dystopia => .velodrome
  | .synthetix => .synthetix
  | .uniswapV2 | .sushiSwap | .cryptoCom | .shibaSwap | .pancakeSwap | .pancakeSwapV2 | .biSwap
  | .mDex | .knightSwap | .bakerySwap | .apeSwap | .quickSwap | .dfyn | .waultSwap | .meshSwap
  | .pangolin | .traderJoe | .ubeSwap | .spiritSwap | .spookySwap | .morpheusSwap | .yoshi =>
    .uniswapV2

/-- A source a hop of a two-hop sample can have: the sampler excludes native orders and two-hops. -/
def ERC20BridgeSource.isHop (source : ERC20BridgeSource) : Bool :=
  source != .native && source != .multiHop

/-- Fill data as the sampler operation of a source returns it: its own shape, and for a two-hop the
shapes of both hops. -/
def FillData.Sampled (source : ERC20BridgeSource) (fillData : FillData) : Prop :=
  fillData.shape = source.sampledShape ∧
    match fillData with
    | .multiHop firstHopSource firstHopFillData secondHopSource secondHopFillData _ =>
      firstHopSource.isHop = true ∧ firstHopFillData.shape = firstHopSource.sampledShape ∧
        secondHopSource.isHop = true ∧ secondHopFillData.shape = secondHopSource.sampledShape
    | _ => True

/-! ## Samples, fills and orders -/

/-- `DexSample`: the output sampled from a source for one input. -/
structure DexSample where
  source : ERC20BridgeSource
  fillData : FillData
  input : BigNumber
  output : BigNumber
  sampled : fillData.Sampled source
  notNative : source ≠ .native

/-- One hop of a two-hop: a source with its fill data. -/
structure HopSource where
  source : ERC20BridgeSource
  fillData : FillData
  isHop : source.isHop = true
  shape_eq : fillData.shape = source.sampledShape

/-- `DexSample<MultiHopFillData>`: a sample of a two-hop, with both hops. -/
structure TwoHopSample where
  firstHopSource : HopSource
  secondHopSource : HopSource
  intermediateToken : String
  input : BigNumber
  output : BigNumber

/-- The `MultiHopFillData` of a sample. -/
def TwoHopSample.fillData (sample : TwoHopSample) : FillData :=
  .multiHop sample.firstHopSource.source sample.firstHopSource.fillData
    sample.secondHopSource.source sample.secondHopSource.fillData sample.intermediateToken

theorem TwoHopSample.fillData_sampled (sample : TwoHopSample) :
    sample.fillData.Sampled .multiHop :=
  ⟨rfl, sample.firstHopSource.isHop, sample.firstHopSource.shape_eq,
    sample.secondHopSource.isHop, sample.secondHopSource.shape_eq⟩

theorem multiHop_ne_native : ERC20BridgeSource.multiHop ≠ .native := nofun

/-- A two-hop sample is a sample of the source `MultiHop`. -/
def TwoHopSample.toDexSample (sample : TwoHopSample) : DexSample where
  source := .multiHop
  fillData := sample.fillData
  input := sample.input
  output := sample.output
  sampled := sample.fillData_sampled
  notNative := multiHop_ne_native

/-- `FillBase`. -/
structure FillBase where
  input : BigNumber
  output : BigNumber
  adjustedOutput : BigNumber
  gas : ℚ
  deriving DecidableEq

/-- `Fill`; `flags` is a set of bits, see `SOURCE_FLAGS`. -/
structure Fill extends FillBase where
  source : ERC20BridgeSource
  type : FillQuoteTransformerOrderType
  fillData : FillData
  flags : ℕ

/-- `OptimizedOrder`: a bridge order or a native one, by its `type`. -/
structure OptimizedOrder where
  source : ERC20BridgeSource
  fillData : FillData
  type : FillQuoteTransformerOrderType
  makerToken : String
  takerToken : String
  makerAmount : BigNumber
  takerAmount : BigNumber
  fill : FillBase

/-- `TwoHopOrder`. -/
structure TwoHopOrder where
  firstHopOrder : OptimizedOrder
  secondHopOrder : OptimizedOrder

/-- `OptimizedOrdersByType`. -/
structure OptimizedOrdersByType where
  nativeOrders : List OptimizedOrder
  twoHopOrders : List TwoHopOrder
  bridgeOrders : List OptimizedOrder

/-- `PathContext`. -/
structure PathContext where
  side : MarketOperation
  inputToken : String
  outputToken : String

/-! ## Schedules and adjustments -/

/-- What using a source costs, in gas and in the native token. -/
structure FeeEstimate where
  gas : ℚ
  fee : BigNumber

/-- `FeeSchedule`. -/
abbrev FeeSchedule := ERC20BridgeSource → FillData → FeeEstimate

/-- `GasSchedule`. -/
abbrev GasSchedule := ERC20BridgeSource → FillData → ℚ

/-- `ExchangeProxyOverhead`. -/
abbrev ExchangeProxyOverhead := ℕ → BigNumber

/-- `FillAdjustor`: an adjustor revises the adjusted output of each fill and nothing else. -/
structure FillAdjustor where
  adjustedOutput : MarketOperation → Fill → BigNumber

/-- `adjustFills`. -/
def FillAdjustor.adjustFills (adjustor : FillAdjustor) (side : MarketOperation)
    (fills : List Fill) : List Fill :=
  fills.map fun fill => { fill with adjustedOutput := adjustor.adjustedOutput side fill }

/-- `IdentityFillAdjustor`. -/
def identityFillAdjustor : FillAdjustor := ⟨fun _ fill => fill.adjustedOutput⟩

/-! ## Constants -/

def ZERO_AMOUNT : BigNumber := .fin 0

/-- `MAX_UINT256`. -/
def MAX_UINT256 : BigNumber := .fin (2 ^ 256 - 1)

def POSITIVE_INF : BigNumber := .inf false

def NULL_ADDRESS : String := "0x0000000000000000000000000000000000000000"

def ETH_TOKEN_ADDRESS : String := "0xeeeeeeeeeeeeeeeeeeeeeeeeeeeeeeeeeeeeeeee"

end ZeroExApi
