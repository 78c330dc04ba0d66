/-
# ZeroExApi.Fills — source flags, and the fills made of samples and native orders

`market_operation_utils/fills.ts` and the flags of `constants.ts`.  A fill is what a path is made
of: a part of the input, the output it brings, that output less the cost of the source, and a flag.
The three kinds of native orders have flags of their own, which is why `Native` itself has none; a
two-hop sample has the flags of its hops only when it is turned into a fill by `twoHopSampleToFill`.
-/

import ZeroExApi.Types
import ZeroExApi.Lib.BitFlags

namespace ZeroExApi.Fills

open ZeroExApi.Lib ZeroExApi.Lib.BitFlags

/-! ## Source flags -/

/-- The keys of `SOURCE_FLAGS`: the kinds of native orders, then the sources. -/
inductive SourceFlagKey where
  | rfqOrder
  | limitOrder
  | otcOrder
  | source (source : ERC20BridgeSource)
  deriving DecidableEq

/-- The position of a key, which is the position of its bit. -/
def SourceFlagKey.index : SourceFlagKey → ℕ
  | rfqOrder => 0
  | limitOrder => 1
  | otcOrder => 2
  | source s => 3 + s.ctorIdx

/-- `SOURCE_FLAGS`. -/
def SOURCE_FLAGS (key : SourceFlagKey) : ℕ :=
  if key = .source .native then 0 else flag key.index

theorem SourceFlagKey.index_injective : Function.Injective SourceFlagKey.index := by
  have hsource : Function.Injective ERC20BridgeSource.ctorIdx := fun a b h => by
    rw [← ERC20BridgeSource.ofNat_ctorIdx a, ← ERC20BridgeSource.ofNat_ctorIdx b, h]
  intro a b h
  cases a <;> cases b <;> simp only [SourceFlagKey.index] at h <;> first | rfl | omega | skip
  exact congrArg _ (hsource (by omega))

/-- The flags that are not the empty one of native orders. -/
theorem SOURCE_FLAGS_of_ne {key : SourceFlagKey} (h : key ≠ .source .native) :
    SOURCE_FLAGS key = flag key.index := if_neg h

/-- `toNativeSourceFlagKey`. -/
def toNativeSourceFlagKey : FillQuoteTransformerOrderType → SourceFlagKey
  | .limit => .limitOrder
  | .rfq => .rfqOrder
  | .otc => .otcOrder
  | .bridge => .limitOrder

theorem toNativeSourceFlagKey_ne_native (type : FillQuoteTransformerOrderType) :
    toNativeSourceFlagKey type ≠ .source .native := by
  cases type <;> exact SourceFlagKey.noConfusion

/-! ## Fills -/

/-- `ethToOutputAmount`. -/
def ethToOutputAmount (input output ethAmount inputAmountPerEth outputAmountPerEth : BigNumber) :
    BigNumber :=
  if !outputAmountPerEth.isZero then
    (outputAmountPerEth.times ethAmount).integerValue .halfUp
  else
    (inputAmountPerEth.times ethAmount).times (output.dividedToIntegerBy input)

/-- `adjustOutput`. -/
def adjustOutput (side : MarketOperation) (output penalty : BigNumber) : BigNumber :=
  match side with
  | .sell => output.minus penalty
  | .buy => output.plus penalty

/-- The input and the output of a native order, its taker-token fee on the taker's side. -/
def nativeOrderToNormalizedAmounts (side : MarketOperation)
    (nativeOrder : NativeOrderWithFillableAmounts) : BigNumber × BigNumber :=
  let makerAmount := nativeOrder.fillableMakerAmount
  let takerAmount := nativeOrder.fillableTakerAmount.plus nativeOrder.fillableTakerFeeAmount
  match side with
  | .sell => (takerAmount, makerAmount)
  | .buy => (makerAmount, takerAmount)

/-- `nativeOrderToFill`: at most the target input, with the output in proportion; `none` for an
order whose adjusted rate is not positive, when these are filtered. -/
def nativeOrderToFill [Arithmetic] (side : MarketOperation) (order : NativeOrderWithFillableAmounts)
    (targetInput outputAmountPerEth inputAmountPerEth : BigNumber) (fees : FeeSchedule)
    (filterNegativeAdjustedRateOrders : Bool) : Option Fill :=
  let (input, output) := nativeOrderToNormalizedAmounts side order
  let estimate := fees .native (.native order)
  let outputPenalty :=
    ethToOutputAmount input output estimate.fee inputAmountPerEth outputAmountPerEth
  let clippedInput := targetInput.min input
  let clippedOutput := (clippedInput.div input).times output
  let adjustedOutput := adjustOutput side clippedOutput outputPenalty
  let adjustedRate :=
    match side with
    | .sell => adjustedOutput.div clippedInput
    | .buy => clippedInput.div adjustedOutput
  if filterNegativeAdjustedRateOrders && adjustedRate.lte 0 then
    none
  else
    some
      { adjustedOutput := adjustedOutput
        input := clippedInput
        output := clippedOutput
        flags := SOURCE_FLAGS (toNativeSourceFlagKey order.type)
        source := .native
        type := order.type
        fillData := .native order
        gas := estimate.gas }

/-- `dexSampleToFill`. -/
def dexSampleToFill (side : MarketOperation) (sample : DexSample)
    (outputAmountPerEth inputAmountPerEth : BigNumber) (fees : FeeSchedule) : Fill :=
  let estimate := fees sample.source sample.fillData
  let penalty :=
    ethToOutputAmount sample.input sample.output estimate.fee inputAmountPerEth outputAmountPerEth
  { input := sample.input
    output := sample.output
    adjustedOutput := adjustOutput side sample.output penalty
    source := sample.source
    fillData := sample.fillData
    type := .bridge
    flags := SOURCE_FLAGS (.source sample.source)
    gas := estimate.gas }

/-- `twoHopSampleToFill`: with the flags of both hops, and no gas yet. -/
def twoHopSampleToFill (side : MarketOperation) (twoHopSample : TwoHopSample)
    (outputAmountPerEth : BigNumber) (multihopFeeEstimate : FillData → FeeEstimate) : Fill :=
  let flags :=
    SOURCE_FLAGS (.source .multiHop) |||
      SOURCE_FLAGS (.source twoHopSample.firstHopSource.source) |||
        SOURCE_FLAGS (.source twoHopSample.secondHopSource.source)
  let sourcePenalty :=
    (outputAmountPerEth.times (multihopFeeEstimate twoHopSample.fillData).fee).integerValue .halfUp
  { input := twoHopSample.input
    output := twoHopSample.output
    adjustedOutput := adjustOutput side twoHopSample.output sourcePenalty
    source := .multiHop
    fillData := twoHopSample.fillData
    type := .bridge
    flags := flags
    gas := 0 }

/-! ## Penalties -/

/-- A price for the output converts the amount of ETH. -/
theorem ethToOutputAmount_fin {outputAmountPerEth : ℚ} (h : outputAmountPerEth ≠ 0)
    (input output inputAmountPerEth : BigNumber) (eth : ℚ) :
    ethToOutputAmount input output (.fin eth) inputAmountPerEth (.fin outputAmountPerEth)
      = .fin (BigNumber.roundRat .halfUp (outputAmountPerEth * eth)) := by
  unfold ethToOutputAmount
  rw [BigNumber.isZero_fin, decide_eq_false h]
  rfl

/-- Without one, it is converted at the rate of the trade, cut off to an integer. -/
theorem ethToOutputAmount_fallback {input output : ℚ} (hinput : 0 < input) (houtput : 0 ≤ output)
    (eth inputAmountPerEth : ℚ) :
    ethToOutputAmount (.fin input) (.fin output) (.fin eth) (.fin inputAmountPerEth) (.fin 0)
      = .fin (inputAmountPerEth * eth * ⌊output / input⌋) := by
  unfold ethToOutputAmount BigNumber.dividedToIntegerBy
  rw [BigNumber.isZero_fin, decide_eq_true rfl, if_neg (by simp), BigNumber.div_fin _ hinput.ne',
    BigNumber.integerValue_fin, BigNumber.roundRat_down_of_nonneg (by positivity),
    BigNumber.times_fin, BigNumber.times_fin]

/-! ## What a fill keeps -/

/-- The index of the flag a fill gets from its source. -/
def flagKey (source : ERC20BridgeSource) (type : FillQuoteTransformerOrderType) : SourceFlagKey :=
  if source = .native then toNativeSourceFlagKey type else .source source

theorem flagKey_ne_native (source : ERC20BridgeSource) (type : FillQuoteTransformerOrderType) :
    flagKey source type ≠ .source .native := by
  unfold flagKey
  split
  · exact toNativeSourceFlagKey_ne_native type
  · rename_i h
    intro heq
    exact h (SourceFlagKey.source.inj heq)

theorem dexSampleToFill_flags (side : MarketOperation) (sample : DexSample)
    (outputAmountPerEth inputAmountPerEth : BigNumber) (fees : FeeSchedule) :
    (dexSampleToFill side sample outputAmountPerEth inputAmountPerEth fees).flags =
      SOURCE_FLAGS (flagKey sample.source .bridge) := by
  rw [flagKey, if_neg sample.notNative]
  rfl

theorem isHop_ne {source : ERC20BridgeSource} (h : source.isHop = true) :
    source ≠ .native ∧ source ≠ .multiHop := by
  revert h
  cases source <;> decide

/-- The flags of a two-hop are never that of the source `MultiHop` alone. -/
theorem twoHopSampleToFill_flags_ne (side : MarketOperation) (sample : TwoHopSample)
    (outputAmountPerEth : BigNumber) (multihopFeeEstimate : FillData → FeeEstimate) :
    (twoHopSampleToFill side sample outputAmountPerEth multihopFeeEstimate).flags ≠
      SOURCE_FLAGS (.source .multiHop) := by
  obtain ⟨hnative, hmultiHop⟩ := isHop_ne sample.firstHopSource.isHop
  have hfirst : SOURCE_FLAGS (.source sample.firstHopSource.source) = flag _ :=
    SOURCE_FLAGS_of_ne fun h => hnative (SourceFlagKey.source.inj h)
  have htwo : SOURCE_FLAGS (.source .multiHop) = flag _ := SOURCE_FLAGS_of_ne nofun
  intro h
  -- the first hop's bit is set on the one side and not on the other
  have hbit := congrArg (fun n => n.testBit (SourceFlagKey.source
    sample.firstHopSource.source).index) h
  simp only [twoHopSampleToFill, Nat.testBit_or, hfirst, htwo, testBit_flag, decide_true,
    Bool.or_true, Bool.true_or] at hbit
  have heq := SourceFlagKey.index_injective (of_decide_eq_true hbit.symm)
  exact hmultiHop (SourceFlagKey.source.inj heq).symm

/-- The fill of a native order that is not filtered out, field by field. -/
theorem nativeOrderToFill_of_not_filtered [Arithmetic] (side : MarketOperation)
    (order : NativeOrderWithFillableAmounts)
    (targetInput outputAmountPerEth inputAmountPerEth : BigNumber) (fees : FeeSchedule) :
    ∃ fill,
      nativeOrderToFill side order targetInput outputAmountPerEth inputAmountPerEth fees false =
          some fill ∧
        fill.input = targetInput.min (nativeOrderToNormalizedAmounts side order).1 ∧
        fill.output =
          (fill.input.div (nativeOrderToNormalizedAmounts side order).1).times
            (nativeOrderToNormalizedAmounts side order).2 ∧
        fill.source = .native ∧ fill.type = order.type ∧ fill.fillData = .native order ∧
        fill.flags = SOURCE_FLAGS (flagKey .native order.type) :=
  ⟨_, rfl, rfl, rfl, rfl, rfl, rfl, rfl⟩

end ZeroExApi.Fills
