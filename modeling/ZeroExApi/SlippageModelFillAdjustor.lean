/-
# ZeroExApi.SlippageModelFillAdjustor — fills charged with the slippage that is expected of them

`utils/slippage_model_fill_adjustor.ts`.  A fill is charged a penalty that is the sum of two
distances: from its output to what it was adjusted to before, and from its output to what is left of
it after slippage.  The first one gives back what the fill was adjusted to, as that is on the
unfavourable side, and the second one is not negative; so the fill becomes no better, whatever the
model predicts, as long as it predicts a number (`adjustFill_neverImproves_iff`).
-/

import ZeroExApi.SlippageModelManager
import ZeroExApi.Fills

namespace ZeroExApi

open ZeroExApi.Lib ZeroExApi.Lib.BigNumber ZeroExApi.Fills

/-! ## The adjustor -/

/-- `SlippageModelFillAdjustor`, with the cache of its manager. -/
structure SlippageModelFillAdjustor where
  chain : ChainTokens
  cache : SlippageModelCache
  sellToken : String
  buyToken : String
  maxSlippageRate : ℚ

namespace SlippageModelFillAdjustor

variable (adjustor : SlippageModelFillAdjustor)

/-- A fill as the only source of a breakdown. -/
def sourceOf (f : Fill) : LiquiditySource := ⟨f.source.value, .fin 1⟩

/-- The amount that is bought and the amount that is sold. -/
def buyAmountOf (side : MarketOperation) (f : Fill) : BigNumber :=
  match side with
  | .sell => f.output
  | .buy => f.input

def sellAmountOf (side : MarketOperation) (f : Fill) : BigNumber :=
  match side with
  | .sell => f.input
  | .buy => f.output

/-- The output of a fill, adjusted for the slippage that is expected on top of what it was adjusted
for before. -/
def newAdjustedOutput (side : MarketOperation) (f : Fill) (expectedSlippage : BigNumber) :
    BigNumber :=
  let previousPenalty := (f.output.minus f.adjustedOutput).abs
  let slippageAdjustedOutput :=
    (f.output.times ((BigNumber.fin 1).plus expectedSlippage)).integerValue .up
  let slippagePenalty := (f.output.minus slippageAdjustedOutput).abs
  (adjustOutput side f.output (previousPenalty.plus slippagePenalty)).integerValue .halfUp

/-- The body of `adjustFills`. -/
def adjustFill (side : MarketOperation) (f : Fill) : Fill :=
  match calculateExpectedSlippage adjustor.chain adjustor.cache adjustor.buyToken
    adjustor.sellToken (buyAmountOf side f) (sellAmountOf side f) [sourceOf f]
    adjustor.maxSlippageRate with
  | none => f
  | some expectedSlippage =>
    { f with adjustedOutput := newAdjustedOutput side f expectedSlippage }

/-- `adjustFills`. -/
def adjustFills (side : MarketOperation) (fills : List Fill) : List Fill :=
  fills.map (adjustor.adjustFill side)

/-! ## The expected slippage of a fill -/

/-- Only native fills have the name of a native source. -/
theorem sourceOf_isUsed (f : Fill) : (sourceOf f).isUsed = decide (f.source ≠ .native) := by
  have hname : f.source.value ≠ "0x" ∧
      (f.source.value = ERC20BridgeSource.native.value ↔ f.source = .native) := by
    cases f.source <;> simp [ERC20BridgeSource.value]
  simp [LiquiditySource.isUsed, LiquiditySource.isNative, sourceOf, hname]

/-- The expected slippage of a fill is what it contributes alone. -/
theorem calculateExpectedSlippage_fill (side : MarketOperation) (f : Fill) :
    calculateExpectedSlippage adjustor.chain adjustor.cache adjustor.buyToken adjustor.sellToken
        (buyAmountOf side f) (sellAmountOf side f) [sourceOf f] adjustor.maxSlippageRate =
      contribution adjustor.chain adjustor.cache adjustor.buyToken adjustor.sellToken
        (buyAmountOf side f) (sellAmountOf side f) adjustor.maxSlippageRate (sourceOf f) := by
  rw [calculateExpectedSlippage_eq]
  generalize hcontribution : contribution adjustor.chain adjustor.cache adjustor.buyToken
    adjustor.sellToken (buyAmountOf side f) (sellAmountOf side f) adjustor.maxSlippageRate
    (sourceOf f) = x
  rcases x with _ | x
  · simp [hcontribution]
  · simp [hcontribution, plus_zero]

/-! ## Penalties -/

/-- A fill that can be adjusted: its input is finite, its output is an integer that is not negative,
and what it is adjusted to is an integer on the unfavourable side of the output. -/
structure Adjustable (side : MarketOperation) (f : Fill) : Prop where
  input : ∃ input : ℚ, f.input = .fin input
  output : ∃ output : ℕ, f.output = .fin output
  adjustedOutput : ∃ adjusted : ℤ, f.adjustedOutput = .fin adjusted
  unfavourable :
    match side with
    | .sell => f.adjustedOutput.lte f.output = true
    | .buy => f.adjustedOutput.gte f.output = true

/-- The second amount is a number on the unfavourable side of the first one. -/
def NoBetter (side : MarketOperation) (before after : BigNumber) : Prop :=
  ∃ p q : ℚ, before = .fin p ∧ after = .fin q ∧
    match side with
    | .sell => q ≤ p
    | .buy => p ≤ q

variable {side : MarketOperation} {f : Fill}

/-- The new penalty comes on top of what the fill was adjusted to. -/
theorem newAdjustedOutput_eq (hf : Adjustable side f) (e : ℚ) :
    newAdjustedOutput side f (.fin e) =
      adjustOutput side f.adjustedOutput
        (f.output.minus ((f.output.times (.fin (1 + e))).integerValue .up)).abs := by
  obtain ⟨_, ⟨o, ho⟩, ⟨a, ha⟩, hunfavourable⟩ := hf
  unfold newAdjustedOutput adjustOutput
  dsimp only
  rw [ho, ha, plus_fin, times_fin, integerValue_fin, minus_fin, minus_fin]
  rw [ho, ha] at hunfavourable
  generalize roundRat .up ((o : ℚ) * (1 + e)) = s
  -- all of it is in whole units, so that the last rounding does nothing
  cases side with
  | sell =>
    have hle : (a : ℚ) ≤ o := by simpa using hunfavourable
    have hprevious : |(o : ℚ) - a| = o - a := abs_of_nonneg (by linarith)
    have hint : (o : ℚ) - (o - a + |(o : ℚ) - s|) = ((a - |(o : ℤ) - s| : ℤ) : ℚ) := by
      push_cast
      ring
    simp only [BigNumber.abs, plus_fin, minus_fin, hprevious, hint, integerValue_fin,
      roundRat_intCast]
    push_cast
    ring_nf
  | buy =>
    have hle : (o : ℚ) ≤ a := by simpa using hunfavourable
    have hprevious : |(o : ℚ) - a| = a - o := by
      rw [abs_sub_comm]
      exact abs_of_nonneg (by linarith)
    have hint : (o : ℚ) + (a - o + |(o : ℚ) - s|) = ((a + |(o : ℤ) - s| : ℤ) : ℚ) := by
      push_cast
      ring
    simp only [BigNumber.abs, plus_fin, hprevious, hint, integerValue_fin, roundRat_intCast]
    push_cast
    ring_nf

/-- Where no number is expected, none comes out. -/
theorem newAdjustedOutput_nan (side : MarketOperation) (f : Fill) :
    newAdjustedOutput side f .nan = .nan := by
  unfold newAdjustedOutput adjustOutput
  cases side <;> simp [BigNumber.abs, minus, neg, integerValue]

/-- A penalty more makes a fill no better. -/
theorem noBetter_adjustOutput (side : MarketOperation) (a x : ℚ) :
    NoBetter side (.fin a) (adjustOutput side (.fin a) (BigNumber.fin x).abs) := by
  cases side with
  | sell => exact ⟨a, a - |x|, rfl, minus_fin a |x|, sub_le_self a (abs_nonneg x)⟩
  | buy => exact ⟨a, a + |x|, rfl, plus_fin a |x|, le_add_of_nonneg_right (abs_nonneg x)⟩

/-! ## Adjusting fills -/

/-- What is claimed of an adjusted fill: only its adjusted output may differ, that is no better than
before, and a native fill and one without a model stay as they are. -/
structure NeverImproves (side : MarketOperation) (before after : Fill) : Prop where
  others : after = { before with adjustedOutput := after.adjustedOutput }
  noBetter : NoBetter side before.adjustedOutput after.adjustedOutput
  identity :
    before.source = .native ∨
        modelFor adjustor.chain adjustor.cache adjustor.buyToken adjustor.sellToken
          (sourceOf before) = none →
      after = before

/-- The model of a fill, if there is one, has a price that can be reckoned with for the fill. -/
def PricedFor (side : MarketOperation) (f : Fill) : Prop :=
  f.source ≠ .native → ∀ slippageModel,
    modelFor adjustor.chain adjustor.cache adjustor.buyToken adjustor.sellToken (sourceOf f) =
        some slippageModel →
      slippageModel.Priced
        (token0AmountOf adjustor.chain adjustor.buyToken (buyAmountOf side f).toRat
          (sellAmountOf side f).toRat slippageModel)

/-- What is bought and sold by a fill that can be adjusted is finite. -/
theorem Adjustable.amounts (hf : Adjustable side f) :
    buyAmountOf side f = .fin (buyAmountOf side f).toRat ∧
      sellAmountOf side f = .fin (sellAmountOf side f).toRat := by
  obtain ⟨i, hi⟩ := hf.input
  obtain ⟨o, ho⟩ := hf.output
  cases side with
  | sell => simp [buyAmountOf, sellAmountOf, hi, ho]
  | buy => simp [buyAmountOf, sellAmountOf, hi, ho]

/-- Adjusting a fill, by what it contributes. -/
theorem adjustFill_eq (hf : Adjustable side f) :
    adjustor.adjustFill side f =
      match contribution adjustor.chain adjustor.cache adjustor.buyToken adjustor.sellToken
        (.fin (buyAmountOf side f).toRat) (.fin (sellAmountOf side f).toRat)
        adjustor.maxSlippageRate (sourceOf f) with
      | none => f
      | some expectedSlippage =>
        { f with adjustedOutput := newAdjustedOutput side f expectedSlippage } := by
  unfold adjustFill
  rw [calculateExpectedSlippage_fill, ← hf.amounts.1, ← hf.amounts.2]

/-- Without slippage a fill stays as it is. -/
theorem newAdjustedOutput_zero (hf : Adjustable side f) :
    newAdjustedOutput side f (.fin 0) = f.adjustedOutput := by
  obtain ⟨o, ho⟩ := hf.output
  obtain ⟨a, ha⟩ := hf.adjustedOutput
  have hround : roundRat .up (o : ℚ) = o := roundRat_intCast .up o
  rw [newAdjustedOutput_eq hf, ho, ha, add_zero, times_fin, mul_one, integerValue_fin, hround]
  cases side <;> simp [adjustOutput, BigNumber.abs]

theorem adjustFill_neverImproves_iff (hf : Adjustable side f)
    (hmax : 0 ≤ adjustor.maxSlippageRate) :
    adjustor.NeverImproves side f (adjustor.adjustFill side f) ↔ adjustor.PricedFor side f := by
  obtain ⟨a, ha⟩ := hf.adjustedOutput
  have hrefl : NoBetter side f.adjustedOutput f.adjustedOutput := by
    refine ⟨a, a, ha, ha, ?_⟩
    cases side <;> exact le_rfl
  have hunchanged : adjustor.adjustFill side f = f →
      adjustor.NeverImproves side f (adjustor.adjustFill side f) := by
    intro h
    rw [h]
    exact ⟨rfl, hrefl, fun _ => rfl⟩
  rw [adjustor.adjustFill_eq hf] at hunchanged ⊢
  by_cases hnative : f.source = .native
  · have hused : (sourceOf f).isUsed = false := by simp [sourceOf_isUsed, hnative]
    -- a slippage of zero is expected of it, which leaves it as it is
    rw [contribution_of_not_used _ _ _ _ _ _ _ hused] at hunchanged ⊢
    refine iff_of_true (hunchanged ?_) fun hne => absurd hnative hne
    dsimp only
    rw [newAdjustedOutput_zero hf]
  · have hused : (sourceOf f).isUsed = true := by simp [sourceOf_isUsed, hnative]
    rcases hmodel : modelFor adjustor.chain adjustor.cache adjustor.buyToken adjustor.sellToken
        (sourceOf f) with _ | slippageModel
    · -- no model, so the fill is left alone
      have hnone := contribution_eq_none_iff adjustor.chain adjustor.cache adjustor.buyToken
        adjustor.sellToken (buyAmountOf side f).toRat (sellAmountOf side f).toRat
        adjustor.maxSlippageRate |>.mpr ⟨hused, hmodel⟩
      rw [hnone] at hunchanged ⊢
      refine iff_of_true (hunchanged rfl) fun _ slippageModel hsome => ?_
      rw [hmodel] at hsome
      cases hsome
    · have hidentity : ¬ (f.source = .native ∨
          modelFor adjustor.chain adjustor.cache adjustor.buyToken adjustor.sellToken
            (sourceOf f) = none) := by
        rw [hmodel]
        simpa using hnative
      rcases contribution_cases ⟨1, rfl, zero_le_one⟩ hmax hused hmodel with
        ⟨hpriced, q, hq, _⟩ | ⟨hnot, hnan⟩
      · rw [hq]
        refine iff_of_true ⟨rfl, ?_, fun h => absurd h hidentity⟩ fun _ m hm => ?_
        · obtain ⟨o, ho⟩ := hf.output
          dsimp only
          rw [newAdjustedOutput_eq hf, ha, ho, times_fin, integerValue_fin, minus_fin]
          exact noBetter_adjustOutput side a _
        · rw [hmodel] at hm
          obtain rfl := Option.some.inj hm
          exact hpriced
      · -- what comes out is no number, so it is not on either side of what was there
        rw [hnan]
        refine iff_of_false (fun h => ?_) fun h => hnot (h hnative _ hmodel)
        obtain ⟨_, q, _, hq, _⟩ := h.noBetter
        dsimp only at hq
        rw [newAdjustedOutput_nan] at hq
        cases hq

/-- For every side, fills that can be adjusted, model cache and largest slippage that is not
negative: adjusting improves no fill, exactly when the models of the fills have prices that can be
reckoned with. -/
theorem adjustFills_neverImproves_iff {fills : List Fill}
    (hfills : ∀ f ∈ fills, Adjustable side f) (hmax : 0 ≤ adjustor.maxSlippageRate) :
    List.Forall₂ (adjustor.NeverImproves side) fills (adjustor.adjustFills side fills) ↔
      ∀ f ∈ fills, adjustor.PricedFor side f := by
  rw [adjustFills, List.forall₂_map_right_iff, List.forall₂_same]
  exact forall₂_congr fun f hf => adjustor.adjustFill_neverImproves_iff (hfills f hf) hmax

/-! ### A fill with a model at a price and at none -/

open SlippageModelManager

/-- The adjustor of a sale of WETH for USDC, over the cache of a file. -/
def adjustorAt (price : BigNumber) : SlippageModelFillAdjustor where
  chain := mainnet
  cache := cacheOf [modelAt price]
  sellToken := weth
  buyToken := usdc
  maxSlippageRate := 3 / 100

/-- A fill of a hundred for one, adjusted by one. -/
def fillOfOne : Fill where
  input := .fin 1
  output := .fin 100
  adjustedOutput := .fin 99
  gas := 0
  source := .curve
  type := .bridge
  fillData := .curve 0 1 ⟨"exchange", "pool"⟩
  flags := 0

theorem fillOfOne_adjustable : Adjustable .sell fillOfOne :=
  ⟨⟨1, rfl⟩, ⟨100, by simp [fillOfOne]⟩, ⟨99, by simp [fillOfOne]⟩,
    by norm_num [fillOfOne]⟩

/-- With the cache of a file whose model has no price, the adjusted output is no number. -/
theorem unpriced_fill_not_adjusted :
    createSlippageModelCache matchesAddress (fileAt .nan) = .ok (adjustorAt .nan).cache ∧
      Adjustable .sell fillOfOne ∧
      ¬ List.Forall₂ ((adjustorAt .nan).NeverImproves .sell) [fillOfOne]
          ((adjustorAt .nan).adjustFills .sell [fillOfOne]) := by
  refine ⟨?_, fillOfOne_adjustable, fun h => ?_⟩
  · rw [createSlippageModelCache, parse_fileAt]
    rfl
  · have hmax : (0 : ℚ) ≤ 3 / 100 := by norm_num
    have hfill := (List.forall₂_cons.mp h).1
    have hpriced := ((adjustorAt .nan).adjustFill_neverImproves_iff fillOfOne_adjustable
      hmax).mp hfill (by simp [fillOfOne]) _ (modelFor_curve .nan)
    exact hpriced.1 rfl

/-- At a price the fill is adjusted to no more. -/
theorem priced_fill_neverImproves :
    List.Forall₂ ((adjustorAt (.fin (1 / 10 ^ 6))).NeverImproves .sell) [fillOfOne]
      ((adjustorAt (.fin (1 / 10 ^ 6))).adjustFills .sell [fillOfOne]) := by
  have hmax : (0 : ℚ) ≤ 3 / 100 := by norm_num
  have hfills : ∀ f ∈ [fillOfOne], Adjustable .sell f :=
    List.forall_mem_singleton.mpr fillOfOne_adjustable
  refine ((adjustorAt (.fin (1 / 10 ^ 6))).adjustFills_neverImproves_iff hfills hmax).mpr ?_
  intro f _ _ slippageModel hfound
  obtain ⟨m, hm, _, rfl⟩ := exists_of_getModel hfound
  rw [List.mem_singleton.mp hm]
  exact ⟨by simp [modelAt, SlippageModel.cached], by simp [modelAt, SlippageModel.cached]⟩

end SlippageModelFillAdjustor

end ZeroExApi
