/-
# ZeroExApi.QuoteSimulation — what a quote's single-hop orders are expected to fill

`utils/quote_simulation.ts`.  The orders are filled in turn with what is left of the amount; the
best case is the sum of that, the worst case is the best case with slippage on its output.  Only
limit orders have fees and only limit orders pay a protocol fee.

The last sections say what is filled of orders without fees.  The inputs add up to the amount or to
all there is (`fillLoop_input`); an order that is reached with nothing to fill divides zero by zero,
and what is not a number stays so (`fillLoop_of_zero_input`).
-/

import ZeroExApi.Orders
import ZeroExApi.Lib.JsMap
import Mathlib.Algebra.Order.BigOperators.Group.List

namespace ZeroExApi.QuoteSimulation

open ZeroExApi.Lib ZeroExApi.Lib.Fallible

/-! ## Results -/

/-- `constants.PROTOCOL_FEE_MULTIPLIER`. -/
def PROTOCOL_FEE_MULTIPLIER : BigNumber := .fin 0

/-- `QuoteFillResult`. -/
structure QuoteFillResult where
  makerAssetAmount : BigNumber
  takerAssetAmount : BigNumber
  takerFeeMakerAssetAmount : BigNumber
  takerFeeTakerAssetAmount : BigNumber
  totalMakerAssetAmount : BigNumber
  totalTakerAssetAmount : BigNumber
  protocolFeeAmount : BigNumber
  gas : ℚ
  fillAmountBySource : JsMap ERC20BridgeSource BigNumber

/-- `IntermediateQuoteFillResult`. -/
structure IntermediateQuoteFillResult where
  input : BigNumber
  output : BigNumber
  inputFee : BigNumber
  outputFee : BigNumber
  protocolFee : BigNumber
  gas : ℚ
  inputBySource : JsMap ERC20BridgeSource BigNumber

/-- `EMPTY_QUOTE_INTERMEDIATE_FILL_RESULT`. -/
def EMPTY_QUOTE_INTERMEDIATE_FILL_RESULT : IntermediateQuoteFillResult where
  input := ZERO_AMOUNT
  output := ZERO_AMOUNT
  outputFee := ZERO_AMOUNT
  inputFee := ZERO_AMOUNT
  protocolFee := ZERO_AMOUNT
  gas := 0
  inputBySource := .empty

/-- `QuoteFillInfo`, its options merged with the defaults. -/
structure QuoteFillInfo where
  orders : List OptimizedOrder
  fillAmount : BigNumber
  gasPrice : BigNumber
  side : MarketOperation
  gasSchedule : GasSchedule
  protocolFeeMultiplier : BigNumber := PROTOCOL_FEE_MULTIPLIER
  slippage : ℚ := 0

/-- `QuoteFillOrderCall`. -/
structure QuoteFillOrderCall where
  order : OptimizedOrder
  totalOrderInput : BigNumber
  totalOrderOutput : BigNumber
  totalOrderInputFee : BigNumber
  totalOrderOutputFee : BigNumber

/-! ## Filling orders -/

/-- `hasProtocolFee`. -/
def hasProtocolFee (o : OptimizedOrder) : Bool := o.type == .limit

/-- `solveForInputFillAmount`. -/
def solveForInputFillAmount [Arithmetic]
    (remainingInput fillableInput totalOrderInput totalOrderInputFee : BigNumber) : BigNumber :=
  let denom := totalOrderInput.plus totalOrderInputFee
  if denom.eq 0 then
    fillableInput
  else
    fillableInput.min ((remainingInput.times totalOrderInput).div denom)

/-- One turn of the loop of `fillQuoteOrders`: what remains of the input, and the result. -/
def fillOrder [Arithmetic] (protocolFeePerFillOrder : BigNumber) (gasSchedule : GasSchedule)
    (fo : QuoteFillOrderCall) (remainingInput : BigNumber)
    (result : IntermediateQuoteFillResult) : BigNumber × IntermediateQuoteFillResult :=
  let source := fo.order.source
  let filledInput :=
    solveForInputFillAmount remainingInput fo.order.fill.input fo.totalOrderInput
      fo.totalOrderInputFee
  let filledOutput := fo.order.fill.output.times (filledInput.div fo.order.fill.input)
  let filledInputFee := (filledInput.div fo.totalOrderInput).times fo.totalOrderInputFee
  let filledOutputFee := (filledOutput.div fo.totalOrderOutput).times fo.totalOrderOutputFee
  let inputOfSource := (result.inputBySource.get source).getD ZERO_AMOUNT
  let protocolFee := if hasProtocolFee fo.order then protocolFeePerFillOrder else ZERO_AMOUNT
  (remainingInput.minus (filledInput.plus filledInputFee),
    { gas := result.gas + gasSchedule source fo.order.fillData
      inputBySource := result.inputBySource.set source (inputOfSource.plus filledInput)
      input := result.input.plus filledInput
      output := result.output.plus filledOutput
      inputFee := result.inputFee.plus filledInputFee
      outputFee := result.outputFee.plus filledOutputFee
      protocolFee := result.protocolFee.plus protocolFee })

/-- The loop of `fillQuoteOrders`, left once nothing remains. -/
def fillLoop [Arithmetic] (protocolFeePerFillOrder : BigNumber) (gasSchedule : GasSchedule) :
    List QuoteFillOrderCall → BigNumber → IntermediateQuoteFillResult →
      IntermediateQuoteFillResult
  | [], _, result => result
  | fo :: fillOrders, remainingInput, result =>
    if remainingInput.lte 0 then
      result
    else
      let (remainingInput, result) :=
        fillOrder protocolFeePerFillOrder gasSchedule fo remainingInput result
      fillLoop protocolFeePerFillOrder gasSchedule fillOrders remainingInput result

/-- `fillQuoteOrders`. -/
def fillQuoteOrders [Arithmetic] (fillOrders : List QuoteFillOrderCall) (inputAmount : BigNumber)
    (protocolFeePerFillOrder : BigNumber) (gasSchedule : GasSchedule) :
    IntermediateQuoteFillResult :=
  fillLoop protocolFeePerFillOrder gasSchedule fillOrders inputAmount
    EMPTY_QUOTE_INTERMEDIATE_FILL_RESULT

/-! ## The orders as calls -/

/-- `getNativeAdjustedTakerFeeAmount`. -/
def getNativeAdjustedTakerFeeAmount [Arithmetic] (order : NativeOrderFields)
    (takerFillAmount : BigNumber) : BigNumber :=
  ((takerFillAmount.times order.takerTokenFeeAmount).div order.takerAmount).integerValue .floor

/-- The taker-token fee of an order. -/
def takerFee [Arithmetic] (o : OptimizedOrder) : Except JsError BigNumber :=
  if o.type = .limit then
    match o.fillData with
    | .native nativeOrder => .ok (getNativeAdjustedTakerFeeAmount nativeOrder.order o.takerAmount)
    | _ => .error .typeError
  else
    .ok ZERO_AMOUNT

/-- The call for an order: the fee is on the taker's side. -/
def createBestCaseFillOrderCall [Arithmetic] (side : MarketOperation) (o : OptimizedOrder) :
    Except JsError QuoteFillOrderCall := do
  let fee ← takerFee o
  match side with
  | .sell => .ok ⟨o, o.takerAmount, o.makerAmount, fee, ZERO_AMOUNT⟩
  | .buy => .ok ⟨o, o.makerAmount, o.takerAmount, ZERO_AMOUNT, fee⟩

/-- `createBestCaseFillOrderCalls`. -/
def createBestCaseFillOrderCalls [Arithmetic] (quoteInfo : QuoteFillInfo) :
    Except JsError (List QuoteFillOrderCall) :=
  quoteInfo.orders.mapM (createBestCaseFillOrderCall quoteInfo.side)

/-! ## Rounding -/

/-- `roundInputAmount`. -/
def roundInputAmount (amount : BigNumber) (side : MarketOperation) : BigNumber :=
  match side with
  | .sell => amount.integerValue .up
  | .buy => amount.integerValue .down

/-- `roundOutputAmount`. -/
def roundOutputAmount (amount : BigNumber) (side : MarketOperation) : BigNumber :=
  match side with
  | .sell => amount.integerValue .down
  | .buy => amount.integerValue .up

/-- `roundIntermediateFillResult`. -/
def roundIntermediateFillResult (ir : IntermediateQuoteFillResult) (side : MarketOperation) :
    IntermediateQuoteFillResult where
  input := roundInputAmount ir.input side
  output := roundOutputAmount ir.output side
  inputFee := roundInputAmount ir.inputFee side
  outputFee := roundOutputAmount ir.outputFee side
  protocolFee := ir.protocolFee.integerValue .up
  gas := ⌈ir.gas⌉
  inputBySource := ir.inputBySource.mapValues fun v => roundInputAmount v side

/-- `fromIntermediateQuoteFillResult`. -/
def fromIntermediateQuoteFillResult (ir : IntermediateQuoteFillResult)
    (quoteInfo : QuoteFillInfo) : QuoteFillResult :=
  let rounded := roundIntermediateFillResult ir quoteInfo.side
  match quoteInfo.side with
  | .sell =>
    { makerAssetAmount := rounded.output
      takerAssetAmount := rounded.input
      takerFeeMakerAssetAmount := rounded.outputFee
      takerFeeTakerAssetAmount := rounded.inputFee
      totalMakerAssetAmount := rounded.output.plus rounded.outputFee
      totalTakerAssetAmount := rounded.input.plus rounded.inputFee
      protocolFeeAmount := rounded.protocolFee
      gas := rounded.gas
      fillAmountBySource := rounded.inputBySource }
  | .buy =>
    { makerAssetAmount := rounded.input
      takerAssetAmount := rounded.output
      takerFeeMakerAssetAmount := rounded.inputFee
      takerFeeTakerAssetAmount := rounded.outputFee
      totalMakerAssetAmount := rounded.input.plus rounded.inputFee
      totalTakerAssetAmount := rounded.output.plus rounded.outputFee
      protocolFeeAmount := rounded.protocolFee
      gas := rounded.gas
      fillAmountBySource := rounded.inputBySource }

/-! ## Best and worst case -/

/-- `getTotalGasUsedByFills`. -/
def getTotalGasUsedByFills (orders : List OptimizedOrder) (gasSchedule : GasSchedule) : ℚ :=
  (orders.map fun order => gasSchedule order.source order.fillData).sum

/-- `simulateBestCaseFill`. -/
def simulateBestCaseFill [Arithmetic] (quoteInfo : QuoteFillInfo) :
    Except JsError QuoteFillResult := do
  let protocolFeePerFillOrder := quoteInfo.gasPrice.times quoteInfo.protocolFeeMultiplier
  let bestCase ← createBestCaseFillOrderCalls quoteInfo
  let result :=
    fillQuoteOrders bestCase quoteInfo.fillAmount protocolFeePerFillOrder quoteInfo.gasSchedule
  .ok (fromIntermediateQuoteFillResult result quoteInfo)

/-- The output of the worst case. -/
def slipOutput [Arithmetic] (side : MarketOperation) (output : BigNumber) (slippage : ℚ) :
    BigNumber :=
  match side with
  | .sell => (output.times (.fin (Arithmetic.float (1 - slippage)))).integerValue .down
  | .buy => (output.times (.fin (Arithmetic.float (1 + slippage)))).integerValue .up

/-- `simulateWorstCaseFill`. -/
def simulateWorstCaseFill [Arithmetic] (quoteInfo : QuoteFillInfo) :
    Except JsError QuoteFillResult := do
  let protocolFeePerFillOrder := quoteInfo.gasPrice.times quoteInfo.protocolFeeMultiplier
  let bestCase ← createBestCaseFillOrderCalls quoteInfo
  let filled :=
    fillQuoteOrders bestCase quoteInfo.fillAmount protocolFeePerFillOrder quoteInfo.gasSchedule
  let result :=
    { filled with
      gas := getTotalGasUsedByFills quoteInfo.orders quoteInfo.gasSchedule
      protocolFee :=
        protocolFeePerFillOrder.times (.fin (quoteInfo.orders.filter hasProtocolFee).length)
      output := slipOutput quoteInfo.side filled.output quoteInfo.slippage }
  .ok (fromIntermediateQuoteFillResult result quoteInfo)

/-! ## Orders without fees -/

/-- The amounts of an order's fill, as rationals. -/
def QuoteFillOrderCall.input (fo : QuoteFillOrderCall) : ℚ := fo.order.fill.input.toRat

def QuoteFillOrderCall.output (fo : QuoteFillOrderCall) : ℚ := fo.order.fill.output.toRat

/-- A call of an order without fees, whose input is that of its fill. -/
structure QuoteFillOrderCall.Plain [Arithmetic] (fo : QuoteFillOrderCall) : Prop where
  input_eq : fo.order.fill.input = .fin fo.input
  input_kept : Arithmetic.Kept fo.input
  totalOrderInput_eq : fo.totalOrderInput = .fin fo.input
  inputFee_eq : fo.totalOrderInputFee = ZERO_AMOUNT
  outputFee_eq : fo.totalOrderOutputFee = ZERO_AMOUNT
  input_nonneg : 0 ≤ fo.input

/-- The calls that are reached while some of the input remains. -/
def reached (remainingInput : ℚ) : List QuoteFillOrderCall → List QuoteFillOrderCall
  | [] => []
  | fo :: fillOrders =>
    if remainingInput ≤ 0 then
      []
    else
      fo :: reached (remainingInput - min fo.input remainingInput) fillOrders

/-- The output each call is filled for. -/
def filledOutputs [Arithmetic] (remainingInput : ℚ) : List QuoteFillOrderCall → List ℚ
  | [] => []
  | fo :: fillOrders =>
    let filledInput := min fo.input remainingInput
    fo.output * Arithmetic.quotient (filledInput / fo.input) ::
      filledOutputs (remainingInput - filledInput) fillOrders

section Plain

variable {protocolFee : BigNumber} {gasSchedule : GasSchedule} {fo : QuoteFillOrderCall}
  {fillOrders : List QuoteFillOrderCall} {remainingInput : ℚ}
  {result : IntermediateQuoteFillResult}

theorem reached_of_pos (h : 0 < remainingInput) :
    reached remainingInput (fo :: fillOrders) =
      fo :: reached (remainingInput - min fo.input remainingInput) fillOrders :=
  if_neg (not_le.mpr h)

theorem reached_of_done (h : remainingInput ≤ 0) : reached remainingInput fillOrders = [] := by
  cases fillOrders with
  | nil => rfl
  | cons fo fillOrders => exact if_pos h

/-- What a first order takes of an amount and what the rest take of what it leaves is what they all
take. -/
theorem min_add_min_sub {first rest amount : ℚ} (hrest : 0 ≤ rest) :
    min first amount + min (amount - min first amount) rest = min amount (first + rest) := by
  rcases le_total first amount with hle | hle
  · rw [min_eq_left hle, ← min_add_add_left, add_sub_cancel]
  · rw [min_eq_right hle, sub_self, min_eq_left hrest, min_eq_left (by linarith), add_zero]

theorem mem_of_mem_reached (h : fo ∈ reached remainingInput fillOrders) : fo ∈ fillOrders := by
  induction fillOrders generalizing remainingInput with
  | nil => exact h
  | cons first fillOrders ih =>
    unfold reached at h
    split at h
    · exact absurd h List.not_mem_nil
    · rcases List.mem_cons.mp h with rfl | hrest
      · exact List.mem_cons_self
      · exact List.mem_cons_of_mem _ (ih hrest)

variable [Arithmetic]

/-- Without fees an order is filled with what it can take of what remains. -/
theorem solveForInputFillAmount_plain (h : fo.Plain) (hr : 0 ≤ remainingInput)
    (hkept : Arithmetic.Kept remainingInput) :
    solveForInputFillAmount (.fin remainingInput) fo.order.fill.input fo.totalOrderInput
        fo.totalOrderInputFee =
      .fin (min fo.input remainingInput) := by
  rw [h.input_eq, h.totalOrderInput_eq, h.inputFee_eq, solveForInputFillAmount, ZERO_AMOUNT]
  simp only [BigNumber.plus_fin, add_zero, BigNumber.zero_eq, BigNumber.eq_fin]
  rcases h.input_nonneg.lt_or_eq with hpos | hzero
  · rw [decide_eq_false hpos.ne', if_neg Bool.false_ne_true, BigNumber.times_fin,
      BigNumber.div_quotient _ hpos.ne', mul_div_assoc, div_self hpos.ne', mul_one, hkept,
      BigNumber.min_fin]
  · rw [← hzero, decide_eq_true rfl, if_pos rfl, min_eq_left hr]

/-- One turn with an order that has something to fill. -/
theorem fillOrder_plain (protocolFee : BigNumber) (gasSchedule : GasSchedule)
    (result : IntermediateQuoteFillResult) (h : fo.Plain) (hpos : 0 < fo.input)
    (hr : 0 ≤ remainingInput) (hkept : Arithmetic.Kept remainingInput) :
    let filledInput := min fo.input remainingInput
    let filledOutput :=
      fo.order.fill.output.times (.fin (Arithmetic.quotient (filledInput / fo.input)))
    let next := fillOrder protocolFee gasSchedule fo (.fin remainingInput) result
    next.1 = .fin (remainingInput - filledInput) ∧
      next.2.input = result.input.plus (.fin filledInput) ∧
      next.2.inputFee = result.inputFee.plus (.fin 0) ∧
      next.2.output = result.output.plus filledOutput ∧
      next.2.outputFee =
        result.outputFee.plus ((filledOutput.div fo.totalOrderOutput).times (.fin 0)) := by
  have hfill := solveForInputFillAmount_plain h hr hkept
  have hdiv : (BigNumber.fin (min fo.input remainingInput)).div (.fin fo.input) =
      .fin (Arithmetic.quotient (min fo.input remainingInput / fo.input)) :=
    BigNumber.div_quotient _ hpos.ne'
  simp only [fillOrder, hfill]
  rw [h.totalOrderInput_eq, h.inputFee_eq, h.outputFee_eq, h.input_eq, hdiv, ZERO_AMOUNT]
  simp

/-- One turn with an order that has nothing to fill divides zero by zero. -/
theorem fillOrder_zero (protocolFee : BigNumber) (gasSchedule : GasSchedule)
    (result : IntermediateQuoteFillResult) (h : fo.Plain) (hzero : fo.input = 0)
    (hr : 0 ≤ remainingInput) (hkept : Arithmetic.Kept remainingInput) :
    let next := fillOrder protocolFee gasSchedule fo (.fin remainingInput) result
    next.2.inputFee = .nan ∧ next.2.output = .nan := by
  have hfill := solveForInputFillAmount_plain h hr hkept
  rw [hzero, min_eq_left hr] at hfill
  simp only [fillOrder, hfill]
  rw [h.totalOrderInput_eq, h.input_eq, hzero]
  simp

/-- What is not a number stays so to the end, in every field the loop adds to. -/
theorem fillLoop_nan (field : IntermediateQuoteFillResult → BigNumber)
    (hstep : ∀ fo remaining result, ∃ d,
      field (fillOrder protocolFee gasSchedule fo remaining result).2 = (field result).plus d)
    (remaining : BigNumber) (h : field result = .nan) :
    field (fillLoop protocolFee gasSchedule fillOrders remaining result) = .nan := by
  induction fillOrders generalizing remaining result with
  | nil => exact h
  | cons fo fillOrders ih =>
    unfold fillLoop
    split
    · exact h
    · apply ih
      obtain ⟨d, hd⟩ := hstep fo remaining result
      exact hd.trans (by rw [h, BigNumber.nan_plus])

theorem fillLoop_of_done (h : remainingInput ≤ 0) :
    fillLoop protocolFee gasSchedule fillOrders (.fin remainingInput) result = result := by
  cases fillOrders with
  | nil => rfl
  | cons fo fillOrders =>
    unfold fillLoop
    rw [BigNumber.zero_eq, BigNumber.lte_fin, decide_eq_true h, if_pos rfl]

theorem fillLoop_of_pos (h : 0 < remainingInput) :
    fillLoop protocolFee gasSchedule (fo :: fillOrders) (.fin remainingInput) result =
      fillLoop protocolFee gasSchedule fillOrders
        (fillOrder protocolFee gasSchedule fo (.fin remainingInput) result).1
        (fillOrder protocolFee gasSchedule fo (.fin remainingInput) result).2 := by
  rw [fillLoop, BigNumber.zero_eq, BigNumber.lte_fin, decide_eq_false (not_le.mpr h),
    if_neg Bool.false_ne_true]

/-- Nothing is filled for once nothing remains. -/
theorem sum_filledOutputs_zero (hplain : ∀ fo ∈ fillOrders, fo.Plain) :
    (filledOutputs 0 fillOrders).sum = 0 := by
  induction fillOrders with
  | nil => rfl
  | cons fo fillOrders ih =>
    have hfilled : min fo.input 0 = 0 := min_eq_right (hplain fo List.mem_cons_self).input_nonneg
    simp [filledOutputs, hfilled, ih fun x hx => hplain x (List.mem_cons_of_mem _ hx)]

theorem sum_input_nonneg (hplain : ∀ fo ∈ fillOrders, fo.Plain) :
    0 ≤ (fillOrders.map QuoteFillOrderCall.input).sum := by
  apply List.sum_nonneg
  intro x hx
  obtain ⟨fo, hfo, rfl⟩ := List.mem_map.mp hx
  exact (hplain fo hfo).input_nonneg

variable (protocolFee gasSchedule result) in
/-- The inputs add up to the amount or to all the orders take, as long as none that is reached has
nothing to fill. -/
theorem fillLoop_input (hplain : ∀ fo ∈ fillOrders, fo.Plain)
    (hpos : ∀ fo ∈ reached remainingInput fillOrders, 0 < fo.input) (hr : 0 ≤ remainingInput)
    (hkept : Arithmetic.Kept remainingInput) {i : ℚ} (hinput : result.input = .fin i)
    (hfee : result.inputFee = .fin 0) :
    let final := fillLoop protocolFee gasSchedule fillOrders (.fin remainingInput) result
    final.input =
        .fin (i + min remainingInput (fillOrders.map QuoteFillOrderCall.input).sum) ∧
      final.inputFee = .fin 0 := by
  induction fillOrders generalizing remainingInput result i with
  | nil => simp [fillLoop, hinput, hfee, hr]
  | cons fo fillOrders ih =>
    have hrest : ∀ x ∈ fillOrders, x.Plain := fun x hx => hplain x (List.mem_cons_of_mem _ hx)
    have hfo := hplain fo List.mem_cons_self
    rcases hr.lt_or_eq with hlt | rfl
    · rw [reached_of_pos hlt, List.forall_mem_cons] at hpos
      obtain ⟨hremaining, hin, hinFee, _⟩ :=
        fillOrder_plain protocolFee gasSchedule result hfo hpos.1 hr hkept
      rw [fillLoop_of_pos hlt, hremaining]
      rw [hinput, BigNumber.plus_fin] at hin
      rw [hfee, BigNumber.plus_fin, add_zero] at hinFee
      have hr' : 0 ≤ remainingInput - min fo.input remainingInput :=
        sub_nonneg.mpr (min_le_right _ _)
      obtain ⟨hsum, hfees⟩ :=
        ih _ hrest hpos.2 hr' (hkept.sub (hfo.input_kept.min hkept)) hin hinFee
      refine ⟨hsum.trans ?_, hfees⟩
      rw [List.map_cons, List.sum_cons, add_assoc, min_add_min_sub (sum_input_nonneg hrest)]
    · rw [fillLoop_of_done le_rfl, min_eq_left (sum_input_nonneg hplain), add_zero]
      exact ⟨hinput, hfee⟩

variable (protocolFee gasSchedule result) in
/-- The outputs are those of the inputs filled, and without an empty output there are no fees. -/
theorem fillLoop_output (hplain : ∀ fo ∈ fillOrders, fo.Plain)
    (hfinite : ∀ fo ∈ fillOrders, fo.order.fill.output = .fin fo.output)
    (hpos : ∀ fo ∈ reached remainingInput fillOrders, 0 < fo.input)
    (htotal : ∀ fo ∈ reached remainingInput fillOrders,
      ∃ t, fo.totalOrderOutput = .fin t ∧ t ≠ 0)
    (hr : 0 ≤ remainingInput) (hkept : Arithmetic.Kept remainingInput) {q : ℚ}
    (houtput : result.output = .fin q) (hfee : result.outputFee = .fin 0) :
    let final := fillLoop protocolFee gasSchedule fillOrders (.fin remainingInput) result
    final.output = .fin (q + (filledOutputs remainingInput fillOrders).sum) ∧
      final.outputFee = .fin 0 := by
  induction fillOrders generalizing remainingInput result q with
  | nil => simp [fillLoop, filledOutputs, houtput, hfee]
  | cons fo fillOrders ih =>
    have hrest : ∀ x ∈ fillOrders, x.Plain := fun x hx => hplain x (List.mem_cons_of_mem _ hx)
    have hfo := hplain fo List.mem_cons_self
    rcases hr.lt_or_eq with hlt | rfl
    · rw [reached_of_pos hlt, List.forall_mem_cons] at hpos htotal
      obtain ⟨hremaining, _, _, hout, houtFee⟩ :=
        fillOrder_plain protocolFee gasSchedule result hfo hpos.1 hr hkept
      obtain ⟨t, ht, htne⟩ := htotal.1
      rw [fillLoop_of_pos hlt, hremaining]
      rw [hfinite fo List.mem_cons_self, BigNumber.times_fin] at hout houtFee
      rw [houtput, BigNumber.plus_fin] at hout
      rw [ht, BigNumber.div_quotient _ htne, BigNumber.times_fin, mul_zero, hfee,
        BigNumber.plus_fin, add_zero] at houtFee
      obtain ⟨hsum, hfees⟩ :=
        ih _ hrest (fun x hx => hfinite x (List.mem_cons_of_mem _ hx)) hpos.2 htotal.2
          (sub_nonneg.mpr (min_le_right _ _)) (hkept.sub (hfo.input_kept.min hkept)) hout houtFee
      refine ⟨hsum.trans ?_, hfees⟩
      rw [filledOutputs, List.sum_cons, add_assoc]
    · rw [fillLoop_of_done le_rfl, sum_filledOutputs_zero hplain, add_zero]
      exact ⟨houtput, hfee⟩

variable (protocolFee gasSchedule result) in
/-- The loop comes to an order that is reached, unless it comes first to one with nothing to
fill. -/
theorem fillLoop_reaches {P : QuoteFillOrderCall → Prop} (hplain : ∀ fo ∈ fillOrders, fo.Plain)
    (hr : 0 ≤ remainingInput) (hkept : Arithmetic.Kept remainingInput)
    (hreached : ∃ fo ∈ reached remainingInput fillOrders, P fo) :
    ∃ fo rest remaining result', fo.Plain ∧ 0 ≤ remaining ∧ Arithmetic.Kept remaining ∧
      (P fo ∨ fo.input = 0) ∧
      fillLoop protocolFee gasSchedule fillOrders (.fin remainingInput) result =
        fillLoop protocolFee gasSchedule rest
          (fillOrder protocolFee gasSchedule fo (.fin remaining) result').1
          (fillOrder protocolFee gasSchedule fo (.fin remaining) result').2 := by
  induction fillOrders generalizing remainingInput result with
  | nil =>
    obtain ⟨fo, hfo, _⟩ := hreached
    exact absurd hfo List.not_mem_nil
  | cons fo fillOrders ih =>
    have hfo := hplain fo List.mem_cons_self
    have hrest : ∀ x ∈ fillOrders, x.Plain := fun x hx => hplain x (List.mem_cons_of_mem _ hx)
    rcases hr.lt_or_eq with hlt | rfl
    · rw [reached_of_pos hlt, List.exists_mem_cons_iff] at hreached
      by_cases hhere : P fo ∨ fo.input = 0
      · exact ⟨fo, fillOrders, remainingInput, result, hfo, hr, hkept, hhere, fillLoop_of_pos hlt⟩
      · rw [not_or] at hhere
        have hpos := hfo.input_nonneg.lt_of_ne' hhere.2
        obtain ⟨hremaining, _⟩ := fillOrder_plain protocolFee gasSchedule result hfo hpos hr hkept
        rw [fillLoop_of_pos hlt, hremaining]
        exact ih _ hrest (sub_nonneg.mpr (min_le_right _ _))
          (hkept.sub (hfo.input_kept.min hkept)) (hreached.resolve_left hhere.1)
    · obtain ⟨x, hx, _⟩ := hreached
      rw [reached_of_done le_rfl] at hx
      exact absurd hx List.not_mem_nil

/-- An order that is reached with nothing to fill spoils the fees and the output. -/
theorem fillLoop_of_zero_input (hplain : ∀ fo ∈ fillOrders, fo.Plain) (hr : 0 ≤ remainingInput)
    (hkept : Arithmetic.Kept remainingInput)
    (hzero : ∃ fo ∈ reached remainingInput fillOrders, fo.input = 0) :
    let final := fillLoop protocolFee gasSchedule fillOrders (.fin remainingInput) result
    final.inputFee = .nan ∧ final.output = .nan := by
  obtain ⟨fo, rest, remaining, result', hfo, hremaining, hkept', hinput, heq⟩ :=
    fillLoop_reaches protocolFee gasSchedule result hplain hr hkept hzero
  obtain ⟨hfee, hout⟩ :=
    fillOrder_zero protocolFee gasSchedule result' hfo (hinput.elim id id) hremaining hkept'
  rw [heq]
  exact ⟨fillLoop_nan (fun r => r.inputFee) (fun _ _ _ => ⟨_, rfl⟩) _ hfee,
    fillLoop_nan (fun r => r.output) (fun _ _ _ => ⟨_, rfl⟩) _ hout⟩

/-- An order that is reached with nothing to make spoils the output's fees, unless the output is
spoiled already. -/
theorem fillLoop_of_zero_output (hplain : ∀ fo ∈ fillOrders, fo.Plain) (hr : 0 ≤ remainingInput)
    (hkept : Arithmetic.Kept remainingInput)
    (hzero : ∃ fo ∈ reached remainingInput fillOrders,
      fo.order.fill.output = .fin 0 ∧ fo.totalOrderOutput = .fin 0) :
    let final := fillLoop protocolFee gasSchedule fillOrders (.fin remainingInput) result
    final.output = .nan ∨ final.outputFee = .nan := by
  obtain ⟨fo, rest, remaining, result', hfo, hremaining, hkept', hzero, heq⟩ :=
    fillLoop_reaches protocolFee gasSchedule result hplain hr hkept hzero
  rw [heq]
  by_cases hinput : fo.input = 0
  · left
    obtain ⟨_, hout⟩ := fillOrder_zero protocolFee gasSchedule result' hfo hinput hremaining hkept'
    exact fillLoop_nan (fun r => r.output) (fun _ _ _ => ⟨_, rfl⟩) _ hout
  · right
    obtain ⟨houtput, htotal⟩ := hzero.resolve_right hinput
    obtain ⟨_, _, _, _, hout⟩ :=
      fillOrder_plain protocolFee gasSchedule result' hfo
        (hfo.input_nonneg.lt_of_ne' hinput) hremaining hkept'
    apply fillLoop_nan (fun r => r.outputFee) (fun _ _ _ => ⟨_, rfl⟩)
    rw [hout, houtput, htotal, BigNumber.times_fin, zero_mul, BigNumber.zero_div_zero,
      BigNumber.nan_times, BigNumber.plus_nan]

end Plain

/-! ## The taker's total -/

/-- The call of an order without fees. -/
def plainCall (side : MarketOperation) (o : OptimizedOrder) : QuoteFillOrderCall :=
  match side with
  | .sell => ⟨o, o.takerAmount, o.makerAmount, ZERO_AMOUNT, ZERO_AMOUNT⟩
  | .buy => ⟨o, o.makerAmount, o.takerAmount, ZERO_AMOUNT, ZERO_AMOUNT⟩

theorem createBestCaseFillOrderCalls_of_no_fees [Arithmetic] {quoteInfo : QuoteFillInfo}
    (h : ∀ o ∈ quoteInfo.orders, takerFee o = .ok ZERO_AMOUNT) :
    createBestCaseFillOrderCalls quoteInfo =
      .ok (quoteInfo.orders.map (plainCall quoteInfo.side)) := by
  apply mapM_eq_ok_iff.mpr
  rw [List.forall₂_map_right_iff, List.forall₂_same]
  intro o ho
  rw [createBestCaseFillOrderCall, h o ho]
  cases quoteInfo.side <;> rfl

/-- On a sell the taker pays the input and its fees, on a buy the output and its fees. -/
theorem totalTakerAssetAmount_sell (ir : IntermediateQuoteFillResult) {quoteInfo : QuoteFillInfo}
    (hside : quoteInfo.side = .sell) :
    (fromIntermediateQuoteFillResult ir quoteInfo).totalTakerAssetAmount =
      (ir.input.integerValue .up).plus (ir.inputFee.integerValue .up) := by
  rw [fromIntermediateQuoteFillResult, hside]
  rfl

theorem totalTakerAssetAmount_buy (ir : IntermediateQuoteFillResult) {quoteInfo : QuoteFillInfo}
    (hside : quoteInfo.side = .buy) :
    (fromIntermediateQuoteFillResult ir quoteInfo).totalTakerAssetAmount =
      (ir.output.integerValue .up).plus (ir.outputFee.integerValue .up) := by
  rw [fromIntermediateQuoteFillResult, hside]
  rfl

/-- The orders filled without fees. -/
def plainFill [Arithmetic] (quoteInfo : QuoteFillInfo) : IntermediateQuoteFillResult :=
  fillQuoteOrders (quoteInfo.orders.map (plainCall quoteInfo.side)) quoteInfo.fillAmount
    (quoteInfo.gasPrice.times quoteInfo.protocolFeeMultiplier) quoteInfo.gasSchedule

section Simulate

variable [Arithmetic] {quoteInfo : QuoteFillInfo}
    (hfees : ∀ o ∈ quoteInfo.orders, takerFee o = .ok ZERO_AMOUNT)
include hfees

/-- The best case of orders without fees. -/
theorem simulateBestCaseFill_eq_ok :
    simulateBestCaseFill quoteInfo =
      .ok (fromIntermediateQuoteFillResult (plainFill quoteInfo) quoteInfo) :=
  bind_eq_ok.mpr ⟨_, createBestCaseFillOrderCalls_of_no_fees hfees, rfl⟩

/-- The worst case of orders without fees: the best case with slippage. -/
theorem simulateWorstCaseFill_eq_ok :
    ∃ worst, simulateWorstCaseFill quoteInfo =
        .ok (fromIntermediateQuoteFillResult worst quoteInfo) ∧
      worst.input = (plainFill quoteInfo).input ∧
      worst.inputFee = (plainFill quoteInfo).inputFee ∧
      worst.output =
        slipOutput quoteInfo.side (plainFill quoteInfo).output quoteInfo.slippage ∧
      worst.outputFee = (plainFill quoteInfo).outputFee ∧
      worst.protocolFee =
        (quoteInfo.gasPrice.times quoteInfo.protocolFeeMultiplier).times
          (.fin (quoteInfo.orders.filter hasProtocolFee).length) :=
  ⟨_, bind_eq_ok.mpr ⟨_, createBestCaseFillOrderCalls_of_no_fees hfees, rfl⟩, rfl, rfl, rfl, rfl,
    rfl⟩

end Simulate

/-- The sum of the inputs is the amount or all the orders take. -/
theorem plainFill_input [Arithmetic] (quoteInfo : QuoteFillInfo) {amount : ℚ}
    (hamount : quoteInfo.fillAmount = .fin amount) (hnonneg : 0 ≤ amount)
    (hkept : Arithmetic.Kept amount)
    (hplain : ∀ fo ∈ quoteInfo.orders.map (plainCall quoteInfo.side), fo.Plain)
    (hpos : ∀ fo ∈ reached amount (quoteInfo.orders.map (plainCall quoteInfo.side)),
      0 < fo.input) :
    (plainFill quoteInfo).input =
        .fin (min amount (quoteInfo.orders.map fun o => o.fill.input.toRat).sum) ∧
      (plainFill quoteInfo).inputFee = .fin 0 := by
  have hsum : ((quoteInfo.orders.map (plainCall quoteInfo.side)).map
      QuoteFillOrderCall.input).sum = (quoteInfo.orders.map fun o => o.fill.input.toRat).sum := by
    rw [List.map_map]
    cases quoteInfo.side <;> rfl
  have hfilled := fillLoop_input (quoteInfo.gasPrice.times quoteInfo.protocolFeeMultiplier)
    quoteInfo.gasSchedule EMPTY_QUOTE_INTERMEDIATE_FILL_RESULT hplain hpos hnonneg hkept rfl rfl
  rw [zero_add, hsum] at hfilled
  rw [plainFill, hamount]
  exact hfilled

/-- On a sell of orders without fees, the taker's total is the amount or all the orders take, in
both cases. -/
theorem simulate_sell [Arithmetic] (quoteInfo : QuoteFillInfo) (hside : quoteInfo.side = .sell)
    {amount : ℚ} (hamount : quoteInfo.fillAmount = .fin amount) (hnonneg : 0 ≤ amount)
    (hkept : Arithmetic.Kept amount)
    (hfees : ∀ o ∈ quoteInfo.orders, takerFee o = .ok ZERO_AMOUNT)
    (hplain : ∀ fo ∈ quoteInfo.orders.map (plainCall .sell), fo.Plain)
    (hpos : ∀ fo ∈ reached amount (quoteInfo.orders.map (plainCall .sell)), 0 < fo.input) :
    let filled := min amount (quoteInfo.orders.map fun o => o.fill.input.toRat).sum
    let total := BigNumber.fin (BigNumber.roundRat .up filled)
    (∃ best, simulateBestCaseFill quoteInfo = .ok best ∧ best.totalTakerAssetAmount = total) ∧
      ∃ worst, simulateWorstCaseFill quoteInfo = .ok worst ∧
        worst.totalTakerAssetAmount = total := by
  have hbest := simulateBestCaseFill_eq_ok hfees
  obtain ⟨worst, hworst, hworstInput, hworstFee, _⟩ := simulateWorstCaseFill_eq_ok hfees
  have hzero : (BigNumber.fin 0).integerValue .up = .fin 0 := by simp
  obtain ⟨hinput, hfee⟩ := plainFill_input quoteInfo hamount hnonneg hkept (by rwa [hside])
    (by rwa [hside])
  refine ⟨⟨_, hbest, ?_⟩, ⟨_, hworst, ?_⟩⟩
  · rw [totalTakerAssetAmount_sell _ hside, hinput, hfee, hzero, BigNumber.integerValue_fin,
      BigNumber.plus_fin, add_zero]
  · rw [totalTakerAssetAmount_sell _ hside, hworstInput, hworstFee, hinput, hfee, hzero,
      BigNumber.integerValue_fin, BigNumber.plus_fin, add_zero]

/-- The output of the orders that make something of what they are filled with. -/
theorem plainFill_output [Arithmetic] (quoteInfo : QuoteFillInfo) {amount : ℚ}
    (hamount : quoteInfo.fillAmount = .fin amount) (hnonneg : 0 ≤ amount)
    (hkept : Arithmetic.Kept amount)
    (hplain : ∀ fo ∈ quoteInfo.orders.map (plainCall quoteInfo.side), fo.Plain)
    (hfinite : ∀ fo ∈ quoteInfo.orders.map (plainCall quoteInfo.side),
      fo.order.fill.output = .fin fo.output)
    (hpos : ∀ fo ∈ reached amount (quoteInfo.orders.map (plainCall quoteInfo.side)),
      0 < fo.input)
    (htotal : ∀ fo ∈ reached amount (quoteInfo.orders.map (plainCall quoteInfo.side)),
      ∃ t, fo.totalOrderOutput = .fin t ∧ t ≠ 0) :
    (plainFill quoteInfo).output =
        .fin (filledOutputs amount (quoteInfo.orders.map (plainCall quoteInfo.side))).sum ∧
      (plainFill quoteInfo).outputFee = .fin 0 := by
  have hfilled := fillLoop_output (quoteInfo.gasPrice.times quoteInfo.protocolFeeMultiplier)
    quoteInfo.gasSchedule EMPTY_QUOTE_INTERMEDIATE_FILL_RESULT hplain hfinite hpos htotal hnonneg
    hkept rfl rfl
  rw [zero_add] at hfilled
  rw [plainFill, hamount]
  exact hfilled

/-- An order that is reached with nothing to fill leaves no number for the taker's total. -/
theorem plainFill_of_zero_input [Arithmetic] (quoteInfo : QuoteFillInfo) {amount : ℚ}
    (hamount : quoteInfo.fillAmount = .fin amount) (hnonneg : 0 ≤ amount)
    (hkept : Arithmetic.Kept amount)
    (hplain : ∀ fo ∈ quoteInfo.orders.map (plainCall quoteInfo.side), fo.Plain)
    (hzero : ∃ fo ∈ reached amount (quoteInfo.orders.map (plainCall quoteInfo.side)),
      fo.input = 0) :
    (plainFill quoteInfo).inputFee = .nan ∧ (plainFill quoteInfo).output = .nan := by
  rw [plainFill, hamount]
  exact fillLoop_of_zero_input hplain hnonneg hkept hzero

/-- Nor does an order that is reached and makes nothing, on a buy. -/
theorem plainFill_of_zero_output [Arithmetic] (quoteInfo : QuoteFillInfo) {amount : ℚ}
    (hamount : quoteInfo.fillAmount = .fin amount) (hnonneg : 0 ≤ amount)
    (hkept : Arithmetic.Kept amount)
    (hplain : ∀ fo ∈ quoteInfo.orders.map (plainCall quoteInfo.side), fo.Plain)
    (hzero : ∃ fo ∈ reached amount (quoteInfo.orders.map (plainCall quoteInfo.side)),
      fo.order.fill.output = .fin 0 ∧ fo.totalOrderOutput = .fin 0) :
    (plainFill quoteInfo).output = .nan ∨ (plainFill quoteInfo).outputFee = .nan := by
  rw [plainFill, hamount]
  exact fillLoop_of_zero_output hplain hnonneg hkept hzero

end ZeroExApi.QuoteSimulation
