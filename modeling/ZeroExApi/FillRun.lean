/-
# ZeroExApi.FillRun — what a run of `fillQuoteOrders` adds up

`utils/quote_simulation.ts`, for orders with fees.  A call of positive amounts is filled with a
part of its input that is not negative (`fillOrder_sound`), so a run over such calls adds amounts
that are finite and not negative to every field (`fillLoop_amounts`).  The orders it leaves out cost
gas and protocol fees that are not negative (`fillLoop_gas_le`, `fillLoop_protocolFee_le`), and what
it fills of a source it never takes back (`fillLoop_filled`).

The last section says that the calls made of a path's orders are of this kind.
-/

import ZeroExApi.Path
import ZeroExApi.QuoteSimulation

namespace ZeroExApi.QuoteSimulation

open ZeroExApi.Lib ZeroExApi.Lib.BigNumber ZeroExApi.Lib.Fallible ZeroExApi.Orders

/-! ## One turn -/

/-- A call of positive amounts, with fees that are not negative; its input is that of its fill. -/
structure QuoteFillOrderCall.Sound (fo : QuoteFillOrderCall) : Prop where
  input_eq : fo.order.fill.input = .fin fo.input
  totalOrderInput_eq : fo.totalOrderInput = .fin fo.input
  output_eq : fo.order.fill.output = .fin fo.output
  input_pos : 0 < fo.input
  output_pos : 0 < fo.output
  totalOrderOutput : ∃ t, fo.totalOrderOutput = .fin t ∧ 0 < t
  inputFee : IsAmount fo.totalOrderInputFee
  outputFee : IsAmount fo.totalOrderOutputFee

/-- The part of a call's input that is filled, so that it and its fee are no more than what
remains, as far as the quotient is kept. -/
def filledInput [Arithmetic] (fo : QuoteFillOrderCall) (remainingInput : ℚ) : ℚ :=
  min fo.input
    (Arithmetic.quotient (remainingInput * fo.input / (fo.input + fo.totalOrderInputFee.toRat)))

section Turn

variable [Arithmetic] {fo : QuoteFillOrderCall} {remainingInput : ℚ}

theorem filledInput_nonneg (h : fo.Sound) (hr : 0 < remainingInput) :
    0 ≤ filledInput fo remainingInput := by
  obtain ⟨fee, hfee, hfee₀⟩ := h.inputFee
  have hinput := h.input_pos
  unfold filledInput
  rw [hfee, toRat_fin]
  exact le_min hinput.le (Arithmetic.quotient_nonneg (by positivity))

theorem solveForInputFillAmount_sound (h : fo.Sound) :
    solveForInputFillAmount (.fin remainingInput) fo.order.fill.input fo.totalOrderInput
        fo.totalOrderInputFee =
      .fin (filledInput fo remainingInput) := by
  obtain ⟨fee, hfee, hfee₀⟩ := h.inputFee
  have hdenom : fo.input + fee ≠ 0 := (add_pos_of_pos_of_nonneg h.input_pos hfee₀).ne'
  unfold solveForInputFillAmount filledInput
  rw [h.input_eq, h.totalOrderInput_eq, hfee, plus_fin, toRat_fin]
  dsimp only
  rw [zero_eq, eq_fin, decide_eq_false hdenom, if_neg Bool.false_ne_true, times_fin,
    div_quotient _ hdenom, min_fin]

/-- One turn with such a call: what remains, and what is added to the result. -/
theorem fillOrder_sound (protocolFee : BigNumber) (gasSchedule : GasSchedule)
    (result : IntermediateQuoteFillResult) (h : fo.Sound) (hr : 0 < remainingInput) :
    ∃ output inputFee outputFee remaining : ℚ, 0 ≤ output ∧ 0 ≤ inputFee ∧ 0 ≤ outputFee ∧
      fillOrder protocolFee gasSchedule fo (.fin remainingInput) result =
        (.fin remaining,
          { gas := result.gas + gasSchedule fo.order.source fo.order.fillData
            inputBySource :=
              result.inputBySource.set fo.order.source
                (((result.inputBySource.get fo.order.source).getD ZERO_AMOUNT).plus
                  (.fin (filledInput fo remainingInput)))
            input := result.input.plus (.fin (filledInput fo remainingInput))
            output := result.output.plus (.fin output)
            inputFee := result.inputFee.plus (.fin inputFee)
            outputFee := result.outputFee.plus (.fin outputFee)
            protocolFee :=
              result.protocolFee.plus
                (if hasProtocolFee fo.order then protocolFee else ZERO_AMOUNT) }) := by
  obtain ⟨total, htotal, htotal₀⟩ := h.totalOrderOutput
  obtain ⟨fee, hfee, hfee₀⟩ := h.inputFee
  obtain ⟨outFee, houtFee, houtFee₀⟩ := h.outputFee
  have hinput := h.input_pos
  have houtput := h.output_pos
  set filled := Arithmetic.quotient (filledInput fo remainingInput / fo.input)
  have hfilled : 0 ≤ filled :=
    Arithmetic.quotient_nonneg (div_nonneg (filledInput_nonneg h hr) hinput.le)
  have hpaid : 0 ≤ Arithmetic.quotient (fo.output * filled / total) :=
    Arithmetic.quotient_nonneg (by positivity)
  refine ⟨fo.output * filled, filled * fee,
    Arithmetic.quotient (fo.output * filled / total) * outFee,
    remainingInput - (filledInput fo remainingInput + filled * fee), ?_, ?_, ?_, ?_⟩
  · positivity
  · positivity
  · positivity
  · unfold fillOrder
    rw [solveForInputFillAmount_sound h]
    simp only [h.input_eq, h.totalOrderInput_eq, h.output_eq, htotal, hfee, houtFee,
      div_quotient _ hinput.ne', div_quotient _ htotal₀.ne', times_fin, plus_fin, minus_fin]
    rfl

end Turn

/-! ## A run -/

/-- A result whose amounts are finite and not negative, source by source too. -/
structure IntermediateQuoteFillResult.Amounts (result : IntermediateQuoteFillResult) : Prop where
  input : IsAmount result.input
  output : IsAmount result.output
  inputFee : IsAmount result.inputFee
  outputFee : IsAmount result.outputFee
  inputBySource : ∀ e ∈ result.inputBySource.entries, IsAmount e.2

theorem amounts_empty : EMPTY_QUOTE_INTERMEDIATE_FILL_RESULT.Amounts :=
  ⟨isAmount_zero, isAmount_zero, isAmount_zero, isAmount_zero,
    fun _ he => absurd he List.not_mem_nil⟩

/-- A source of which at least an amount is filled. -/
def IntermediateQuoteFillResult.Filled (result : IntermediateQuoteFillResult) (amount : ℚ) : Prop :=
  ∃ source filled, result.inputBySource.get source = some (.fin filled) ∧ amount ≤ filled

section Run

variable [Arithmetic] {protocolFee : BigNumber} {gasSchedule : GasSchedule}
  {fo : QuoteFillOrderCall} {fillOrders : List QuoteFillOrderCall} {remainingInput : ℚ}
  {result : IntermediateQuoteFillResult}

omit [Arithmetic] in
/-- What is filled of a source so far. -/
theorem isAmount_get (h : result.Amounts) (source : ERC20BridgeSource) :
    IsAmount ((result.inputBySource.get source).getD ZERO_AMOUNT) := by
  cases hget : result.inputBySource.get source with
  | none => exact isAmount_zero
  | some amount => exact h.inputBySource _ ((JsMap.get_eq_some_iff _ _ _).mp hget)

theorem fillOrder_amounts (protocolFee : BigNumber) (gasSchedule : GasSchedule) (hfo : fo.Sound)
    (hr : 0 < remainingInput) (h : result.Amounts) :
    (fillOrder protocolFee gasSchedule fo (.fin remainingInput) result).2.Amounts := by
  obtain ⟨output, inputFee, outputFee, _, houtput, hinputFee, houtputFee, hturn⟩ :=
    fillOrder_sound protocolFee gasSchedule result hfo hr
  have hfilled : IsAmount (.fin (filledInput fo remainingInput)) :=
    isAmount_fin.mpr (filledInput_nonneg hfo hr)
  rw [hturn]
  refine ⟨h.input.plus hfilled, h.output.plus (isAmount_fin.mpr houtput),
    h.inputFee.plus (isAmount_fin.mpr hinputFee),
    h.outputFee.plus (isAmount_fin.mpr houtputFee), ?_⟩
  intro e he
  rcases JsMap.mem_entries_set he with rfl | he
  · exact (isAmount_get h fo.order.source).plus hfilled
  · exact h.inputBySource e he

/-- One turn fills its call's source with its input, -/
theorem fillOrder_filled (protocolFee : BigNumber) (gasSchedule : GasSchedule) (hfo : fo.Sound)
    (hr : 0 < remainingInput) (h : result.Amounts) :
    (fillOrder protocolFee gasSchedule fo (.fin remainingInput) result).2.Filled
      (filledInput fo remainingInput) := by
  obtain ⟨_, _, _, _, _, _, _, hturn⟩ := fillOrder_sound protocolFee gasSchedule result hfo hr
  obtain ⟨amount, hamount, hnonneg⟩ := isAmount_get h fo.order.source
  rw [hturn]
  refine ⟨fo.order.source, amount + filledInput fo remainingInput, ?_, ?_⟩
  · show (result.inputBySource.set fo.order.source _).get fo.order.source = _
    rw [JsMap.get_set, if_pos rfl, hamount, plus_fin]
  · linarith

/-- and takes nothing back of what was filled before. -/
theorem fillOrder_keeps_filled (protocolFee : BigNumber) (gasSchedule : GasSchedule)
    (hfo : fo.Sound) (hr : 0 < remainingInput) {amount : ℚ} (h : result.Filled amount) :
    (fillOrder protocolFee gasSchedule fo (.fin remainingInput) result).2.Filled amount := by
  obtain ⟨_, _, _, _, _, _, _, hturn⟩ := fillOrder_sound protocolFee gasSchedule result hfo hr
  obtain ⟨source, filled, hget, hle⟩ := h
  have hnonneg := filledInput_nonneg hfo hr
  rw [hturn]
  by_cases hsource : source = fo.order.source
  · refine ⟨source, filled + filledInput fo remainingInput, ?_, ?_⟩
    · show (result.inputBySource.set fo.order.source _).get source = _
      rw [JsMap.get_set, if_pos hsource, ← hsource, hget, Option.getD_some, plus_fin]
    · linarith
  · refine ⟨source, filled, ?_, hle⟩
    show (result.inputBySource.set fo.order.source _).get source = _
    rw [JsMap.get_set, if_neg hsource, hget]

/-- What one turn keeps, a run keeps. -/
theorem fillLoop_induct (property : IntermediateQuoteFillResult → Prop)
    (hfos : ∀ fo ∈ fillOrders, fo.Sound)
    (hturn : ∀ fo remaining result, fo.Sound → 0 < remaining → property result →
      property (fillOrder protocolFee gasSchedule fo (.fin remaining) result).2)
    (remainingInput : ℚ) (h : property result) :
    property (fillLoop protocolFee gasSchedule fillOrders (.fin remainingInput) result) := by
  induction fillOrders generalizing remainingInput result with
  | nil => exact h
  | cons fo fillOrders ih =>
    rcases lt_or_ge 0 remainingInput with hpos | hdone
    · have hfo := hfos fo List.mem_cons_self
      obtain ⟨_, _, _, remaining, _, _, _, hnext⟩ :=
        fillOrder_sound protocolFee gasSchedule result hfo hpos
      rw [fillLoop_of_pos hpos]
      have hstep := hturn fo remainingInput result hfo hpos h
      rw [hnext] at hstep ⊢
      exact ih (fun x hx => hfos x (List.mem_cons_of_mem _ hx)) remaining hstep
    · rw [fillLoop_of_done hdone]
      exact h

/-- A run over such calls adds amounts. -/
theorem fillLoop_amounts (protocolFee : BigNumber) (gasSchedule : GasSchedule)
    (hfos : ∀ fo ∈ fillOrders, fo.Sound) (remainingInput : ℚ) (h : result.Amounts) :
    (fillLoop protocolFee gasSchedule fillOrders (.fin remainingInput) result).Amounts :=
  fillLoop_induct IntermediateQuoteFillResult.Amounts hfos
    (fun _ _ _ hfo hr h => fillOrder_amounts protocolFee gasSchedule hfo hr h) remainingInput h

/-- A run over one call or more fills some source with the first call's input at least. -/
theorem fillLoop_filled (protocolFee : BigNumber) (gasSchedule : GasSchedule)
    (hfos : ∀ x ∈ fo :: fillOrders, x.Sound) (hr : 0 < remainingInput) (h : result.Amounts) :
    (fillLoop protocolFee gasSchedule (fo :: fillOrders) (.fin remainingInput) result).Filled
      (filledInput fo remainingInput) := by
  have hfo := hfos fo List.mem_cons_self
  obtain ⟨_, _, _, remaining, _, _, _, hnext⟩ :=
    fillOrder_sound protocolFee gasSchedule result hfo hr
  have hfirst := fillOrder_filled protocolFee gasSchedule hfo hr h
  rw [fillLoop_of_pos hr]
  rw [hnext] at hfirst ⊢
  exact fillLoop_induct (fun r => r.Filled (filledInput fo remainingInput))
    (fun x hx => hfos x (List.mem_cons_of_mem _ hx))
    (fun _ _ _ hx hr h => fillOrder_keeps_filled protocolFee gasSchedule hx hr h) remaining hfirst

variable (fillOrders) in
/-- A run uses no more gas than all its calls. -/
theorem fillLoop_gas_le (protocolFee : BigNumber) {gasSchedule : GasSchedule}
    (hgas : ∀ source fillData, 0 ≤ gasSchedule source fillData) (remainingInput : BigNumber)
    (result : IntermediateQuoteFillResult) :
    (fillLoop protocolFee gasSchedule fillOrders remainingInput result).gas ≤
      result.gas
        + (fillOrders.map fun fo => gasSchedule fo.order.source fo.order.fillData).sum := by
  induction fillOrders generalizing remainingInput result with
  | nil => simp [fillLoop]
  | cons fo fillOrders ih =>
    have hrest :
        0 ≤ (fillOrders.map fun fo => gasSchedule fo.order.source fo.order.fillData).sum := by
      apply List.sum_nonneg
      intro x hx
      obtain ⟨y, _, rfl⟩ := List.mem_map.mp hx
      exact hgas _ _
    have hhead := hgas fo.order.source fo.order.fillData
    rw [List.map_cons, List.sum_cons]
    unfold fillLoop
    split
    · linarith
    · have hle := ih (fillOrder protocolFee gasSchedule fo remainingInput result).1
        (fillOrder protocolFee gasSchedule fo remainingInput result).2
      have hturn : (fillOrder protocolFee gasSchedule fo remainingInput result).2.gas
          = result.gas + gasSchedule fo.order.source fo.order.fillData := rfl
      rw [hturn, add_assoc] at hle
      exact hle

variable (fillOrders) in
/-- A run pays no more protocol fees than all its calls. -/
theorem fillLoop_protocolFee_le {protocolFee : ℚ} (hprotocolFee : 0 ≤ protocolFee)
    (gasSchedule : GasSchedule) (remainingInput : BigNumber) {paid : ℚ} (hpaid : 0 ≤ paid)
    (h : result.protocolFee = .fin paid) :
    AmountLe (fillLoop (.fin protocolFee) gasSchedule fillOrders remainingInput result).protocolFee
      (.fin (paid
        + protocolFee * (fillOrders.filter fun fo => hasProtocolFee fo.order).length)) := by
  induction fillOrders generalizing remainingInput result paid with
  | nil => exact ⟨paid, paid, h, by simp, hpaid, le_rfl⟩
  | cons fo fillOrders ih =>
    unfold fillLoop
    rw [List.filter_cons]
    split
    · refine ⟨paid, _, h, rfl, hpaid, ?_⟩
      have hlength : (0 : ℚ) ≤ protocolFee *
          ((if hasProtocolFee fo.order then
              fo :: fillOrders.filter fun fo => hasProtocolFee fo.order
            else fillOrders.filter fun fo => hasProtocolFee fo.order).length : ℚ) := by
        positivity
      linarith
    · have hturn : (fillOrder (.fin protocolFee) gasSchedule fo remainingInput result).2.protocolFee
          = result.protocolFee.plus
            (if hasProtocolFee fo.order then .fin protocolFee else ZERO_AMOUNT) := rfl
      cases hfee : hasProtocolFee fo.order with
      | true =>
        rw [hfee, if_pos rfl, h, plus_fin] at hturn
        have hle := ih (fillOrder (.fin protocolFee) gasSchedule fo remainingInput result).1
          (add_nonneg hpaid hprotocolFee) hturn
        rw [if_pos rfl, List.length_cons, Nat.cast_succ, mul_add, mul_one,
          add_comm (protocolFee * _), ← add_assoc]
        exact hle
      | false =>
        rw [hfee, if_neg Bool.false_ne_true, h, ZERO_AMOUNT, plus_zero] at hturn
        rw [if_neg Bool.false_ne_true]
        exact ih _ hpaid hturn

end Run

/-! ## The calls of a path's orders -/

/-- A fill of a positive input and of an output of one unit at least; a native one is of an order
that takes something and whose taker-token fee is not negative. -/
structure SoundFill (fill : Fill) : Prop where
  input : ∃ i, fill.input = .fin i ∧ 0 < i
  output : ∃ o, fill.output = .fin o ∧ 1 ≤ o
  fee : ∀ nativeOrder, fill.fillData = .native nativeOrder →
    IsAmount nativeOrder.order.takerTokenFeeAmount
  nativeTakerAmount : ∀ nativeOrder, fill.fillData = .native nativeOrder →
    ∃ t, nativeOrder.order.takerAmount = .fin t ∧ 0 < t

section Calls

variable {side : MarketOperation} {fill : Fill} {order : OptimizedOrder}

/-- Rounded either way, the output of such a fill is positive. -/
theorem roundRat_pos_of_one_le {output : ℚ} (h : 1 ≤ output) :
    0 < roundRat .down output ∧ 0 < roundRat .up output := by
  have hnonneg : 0 ≤ output := by linarith
  constructor
  · rw [roundRat_down_of_nonneg hnonneg]
    exact Int.floor_pos.mpr h
  · rw [roundRat_up_of_nonneg hnonneg]
    exact Int.ceil_pos.mpr (by linarith)

/-- What the order of a single-hop fill makes and takes. -/
theorem singleHop_amounts (h : Path.SingleHopOrderOf side fill order) :
    order.fill = fill.toFillBase ∧
      order.makerAmount = (getFillTokenAmounts fill.toFillBase side).1 ∧
        order.takerAmount = (getFillTokenAmounts fill.toFillBase side).2 := by
  cases h with
  | native _ of_fill => exact ⟨of_fill.fill_eq, of_fill.makerAmount_eq, of_fill.takerAmount_eq⟩
  | bridge _ _ _ of_fill =>
    exact ⟨of_fill.fill_eq, of_fill.makerAmount_eq, of_fill.takerAmount_eq⟩

/-- The taker-token fee of such an order is an amount. -/
theorem takerFee_sound [Arithmetic] (hfill : SoundFill fill)
    (h : Path.SingleHopOrderOf side fill order)
    (htaker : IsAmount order.takerAmount) : ∃ fee, takerFee order = .ok fee ∧ IsAmount fee := by
  cases h with
  | native _ of_fill =>
    obtain ⟨nativeOrder, hdata⟩ := of_fill.native
    rw [of_fill.fillData_eq] at hdata
    unfold takerFee
    rw [of_fill.fillData_eq, hdata]
    split
    · refine ⟨_, rfl, ?_⟩
      obtain ⟨taker, htakerEq, htaker₀⟩ := htaker
      obtain ⟨fee, hfee, hfee₀⟩ := hfill.fee nativeOrder hdata
      obtain ⟨t, ht, ht₀⟩ := hfill.nativeTakerAmount nativeOrder hdata
      unfold getNativeAdjustedTakerFeeAmount
      rw [isAmount_floor_iff, htakerEq, hfee, ht, times_fin, div_quotient _ ht₀.ne', isAmount_fin]
      exact Arithmetic.quotient_nonneg (by positivity)
    · exact ⟨_, rfl, isAmount_zero⟩
  | bridge _ _ _ of_fill =>
    have htype : order.type ≠ .limit := by
      rw [of_fill.type_eq]
      decide
    unfold takerFee
    rw [if_neg htype]
    exact ⟨_, rfl, isAmount_zero⟩

/-- A call whose amounts are those of the order's fill. -/
theorem sound_of_amounts {i o t : ℚ}
    {totalOrderInput totalOrderOutput inputFee outputFee : BigNumber}
    (hinput : order.fill.input = .fin i) (hi : 0 < i) (houtput : order.fill.output = .fin o)
    (ho : 0 < o) (htotalInput : totalOrderInput = .fin i) (htotalOutput : totalOrderOutput = .fin t)
    (ht : 0 < t) (hinputFee : IsAmount inputFee) (houtputFee : IsAmount outputFee) :
    QuoteFillOrderCall.Sound ⟨order, totalOrderInput, totalOrderOutput, inputFee, outputFee⟩ := by
  have hin : order.fill.input.toRat = i := by rw [hinput, toRat_fin]
  have hout : order.fill.output.toRat = o := by rw [houtput, toRat_fin]
  constructor
  · rw [QuoteFillOrderCall.input, hin]
    exact hinput
  · rw [QuoteFillOrderCall.input, hin]
    exact htotalInput
  · rw [QuoteFillOrderCall.output, hout]
    exact houtput
  · rw [QuoteFillOrderCall.input, hin]
    exact hi
  · rw [QuoteFillOrderCall.output, hout]
    exact ho
  · exact ⟨t, htotalOutput, ht⟩
  · exact hinputFee
  · exact houtputFee

/-- The call of such an order. -/
theorem createBestCaseFillOrderCall_sound [Arithmetic] (hfill : SoundFill fill)
    (h : Path.SingleHopOrderOf side fill order) :
    ∃ fo, createBestCaseFillOrderCall side order = .ok fo ∧ fo.order = order ∧ fo.Sound := by
  obtain ⟨i, hi, hi₀⟩ := hfill.input
  obtain ⟨o, ho, ho₁⟩ := hfill.output
  obtain ⟨hdown, hup⟩ := roundRat_pos_of_one_le ho₁
  obtain ⟨hbase, hmaker, htaker⟩ := singleHop_amounts h
  have hinput : order.fill.input = .fin i := by rw [hbase, hi]
  have houtput : order.fill.output = .fin o := by rw [hbase, ho]
  have ho₀ : 0 < o := by linarith
  cases side with
  | sell =>
    rw [getFillTokenAmounts, hi, ho, integerValue_fin] at hmaker htaker
    have htakerAmount : IsAmount order.takerAmount := by
      rw [htaker, isAmount_fin]
      exact hi₀.le
    obtain ⟨fee, hfee, hamount⟩ := takerFee_sound hfill h htakerAmount
    exact ⟨_, bind_eq_ok.mpr ⟨fee, hfee, rfl⟩, rfl, sound_of_amounts hinput hi₀ houtput ho₀ htaker
      hmaker (Int.cast_pos.mpr hdown) hamount isAmount_zero⟩
  | buy =>
    rw [getFillTokenAmounts, hi, ho, integerValue_fin] at hmaker htaker
    have htakerAmount : IsAmount order.takerAmount := by
      rw [htaker, isAmount_fin]
      exact Int.cast_nonneg_iff.mpr hup.le
    obtain ⟨fee, hfee, hamount⟩ := takerFee_sound hfill h htakerAmount
    exact ⟨_, bind_eq_ok.mpr ⟨fee, hfee, rfl⟩, rfl, sound_of_amounts hinput hi₀ houtput ho₀ hmaker
      htaker (Int.cast_pos.mpr hup) isAmount_zero hamount⟩

/-- The calls of the single-hop orders of a path. -/
theorem createBestCaseFillOrderCalls_sound [Arithmetic] {path : Path}
    (hfills : ∀ fill ∈ path.fills, SoundFill fill) {quoteInfo : QuoteFillInfo}
    (hside : quoteInfo.side = path.context.side)
    (horders : quoteInfo.orders =
      path.ordersByType.nativeOrders ++ path.ordersByType.bridgeOrders) :
    ∃ fillOrders, createBestCaseFillOrderCalls quoteInfo = .ok fillOrders ∧
      fillOrders.map QuoteFillOrderCall.order = quoteInfo.orders ∧
        ∀ fo ∈ fillOrders, fo.Sound := by
  have hcall : ∀ order ∈ quoteInfo.orders, ∃ fo,
      createBestCaseFillOrderCall quoteInfo.side order = .ok fo ∧ fo.order = order ∧ fo.Sound := by
    intro order horder
    rw [horders] at horder
    obtain ⟨fill, hfill, hof⟩ := path.exists_fill_of_singleHop horder
    rw [hside]
    exact createBestCaseFillOrderCall_sound (hfills fill hfill) hof
  obtain ⟨fillOrders, hfos, hpairs⟩ := mapM_succeeds_with hcall
  refine ⟨fillOrders, hfos, ?_, ?_⟩
  · have hmap := map_eq_map hpairs fun order fo h => h.1.symm
    rw [List.map_id'] at hmap
    exact hmap.symm
  · intro fo hfo
    obtain ⟨order, _, _, h⟩ := exists_of_mem_right hpairs hfo
    exact h

end Calls

end ZeroExApi.QuoteSimulation
