/-
# ZeroExApi.FeePenalties — the penalty for the fees of a source, in the fill made of a route

A fill's adjusted output is its output less the fees of its source, or with them in a buy.
`createPathFromRoute` scales both by the same `scaleOutput`: not above the largest sampled output,
not below one unit.  In a sell the bound from above takes nothing from the penalty of an output that
is within it; in a buy it is the adjusted output that is the larger of the two, and what the bound
cuts off is the penalty (`buy_keeps_iff`).
-/

import ZeroExApi.RoutedPath

namespace ZeroExApi.FeePenalties

open ZeroExApi.Lib ZeroExApi.Lib.BigNumber ZeroExApi.Fills ZeroExApi.PathOptimizer
open ZeroExApi.RoutedPath

/-! ## The penalty of a fill -/

/-- What is at least the penalty: in a buy the adjusted output above the output, and in a sell the
output above the adjusted output, where the output is above the penalty and within the largest. -/
def KeepsPenalty (side : MarketOperation) (penalty output largest : ℚ) (fill : Fill) : Prop :=
  ∃ out adjusted : ℚ, fill.output = .fin out ∧ fill.adjustedOutput = .fin adjusted ∧
    match side with
    | .buy => penalty ≤ adjusted - out
    | .sell => penalty + 1 ≤ output → output ≤ largest → penalty ≤ out - adjusted

/-- In a buy, there is no penalty, or room for it between a unit and the largest sampled output. -/
def PenaltyFits (side : MarketOperation) (penalty output largest : ℚ) : Prop :=
  side = .buy → penalty = 0 ∨ (1 ≤ output ∧ output + penalty ≤ largest)

/-- The bounds leave a buy its penalty exactly if it fits. -/
theorem buy_keeps_iff {output penalty largest : ℤ} (houtput : 0 ≤ output) (hpenalty : 0 ≤ penalty) :
    penalty ≤ max (min (output + penalty) largest) 1 - max (min output largest) 1 ↔
      penalty = 0 ∨ (1 ≤ output ∧ output + penalty ≤ largest) := by
  omega

/-- The bounds leave a sell its penalty, if the output is within them. -/
theorem sell_keeps {output penalty largest : ℤ} (hunit : penalty + 1 ≤ output)
    (hlargest : output ≤ largest) (hpenalty : 0 ≤ penalty) :
    penalty ≤ max (min output largest) 1 - max (min (output - penalty) largest) 1 := by
  omega

/-- An integer is added behind the rounding. -/
theorem roundRat_halfUp_add {q : ℚ} {n : ℤ} (hq : 0 ≤ q) (hqn : 0 ≤ q + n) :
    roundRat .halfUp (q + n) = roundRat .halfUp q + n := by
  rw [roundRat_halfUp_of_nonneg hq, roundRat_halfUp_of_nonneg hqn,
    show q + n + 1 / 2 = q + 1 / 2 + n by ring, Int.floor_add_intCast]

/-- A number that is rounded to so many units is at least half a unit less than that. -/
theorem le_of_le_roundRat {q : ℚ} (hq : 0 ≤ q) {n : ℤ} (h : n ≤ roundRat .halfUp q) :
    (n : ℚ) - 1 / 2 ≤ q := by
  rw [roundRat_halfUp_of_nonneg hq, Int.le_floor] at h
  linarith

/-- The two scaled outputs keep the penalty exactly where it fits. -/
theorem scaled_keeps_iff (side : MarketOperation) {b : ℚ} (hb : 0 ≤ b) {p m : ℤ} (hp : 0 ≤ p)
    {fill : Fill} (hout : fill.output = scaleOutput (.fin m) (.fin b))
    (hadjusted : fill.adjustedOutput = scaleOutput (.fin m) (adjustOutput side (.fin b) (.fin p))) :
    KeepsPenalty side p (roundRat .halfUp b : ℚ) m fill ↔
      PenaltyFits side p (roundRat .halfUp b : ℚ) m := by
  have hround := roundRat_halfUp_nonneg hb
  rw [scaleOutput_fin] at hout
  unfold KeepsPenalty PenaltyFits
  cases side with
  | buy =>
    have hsum := roundRat_halfUp_add (n := p) hb (add_nonneg hb (Int.cast_nonneg hp))
    rw [adjustOutput, plus_fin, scaleOutput_fin, hsum] at hadjusted
    rw [hout, hadjusted]
    have hiff : _ ↔ _ ∨ (_ ∧ _ ≤ m) := buy_keeps_iff hround hp
    constructor
    · rintro ⟨_, _, hout', hadjusted', hle⟩ _
      cases hout'
      cases hadjusted'
      exact_mod_cast hiff.mp (by exact_mod_cast hle)
    · intro hfits
      refine ⟨_, _, rfl, rfl, ?_⟩
      exact_mod_cast hiff.mpr (by exact_mod_cast hfits rfl)
  | sell =>
    refine iff_of_true ?_ (fun h => by cases h)
    rw [adjustOutput, minus_fin, scaleOutput_fin] at hadjusted
    refine ⟨_, _, hout, hadjusted, ?_⟩
    intro hunit hlargest
    have hunit' : p + 1 ≤ roundRat .halfUp b := by exact_mod_cast hunit
    have hlargest' : roundRat .halfUp b ≤ m := by exact_mod_cast hlargest
    -- the output that is left is not negative, and is rounded as the output is
    have hrest := le_of_le_roundRat hb hunit'
    have hsub := roundRat_halfUp_add (q := b) (n := -p) hb (by push_cast at hrest ⊢; linarith)
    have hkeeps := sell_keeps hunit' hlargest' hp
    push_cast at hsub
    rw [← sub_eq_add_neg, ← sub_eq_add_neg] at hsub
    rw [hsub]
    exact_mod_cast hkeeps

/-! ## The fills of a route -/

/-- The sample that the fill of an entry is made of. -/
def recreatedSample (o : PathOptimizer) (route : Route) (entry : RouteEntry) (first : DexSample)
    (rest : List DexSample) : DexSample :=
  closestSample
    (o.routeInputCorrected
      (o.inputAmount.div (BigNumber.sum (route.map RouteEntry.inputAmount))) entry.inputAmount)
    entry.outputAmount first rest

/-- The penalty for the fee on the fill data of a sample. -/
def feePenalty (o : PathOptimizer) (sample : DexSample) : BigNumber :=
  ethToOutputAmount sample.input sample.output (o.feeSchedule sample.source sample.fillData).fee
    o.pathPenaltyOpts.inputAmountPerEth o.pathPenaltyOpts.outputAmountPerEth

/-- An entry of samples and a router's output that are amounts. -/
structure OfSamples (entry : RouteEntry) (first : DexSample) (rest : List DexSample) : Prop where
  path_eq : ∃ routeSamples, entry.routablePath = .dexSamples routeSamples ∧
    routeSamples.samples = first :: rest
  output : ∀ s ∈ first :: rest, IsAmount s.output
  answer : IsAmount entry.outputAmount

theorem closestSample_isAmount {routedInput output : BigNumber} (houtput : IsAmount output)
    {s : DexSample} {rest : List DexSample} (h : ∀ x ∈ s :: rest, IsAmount x.output) :
    IsAmount (closestSample routedInput output s rest).output := by
  obtain ⟨x, hx, heq | heq⟩ := closestSample_cases routedInput output s rest
  · rw [heq]
    exact h x hx
  · rw [heq]
    exact houtput.integerValue .halfUp

/-- With a price for the output, the penalty is a number of units. -/
theorem feePenalty_eq {o : PathOptimizer} {sample : DexSample}
    (hprice : ∃ price : ℚ, o.pathPenaltyOpts.outputAmountPerEth = .fin price ∧ 0 < price)
    (hfee : IsAmount (o.feeSchedule sample.source sample.fillData).fee) :
    ∃ p : ℤ, 0 ≤ p ∧ feePenalty o sample = .fin p := by
  obtain ⟨price, hprice, hpos⟩ := hprice
  obtain ⟨fee, hfee, hnonneg⟩ := hfee
  refine ⟨roundRat .halfUp (price * fee), roundRat_nonneg _ (mul_nonneg hpos.le hnonneg), ?_⟩
  rw [feePenalty, ethToOutputAmount, hprice, hfee, isZero_fin, decide_eq_false hpos.ne',
    Bool.not_false, if_pos rfl, times_fin, integerValue_fin]

/-- Without adjustments, the fill of an entry of samples has the scaled output of the sample, and
that output with its penalty, scaled as well. -/
theorem fill_outputs {o : PathOptimizer} (hidentity : o.fillAdjustor = identityFillAdjustor)
    {route : Route} {entry : RouteEntry} {fill : Fill}
    (hfill : o.fillFromEntry
      (o.inputAmount.div (BigNumber.sum (route.map RouteEntry.inputAmount))) entry =
        .ok (some fill))
    {first : DexSample} {rest : List DexSample} (h : OfSamples entry first rest) :
    let sample := recreatedSample o route entry first rest
    fill.output = scaleOutput (maxSampledOutput first rest) sample.output ∧
      fill.adjustedOutput =
        scaleOutput (maxSampledOutput first rest)
          (adjustOutput o.pathContext.side sample.output (feePenalty o sample)) := by
  obtain ⟨routeSamples, hpath, hsamples⟩ := h.path_eq
  have heq := o.fillFromEntry_dexSamples _ hpath hsamples ▸ hfill
  obtain rfl := Option.some.inj (Except.ok.inj heq)
  refine ⟨rfl, ?_⟩
  unfold createFillFromDexSample
  rw [hidentity]
  rfl

/-- The fill of an entry of samples keeps its penalty exactly where it fits. -/
theorem fill_keeps_iff {o : PathOptimizer} (hidentity : o.fillAdjustor = identityFillAdjustor)
    (hprice : ∃ price : ℚ, o.pathPenaltyOpts.outputAmountPerEth = .fin price ∧ 0 < price)
    (hfees : ∀ source fillData, IsAmount (o.feeSchedule source fillData).fee)
    {route : Route} {entry : RouteEntry} {fill : Fill}
    (hfill : o.fillFromEntry
      (o.inputAmount.div (BigNumber.sum (route.map RouteEntry.inputAmount))) entry =
        .ok (some fill))
    {first : DexSample} {rest : List DexSample} (h : OfSamples entry first rest) :
    let sample := recreatedSample o route entry first rest
    KeepsPenalty o.pathContext.side (feePenalty o sample).toRat
        (sample.output.integerValue .halfUp).toRat (maxSampledOutput first rest).toRat fill ↔
      PenaltyFits o.pathContext.side (feePenalty o sample).toRat
        (sample.output.integerValue .halfUp).toRat (maxSampledOutput first rest).toRat := by
  intro sample
  obtain ⟨hout, hadjusted⟩ := fill_outputs hidentity hfill h
  change fill.output = scaleOutput _ sample.output at hout
  change fill.adjustedOutput =
    scaleOutput _ (adjustOutput _ sample.output (feePenalty o sample)) at hadjusted
  obtain ⟨b, hb, hb₀⟩ : IsAmount sample.output := closestSample_isAmount h.answer h.output
  obtain ⟨p, hp₀, hp⟩ := feePenalty_eq hprice (hfees sample.source sample.fillData)
  obtain ⟨m, hm⟩ := maxSampledOutput_eq_fin fun s hs => (h.output s hs).eq_fin
  rw [hb, hm] at hout
  rw [hb, hm, hp] at hadjusted
  rw [hp, hb, hm]
  exact scaled_keeps_iff o.pathContext.side hb₀ hp₀ hout hadjusted

/-! ## Paths -/

/-- In a path made without adjustments, at a price for the output, the fill of an entry of samples
keeps the penalty for its fee exactly where it fits: in every sell, and in a buy between one unit
and the largest sampled output. -/
theorem createPathFromRoute_keepsPenalty_iff {o : PathOptimizer}
    (hidentity : o.fillAdjustor = identityFillAdjustor)
    (hprice : ∃ price : ℚ, o.pathPenaltyOpts.outputAmountPerEth = .fin price ∧ 0 < price)
    (hfees : ∀ source fillData, IsAmount (o.feeSchedule source fillData).fee)
    {route : Route} {path : Path} (h : o.createPathFromRoute route = .ok (some path)) :
    List.Forall₂
      (fun entry fill => ∀ first rest, OfSamples entry first rest →
        let sample := recreatedSample o route entry first rest
        KeepsPenalty o.pathContext.side (feePenalty o sample).toRat
            (sample.output.integerValue .halfUp).toRat (maxSampledOutput first rest).toRat fill ↔
          PenaltyFits o.pathContext.side (feePenalty o sample).toRat
            (sample.output.integerValue .halfUp).toRat (maxSampledOutput first rest).toRat)
      route.answered path.fills := by
  refine (o.path_fills h).imp ?_
  intro entry fill hfill first rest hsamples
  exact fill_keeps_iff hidentity hprice hfees hfill hsamples

/-! ### A fee of five -/

/-- An optimizer with a fee of five units for each fill, and no adjustments. -/
def feeOptimizer (side : MarketOperation) (amount : ℕ) : PathOptimizer :=
  { plainOptimizer side amount with
    feeSchedule := fun _ _ => ⟨0, .fin 5⟩
    pathPenaltyOpts := ⟨.fin 1, .fin 1, fun _ => .fin 0⟩ }

/-- An amount from a pair that was sampled at 10, 20 and 30 for as much. -/
def pairEntry (amount : ℚ) : RouteEntry :=
  entryAtTens .uniswapV2 (.uniswapV2 ["input", "output"] "router") uniswapV2_sampled
    uniswapV2_ne_native amount

/-- One of its samples. -/
def pairSample (amount : ℚ) : DexSample where
  source := .uniswapV2
  fillData := .uniswapV2 ["input", "output"] "router"
  input := .fin amount
  output := .fin amount
  sampled := uniswapV2_sampled
  notNative := uniswapV2_ne_native

theorem pairEntry_ofSamples {amount : ℚ} (h : 0 ≤ amount) :
    OfSamples (pairEntry amount) (pairSample 10) [pairSample 20, pairSample 30] := by
  refine ⟨⟨_, rfl, rfl⟩, ?_, isAmount_fin.mpr h⟩
  simp only [List.forall_mem_cons, pairSample, isAmount_fin]
  norm_num

/-- A buy of 20 has room for the fee below the largest sampled output, and keeps it. -/
theorem buy_twenty_keepsPenalty :
    ∃ path, (feeOptimizer .buy 20).createPathFromRoute [pairEntry 20] = .ok (some path) ∧
      ∃ fill ∈ path.fills, KeepsPenalty .buy 5 20 30 fill := by
  obtain ⟨path, hpath, _⟩ := (feeOptimizer .buy 20).exists_path_of_madePath [pairEntry 20]
    (fun _ => true) (by decide +kernel)
  refine ⟨path, hpath, ?_⟩
  have hfills := createPathFromRoute_keepsPenalty_iff (o := feeOptimizer .buy 20) rfl
    ⟨1, rfl, by norm_num⟩ (fun _ _ => isAmount_fin.mpr (by norm_num)) hpath
  have hanswered : Route.answered [pairEntry 20] = [pairEntry 20] := by
    simp [Route.answered, pairEntry, entryAtTens]
  rw [hanswered, List.forall₂_cons_left_iff] at hfills
  obtain ⟨fill, rest, hfill, _, hrest⟩ := hfills
  refine ⟨fill, by rw [hrest]; exact List.mem_cons_self, ?_⟩
  have hpenalty : feePenalty (feeOptimizer .buy 20)
      (recreatedSample (feeOptimizer .buy 20) [pairEntry 20] (pairEntry 20) (pairSample 10)
        [pairSample 20, pairSample 30]) = .fin 5 := by decide +kernel
  have houtput : ((recreatedSample (feeOptimizer .buy 20) [pairEntry 20] (pairEntry 20)
      (pairSample 10) [pairSample 20, pairSample 30]).output.integerValue .halfUp) = .fin 20 := by
    decide +kernel
  have hlargest : maxSampledOutput (pairSample 10) [pairSample 20, pairSample 30] = .fin 30 := by
    decide +kernel
  have hkeeps := (hfill _ _ (pairEntry_ofSamples (by norm_num))).mpr
  rw [hpenalty, houtput, hlargest] at hkeeps
  exact hkeeps fun _ => .inr (by simp only [toRat_fin]; norm_num)

/-- A buy of 30 is at the largest sampled output, and has lost its fee. -/
theorem buy_thirty_loses_penalty :
    ∃ path, (feeOptimizer .buy 30).createPathFromRoute [pairEntry 30] = .ok (some path) ∧
      ∃ fill ∈ path.fills, fill.output = .fin 30 ∧ fill.adjustedOutput = .fin 30 ∧
        feePenalty (feeOptimizer .buy 30) (pairSample 30) = .fin 5 ∧
        ¬ KeepsPenalty .buy 5 30 30 fill := by
  obtain ⟨path, hpath, hcheck⟩ := (feeOptimizer .buy 30).exists_path_of_madePath [pairEntry 30]
    (fun path => decide (∃ fill ∈ path.fills, fill.output = .fin 30 ∧
      fill.adjustedOutput = .fin 30)) (by decide +kernel)
  obtain ⟨fill, hfill, hout, hadjusted⟩ := of_decide_eq_true hcheck
  refine ⟨path, hpath, fill, hfill, hout, hadjusted, by decide +kernel, ?_⟩
  rintro ⟨out, adjusted, hout', hadjusted', hle⟩
  rw [hout] at hout'
  rw [hadjusted] at hadjusted'
  cases hout'
  cases hadjusted'
  norm_num at hle

end ZeroExApi.FeePenalties
