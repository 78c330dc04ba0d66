/-
# ZeroExApi.FillConservation — orders are filled in turn until the input is spent

`utils/quote_simulation.ts`, for every list of orders.  `filledOrders` lists the orders that a run
of `fillQuoteOrders` comes to, each with what it fills of its input; every field of the result is a
sum over that list (`fillLoop_eq`).

A turn spends what it fills and the fee on it.  For orders of positive amounts it spends all that
remains or all that the order can take, its `capacity`, but for what is not kept of the quotients of
the turn, its `dust` (`filledInput_cost`).  A run spends the input or the capacity of all orders,
whichever is less, but for the dust of the orders it fills (`filledOrders_spent`), and after an
order that is filled in part only dust is spent (`spent_after_part`).
-/

import ZeroExApi.QuoteSimulation

namespace ZeroExApi.FillConservation

open ZeroExApi.Lib ZeroExApi.Lib.BigNumber ZeroExApi.Lib.Fallible ZeroExApi.QuoteSimulation

/-! ## Sums over a map -/

/-- The sum of the values of a map. -/
def sumValues (m : JsMap ERC20BridgeSource BigNumber) : BigNumber :=
  sumAmounts (m.entries.map Prod.snd)

theorem sum_assign (source : ERC20BridgeSource) (x : BigNumber)
    (es : List (ERC20BridgeSource × BigNumber)) :
    sumAmounts ((JsMap.assign source (((JsMap.lookup source es).getD ZERO_AMOUNT).plus x) es).map
        Prod.snd) =
      (sumAmounts (es.map Prod.snd)).plus x := by
  induction es with
  | nil =>
    show sumAmounts [ZERO_AMOUNT.plus x] = (sumAmounts []).plus x
    rw [sumAmounts_cons, sumAmounts_nil, plus_zero]
    rfl
  | cons e es ih =>
    by_cases hsource : e.1 = source
    · simp only [JsMap.assign, JsMap.lookup, hsource, if_true, Option.getD_some, List.map_cons,
        sumAmounts_cons]
      rw [plus_assoc, plus_assoc, plus_comm x]
    · simp only [JsMap.assign, JsMap.lookup, hsource, if_false, List.map_cons, sumAmounts_cons]
      rw [ih, plus_assoc]

/-- What is added to the amount of one source is added to their sum. -/
theorem sumValues_set (m : JsMap ERC20BridgeSource BigNumber) (source : ERC20BridgeSource)
    (x : BigNumber) :
    sumValues (m.set source (((m.get source).getD ZERO_AMOUNT).plus x)) = (sumValues m).plus x :=
  sum_assign source x m.entries

/-! ## The orders a run fills -/

section Filled

variable [Arithmetic]

/-- What a turn fills of an order's input. -/
def filledInput (fo : QuoteFillOrderCall) (remainingInput : BigNumber) : BigNumber :=
  solveForInputFillAmount remainingInput fo.order.fill.input fo.totalOrderInput
    fo.totalOrderInputFee

/-- The fee on what is filled of an order's input. -/
def filledInputFee (fo : QuoteFillOrderCall) (filled : BigNumber) : BigNumber :=
  (filled.div fo.totalOrderInput).times fo.totalOrderInputFee

/-- The fill output of an order, times the fraction that is filled. -/
def filledOutput (fo : QuoteFillOrderCall) (filled : BigNumber) : BigNumber :=
  fo.order.fill.output.times (filled.div fo.order.fill.input)

/-- The orders that `fillQuoteOrders` fills, each with its filled input. -/
def filledOrders : List QuoteFillOrderCall → BigNumber → List (QuoteFillOrderCall × BigNumber)
  | [], _ => []
  | fo :: fillOrders, remainingInput =>
    if remainingInput.lte 0 then
      []
    else
      let filled := filledInput fo remainingInput
      (fo, filled) ::
        filledOrders fillOrders (remainingInput.minus (filled.plus (filledInputFee fo filled)))

section Sums

variable {fillOrders : List QuoteFillOrderCall} {remainingInput : BigNumber}

/-- Every amount of the result is a sum over the filled orders. -/
theorem fillLoop_eq (protocolFee : BigNumber) (gasSchedule : GasSchedule)
    (fillOrders : List QuoteFillOrderCall) (remainingInput : BigNumber)
    (start : IntermediateQuoteFillResult) :
    let filled := filledOrders fillOrders remainingInput
    let result := fillLoop protocolFee gasSchedule fillOrders remainingInput start
    result.input = start.input.plus (sumAmounts (filled.map Prod.snd)) ∧
      result.inputFee =
        start.inputFee.plus (sumAmounts (filled.map fun p => filledInputFee p.1 p.2)) ∧
      result.output = start.output.plus (sumAmounts (filled.map fun p => filledOutput p.1 p.2)) ∧
      sumValues result.inputBySource =
        (sumValues start.inputBySource).plus (sumAmounts (filled.map Prod.snd)) := by
  induction fillOrders generalizing remainingInput start with
  | nil => exact ⟨(plus_zero _).symm, (plus_zero _).symm, (plus_zero _).symm, (plus_zero _).symm⟩
  | cons fo fillOrders ih =>
    unfold fillLoop filledOrders
    by_cases hdone : remainingInput.lte 0 = true
    · rw [if_pos hdone, if_pos hdone]
      exact ⟨(plus_zero _).symm, (plus_zero _).symm, (plus_zero _).symm, (plus_zero _).symm⟩
    · rw [if_neg hdone, if_neg hdone]
      obtain ⟨hinput, hfee, houtput, hsources⟩ :=
        ih (fillOrder protocolFee gasSchedule fo remainingInput start).1
          (fillOrder protocolFee gasSchedule fo remainingInput start).2
      simp only [List.map_cons, sumAmounts_cons, ← plus_assoc]
      refine ⟨hinput, hfee, houtput, hsources.trans ?_⟩
      exact congrArg (fun x => BigNumber.plus x _) (sumValues_set start.inputBySource _ _)

theorem filledOrders_of_pos {fo : QuoteFillOrderCall} {remaining : ℚ} (h : 0 < remaining) :
    filledOrders (fo :: fillOrders) (.fin remaining) =
      (fo, filledInput fo (.fin remaining)) ::
        filledOrders fillOrders ((BigNumber.fin remaining).minus
          ((filledInput fo (.fin remaining)).plus
            (filledInputFee fo (filledInput fo (.fin remaining))))) := by
  rw [filledOrders, zero_eq, lte_fin, decide_eq_false (not_le.mpr h), if_neg Bool.false_ne_true]

theorem filledOrders_of_done {remaining : ℚ} (h : remaining ≤ 0) :
    filledOrders fillOrders (.fin remaining) = [] := by
  cases fillOrders with
  | nil => rfl
  | cons fo fillOrders => rw [filledOrders, zero_eq, lte_fin, decide_eq_true h, if_pos rfl]

/-- Orders are filled in their order, from the first. -/
theorem filledOrders_prefix :
    (filledOrders fillOrders remainingInput).map Prod.fst <+: fillOrders := by
  induction fillOrders generalizing remainingInput with
  | nil => exact List.prefix_rfl
  | cons fo fillOrders ih =>
    unfold filledOrders
    split
    · exact List.nil_prefix
    · exact (List.prefix_cons_inj fo).mpr ih

end Sums

/-! ## Turns over orders of positive amounts -/

/-- A call of positive inputs, and of a fee on the input that is not negative. -/
structure Fillable (fo : QuoteFillOrderCall) (input total fee : ℚ) : Prop where
  input_eq : fo.order.fill.input = .fin input
  total_eq : fo.totalOrderInput = .fin total
  fee_eq : fo.totalOrderInputFee = .fin fee
  input_pos : 0 < input
  total_pos : 0 < total
  fee_nonneg : 0 ≤ fee

/-- What an order can take: its fill input and the fee on it. -/
def capacity (fo : QuoteFillOrderCall) : BigNumber :=
  fo.order.fill.input.plus (filledInputFee fo fo.order.fill.input)

/-- What a turn can spend more or less than it should: what is not kept of its quotients, the one by
which the order is filled and the one by which its fee is. -/
def dust (fo : QuoteFillOrderCall) : ℚ :=
  Arithmetic.precision * (1 + fo.totalOrderInputFee.toRat / fo.totalOrderInput.toRat) +
    Arithmetic.precision * fo.totalOrderInputFee.toRat

section Turn

variable {fo : QuoteFillOrderCall} {input total fee remaining : ℚ}

theorem Fillable.filledInputFee_eq (h : Fillable fo input total fee) (x : ℚ) :
    filledInputFee fo (.fin x) = .fin (Arithmetic.quotient (x / total) * fee) := by
  unfold filledInputFee
  rw [h.total_eq, h.fee_eq, div_quotient _ h.total_pos.ne', times_fin]

theorem Fillable.capacity_eq (h : Fillable fo input total fee) :
    capacity fo = .fin (input + Arithmetic.quotient (input / total) * fee) := by
  unfold capacity
  rw [h.input_eq, h.filledInputFee_eq, plus_fin]

theorem Fillable.capacity_pos (h : Fillable fo input total fee) :
    0 < input + Arithmetic.quotient (input / total) * fee := by
  have hquotient := Arithmetic.quotient_nonneg (div_pos h.input_pos h.total_pos).le
  exact add_pos_of_pos_of_nonneg h.input_pos (mul_nonneg hquotient h.fee_nonneg)

theorem Fillable.dust_eq (h : Fillable fo input total fee) :
    dust fo = Arithmetic.precision * (1 + fee / total) + Arithmetic.precision * fee := by
  unfold dust
  rw [h.total_eq, h.fee_eq, toRat_fin, toRat_fin]

theorem Fillable.dust_nonneg (h : Fillable fo input total fee) : 0 ≤ dust fo := by
  have hprecision := Arithmetic.precision_nonneg
  have htotal := h.total_pos
  have hfee := h.fee_nonneg
  rw [h.dust_eq]
  positivity

/-- What filling so much costs, with the quotient for the fee kept or not. -/
theorem Fillable.abs_cost_sub_le (h : Fillable fo input total fee) (x : ℚ) :
    |x + Arithmetic.quotient (x / total) * fee - x * (1 + fee / total)| ≤
      Arithmetic.precision * fee := by
  have hkept := Arithmetic.abs_quotient_sub_le (x / total)
  have heq : x + Arithmetic.quotient (x / total) * fee - x * (1 + fee / total) =
      (Arithmetic.quotient (x / total) - x / total) * fee := by ring
  rw [heq, abs_mul, abs_of_nonneg h.fee_nonneg]
  exact mul_le_mul_of_nonneg_right hkept h.fee_nonneg

/-- A larger part does not cost less. -/
theorem Fillable.cost_mono (h : Fillable fo input total fee) {x y : ℚ} (hxy : x ≤ y) :
    x + Arithmetic.quotient (x / total) * fee ≤ y + Arithmetic.quotient (y / total) * fee := by
  have hquotient := Arithmetic.quotient_mono (div_le_div_of_nonneg_right hxy h.total_pos.le)
  exact add_le_add hxy (mul_le_mul_of_nonneg_right hquotient h.fee_nonneg)

/-- A turn fills the order, or it fills a part of it and spends what remains, but for dust. -/
theorem Fillable.filledInput_cost (h : Fillable fo input total fee) (hr : 0 < remaining) :
    ∃ x : ℚ, filledInput fo (.fin remaining) = .fin x ∧ 0 ≤ x ∧ x ≤ input ∧
      (x = input ∨ |x + Arithmetic.quotient (x / total) * fee - remaining| ≤ dust fo) ∧
      |x + Arithmetic.quotient (x / total) * fee -
          min remaining (input + Arithmetic.quotient (input / total) * fee)| ≤ dust fo := by
  have htotal := h.total_pos
  have hfee := h.fee_nonneg
  have hdenom : 0 < total + fee := by positivity
  have hrate : 0 < 1 + fee / total := by positivity
  set part := Arithmetic.quotient (remaining * total / (total + fee))
  have hpart₀ : 0 ≤ part := Arithmetic.quotient_nonneg (by positivity)
  -- the part costs what remains, but for what is not kept of it
  have hpart : |part * (1 + fee / total) - remaining| ≤
      Arithmetic.precision * (1 + fee / total) := by
    have hexact : remaining = remaining * total / (total + fee) * (1 + fee / total) := by
      field_simp
    have hkept := Arithmetic.abs_quotient_sub_le (remaining * total / (total + fee))
    calc |part * (1 + fee / total) - remaining|
        = |(part - remaining * total / (total + fee)) * (1 + fee / total)| := by
          rw [sub_mul, ← hexact]
      _ = |part - remaining * total / (total + fee)| * (1 + fee / total) := by
          rw [abs_mul, abs_of_pos hrate]
      _ ≤ Arithmetic.precision * (1 + fee / total) :=
          mul_le_mul_of_nonneg_right hkept hrate.le
  have hcost : |part + Arithmetic.quotient (part / total) * fee - remaining| ≤ dust fo := by
    rw [h.dust_eq]
    have hsplit := abs_sub_le (part + Arithmetic.quotient (part / total) * fee)
      (part * (1 + fee / total)) remaining
    linarith [h.abs_cost_sub_le part]
  have hdust := h.dust_nonneg
  have hbounds := abs_le.mp hcost
  refine ⟨min input part, ?_, le_min h.input_pos.le hpart₀, min_le_left _ _, ?_⟩
  · unfold filledInput solveForInputFillAmount
    rw [h.input_eq, h.total_eq, h.fee_eq, plus_fin]
    dsimp only
    rw [zero_eq, eq_fin, decide_eq_false hdenom.ne', if_neg Bool.false_ne_true, times_fin,
      div_quotient _ hdenom.ne', min_fin]
  · rcases le_total input part with hle | hle
    · -- the whole order costs no more than the part
      rw [min_eq_left hle]
      refine ⟨.inl rfl, ?_⟩
      have hmono := h.cost_mono hle
      rcases le_total remaining (input + Arithmetic.quotient (input / total) * fee) with hr' | hr'
      · rw [min_eq_left hr', abs_of_nonneg (sub_nonneg.mpr hr')]
        linarith [hbounds.2]
      · rw [min_eq_right hr', sub_self, abs_zero]
        exact hdust
    · rw [min_eq_right hle]
      refine ⟨.inr hcost, ?_⟩
      have hmono := h.cost_mono hle
      rcases le_total remaining (input + Arithmetic.quotient (input / total) * fee) with hr' | hr'
      · rw [min_eq_left hr']
        exact hcost
      · rw [min_eq_right hr', abs_le]
        constructor
        · linarith [hbounds.1]
        · linarith

end Turn

/-! ## Runs over orders of positive amounts -/

/-- What is spent on the filled orders: their inputs and the fees on them. -/
def spent (filled : List (QuoteFillOrderCall × BigNumber)) : BigNumber :=
  (sumAmounts (filled.map Prod.snd)).plus
    (sumAmounts (filled.map fun p => filledInputFee p.1 p.2))

theorem spent_cons (fo : QuoteFillOrderCall) (x : BigNumber)
    (filled : List (QuoteFillOrderCall × BigNumber)) :
    spent ((fo, x) :: filled) = (x.plus (filledInputFee fo x)).plus (spent filled) := by
  unfold spent
  rw [List.map_cons, List.map_cons, sumAmounts_cons, sumAmounts_cons, plus_assoc, plus_assoc]
  congr 1
  rw [← plus_assoc, ← plus_assoc, plus_comm (sumAmounts _) (filledInputFee fo x)]

/-- The dust of the filled orders. -/
def dustOf (filled : List (QuoteFillOrderCall × BigNumber)) : ℚ :=
  (filled.map fun p => dust p.1).sum

theorem dustOf_cons (fo : QuoteFillOrderCall) (x : BigNumber)
    (filled : List (QuoteFillOrderCall × BigNumber)) :
    dustOf ((fo, x) :: filled) = dust fo + dustOf filled := rfl

section Run

variable {fillOrders : List QuoteFillOrderCall} {remaining : ℚ}

theorem isAmount_capacities
    (h : ∀ fo ∈ fillOrders, ∃ input total fee, Fillable fo input total fee) :
    IsAmount (sumAmounts (fillOrders.map capacity)) := by
  apply isAmount_sumAmounts
  intro c hc
  obtain ⟨fo, hfo, rfl⟩ := List.mem_map.mp hc
  obtain ⟨input, total, fee, hfillable⟩ := h fo hfo
  rw [hfillable.capacity_eq, isAmount_fin]
  exact hfillable.capacity_pos.le

theorem spent_nil : spent [] = .fin 0 := by
  unfold spent
  rw [List.map_nil, List.map_nil, sumAmounts_nil, plus_fin, add_zero]

theorem filledOrders_head {fo : QuoteFillOrderCall} {input total fee : ℚ}
    (hfo : Fillable fo input total fee) (hr : 0 < remaining) {x : ℚ}
    (hx : filledInput fo (.fin remaining) = .fin x) :
    filledOrders (fo :: fillOrders) (.fin remaining) =
      (fo, .fin x) :: filledOrders fillOrders
        (.fin (remaining - (x + Arithmetic.quotient (x / total) * fee))) := by
  rw [filledOrders_of_pos hr, hx, hfo.filledInputFee_eq, plus_fin, minus_fin]

omit [Arithmetic] in
/-- What one turn is off by and what the rest of the run is off by add up. -/
theorem abs_add_sub_min_le {s s' d d' c c' r : ℚ} (hc' : 0 ≤ c') (hs : |s - min r c| ≤ d)
    (hs' : |s' - min (r - s) c'| ≤ d') : |s + s' - min r (c + c')| ≤ d + d' := by
  rw [abs_le] at hs hs' ⊢
  rcases le_total r c with h | h
  · rw [min_eq_left h] at hs
    rw [min_eq_left (by linarith)]
    rcases le_total (r - s) c' with h' | h'
    · rw [min_eq_left h'] at hs'
      constructor <;> linarith
    · rw [min_eq_right h'] at hs'
      constructor <;> linarith
  · rw [min_eq_right h] at hs
    rcases le_total (r - s) c' with h' | h'
    · rw [min_eq_left h'] at hs'
      rcases le_total r (c + c') with h'' | h''
      · rw [min_eq_left h'']
        constructor <;> linarith
      · rw [min_eq_right h'']
        constructor <;> linarith
    · rw [min_eq_right h'] at hs'
      rcases le_total r (c + c') with h'' | h''
      · rw [min_eq_left h'']
        constructor <;> linarith
      · rw [min_eq_right h'']
        constructor <;> linarith

/-- A run spends what there is, or what the orders can take if that is less, but for dust. -/
theorem filledOrders_spent
    (h : ∀ fo ∈ fillOrders, ∃ input total fee, Fillable fo input total fee) (hr : 0 ≤ remaining) :
    ∃ s c : ℚ, spent (filledOrders fillOrders (.fin remaining)) = .fin s ∧
      sumAmounts (fillOrders.map capacity) = .fin c ∧
        |s - min remaining c| ≤ dustOf (filledOrders fillOrders (.fin remaining)) := by
  induction fillOrders generalizing remaining with
  | nil => exact ⟨0, 0, spent_nil, rfl, by rw [min_eq_right hr, sub_zero, abs_zero]; exact le_rfl⟩
  | cons fo fillOrders ih =>
    have hrest := fun x hx => h x (List.mem_cons_of_mem fo hx)
    obtain ⟨input, total, fee, hfo⟩ := h fo List.mem_cons_self
    obtain ⟨c', hc', hc₀'⟩ := isAmount_capacities hrest
    have hcapacity := hfo.capacity_pos
    have hsum : sumAmounts ((fo :: fillOrders).map capacity) =
        .fin (input + Arithmetic.quotient (input / total) * fee + c') := by
      rw [List.map_cons, sumAmounts_cons, hfo.capacity_eq, hc', plus_fin]
    rcases hr.lt_or_eq with hpos | rfl
    · obtain ⟨x, hx, _, _, _, hcost⟩ := hfo.filledInput_cost hpos
      rw [filledOrders_head hfo hpos hx]
      set cost := x + Arithmetic.quotient (x / total) * fee with hcostEq
      have hspent : ∀ filled s', spent filled = .fin s' →
          spent ((fo, .fin x) :: filled) = .fin (cost + s') := by
        intro filled s' hs'
        rw [spent_cons, hfo.filledInputFee_eq, plus_fin, hs', plus_fin]
      rcases le_or_gt 0 (remaining - cost) with hleft | hover
      · obtain ⟨s', c, hs', hc, hle⟩ := ih hrest hleft
        rw [hc'] at hc
        cases hc
        refine ⟨cost + s', _, hspent _ s' hs', hsum, ?_⟩
        rw [dustOf_cons]
        exact abs_add_sub_min_le hc₀' hcost hle
      · -- more than what remained was spent, and the run is over
        rw [filledOrders_of_done hover.le]
        refine ⟨cost + 0, _, hspent _ 0 spent_nil, hsum, ?_⟩
        rw [add_zero, dustOf_cons]
        have hbounds := abs_le.mp hcost
        have hmin : min remaining (input + Arithmetic.quotient (input / total) * fee) ≤
            min remaining (input + Arithmetic.quotient (input / total) * fee + c') :=
          min_le_min_left _ (by linarith)
        have hmin' := min_le_left remaining
          (input + Arithmetic.quotient (input / total) * fee + c')
        show _ ≤ dust fo + 0
        rw [abs_of_nonneg (by linarith)]
        linarith [hbounds.2]
    · rw [filledOrders_of_done le_rfl]
      refine ⟨0, _, spent_nil, hsum, ?_⟩
      rw [min_eq_left (by linarith), sub_zero, abs_zero]
      exact le_rfl

/-- No order is filled beyond its fill input. -/
theorem filledOrders_within
    (h : ∀ fo ∈ fillOrders, ∃ input total fee, Fillable fo input total fee) :
    ∀ p ∈ filledOrders fillOrders (.fin remaining), ∃ x input : ℚ,
      p.2 = .fin x ∧ p.1.order.fill.input = .fin input ∧ 0 ≤ x ∧ x ≤ input := by
  induction fillOrders generalizing remaining with
  | nil =>
    intro p hp
    cases hp
  | cons fo fillOrders ih =>
    obtain ⟨input, total, fee, hfo⟩ := h fo List.mem_cons_self
    rcases lt_or_ge 0 remaining with hpos | hdone
    · obtain ⟨x, hx, hx₀, hle, _⟩ := hfo.filledInput_cost hpos
      intro p hp
      rw [filledOrders_head hfo hpos hx] at hp
      rcases List.mem_cons.mp hp with rfl | hp
      · exact ⟨x, input, rfl, hfo.input_eq, hx₀, hle⟩
      · exact ih (fun y hy => h y (List.mem_cons_of_mem fo hy)) p hp
    · intro p hp
      rw [filledOrders_of_done hdone] at hp
      cases hp

/-- After an order that is filled in part, no more is spent than the dust of that order and of the
ones after it. -/
theorem spent_after_part
    (h : ∀ fo ∈ fillOrders, ∃ input total fee, Fillable fo input total fee)
    {before after : List (QuoteFillOrderCall × BigNumber)} {p : QuoteFillOrderCall × BigNumber}
    (hsplit : filledOrders fillOrders (.fin remaining) = before ++ p :: after)
    (hpart : p.2 ≠ p.1.order.fill.input) :
    ∃ s : ℚ, spent after = .fin s ∧ s ≤ dustOf (p :: after) := by
  induction fillOrders generalizing remaining before with
  | nil => simp [filledOrders] at hsplit
  | cons fo fillOrders ih =>
    have hrest := fun x hx => h x (List.mem_cons_of_mem fo hx)
    obtain ⟨input, total, fee, hfo⟩ := h fo List.mem_cons_self
    rcases lt_or_ge 0 remaining with hpos | hdone
    · obtain ⟨x, hx, _, _, hwhole, _⟩ := hfo.filledInput_cost hpos
      rw [filledOrders_head hfo hpos hx] at hsplit
      cases before with
      | nil =>
        obtain ⟨rfl, rfl⟩ := List.cons.inj hsplit
        rcases hwhole with hwhole | hall
        · exact absurd (by rw [hwhole]; exact hfo.input_eq.symm) hpart
        · rw [dustOf_cons]
          set cost := x + Arithmetic.quotient (x / total) * fee
          have hleft := (abs_le.mp hall).1
          rcases le_or_gt 0 (remaining - cost) with hle | hover
          · -- what is left is dust, and no more than that is spent
            obtain ⟨s, c, hs, _, hspent⟩ := filledOrders_spent hrest hle
            have hmin := min_le_left (remaining - cost) c
            exact ⟨s, hs, by linarith [(abs_le.mp hspent).2]⟩
          · rw [filledOrders_of_done hover.le]
            exact ⟨0, spent_nil, add_nonneg hfo.dust_nonneg le_rfl⟩
      | cons q before => exact ih hrest (List.cons.inj hsplit).2
    · rw [filledOrders_of_done hdone] at hsplit
      simp at hsplit

end Run

/-! ## Quotes -/

/-- A quote order of positive amounts and a fill of a positive input; a limit order is a native one
whose taker-token fee is not negative. -/
structure Positive (o : OptimizedOrder) : Prop where
  makerAmount : ∃ m, o.makerAmount = .fin m ∧ 0 < m
  takerAmount : ∃ t, o.takerAmount = .fin t ∧ 0 < t
  input : ∃ i, o.fill.input = .fin i ∧ 0 < i
  limit : o.type = .limit → ∃ nativeOrder t, o.fillData = .native nativeOrder ∧
    nativeOrder.order.takerAmount = .fin t ∧ 0 < t ∧ IsAmount nativeOrder.order.takerTokenFeeAmount

theorem Positive.takerFee {o : OptimizedOrder} (h : Positive o) :
    ∃ fee, takerFee o = .ok fee ∧ IsAmount fee := by
  unfold QuoteSimulation.takerFee
  by_cases hlimit : o.type = .limit
  · obtain ⟨nativeOrder, t, hdata, ht, ht₀, fee, hfee, hfee₀⟩ := h.limit hlimit
    obtain ⟨taker, htaker, htaker₀⟩ := h.takerAmount
    rw [if_pos hlimit, hdata]
    refine ⟨_, rfl, ?_⟩
    unfold getNativeAdjustedTakerFeeAmount
    rw [isAmount_floor_iff, htaker, hfee, ht, times_fin, div_quotient _ ht₀.ne', isAmount_fin]
    exact Arithmetic.quotient_nonneg (by positivity)
  · rw [if_neg hlimit]
    exact ⟨_, rfl, isAmount_zero⟩

theorem Positive.call {o : OptimizedOrder} (h : Positive o) (side : MarketOperation) :
    ∃ fo, createBestCaseFillOrderCall side o = .ok fo ∧ fo.order = o ∧
      ∃ input total fee, Fillable fo input total fee := by
  obtain ⟨f, hf, fee, rfl, hfee₀⟩ := h.takerFee
  obtain ⟨m, hm, hm₀⟩ := h.makerAmount
  obtain ⟨t, ht, ht₀⟩ := h.takerAmount
  obtain ⟨i, hi, hi₀⟩ := h.input
  cases side with
  | sell =>
    exact ⟨_, bind_eq_ok.mpr ⟨_, hf, rfl⟩, rfl, i, t, fee, hi, ht, rfl, hi₀, ht₀, hfee₀⟩
  | buy =>
    exact ⟨_, bind_eq_ok.mpr ⟨_, hf, rfl⟩, rfl, i, m, 0, hi, hm, rfl, hi₀, hm₀, le_rfl⟩

/-- What a run over some orders keeps. -/
structure Conserved (fillOrders : List QuoteFillOrderCall) (amount : ℚ)
    (filled : List (QuoteFillOrderCall × BigNumber)) (result : IntermediateQuoteFillResult) :
    Prop where
  /-- The orders are filled in order, from the first, and after one that is filled in part only dust
  is spent. -/
  inOrder : filled.map Prod.fst <+: fillOrders
  after_part : ∀ before p after, filled = before ++ p :: after → p.2 ≠ p.1.order.fill.input →
    ∃ s : ℚ, spent after = .fin s ∧ s ≤ dustOf (p :: after)
  within : ∀ p ∈ filled, ∃ x input : ℚ,
    p.2 = .fin x ∧ p.1.order.fill.input = .fin input ∧ 0 ≤ x ∧ x ≤ input
  input_eq : result.input = sumAmounts (filled.map Prod.snd)
  inputFee_eq : result.inputFee = sumAmounts (filled.map fun p => filledInputFee p.1 p.2)
  output_eq : result.output = sumAmounts (filled.map fun p => filledOutput p.1 p.2)
  inputBySource_eq : sumValues result.inputBySource = result.input
  /-- The inputs and the fees are the amount, or what the orders can take where that is less, but
  for dust. -/
  spent_near : ∃ s c : ℚ, result.input.plus result.inputFee = .fin s ∧
    sumAmounts (fillOrders.map capacity) = .fin c ∧ |s - min amount c| ≤ dustOf filled

/-- A run over orders of positive amounts fills them in order, none beyond its fill input, and
spends the input or all that they can take, but for dust. -/
theorem fillQuoteOrders_conserved {quoteInfo : QuoteFillInfo}
    (horders : ∀ o ∈ quoteInfo.orders, Positive o) {amount : ℚ} (hamount : 0 ≤ amount)
    (protocolFee : BigNumber) (gasSchedule : GasSchedule) :
    ∃ fillOrders, createBestCaseFillOrderCalls quoteInfo = .ok fillOrders ∧
      fillOrders.map QuoteFillOrderCall.order = quoteInfo.orders ∧
        Conserved fillOrders amount (filledOrders fillOrders (.fin amount))
          (fillQuoteOrders fillOrders (.fin amount) protocolFee gasSchedule) := by
  obtain ⟨fillOrders, hcalls, hpairs⟩ :=
    mapM_succeeds_with fun o ho => (horders o ho).call quoteInfo.side
  have hfillable : ∀ fo ∈ fillOrders, ∃ input total fee, Fillable fo input total fee := by
    intro fo hfo
    obtain ⟨o, _, _, h⟩ := exists_of_mem_right hpairs hfo
    exact h
  have hsame : fillOrders.map QuoteFillOrderCall.order = quoteInfo.orders := by
    have hmap := map_eq_map hpairs fun o fo h => h.1.symm
    rw [List.map_id'] at hmap
    exact hmap.symm
  obtain ⟨hinput, hfee, houtput, hsources⟩ := fillLoop_eq protocolFee gasSchedule fillOrders
    (.fin amount) EMPTY_QUOTE_INTERMEDIATE_FILL_RESULT
  have hinput' := hinput.trans (zero_plus _)
  have hfee' := hfee.trans (zero_plus _)
  refine ⟨fillOrders, hcalls, hsame, filledOrders_prefix,
    fun _ _ _ => spent_after_part hfillable, filledOrders_within hfillable, hinput', hfee',
    houtput.trans (zero_plus _), (hsources.trans (zero_plus _)).trans hinput'.symm, ?_⟩
  have hspent := filledOrders_spent hfillable hamount
  unfold spent at hspent
  rw [← hinput', ← hfee'] at hspent
  exact hspent

end Filled

/-! ### A bridge order and limit orders with fees -/

section Code

attribute [local instance] codeArithmetic

/-- Ten units over a bridge. -/
def bridgeOrder : OptimizedOrder where
  source := .uniswapV2
  fillData := .uniswapV2 ["input", "output"] "router"
  type := .bridge
  makerToken := "output"
  takerToken := "input"
  makerAmount := .fin 20
  takerAmount := .fin 10
  fill := ⟨.fin 10, .fin 20, .fin 20, 0⟩

/-- A limit order of some units for twice as many, with a fee. -/
def limitOrderWithFee (amount fee : ℚ) : NativeOrderWithFillableAmounts where
  order := ⟨"maker", "output", "input", .fin (2 * amount), .fin amount, .fin fee⟩
  type := .limit
  signature := ⟨2, "r", "s", 27⟩
  fillableMakerAmount := .fin (2 * amount)
  fillableTakerAmount := .fin amount
  fillableTakerFeeAmount := .fin fee

/-- The quote order of that limit order. -/
def limitOrder (amount fee : ℚ) : OptimizedOrder where
  source := .native
  fillData := .native (limitOrderWithFee amount fee)
  type := .limit
  makerToken := "output"
  takerToken := "input"
  makerAmount := .fin (2 * amount)
  takerAmount := .fin amount
  fill := ⟨.fin amount, .fin (2 * amount), .fin (2 * amount), 0⟩

theorem bridgeOrder_positive : Positive bridgeOrder :=
  ⟨⟨20, rfl, by norm_num⟩, ⟨10, rfl, by norm_num⟩, ⟨10, rfl, by norm_num⟩, fun h => by cases h⟩

theorem limitOrder_positive {amount fee : ℚ} (hamount : 0 < amount) (hfee : 0 ≤ fee) :
    Positive (limitOrder amount fee) :=
  ⟨⟨_, rfl, by positivity⟩, ⟨_, rfl, hamount⟩, ⟨_, rfl, hamount⟩,
    fun _ => ⟨limitOrderWithFee amount fee, amount, rfl, rfl, hamount, fee, rfl, hfee⟩⟩

/-- A sale to some orders. -/
def saleTo (orders : List OptimizedOrder) (amount : ℚ) : QuoteFillInfo where
  orders := orders
  fillAmount := .fin amount
  gasPrice := .fin 1
  side := .sell
  gasSchedule := fun _ _ => 0

/-- Fifteen units to the bridge and to a limit order of ten with a fee of one. -/
theorem saleOfFifteen_conserved :
    ∃ fillOrders,
      createBestCaseFillOrderCalls (saleTo [bridgeOrder, limitOrder 10 1] 15) = .ok fillOrders ∧
        fillOrders.map QuoteFillOrderCall.order = [bridgeOrder, limitOrder 10 1] ∧
          Conserved fillOrders 15 (filledOrders fillOrders (.fin 15))
            (fillQuoteOrders fillOrders (.fin 15) (.fin 0) fun _ _ => 0) := by
  have horders : ∀ o ∈ (saleTo [bridgeOrder, limitOrder 10 1] 15).orders, Positive o := by
    intro o ho
    rcases List.mem_pair.mp ho with rfl | rfl
    · exact bridgeOrder_positive
    · exact limitOrder_positive (by norm_num) (by norm_num)
  exact fillQuoteOrders_conserved horders (by norm_num) (.fin 0) fun _ _ => 0

/-- One unit to two limit orders of one with a fee of two: a third goes to the first order and two
thirds to its fee, which leaves 10^-78, and the second order is filled for nothing. -/
theorem thirds_leave_dust :
    ∃ fillOrders,
      createBestCaseFillOrderCalls (saleTo [limitOrder 1 2, limitOrder 1 2] 1) = .ok fillOrders ∧
        (sumAmounts (fillOrders.map capacity)).gte (.fin 1) = true ∧
        (fillQuoteOrders fillOrders (.fin 1) (.fin 0) fun _ _ => 0).input.plus
            (fillQuoteOrders fillOrders (.fin 1) (.fin 0) fun _ _ => 0).inputFee ≠ .fin 1 ∧
        ∃ fo fo' x x', filledOrders fillOrders (.fin 1) = [(fo, x), (fo', x')] ∧
          x ≠ fo.order.fill.input ∧ x' ≠ fo'.order.fill.input := by
  obtain ⟨fillOrders, hcalls, hcheck⟩ := exists_of_okAnd
    (show okAnd (createBestCaseFillOrderCalls (saleTo [limitOrder 1 2, limitOrder 1 2] 1))
      (fun fillOrders =>
        (sumAmounts (fillOrders.map capacity)).gte (.fin 1) &&
          (decide ((fillQuoteOrders fillOrders (.fin 1) (.fin 0) fun _ _ => 0).input.plus
              (fillQuoteOrders fillOrders (.fin 1) (.fin 0) fun _ _ => 0).inputFee ≠ .fin 1) &&
            decide ((filledOrders fillOrders (.fin 1)).map (fun filled =>
              decide (filled.2 ≠ filled.1.order.fill.input)) = [true, true]))) = true by
      decide +kernel)
  rw [Bool.and_eq_true, Bool.and_eq_true] at hcheck
  obtain ⟨hcapacity, hsum, hfilled⟩ := hcheck
  refine ⟨fillOrders, hcalls, hcapacity, of_decide_eq_true hsum, ?_⟩
  obtain ⟨⟨fo, x⟩, rest, heq, hx, hrest⟩ := List.map_eq_cons_iff.mp (of_decide_eq_true hfilled)
  obtain ⟨⟨fo', x'⟩, none, rfl, hx', hnone⟩ := List.map_eq_cons_iff.mp hrest
  rw [List.map_eq_nil_iff.mp hnone] at heq
  exact ⟨fo, fo', x, x', heq, of_decide_eq_true hx, of_decide_eq_true hx'⟩

/-- One unit to a limit order of two with a fee of one: two thirds, rounded up, go to the order, and
half of that, rounded up again, to its fee. -/
theorem two_thirds_overspend :
    ∃ fillOrders, createBestCaseFillOrderCalls (saleTo [limitOrder 2 1] 1) = .ok fillOrders ∧
      ((fillQuoteOrders fillOrders (.fin 1) (.fin 0) fun _ _ => 0).input.plus
        (fillQuoteOrders fillOrders (.fin 1) (.fin 0) fun _ _ => 0).inputFee).gt (.fin 1)
          = true :=
  exists_of_okAnd (by decide +kernel)

/-- Some of an amount may be left that the orders could take, and more than it may be spent. -/
theorem not_always_conserved :
    (∀ o ∈ [limitOrder 1 2, limitOrder 1 2, limitOrder 2 1], Positive o) ∧
      (∃ fillOrders,
        createBestCaseFillOrderCalls (saleTo [limitOrder 1 2, limitOrder 1 2] 1) = .ok fillOrders ∧
          (sumAmounts (fillOrders.map capacity)).gte (.fin 1) = true ∧
          (fillQuoteOrders fillOrders (.fin 1) (.fin 0) fun _ _ => 0).input.plus
              (fillQuoteOrders fillOrders (.fin 1) (.fin 0) fun _ _ => 0).inputFee ≠ .fin 1 ∧
          ∃ fo fo' x x', filledOrders fillOrders (.fin 1) = [(fo, x), (fo', x')] ∧
            x ≠ fo.order.fill.input ∧ x' ≠ fo'.order.fill.input) ∧
      ∃ fillOrders, createBestCaseFillOrderCalls (saleTo [limitOrder 2 1] 1) = .ok fillOrders ∧
        ((fillQuoteOrders fillOrders (.fin 1) (.fin 0) fun _ _ => 0).input.plus
          (fillQuoteOrders fillOrders (.fin 1) (.fin 0) fun _ _ => 0).inputFee).gt (.fin 1)
            = true := by
  refine ⟨?_, thirds_leave_dust, two_thirds_overspend⟩
  simp only [List.forall_mem_cons]
  exact ⟨limitOrder_positive one_pos (by norm_num), limitOrder_positive one_pos (by norm_num),
    limitOrder_positive two_pos (by norm_num), by simp⟩

end Code

end ZeroExApi.FillConservation
