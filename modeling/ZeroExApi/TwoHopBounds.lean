/-
# ZeroExApi.TwoHopBounds — the bounds of a quote and the bounds of its two-hop orders

`calculateTwoHopQuoteInfo` of `utils/quote_info.ts` slips the amounts of a two-hop order for the
quote, and `createSlipOrderFunction` of `market_operation_utils/path.ts` slips them again for the
orders that are encoded.  The first rounds the maker amount to the nearest integer and knows no
sentinel; the second rounds it down and leaves the largest integer alone.

For a path of two-hop orders the two add up to the same exactly when these differences cancel
(`bounds_agree_iff`).  Both multiply by what `1 - slippage` and `1 + slippage` are as JavaScript
numbers, so these are what the condition is about.
-/

import ZeroExApi.QuoteInfo

namespace ZeroExApi.TwoHopBounds

open ZeroExApi.Lib ZeroExApi.Lib.BigNumber ZeroExApi.Lib.Fallible ZeroExApi.QuoteSimulation

/-! ## Paths of two-hop orders -/

/-- A path of two-hop orders with integer amounts; a hop is never a native order. -/
structure TwoHopPath (path : Path) : Prop where
  nativeOrders_eq : path.ordersByType.nativeOrders = []
  bridgeOrders_eq : path.ordersByType.bridgeOrders = []
  hops : ∀ order ∈ path.ordersByType.twoHopOrders,
    order.firstHopOrder.source ≠ .native ∧ order.secondHopOrder.source ≠ .native
  amounts : ∀ order ∈ path.ordersByType.twoHopOrders, ∃ takerAmount makerAmount : ℕ,
    order.firstHopOrder.takerAmount = .fin takerAmount ∧
      order.secondHopOrder.makerAmount = .fin makerAmount

/-- The amounts of a two-hop order as rationals. -/
def makerAmount (order : TwoHopOrder) : ℚ := order.secondHopOrder.makerAmount.toRat

def takerAmount (order : TwoHopOrder) : ℚ := order.firstHopOrder.takerAmount.toRat

/-- The worst case of a quote has the bounds of the slipped orders: its maker amount is the sum of
what the second hops make and its taker amount the sum of what the first hops take. -/
structure BoundsAgree (info : QuoteInfo) (slipped : OptimizedOrdersByType) : Prop where
  makerAmount : info.worstCaseQuoteInfo.makerAmount =
    sumAmounts (slipped.twoHopOrders.map fun order => order.secondHopOrder.makerAmount)
  totalTakerAmount : info.worstCaseQuoteInfo.totalTakerAmount =
    sumAmounts (slipped.twoHopOrders.map fun order => order.firstHopOrder.takerAmount)

/-! ## When the bounds agree -/

/-- `MAX_UINT256` as a rational. -/
def maxUint256 : ℚ := 2 ^ 256 - 1

theorem maxUint256_eq_intCast : maxUint256 = ((2 ^ 256 - 1 : ℤ) : ℚ) := by
  unfold maxUint256
  norm_num

theorem maxUint256_pos : 0 < maxUint256 := by
  unfold maxUint256
  norm_num

section Differences

variable [Arithmetic]

/-- Whether the quote rounds up what the second hop makes, which the order rounds down. -/
def roundsUp (slippage : ℚ) (order : TwoHopOrder) : Bool :=
  decide (makerAmount order ≠ maxUint256 ∧
    1 / 2 ≤ Int.fract (makerAmount order * Arithmetic.float (1 - slippage)))

/-- What the quote slips of the largest integer, which the order leaves alone. -/
def sentinelLoss (slippage : ℚ) (order : TwoHopOrder) : ℤ :=
  if makerAmount order = maxUint256 then
    (2 ^ 256 - 1) - roundRat .halfUp (maxUint256 * Arithmetic.float (1 - slippage))
  else
    0

/-- On a sell, as many orders are rounded up as is lost of sentinels; on a buy, nothing is slipped
or no order takes the sentinel. -/
def DifferencesCancel (side : MarketOperation) (slippage : ℚ) (orders : List TwoHopOrder) : Prop :=
  match side with
  | .sell =>
    ((orders.filter (roundsUp slippage)).length : ℤ) = (orders.map (sentinelLoss slippage)).sum
  | .buy =>
    Arithmetic.float (1 + slippage) = 1 ∨ ∀ order ∈ orders, takerAmount order ≠ maxUint256

end Differences

/-! ## One order -/

theorem max_uint256_eq (q : ℚ) : (BigNumber.fin q).eq MAX_UINT256 = decide (q = maxUint256) :=
  eq_fin q _

/-- The largest integer is rounded up to itself by the factor one only. -/
theorem roundRat_up_maxUint256 {factor : ℚ} (h : 1 ≤ factor) :
    0 ≤ roundRat .up (maxUint256 * factor) - (2 ^ 256 - 1) ∧
      (roundRat .up (maxUint256 * factor) - (2 ^ 256 - 1) = 0 ↔ factor = 1) := by
  have hle : maxUint256 ≤ maxUint256 * factor := le_mul_of_one_le_right maxUint256_pos.le h
  rw [roundRat_up_of_nonneg (maxUint256_pos.le.trans hle)]
  have hceil : (2 ^ 256 - 1 : ℤ) ≤ ⌈maxUint256 * factor⌉ := by
    calc (2 ^ 256 - 1 : ℤ) = ⌈maxUint256⌉ := by rw [maxUint256_eq_intCast, Int.ceil_intCast]
      _ ≤ ⌈maxUint256 * factor⌉ := Int.ceil_mono hle
  refine ⟨sub_nonneg.mpr hceil, ?_⟩
  constructor
  · intro hzero
    have hceil' : ⌈maxUint256 * factor⌉ ≤ 2 ^ 256 - 1 := by omega
    have hfactor := Int.ceil_le.mp hceil'
    rw [← maxUint256_eq_intCast] at hfactor
    exact le_antisymm (le_of_mul_le_mul_left (by rwa [mul_one]) maxUint256_pos) h
  · rintro rfl
    rw [mul_one, maxUint256_eq_intCast, Int.ceil_intCast, sub_self]

section OneOrder

variable [Arithmetic] {slippage : ℚ} {order : TwoHopOrder}

/-- What the second hop makes on a sell, for the quote and for the orders. -/
theorem sell_maker_difference (h₁ : slippage ≤ 1) {n : ℕ}
    (hmaker : order.secondHopOrder.makerAmount = .fin n)
    (hsource : order.secondHopOrder.source ≠ .native) :
    ∃ worst slipped : ℤ,
      (order.secondHopOrder.makerAmount.times
            (.fin (Arithmetic.float (1 - slippage)))).integerValue .halfUp
          = .fin worst ∧
        (Path.createSlipOrderFunction slippage .sell order.secondHopOrder).makerAmount
          = .fin slipped ∧
        worst - slipped
          = (if roundsUp slippage order then 1 else 0) - sentinelLoss slippage order := by
  have hn : makerAmount order = n := by
    unfold makerAmount
    rw [hmaker]
    rfl
  have hq : (0 : ℚ) ≤ n * Arithmetic.float (1 - slippage) :=
    mul_nonneg (Nat.cast_nonneg n) (Arithmetic.float_nonneg (sub_nonneg.mpr h₁))
  unfold roundsUp sentinelLoss
  rw [hmaker, times_fin, integerValue_fin, hn]
  by_cases hzero : slippage = 0
  · -- nothing is slipped, and an integer is not rounded
    subst hzero
    have hone : Arithmetic.float (1 - 0) = 1 := by rw [sub_zero, Arithmetic.float_one]
    have hint : ∀ mode, roundRat mode (n : ℚ) = n := fun mode => roundRat_intCast mode n
    refine ⟨_, n, rfl, ?_, ?_⟩
    · unfold Path.createSlipOrderFunction
      rw [if_pos (.inr rfl), hmaker]
      rfl
    · rw [hone, mul_one, hint, Int.fract_natCast, mul_one]
      have hhalf : ¬ ((n : ℚ) ≠ maxUint256 ∧ (1 / 2 : ℚ) ≤ 0) := by norm_num
      rw [decide_eq_false hhalf, if_neg Bool.false_ne_true]
      split
      · rename_i hmax
        have hround : roundRat .halfUp maxUint256 = 2 ^ 256 - 1 := by
          rw [maxUint256_eq_intCast, roundRat_intCast]
        rw [hround]
        simp
      · simp
  · have hslip : ¬ (order.secondHopOrder.source = .native ∨ slippage = 0) :=
      not_or.mpr ⟨hsource, hzero⟩
    have hslipped : (Path.createSlipOrderFunction slippage .sell order.secondHopOrder).makerAmount
        = if (n : ℚ) = maxUint256 then MAX_UINT256
          else .fin (roundRat .down (n * Arithmetic.float (1 - slippage))) := by
      unfold Path.createSlipOrderFunction
      rw [if_neg hslip]
      dsimp only
      rw [hmaker, max_uint256_eq, times_fin, integerValue_fin]
      simp only [decide_eq_true_eq]
    by_cases hmax : (n : ℚ) = maxUint256
    · refine ⟨_, 2 ^ 256 - 1, rfl, ?_, ?_⟩
      · rw [hslipped, if_pos hmax]
        unfold MAX_UINT256
        norm_num
      · rw [if_pos hmax, hmax]
        simp
    · refine ⟨_, roundRat .down (n * Arithmetic.float (1 - slippage)), rfl, ?_, ?_⟩
      · rw [hslipped, if_neg hmax]
      · rw [if_neg hmax, roundRat_down_of_nonneg hq, roundRat_halfUp_eq_floor_add hq]
        by_cases hfract : (1 / 2 : ℚ) ≤ Int.fract (n * Arithmetic.float (1 - slippage))
        · rw [if_pos hfract, decide_eq_true ⟨hmax, hfract⟩]
          simp
        · rw [if_neg hfract, decide_eq_false fun h => hfract h.2]
          simp

/-- What the quote adds to the largest integer, which the order leaves alone. -/
def sentinelGain (slippage : ℚ) (order : TwoHopOrder) : ℤ :=
  if takerAmount order = maxUint256 then
    roundRat .up (maxUint256 * Arithmetic.float (1 + slippage)) - (2 ^ 256 - 1)
  else
    0

theorem sentinelGain_nonneg (h₀ : 0 ≤ slippage) : 0 ≤ sentinelGain slippage order := by
  unfold sentinelGain
  split
  · exact (roundRat_up_maxUint256 (Arithmetic.one_le_float (by linarith))).1
  · exact le_rfl

theorem sentinelGain_eq_zero_iff (h₀ : 0 ≤ slippage) :
    sentinelGain slippage order = 0 ↔
      Arithmetic.float (1 + slippage) = 1 ∨ takerAmount order ≠ maxUint256 := by
  unfold sentinelGain
  split
  · rename_i hmax
    rw [(roundRat_up_maxUint256 (Arithmetic.one_le_float (by linarith))).2]
    exact (or_iff_left (not_not_intro hmax)).symm
  · rename_i hne
    exact iff_of_true rfl (.inr hne)

/-- What the first hop takes on a buy, for the quote and for the orders. -/
theorem buy_taker_difference {n : ℕ} (htaker : order.firstHopOrder.takerAmount = .fin n)
    (hsource : order.firstHopOrder.source ≠ .native) :
    ∃ worst slipped : ℤ,
      (order.firstHopOrder.takerAmount.times
            (.fin (Arithmetic.float (1 + slippage)))).integerValue .up
          = .fin worst ∧
        (Path.createSlipOrderFunction slippage .buy order.firstHopOrder).takerAmount
          = .fin slipped ∧
        worst - slipped = sentinelGain slippage order := by
  have hn : takerAmount order = n := by
    unfold takerAmount
    rw [htaker]
    rfl
  unfold sentinelGain
  rw [htaker, times_fin, integerValue_fin, hn]
  by_cases hzero : slippage = 0
  · subst hzero
    have hint : roundRat .up (n : ℚ) = n := roundRat_intCast .up n
    refine ⟨_, n, rfl, ?_, ?_⟩
    · unfold Path.createSlipOrderFunction
      rw [if_pos (.inr rfl), htaker]
      rfl
    · rw [add_zero, Arithmetic.float_one, mul_one, mul_one, hint]
      split
      · rename_i hmax
        rw [← hmax, hint, Int.sub_self]
        have hcast : ((n : ℤ) : ℚ) = ((2 ^ 256 - 1 : ℤ) : ℚ) := by
          rw [← maxUint256_eq_intCast, ← hmax]
          rfl
        rw [Int.cast_inj.mp hcast, sub_self]
      · exact sub_self _
  · have hslip : ¬ (order.firstHopOrder.source = .native ∨ slippage = 0) :=
      not_or.mpr ⟨hsource, hzero⟩
    have hslipped : (Path.createSlipOrderFunction slippage .buy order.firstHopOrder).takerAmount
        = if (n : ℚ) = maxUint256 then MAX_UINT256
          else .fin (roundRat .up (n * Arithmetic.float (1 + slippage))) := by
      unfold Path.createSlipOrderFunction
      rw [if_neg hslip]
      dsimp only
      rw [htaker, max_uint256_eq, times_fin, integerValue_fin]
      simp only [decide_eq_true_eq]
    -- the largest word stands for "all there is" and is not slipped
    by_cases hmax : (n : ℚ) = maxUint256
    · refine ⟨_, 2 ^ 256 - 1, rfl, ?_, ?_⟩
      · rw [hslipped, if_pos hmax]
        unfold MAX_UINT256
        norm_num
      · rw [if_pos hmax, hmax]
    · refine ⟨_, roundRat .up (n * Arithmetic.float (1 + slippage)), rfl, ?_, ?_⟩
      · rw [hslipped, if_neg hmax]
      · rw [if_neg hmax, sub_self]

end OneOrder

/-! ## Sums over the orders -/

/-- Two sums agree exactly when the differences of their terms add up to nothing. -/
theorem sumAmounts_eq_iff {f g : TwoHopOrder → BigNumber} (d : TwoHopOrder → ℤ)
    {orders : List TwoHopOrder}
    (h : ∀ order ∈ orders, ∃ x y : ℤ, f order = .fin x ∧ g order = .fin y ∧ x - y = d order) :
    sumAmounts (orders.map f) = sumAmounts (orders.map g) ↔ (orders.map d).sum = 0 := by
  have hfinite : ∃ x y : ℤ, sumAmounts (orders.map f) = .fin x ∧
      sumAmounts (orders.map g) = .fin y ∧ x - y = (orders.map d).sum := by
    induction orders with
    | nil => exact ⟨0, 0, rfl, rfl, rfl⟩
    | cons order orders ih =>
      obtain ⟨x, y, hx, hy, hxy⟩ := h order List.mem_cons_self
      obtain ⟨xs, ys, hxs, hys, hsum⟩ := ih fun o ho => h o (List.mem_cons_of_mem _ ho)
      refine ⟨x + xs, y + ys, ?_, ?_, ?_⟩
      · rw [List.map_cons, sumAmounts_cons, hx, hxs, plus_fin, Int.cast_add]
      · rw [List.map_cons, sumAmounts_cons, hy, hys, plus_fin, Int.cast_add]
      · rw [List.map_cons, List.sum_cons]
        omega
  obtain ⟨x, y, hx, hy, hxy⟩ := hfinite
  rw [hx, hy, fin.injEq, Int.cast_inj]
  omega

theorem sumAmounts_congr {f g : TwoHopOrder → BigNumber} {orders : List TwoHopOrder}
    (h : ∀ order ∈ orders, f order = g order) :
    sumAmounts (orders.map f) = sumAmounts (orders.map g) := by
  rw [List.map_congr_left h]

/-- The count of the orders rounded up, less what is lost of sentinels. -/
theorem sum_differences [Arithmetic] (slippage : ℚ) (orders : List TwoHopOrder) :
    (orders.map fun order =>
        (if roundsUp slippage order then 1 else 0) - sentinelLoss slippage order).sum = 0 ↔
      ((orders.filter (roundsUp slippage)).length : ℤ)
        = (orders.map (sentinelLoss slippage)).sum := by
  have hsum : (orders.map fun order =>
        (if roundsUp slippage order then 1 else 0) - sentinelLoss slippage order).sum
      = ((orders.filter (roundsUp slippage)).length : ℤ)
        - (orders.map (sentinelLoss slippage)).sum := by
    induction orders with
    | nil => rfl
    | cons order orders ih =>
      rw [List.map_cons, List.sum_cons, ih, List.map_cons, List.sum_cons, List.filter_cons]
      split
      · rw [List.length_cons]
        push_cast
        omega
      · omega
  rw [hsum]
  omega

/-- Terms none of which is negative add up to nothing exactly when each is nothing. -/
theorem sum_eq_zero_iff_of_nonneg {d : TwoHopOrder → ℤ} {orders : List TwoHopOrder}
    (h : ∀ order ∈ orders, 0 ≤ d order) :
    (orders.map d).sum = 0 ↔ ∀ order ∈ orders, d order = 0 := by
  induction orders with
  | nil => simp
  | cons order orders ih =>
    have hhead := h order List.mem_cons_self
    have htail := fun o ho => h o (List.mem_cons_of_mem _ ho)
    have hrest : 0 ≤ (orders.map d).sum := List.sum_nonneg fun x hx => by
      obtain ⟨o, ho, rfl⟩ := List.mem_map.mp hx
      exact htail o ho
    rw [List.map_cons, List.sum_cons, List.forall_mem_cons, ← ih htail]
    omega

/-! ## The worst case of a path of two-hop orders -/

/-- Without single-hop orders the simulations fill nothing. -/
theorem simulate_nil [Arithmetic] (operation : MarketOperation)
    (assetFillAmount gasPrice : BigNumber) (gasSchedule : GasSchedule) (slippage : ℚ) :
    ∃ best worst,
      simulateBestCaseFill
          (singleHopFillInfo [] operation assetFillAmount gasPrice gasSchedule 0) = .ok best ∧
        simulateWorstCaseFill
          (singleHopFillInfo [] operation assetFillAmount gasPrice gasSchedule slippage)
            = .ok worst ∧
          worst.totalMakerAssetAmount = .fin 0 ∧ worst.totalTakerAssetAmount = .fin 0 := by
  refine ⟨_, _, rfl, rfl, ?_, ?_⟩
  · cases operation <;>
      simp [fromIntermediateQuoteFillResult, roundIntermediateFillResult, roundInputAmount,
        roundOutputAmount, slipOutput, fillQuoteOrders, fillLoop, singleHopFillInfo,
        EMPTY_QUOTE_INTERMEDIATE_FILL_RESULT, ZERO_AMOUNT]
  · cases operation <;>
      simp [fromIntermediateQuoteFillResult, roundIntermediateFillResult, roundInputAmount,
        roundOutputAmount, slipOutput, fillQuoteOrders, fillLoop, singleHopFillInfo,
        EMPTY_QUOTE_INTERMEDIATE_FILL_RESULT, ZERO_AMOUNT]

/-- The worst case of a two-hop order. -/
theorem worstCase_sell [Arithmetic] (order : TwoHopOrder) (gasSchedule : GasSchedule)
    (slippage : ℚ) :
    (calculateTwoHopQuoteInfo order .sell gasSchedule slippage).worstCaseQuoteInfo.makerAmount
        = (order.secondHopOrder.makerAmount.times
            (.fin (Arithmetic.float (1 - slippage)))).integerValue .halfUp ∧
      (calculateTwoHopQuoteInfo order .sell gasSchedule
          slippage).worstCaseQuoteInfo.totalTakerAmount = order.firstHopOrder.takerAmount :=
  ⟨rfl, rfl⟩

theorem worstCase_buy [Arithmetic] (order : TwoHopOrder) (gasSchedule : GasSchedule)
    (slippage : ℚ) :
    (calculateTwoHopQuoteInfo order .buy gasSchedule slippage).worstCaseQuoteInfo.makerAmount
        = order.secondHopOrder.makerAmount ∧
      (calculateTwoHopQuoteInfo order .buy gasSchedule
          slippage).worstCaseQuoteInfo.totalTakerAmount
        = (order.firstHopOrder.takerAmount.times
            (.fin (Arithmetic.float (1 + slippage)))).integerValue .up :=
  ⟨rfl, rfl⟩

/-- The worst case of the quote is the sum of the worst cases of its two-hop orders. -/
theorem calculateQuoteInfo_twoHop [Arithmetic] {path : Path} (h : TwoHopPath path)
    (operation : MarketOperation) (assetFillAmount gasPrice : BigNumber)
    (gasSchedule : GasSchedule) (slippage : ℚ) :
    ∃ info,
      calculateQuoteInfo path operation assetFillAmount gasPrice gasSchedule slippage = .ok info ∧
        info.worstCaseQuoteInfo.makerAmount =
          sumAmounts (path.ordersByType.twoHopOrders.map fun order =>
            (calculateTwoHopQuoteInfo order operation gasSchedule
              slippage).worstCaseQuoteInfo.makerAmount) ∧
        info.worstCaseQuoteInfo.totalTakerAmount =
          sumAmounts (path.ordersByType.twoHopOrders.map fun order =>
            (calculateTwoHopQuoteInfo order operation gasSchedule
              slippage).worstCaseQuoteInfo.totalTakerAmount) := by
  obtain ⟨best, worst, hbest, hworst, hmaker, htaker⟩ :=
    simulate_nil operation assetFillAmount gasPrice gasSchedule slippage
  have hnil : path.ordersByType.nativeOrders ++ path.ordersByType.bridgeOrders = [] := by
    rw [h.nativeOrders_eq, h.bridgeOrders_eq]
    rfl
  rw [← hnil] at hbest hworst
  refine ⟨_, calculateQuoteInfo_run hbest hworst, ?_, ?_⟩
  · show BigNumber.sum (worst.totalMakerAssetAmount :: _) = _
    rw [hmaker, List.map_map]
    rfl
  · show BigNumber.sum (worst.totalTakerAssetAmount :: _) = _
    rw [htaker, List.map_map]
    rfl

/-- The bounds of the quote are those of the slipped orders exactly when the sums of what the two
ways of slipping make of each order are. -/
theorem exists_boundsAgree_iff [Arithmetic] {path : Path} (h : TwoHopPath path) {slippage : ℚ}
    (h₀ : 0 ≤ slippage) (h₁ : slippage ≤ 1) (assetFillAmount gasPrice : BigNumber)
    (gasSchedule : GasSchedule) :
    (∃ info slipped,
        calculateQuoteInfo path path.context.side assetFillAmount gasPrice gasSchedule slippage
            = .ok info ∧
          path.getSlippedOrdersByType slippage = .ok slipped ∧ BoundsAgree info slipped) ↔
      sumAmounts (path.ordersByType.twoHopOrders.map fun order =>
            (calculateTwoHopQuoteInfo order path.context.side gasSchedule
              slippage).worstCaseQuoteInfo.makerAmount)
          = sumAmounts (path.ordersByType.twoHopOrders.map fun order =>
            (Path.createSlipOrderFunction slippage path.context.side
              order.secondHopOrder).makerAmount) ∧
        sumAmounts (path.ordersByType.twoHopOrders.map fun order =>
            (calculateTwoHopQuoteInfo order path.context.side gasSchedule
              slippage).worstCaseQuoteInfo.totalTakerAmount)
          = sumAmounts (path.ordersByType.twoHopOrders.map fun order =>
            (Path.createSlipOrderFunction slippage path.context.side
              order.firstHopOrder).takerAmount) := by
  obtain ⟨info, hinfo, hmaker, htaker⟩ := calculateQuoteInfo_twoHop h path.context.side
    assetFillAmount gasPrice gasSchedule slippage
  have hslipped := path.getSlippedOrdersByType_of_mem h₀ h₁
  rw [← hmaker, ← htaker]
  constructor
  · rintro ⟨info', slipped', hinfo', hslipped', hagree⟩
    rw [hinfo] at hinfo'
    rw [hslipped] at hslipped'
    cases hinfo'
    cases hslipped'
    have hagreeMaker := hagree.makerAmount
    have hagreeTaker := hagree.totalTakerAmount
    rw [List.map_map] at hagreeMaker hagreeTaker
    exact ⟨hagreeMaker, hagreeTaker⟩
  · rintro ⟨hagreeMaker, hagreeTaker⟩
    refine ⟨info, _, hinfo, hslipped, ?_, ?_⟩
    · rw [List.map_map]
      exact hagreeMaker
    · rw [List.map_map]
      exact hagreeTaker

/-- For every path of two-hop orders, side, amount and slippage, the bounds of the quote are those
of the slipped orders exactly when the differences between the two ways of slipping cancel. -/
theorem bounds_agree_iff [Arithmetic] {path : Path} (h : TwoHopPath path) {slippage : ℚ}
    (h₀ : 0 ≤ slippage) (h₁ : slippage ≤ 1) (assetFillAmount gasPrice : BigNumber)
    (gasSchedule : GasSchedule) :
    (∃ info slipped,
        calculateQuoteInfo path path.context.side assetFillAmount gasPrice gasSchedule slippage
            = .ok info ∧
          path.getSlippedOrdersByType slippage = .ok slipped ∧ BoundsAgree info slipped) ↔
      DifferencesCancel path.context.side slippage path.ordersByType.twoHopOrders := by
  rw [exists_boundsAgree_iff h h₀ h₁]
  cases path.context.side with
  | sell =>
    -- what is taken is not slipped, so what is made decides
    rw [and_iff_left (sumAmounts_congr fun order _ =>
      (worstCase_sell order gasSchedule slippage).2.trans
        (Path.slipOrder_takerAmount_sell slippage order.firstHopOrder).symm)]
    rw [sumAmounts_eq_iff fun order =>
      (if roundsUp slippage order then 1 else 0) - sentinelLoss slippage order]
    · exact sum_differences slippage _
    · intro order ho
      obtain ⟨_, n, _, hn⟩ := h.amounts order ho
      exact sell_maker_difference h₁ hn (h.hops order ho).2
  | buy =>
    -- what is made is not slipped, so what is taken decides
    rw [and_iff_right (sumAmounts_congr fun order _ =>
      (worstCase_buy order gasSchedule slippage).1.trans
        (Path.slipOrder_makerAmount_buy slippage order.secondHopOrder).symm)]
    rw [sumAmounts_eq_iff (sentinelGain slippage)]
    · rw [sum_eq_zero_iff_of_nonneg fun _ _ => sentinelGain_nonneg h₀]
      have hiff : ∀ order : TwoHopOrder, sentinelGain slippage order = 0 ↔
          Arithmetic.float (1 + slippage) = 1 ∨ takerAmount order ≠ maxUint256 :=
        fun _ => sentinelGain_eq_zero_iff h₀
      simp only [hiff]
      by_cases hslip : Arithmetic.float (1 + slippage) = 1
      · exact iff_of_true (fun _ _ => .inl hslip) (.inl hslip)
      · simp only [hslip, false_or]
        exact ⟨.inr, fun hor => hor.resolve_left hslip⟩
    · intro order ho
      obtain ⟨n, _, hn, _⟩ := h.amounts order ho
      exact buy_taker_difference hn (h.hops order ho).1

/-! ## A sell of ten units through two hops -/

section Code

attribute [local instance] codeArithmetic

/-- What the sampler says of Uniswap V2 and SushiSwap. -/
def twoHopFillData : FillData :=
  .multiHop .uniswapV2 (.uniswapV2 ["input", "middle"] "router") .sushiSwap
    (.uniswapV2 ["middle", "output"] "router") "middle"

theorem twoHopFillData_sampled : twoHopFillData.Sampled .multiHop := ⟨rfl, rfl, rfl, rfl, rfl⟩

/-- Ten units through Uniswap V2 and SushiSwap. -/
def twoHopSample (output : ℚ) : DexSample where
  source := .multiHop
  fillData := twoHopFillData
  input := .fin 10
  output := .fin output
  sampled := twoHopFillData_sampled
  notNative := multiHop_ne_native

/-- The path that is the sample. -/
def twoHopPath (output : ℚ) : Except JsError Path :=
  Path.create ⟨.sell, "input", "output"⟩
    [Fills.dexSampleToFill .sell (twoHopSample output) (.fin 0) (.fin 0) fun _ _ => ⟨0, .fin 0⟩]
    (.fin 10) ⟨.fin 0, .fin 0, fun _ => .fin 0⟩

/-- What a run has to show of the path. -/
def isTwoHopPath (output : ℕ) (path : Path) : Bool :=
  path.context.side == .sell && path.ordersByType.nativeOrders.isEmpty &&
    path.ordersByType.bridgeOrders.isEmpty &&
      path.ordersByType.twoHopOrders.all fun order =>
        decide (order.firstHopOrder.source ≠ .native ∧ order.secondHopOrder.source ≠ .native ∧
          order.firstHopOrder.takerAmount = .fin (10 : ℕ) ∧
            order.secondHopOrder.makerAmount = .fin output)

theorem twoHopPath_of_check {output : ℕ} {path : Path} (h : isTwoHopPath output path = true) :
    path.context.side = .sell ∧ TwoHopPath path := by
  unfold isTwoHopPath at h
  rw [Bool.and_eq_true, Bool.and_eq_true, Bool.and_eq_true, List.all_eq_true] at h
  obtain ⟨⟨⟨hside, hnative⟩, hbridge⟩, horders⟩ := h
  refine ⟨by simpa using hside, List.isEmpty_iff.mp hnative, List.isEmpty_iff.mp hbridge, ?_, ?_⟩
  · intro order ho
    obtain ⟨hfirst, hsecond, _, _⟩ := of_decide_eq_true (horders order ho)
    exact ⟨hfirst, hsecond⟩
  · intro order ho
    obtain ⟨_, _, htaker, hmaker⟩ := of_decide_eq_true (horders order ho)
    exact ⟨10, output, htaker, hmaker⟩

/-- Two units at a slippage of a half: both round to one. -/
theorem two_units_bounds_agree :
    ∃ path, twoHopPath 2 = .ok path ∧ ∃ info slipped,
      calculateQuoteInfo path path.context.side (.fin 10) (.fin 0) (fun _ _ => 0) (1 / 2)
          = .ok info ∧
        path.getSlippedOrdersByType (1 / 2) = .ok slipped ∧ BoundsAgree info slipped := by
  obtain ⟨path, hpath, hcheck⟩ := exists_of_okAnd
    (show okAnd (twoHopPath 2) (fun path => isTwoHopPath 2 path &&
      decide (((path.ordersByType.twoHopOrders.filter (roundsUp (1 / 2))).length : ℤ)
        = (path.ordersByType.twoHopOrders.map (sentinelLoss (1 / 2))).sum)) = true by
      decide +kernel)
  rw [Bool.and_eq_true] at hcheck
  obtain ⟨hside, htwoHop⟩ := twoHopPath_of_check hcheck.1
  refine ⟨path, hpath, (bounds_agree_iff htwoHop (by norm_num) (by norm_num) (.fin 10) (.fin 0)
    fun _ _ => 0).mpr ?_⟩
  have hcancel := of_decide_eq_true hcheck.2
  rw [hside]
  exact hcancel

/-- One unit at a slippage of a half: the quote promises one and the order nothing. -/
theorem half_unit_bounds_differ :
    ∃ path, twoHopPath 1 = .ok path ∧ TwoHopPath path ∧ ¬ ∃ info slipped,
      calculateQuoteInfo path path.context.side (.fin 10) (.fin 0) (fun _ _ => 0) (1 / 2)
          = .ok info ∧
        path.getSlippedOrdersByType (1 / 2) = .ok slipped ∧ BoundsAgree info slipped := by
  obtain ⟨path, hpath, hcheck⟩ := exists_of_okAnd
    (show okAnd (twoHopPath 1) (fun path => isTwoHopPath 1 path &&
      okAnd (calculateQuoteInfo path path.context.side (.fin 10) (.fin 0) (fun _ _ => 0) (1 / 2))
        fun info => okAnd (path.getSlippedOrdersByType (1 / 2)) fun slipped =>
          decide (info.worstCaseQuoteInfo.makerAmount ≠ sumAmounts
            (slipped.twoHopOrders.map fun order => order.secondHopOrder.makerAmount))) = true by
      decide +kernel)
  rw [Bool.and_eq_true] at hcheck
  obtain ⟨_, htwoHop⟩ := twoHopPath_of_check hcheck.1
  refine ⟨path, hpath, htwoHop, ?_⟩
  rintro ⟨info, slipped, hinfo, hslipped, hagree⟩
  obtain ⟨info', hinfo', hcheck⟩ := exists_of_okAnd hcheck.2
  obtain ⟨slipped', hslipped', hne⟩ := exists_of_okAnd hcheck
  rw [hinfo] at hinfo'
  rw [hslipped] at hslipped'
  cases hinfo'
  cases hslipped'
  exact of_decide_eq_true hne hagree.makerAmount

end Code

end ZeroExApi.TwoHopBounds
