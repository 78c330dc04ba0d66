/-
# ZeroExApi.PoolWalk — a turn of `multiswap` as a turn of an exact walk

What the quoters rely on of their libraries (`Quoter.Lawful`): prices grow with ticks, the next tick
is the same from every tick on the way to it, and a swap step is exact and additive.  Then the turns
of `multiswap` over a pool are those of a walk that may be paid in parts (`walk_exact`), and a turn
that leaves something over crosses a tick or ends at the price limit (`move_progress`).
-/

import ZeroExApi.MultiQuoter
import ZeroExApi.Lib.Metered

namespace ZeroExApi.MultiQuoter

open ZeroExApi.Lib ZeroExApi.Lib.Fallible

/-! ## What a step uses and makes -/

/-- A specified amount: positive for an input, negative for an output. -/
def specified (exactInput : Bool) (amount : ℕ) : ℤ := if exactInput then amount else -amount

/-- What a step uses of the specified amount. -/
def SwapStep.used (step : SwapStep) (exactInput : Bool) : ℕ :=
  if exactInput then step.amountIn + step.feeAmount else step.amountOut

/-- What a step makes of the other token. -/
def SwapStep.made (step : SwapStep) (exactInput : Bool) : ℕ :=
  if exactInput then step.amountOut else step.amountIn + step.feeAmount

/-- What is made as a calculated amount: negative for an output, positive for an input. -/
def calculated (exactInput : Bool) (amount : ℕ) : ℤ := if exactInput then -amount else amount

theorem calculated_add (exactInput : Bool) (a b : ℕ) :
    calculated exactInput (a + b) = calculated exactInput a + calculated exactInput b := by
  unfold calculated
  split <;> omega

/-- What is made in part fits where all of it does. -/
theorem fits_of_le (exactInput : Bool) {x : ℤ} {a b : ℕ} (h : a ≤ b) (hx : FitsInt256 x)
    (hb : FitsInt256 (x + calculated exactInput b)) : FitsInt256 (x + calculated exactInput a) := by
  unfold FitsInt256 calculated at *
  split at hb <;> simp_all <;> omega

/-! ## Lawful quoters -/

/-- What `TickMath` is documented to do. -/
structure TickMath.Lawful (tickMath : TickMath) : Prop where
  ratio_lt : ∀ {a b}, tickMath.MIN_TICK ≤ a → a < b → b ≤ tickMath.MAX_TICK →
    tickMath.getSqrtRatioAtTick a < tickMath.getSqrtRatioAtTick b
  ratio_min : tickMath.getSqrtRatioAtTick tickMath.MIN_TICK = tickMath.MIN_SQRT_RATIO
  ratio_max : tickMath.getSqrtRatioAtTick tickMath.MAX_TICK = tickMath.MAX_SQRT_RATIO
  tick_mem : ∀ {p}, tickMath.MIN_SQRT_RATIO ≤ p → p < tickMath.MAX_SQRT_RATIO →
    tickMath.MIN_TICK ≤ tickMath.getTickAtSqrtRatio p ∧
      tickMath.getTickAtSqrtRatio p < tickMath.MAX_TICK
  tick_price : ∀ {p}, tickMath.MIN_SQRT_RATIO ≤ p → p < tickMath.MAX_SQRT_RATIO →
    tickMath.getSqrtRatioAtTick (tickMath.getTickAtSqrtRatio p) ≤ p ∧
      p < tickMath.getSqrtRatioAtTick (tickMath.getTickAtSqrtRatio p + 1)

/-- A swap step of one kind that is exact and additive.  Swapping an amount and then another towards
one target leads to the price that their sum leads to, for as much in total. -/
structure ExactStep (exactInput : Bool) (computeSwapStep : ℕ → ℕ → ℕ → ℤ → ℕ → SwapStep) :
    Prop where
  /-- The price moves towards the target and not beyond it. -/
  between : ∀ price target liquidity a fee, 0 < a →
    let next :=
      (computeSwapStep price target liquidity (specified exactInput a) fee).sqrtRatioNextX96
    (target ≤ price → target ≤ next ∧ next ≤ price) ∧
      (price ≤ target → price ≤ next ∧ next ≤ target)
  /-- The amounts of a step fit a signed word. -/
  fits : ∀ price target liquidity a fee, 0 < a →
    (computeSwapStep price target liquidity (specified exactInput a) fee).made exactInput < 2 ^ 255
  used_le : ∀ price target liquidity a fee, 0 < a →
    (computeSwapStep price target liquidity (specified exactInput a) fee).used exactInput ≤ a
  /-- Short of the target, all is used. -/
  used_eq : ∀ price target liquidity a fee, 0 < a →
    let step := computeSwapStep price target liquidity (specified exactInput a) fee
    step.sqrtRatioNextX96 ≠ target → step.used exactInput = a
  /-- What is enough for the target leads to the target, for as much. -/
  reached : ∀ price target liquidity a fee, 0 < a →
    let step := computeSwapStep price target liquidity (specified exactInput a) fee
    step.sqrtRatioNextX96 = target → ∀ b, 0 < b → step.used exactInput ≤ b →
      let step' := computeSwapStep price target liquidity (specified exactInput b) fee
      step'.sqrtRatioNextX96 = target ∧ step'.used exactInput = step.used exactInput ∧
        step'.made exactInput = step.made exactInput
  additive : ∀ price target liquidity a fee, 0 < a →
    let step := computeSwapStep price target liquidity (specified exactInput a) fee
    step.sqrtRatioNextX96 ≠ target → ∀ b, 0 < b →
      let rest :=
        computeSwapStep step.sqrtRatioNextX96 target liquidity (specified exactInput b) fee
      let step' := computeSwapStep price target liquidity (specified exactInput (a + b)) fee
      step'.sqrtRatioNextX96 = rest.sqrtRatioNextX96 ∧
        step'.used exactInput = step.used exactInput + rest.used exactInput ∧
          step'.made exactInput = step.made exactInput + rest.made exactInput

/-- A quoter whose libraries do what they are documented to do, with swap steps of one kind that are
exact. -/
structure Quoter.Lawful (q : Quoter) (exactInput : Bool) : Prop where
  tickMath : q.tickMath.Lawful
  target_left : ∀ next limit, q.sqrtPriceTargetX96 true next limit = max next limit
  target_right : ∀ next limit, q.sqrtPriceTargetX96 false next limit = min next limit
  next_left : ∀ {pool : Pool}, 0 < pool.tickSpacing → ∀ tick,
    let next := q.nextInitializedTickWithinOneWord pool tick true
    next.1 ≤ tick ∧ ∀ tick', next.1 ≤ tick' → tick' ≤ tick →
      q.nextInitializedTickWithinOneWord pool tick' true = next
  next_right : ∀ {pool : Pool}, 0 < pool.tickSpacing → ∀ tick,
    let next := q.nextInitializedTickWithinOneWord pool tick false
    tick < next.1 ∧ ∀ tick', tick ≤ tick' → tick' < next.1 →
      q.nextInitializedTickWithinOneWord pool tick' false = next
  step : ∀ zeroForOne, ExactStep exactInput (q.computeSwapStep zeroForOne)

/-! ## Ticks and prices -/

section Ticks

variable {tickMath : TickMath} (hmath : tickMath.Lawful) {a b : ℤ}
include hmath

theorem ratio_le (ha : tickMath.MIN_TICK ≤ a) (hab : a ≤ b) (hb : b ≤ tickMath.MAX_TICK) :
    tickMath.getSqrtRatioAtTick a ≤ tickMath.getSqrtRatioAtTick b := by
  rcases hab.lt_or_eq with hlt | rfl
  · exact (hmath.ratio_lt ha hlt hb).le
  · exact le_rfl

theorem tick_lt_of_ratio_lt (ha : a ≤ tickMath.MAX_TICK) (hb : tickMath.MIN_TICK ≤ b)
    (h : tickMath.getSqrtRatioAtTick a < tickMath.getSqrtRatioAtTick b) : a < b := by
  by_contra hge
  exact absurd (ratio_le hmath hb (not_lt.mp hge) ha) (not_le.mpr h)

end Ticks

/-! ## The walk over a pool -/

/-- The walk of a swap: a turn pays for a step, and it ends at the price limit. -/
def walk (q : Quoter) (swap : Swap) : Metered Revert WalkState where
  move state amount := do
    let step := stepOf q swap state (specified swap.exactInput amount)
    let amountCalculated ←
      checkedInt256 (state.amountCalculated
        + calculated swap.exactInput (step.made swap.exactInput))
    let (tick, liquidity) ← shiftTick q swap state step.sqrtRatioNextX96
    .ok (⟨amountCalculated, step.sqrtRatioNextX96, tick, liquidity⟩, step.used swap.exactInput)
  done state := decide (state.sqrtPriceX96 = swap.sqrtPriceLimitX96)

/-- A tick that is that of a price, or the one below it at the lower end of a tick. -/
structure InTick (tickMath : TickMath) (tick : ℤ) (price : ℕ) : Prop where
  minTick_le : tickMath.MIN_TICK ≤ tick
  tick_lt : tick < tickMath.MAX_TICK
  ratio_le : tickMath.getSqrtRatioAtTick tick ≤ price
  le_ratio : price ≤ tickMath.getSqrtRatioAtTick (tick + 1)
  price_lt : price < tickMath.MAX_SQRT_RATIO

/-- A state whose tick is that of its price, and whose price is not beyond the limit. -/
structure InRange (q : Quoter) (swap : Swap) (state : WalkState) : Prop where
  inTick : InTick q.tickMath state.tick state.sqrtPriceX96
  fits : FitsInt256 state.amountCalculated
  limit_left : swap.zeroForOne = true → swap.sqrtPriceLimitX96 ≤ state.sqrtPriceX96
  limit_right : swap.zeroForOne = false → state.sqrtPriceX96 ≤ swap.sqrtPriceLimitX96

/-- A swap over a pool with a tick spacing, up to the limit of its direction. -/
structure Swap.Lawful (swap : Swap) (tickMath : TickMath) : Prop where
  tickSpacing_pos : 0 < swap.pool.tickSpacing
  limit_eq : swap.sqrtPriceLimitX96 = priceLimit tickMath swap.zeroForOne

theorem Swap.Lawful.limit_left {swap : Swap} {tickMath : TickMath} (h : swap.Lawful tickMath)
    (hz : swap.zeroForOne = true) : swap.sqrtPriceLimitX96 = tickMath.MIN_SQRT_RATIO + 1 := by
  rw [h.limit_eq, hz, priceLimit, if_pos rfl]

theorem Swap.Lawful.limit_right {swap : Swap} {tickMath : TickMath} (h : swap.Lawful tickMath)
    (hz : swap.zeroForOne = false) : swap.sqrtPriceLimitX96 = tickMath.MAX_SQRT_RATIO - 1 := by
  rw [h.limit_eq, hz, priceLimit, if_neg Bool.false_ne_true]

section Walk

variable {q : Quoter} {swap : Swap} (hq : q.Lawful swap.exactInput) (hswap : swap.Lawful q.tickMath)
  {state state' : WalkState} {amount used : ℕ}

/-- What a turn leads to. -/
theorem move_eq_ok :
    (walk q swap).move state amount = .ok (state', used) ↔
      let step := stepOf q swap state (specified swap.exactInput amount)
      checkedInt256 (state.amountCalculated
          + calculated swap.exactInput (step.made swap.exactInput)) = .ok state'.amountCalculated ∧
        state'.sqrtPriceX96 = step.sqrtRatioNextX96 ∧
          shiftTick q swap state step.sqrtRatioNextX96 = .ok (state'.tick, state'.liquidity) ∧
            used = step.used swap.exactInput := by
  dsimp only
  constructor
  · intro h
    obtain ⟨amountCalculated, hcalculated, h⟩ := bind_eq_ok.mp h
    obtain ⟨⟨tick, liquidity⟩, hshift, h⟩ := bind_eq_ok.mp h
    cases h
    exact ⟨hcalculated, rfl, hshift, rfl⟩
  · rintro ⟨hcalculated, hprice, hshift, rfl⟩
    obtain ⟨amountCalculated, sqrtPriceX96, tick, liquidity⟩ := state'
    subst hprice
    exact bind_eq_ok.mpr ⟨_, hcalculated, bind_eq_ok.mpr ⟨_, hshift, rfl⟩⟩

/-! ### Prices and ticks on the way to the target -/

/-- The target of a turn. -/
def targetOf (q : Quoter) (swap : Swap) (tick : ℤ) : ℕ :=
  q.sqrtPriceTargetX96 swap.zeroForOne (sqrtPriceNextX96 q swap tick) swap.sqrtPriceLimitX96

/-- The next tick is that of the bitmap, or it is the first or the last tick. -/
theorem boundTick_spec {tickMath : TickMath} (h : tickMath.MIN_TICK ≤ tickMath.MAX_TICK)
    (tick : ℤ) : tickMath.MIN_TICK ≤ boundTick tickMath tick ∧
      boundTick tickMath tick ≤ tickMath.MAX_TICK ∧
        (tick ≤ tickMath.MAX_TICK → tick ≤ boundTick tickMath tick) ∧
          (tickMath.MIN_TICK ≤ tick → boundTick tickMath tick ≤ tick) ∧
            (∀ bound, tickMath.MIN_TICK ≤ bound → tick ≤ bound → boundTick tickMath tick ≤ bound) ∧
              ∀ bound, bound < tickMath.MAX_TICK → bound < tick →
                bound < boundTick tickMath tick := by
  unfold boundTick
  split
  · refine ⟨by omega, by omega, by omega, by omega, by omega, by omega⟩
  · split <;> refine ⟨by omega, by omega, by omega, by omega, by omega, by omega⟩

include hq hswap in
/-- To the left, the next tick is not to the right, and it is the same from every tick in
between. -/
theorem nextTick_left (hz : swap.zeroForOne = true) {tick : ℤ} (hmin : q.tickMath.MIN_TICK ≤ tick)
    (hmax : tick < q.tickMath.MAX_TICK) :
    q.tickMath.MIN_TICK ≤ (nextTick q swap tick).1 ∧ (nextTick q swap tick).1 ≤ tick ∧
      ∀ tick', (nextTick q swap tick).1 ≤ tick' → tick' ≤ tick →
        nextTick q swap tick' = nextTick q swap tick := by
  obtain ⟨hle, hsame⟩ := hq.next_left hswap.tickSpacing_pos tick
  have hticks : q.tickMath.MIN_TICK ≤ q.tickMath.MAX_TICK := by omega
  obtain ⟨hge, _, hge_self, _, hbound, _⟩ := boundTick_spec hticks
    (q.nextInitializedTickWithinOneWord swap.pool tick true).1
  unfold nextTick
  rw [hz]
  refine ⟨hge, hbound tick hmin hle, fun tick' hge' hle' => ?_⟩
  rw [hsame tick' ((hge_self (by omega)).trans hge') hle']

include hq hswap in
/-- To the right, the next tick is to the right, and it is the same from every tick before it. -/
theorem nextTick_right (hz : swap.zeroForOne = false) {tick : ℤ}
    (hmin : q.tickMath.MIN_TICK ≤ tick) (hmax : tick < q.tickMath.MAX_TICK) :
    tick < (nextTick q swap tick).1 ∧ (nextTick q swap tick).1 ≤ q.tickMath.MAX_TICK ∧
      ∀ tick', tick ≤ tick' → tick' < (nextTick q swap tick).1 →
        nextTick q swap tick' = nextTick q swap tick := by
  obtain ⟨hlt, hsame⟩ := hq.next_right hswap.tickSpacing_pos tick
  have hticks : q.tickMath.MIN_TICK ≤ q.tickMath.MAX_TICK := by omega
  obtain ⟨_, hle, _, hle_self, _, hbound⟩ := boundTick_spec hticks
    (q.nextInitializedTickWithinOneWord swap.pool tick false).1
  unfold nextTick
  rw [hz]
  refine ⟨hbound tick hmax hlt, hle, fun tick' hge' hlt' => ?_⟩
  rw [hsame tick' hge' (lt_of_lt_of_le hlt' (hle_self (by omega)))]

/-- A price between that of a state and the target. -/
structure OnTheWay (q : Quoter) (swap : Swap) (state : WalkState) (price : ℕ) : Prop where
  left : swap.zeroForOne = true → targetOf q swap state.tick ≤ price ∧ price ≤ state.sqrtPriceX96
  right : swap.zeroForOne = false → state.sqrtPriceX96 ≤ price ∧ price ≤ targetOf q swap state.tick

/-- How many ticks are left in the direction of a swap. -/
def ticksLeft (q : Quoter) (swap : Swap) (tick : ℤ) : ℤ :=
  if swap.zeroForOne then tick - q.tickMath.MIN_TICK else q.tickMath.MAX_TICK - tick

section Prices

include hq hswap

theorem targetOf_left (hz : swap.zeroForOne = true) (tick : ℤ) :
    targetOf q swap tick = max (sqrtPriceNextX96 q swap tick) (q.tickMath.MIN_SQRT_RATIO + 1) := by
  unfold targetOf
  rw [hz, hq.target_left, hswap.limit_eq, hz, priceLimit, if_pos rfl]

theorem targetOf_right (hz : swap.zeroForOne = false) (tick : ℤ) :
    targetOf q swap tick = min (sqrtPriceNextX96 q swap tick) (q.tickMath.MAX_SQRT_RATIO - 1) := by
  unfold targetOf
  rw [hz, hq.target_right, hswap.limit_eq, hz, priceLimit, if_neg Bool.false_ne_true]

/-- A price on the way is the target where it is that of the next tick or the limit. -/
theorem OnTheWay.eq_target {price : ℕ} (hway : OnTheWay q swap state price) :
    price = targetOf q swap state.tick ↔
      price = sqrtPriceNextX96 q swap state.tick ∨ price = swap.sqrtPriceLimitX96 := by
  cases hz : swap.zeroForOne with
  | true =>
    have hprice := (hway.left hz).1
    rw [hswap.limit_left hz]
    rw [targetOf_left hq hswap hz] at hprice ⊢
    omega
  | false =>
    have hprice := (hway.right hz).2
    rw [hswap.limit_right hz]
    rw [targetOf_right hq hswap hz] at hprice ⊢
    omega

/-- A price on the way is one that has a tick. -/
theorem OnTheWay.hasTick {price : ℕ} (hstate : InRange q swap state)
    (hway : OnTheWay q swap state price) :
    q.tickMath.MIN_SQRT_RATIO ≤ price ∧ price < q.tickMath.MAX_SQRT_RATIO := by
  have hmath := hq.tickMath
  have hprice_lt := hstate.inTick.price_lt
  cases hz : swap.zeroForOne with
  | true =>
    have hprice := hway.left hz
    rw [targetOf_left hq hswap hz] at hprice
    omega
  | false =>
    have hprice := hway.right hz
    have hmin := ratio_le hmath le_rfl hstate.inTick.minTick_le hstate.inTick.tick_lt.le
    have hratio := hstate.inTick.ratio_le
    rw [hmath.ratio_min] at hmin
    rw [targetOf_right hq hswap hz] at hprice
    omega

/-- The tick of a price on the way, where the next tick is not reached. -/
theorem OnTheWay.tick {price : ℕ} (hstate : InRange q swap state)
    (hway : OnTheWay q swap state price) (hnext : price ≠ sqrtPriceNextX96 q swap state.tick)
    (hmoved : price ≠ state.sqrtPriceX96) :
    let tick := q.tickMath.getTickAtSqrtRatio price
    InTick q.tickMath tick price ∧ ticksLeft q swap tick ≤ ticksLeft q swap state.tick ∧
      nextTick q swap tick = nextTick q swap state.tick := by
  have hmath := hq.tickMath
  obtain ⟨hmin_tick, htick_max, hratio, hle_ratio, _⟩ := hstate.inTick
  obtain ⟨hmin, hmax⟩ := hway.hasTick hq hswap hstate
  obtain ⟨htick_ge, htick_lt⟩ := hmath.tick_mem hmin hmax
  obtain ⟨hratio_le, hlt_ratio⟩ := hmath.tick_price hmin hmax
  dsimp only
  generalize q.tickMath.getTickAtSqrtRatio price = tick at *
  refine ⟨⟨htick_ge, htick_lt, hratio_le, hlt_ratio.le, hmax⟩, ?_⟩
  unfold ticksLeft
  cases hz : swap.zeroForOne with
  | true =>
    obtain ⟨hnext_ge, hnext_le, hsame⟩ :=
      nextTick_left hq hswap hz hmin_tick htick_max
    have hprice := hway.left hz
    rw [targetOf_left hq hswap hz] at hprice
    -- the tick of a lower price is no higher, and it is not below the next tick
    have hle : tick < state.tick + 1 := by
      apply tick_lt_of_ratio_lt hmath (by omega) (by omega)
      omega
    have hge : (nextTick q swap state.tick).1 < tick + 1 := by
      apply tick_lt_of_ratio_lt hmath (by omega) (by omega)
      show sqrtPriceNextX96 q swap state.tick < _
      omega
    refine ⟨?_, hsame tick (by omega) (by omega)⟩
    rw [if_pos rfl, if_pos rfl]
    omega
  | false =>
    obtain ⟨hnext_gt, hnext_le, hsame⟩ :=
      nextTick_right hq hswap hz hmin_tick htick_max
    have hprice := hway.right hz
    rw [targetOf_right hq hswap hz] at hprice
    -- the same the other way
    have hge : state.tick < tick + 1 := by
      apply tick_lt_of_ratio_lt hmath htick_max.le (by omega)
      omega
    have hlt : tick < (nextTick q swap state.tick).1 := by
      apply tick_lt_of_ratio_lt hmath htick_lt.le (by omega)
      show _ < sqrtPriceNextX96 q swap state.tick
      omega
    refine ⟨?_, hsame tick (by omega) hlt⟩
    rw [if_neg Bool.false_ne_true, if_neg Bool.false_ne_true]
    omega

/-- The tick of a state that has reached the next tick. -/
theorem OnTheWay.tick_next (hstate : InRange q swap state)
    (hway : OnTheWay q swap state (sqrtPriceNextX96 q swap state.tick)) :
    let next := (nextTick q swap state.tick).1
    let tick := if swap.zeroForOne then next - 1 else next
    InTick q.tickMath tick (sqrtPriceNextX96 q swap state.tick) ∧
      ticksLeft q swap tick < ticksLeft q swap state.tick := by
  have hmath := hq.tickMath
  obtain ⟨hmin_tick, htick_max, hratio, hle_ratio, _⟩ := hstate.inTick
  have hmax := (hway.hasTick hq hswap hstate).2
  dsimp only
  unfold ticksLeft
  cases hz : swap.zeroForOne with
  | true =>
    obtain ⟨hnext_ge, hnext_le, _⟩ :=
      nextTick_left hq hswap hz hmin_tick htick_max
    have hprice := (hway.left hz).1
    rw [targetOf_left hq hswap hz] at hprice
    -- the walk goes on to the tick below, which there is because the price has room
    have hgt : q.tickMath.MIN_TICK < (nextTick q swap state.tick).1 := by
      apply tick_lt_of_ratio_lt hmath (by omega) hnext_ge
      rw [hmath.ratio_min]
      show _ < sqrtPriceNextX96 q swap state.tick
      omega
    rw [if_pos rfl, if_pos rfl, if_pos rfl]
    refine ⟨⟨by omega, by omega, ?_, ?_, hmax⟩, by omega⟩
    · exact ratio_le hmath (by omega) (by omega) (by omega)
    · rw [Int.sub_add_cancel]
      exact le_rfl
  | false =>
    obtain ⟨hnext_gt, hnext_le, _⟩ :=
      nextTick_right hq hswap hz hmin_tick htick_max
    have hprice := (hway.right hz).2
    rw [targetOf_right hq hswap hz] at hprice
    have hlt : (nextTick q swap state.tick).1 < q.tickMath.MAX_TICK := by
      apply tick_lt_of_ratio_lt hmath hnext_le (by omega)
      rw [hmath.ratio_max]
      exact hmax
    rw [if_neg Bool.false_ne_true, if_neg Bool.false_ne_true, if_neg Bool.false_ne_true]
    refine ⟨⟨by omega, hlt, le_rfl, ?_, hmax⟩, by omega⟩
    exact ratio_le hmath (by omega) (by omega) (by omega)

/-- The tick and the liquidity after a step. -/
theorem shiftTick_spec {price : ℕ} {tick : ℤ} {liquidity : ℕ} (hstate : InRange q swap state)
    (hway : OnTheWay q swap state price)
    (hshift : shiftTick q swap state price = .ok (tick, liquidity)) :
    InTick q.tickMath tick price ∧ ticksLeft q swap tick ≤ ticksLeft q swap state.tick ∧
      (price = sqrtPriceNextX96 q swap state.tick →
        ticksLeft q swap tick < ticksLeft q swap state.tick) ∧
      (price ≠ sqrtPriceNextX96 q swap state.tick →
        nextTick q swap tick = nextTick q swap state.tick ∧ liquidity = state.liquidity) := by
  unfold shiftTick at hshift
  dsimp only at hshift
  by_cases hnext : price = sqrtPriceNextX96 q swap state.tick
  · have htick : tick = if swap.zeroForOne then (nextTick q swap state.tick).1 - 1
        else (nextTick q swap state.tick).1 := by
      rw [if_pos hnext] at hshift
      split at hshift
      · obtain ⟨_, _, hshift⟩ := bind_eq_ok.mp hshift
        cases hshift
        rfl
      · cases hshift
        rfl
    subst hnext htick
    obtain ⟨hin, hlt⟩ := hway.tick_next hq hswap hstate
    exact ⟨hin, hlt.le, fun _ => hlt, fun hne => absurd rfl hne⟩
  · rw [if_neg hnext] at hshift
    by_cases hmoved : price = state.sqrtPriceX96
    · rw [if_neg (not_not.mpr hmoved)] at hshift
      cases hshift
      subst hmoved
      exact ⟨hstate.inTick, le_rfl, fun heq => absurd heq hnext, fun _ => ⟨rfl, rfl⟩⟩
    · rw [if_pos hmoved] at hshift
      cases hshift
      obtain ⟨hin, hle, hsame⟩ := hway.tick hq hswap hstate hnext hmoved
      exact ⟨hin, hle, fun heq => absurd heq hnext, fun _ => ⟨hsame, rfl⟩⟩

/-! ### Turns -/

omit hq hswap in
/-- Short of the next tick, nothing goes wrong. -/
theorem shiftTick_short (q : Quoter) (swap : Swap) (state : WalkState) {price : ℕ}
    (hnext : price ≠ sqrtPriceNextX96 q swap state.tick) :
    ∃ shifted, shiftTick q swap state price = .ok shifted := by
  unfold shiftTick
  dsimp only
  rw [if_neg hnext]
  split
  · exact ⟨_, rfl⟩
  · exact ⟨_, rfl⟩

/-- A step does not go beyond the target. -/
theorem onTheWay (hstate : InRange q swap state) (hpos : 0 < amount) :
    OnTheWay q swap state
      (stepOf q swap state (specified swap.exactInput amount)).sqrtRatioNextX96 := by
  have hmath := hq.tickMath
  obtain ⟨hmin_tick, htick_max, hratio, hle_ratio, hprice_lt⟩ := hstate.inTick
  obtain ⟨hleft, hright⟩ := (hq.step swap.zeroForOne).between state.sqrtPriceX96
    (targetOf q swap state.tick) state.liquidity amount swap.pool.fee hpos
  constructor
  · intro hz
    apply hleft
    obtain ⟨hnext_ge, hnext_le, _⟩ := nextTick_left hq hswap hz hmin_tick htick_max
    have hlimit := hstate.limit_left hz
    have hle := ratio_le hmath hnext_ge hnext_le htick_max.le
    rw [hswap.limit_left hz] at hlimit
    rw [targetOf_left hq hswap hz]
    exact Nat.max_le.mpr ⟨hle.trans hratio, hlimit⟩
  · intro hz
    apply hright
    obtain ⟨hnext_gt, hnext_le, _⟩ := nextTick_right hq hswap hz hmin_tick htick_max
    have hlimit := hstate.limit_right hz
    have hle := ratio_le hmath (by omega) (show state.tick + 1 ≤ _ from hnext_gt) hnext_le
    rw [hswap.limit_right hz] at hlimit
    rw [targetOf_right hq hswap hz]
    exact Nat.le_min.mpr ⟨hle_ratio.trans hle, hlimit⟩

/-- A turn leads from a state in range to another one. -/
theorem move_inRange (hstate : InRange q swap state) (hpos : 0 < amount)
    (hmove : (walk q swap).move state amount = .ok (state', used)) : InRange q swap state' := by
  obtain ⟨hcalculated, hprice, hshift, _⟩ := move_eq_ok.mp hmove
  have hway := onTheWay hq hswap hstate hpos
  rw [← hprice] at hshift hway
  obtain ⟨hin, _⟩ := shiftTick_spec hq hswap hstate hway hshift
  obtain ⟨hfits, heq⟩ := checkedInt256_eq_ok.mp hcalculated
  refine ⟨hin, heq ▸ hfits, fun hz => ?_, fun hz => ?_⟩
  · have hge := (hway.left hz).1
    rw [targetOf_left hq hswap hz] at hge
    rw [hswap.limit_left hz]
    exact (Nat.max_le.mp hge).2
  · have hle := (hway.right hz).2
    rw [targetOf_right hq hswap hz] at hle
    rw [hswap.limit_right hz]
    exact (Nat.le_min.mp hle).2

/-- Where a turn has stopped short of the next tick, the tick and the liquidity shift as before. -/
theorem shiftTick_resume {price : ℕ} (hstate : InRange q swap state)
    (hway : OnTheWay q swap state state'.sqrtPriceX96)
    (hnext : state'.sqrtPriceX96 ≠ sqrtPriceNextX96 q swap state.tick)
    (hshift : shiftTick q swap state state'.sqrtPriceX96 = .ok (state'.tick, state'.liquidity))
    (hway' : OnTheWay q swap state' price) :
    shiftTick q swap state' price = shiftTick q swap state price := by
  obtain ⟨_, _, _, hsame⟩ := shiftTick_spec hq hswap hstate hway hshift
  obtain ⟨htick, hliquidity⟩ := hsame hnext
  have hprice : sqrtPriceNextX96 q swap state'.tick = sqrtPriceNextX96 q swap state.tick := by
    unfold sqrtPriceNextX96
    rw [htick]
  by_cases hend : price = state'.sqrtPriceX96
  · rw [hend, hshift]
    unfold shiftTick
    dsimp only
    rw [hprice, if_neg hnext, if_neg (not_not.mpr rfl)]
  · unfold shiftTick
    dsimp only
    rw [htick, hprice, hliquidity]
    by_cases hreach : price = sqrtPriceNextX96 q swap state.tick
    · rw [if_pos hreach, if_pos hreach]
    · -- the price has moved on from both states
      have hstart : price ≠ state.sqrtPriceX96 := by
        cases hz : swap.zeroForOne with
        | true =>
          have hleft := hway.left hz
          have hleft' := hway'.left hz
          omega
        | false =>
          have hright := hway.right hz
          have hright' := hway'.right hz
          omega
      rw [if_neg hreach, if_neg hreach, if_pos hend, if_pos hstart]

end Prices

/-! ## The walk is exact -/

section Exact

include hq

/-- A turn that leaves something over reaches the target. -/
theorem move_reaches (hpos : 0 < amount)
    (hmove : (walk q swap).move state amount = .ok (state', used)) (hlt : used < amount) :
    state'.sqrtPriceX96 = targetOf q swap state.tick := by
  obtain ⟨_, hprice, _, hused⟩ := move_eq_ok.mp hmove
  by_contra hne
  rw [hprice] at hne
  have hall := (hq.step swap.zeroForOne).used_eq _ _ _ _ _ hpos hne
  exact absurd (hused.trans hall) hlt.ne

/-- A turn that reaches the target is the same for every amount that is enough for it. -/
theorem move_enough (hpos : 0 < amount)
    (hmove : (walk q swap).move state amount = .ok (state', used))
    (htarget : state'.sqrtPriceX96 = targetOf q swap state.tick) {b : ℕ} (hb : 0 < b)
    (hle : used ≤ b) : (walk q swap).move state b = .ok (state', used) := by
  obtain ⟨hcalculated, hprice, hshift, hused⟩ := move_eq_ok.mp hmove
  rw [hprice] at htarget
  obtain ⟨hprice', hused', hmade'⟩ :=
    (hq.step swap.zeroForOne).reached _ _ _ _ _ hpos htarget b hb (hused ▸ hle)
  have hprice_eq := hprice'.trans htarget.symm
  apply move_eq_ok.mpr
  refine ⟨?_, hprice.trans hprice_eq.symm, ?_, hused.trans hused'.symm⟩
  · rw [← hcalculated]
    exact congrArg (fun made => checkedInt256 (_ + calculated _ made)) hmade'
  · rw [← hshift]
    exact congrArg (shiftTick q swap state) hprice_eq

include hswap

/-- A turn that stops short of the target goes on from there with more. -/
theorem move_resume (hstate : InRange q swap state) (hpos : 0 < amount)
    (hmove : (walk q swap).move state amount = .ok (state', used))
    (htarget : state'.sqrtPriceX96 ≠ targetOf q swap state.tick) {b : ℕ} (hb : 0 < b) :
    (walk q swap).move state (amount + b) =
      ((walk q swap).move state' b).map fun r => (r.1, used + r.2) := by
  obtain ⟨hcalculated, hprice, hshift, hused⟩ := move_eq_ok.mp hmove
  have hway := onTheWay hq hswap hstate hpos
  rw [← hprice] at hway hshift
  have hnext : state'.sqrtPriceX96 ≠ sqrtPriceNextX96 q swap state.tick :=
    fun h => htarget ((hway.eq_target hq hswap).mpr (.inl h))
  obtain ⟨_, _, _, hsame⟩ := shiftTick_spec hq hswap hstate hway hshift
  obtain ⟨htick, hliquidity⟩ := hsame hnext
  have hstate' := move_inRange hq hswap hstate hpos hmove
  have hway' := onTheWay hq hswap hstate' hb
  have htargetOf : targetOf q swap state'.tick = targetOf q swap state.tick := by
    unfold targetOf sqrtPriceNextX96
    rw [htick]
  -- the step that goes on has the same target and the same liquidity
  have hadd : let rest := stepOf q swap state' (specified swap.exactInput b)
      let step' := stepOf q swap state (specified swap.exactInput (amount + b))
      step'.sqrtRatioNextX96 = rest.sqrtRatioNextX96 ∧
        step'.used swap.exactInput = used + rest.used swap.exactInput ∧
          state.amountCalculated + calculated swap.exactInput (step'.made swap.exactInput) =
            state'.amountCalculated + calculated swap.exactInput (rest.made swap.exactInput) := by
    rw [hprice] at htarget
    have hadditive := (hq.step swap.zeroForOne).additive state.sqrtPriceX96
      (targetOf q swap state.tick) state.liquidity amount swap.pool.fee hpos htarget b hb
    dsimp only at hadditive ⊢
    have hrest : stepOf q swap state' (specified swap.exactInput b) =
        q.computeSwapStep swap.zeroForOne
          (stepOf q swap state (specified swap.exactInput amount)).sqrtRatioNextX96
          (targetOf q swap state.tick) state.liquidity (specified swap.exactInput b)
          swap.pool.fee := by
      rw [← htargetOf, ← hliquidity, ← hprice]
      rfl
    obtain ⟨hprice', hused', hmade'⟩ := hadditive
    rw [hrest]
    refine ⟨hprice', hused ▸ hused', ?_⟩
    rw [← (checkedInt256_eq_ok.mp hcalculated).2, add_assoc, ← calculated_add]
    exact congrArg (fun made => _ + calculated _ made) hmade'
  obtain ⟨hprice', hused', hmade'⟩ := hadd
  have hshift' := shiftTick_resume hq hswap hstate hway hnext hshift hway'
  unfold walk
  dsimp only
  rw [hprice', hused', hmade', hshift']
  cases checkedInt256 (state'.amountCalculated + calculated swap.exactInput
      ((stepOf q swap state' (specified swap.exactInput b)).made swap.exactInput)) with
  | error e => rfl
  | ok amountCalculated =>
    cases shiftTick q swap state
        (stepOf q swap state' (specified swap.exactInput b)).sqrtRatioNextX96 with
    | error e => rfl
    | ok shifted => rfl

/-- A turn may be left early. -/
theorem move_stop (hstate : InRange q swap state) (hpos : 0 < amount)
    (hmove : (walk q swap).move state amount = .ok (state', used)) {b : ℕ} (hb : 0 < b)
    (hlt : b < used) : ∃ t, (walk q swap).move state b = .ok (t, b) := by
  have hstep := hq.step swap.zeroForOne
  obtain ⟨hcalculated, hprice, hshift, hused⟩ := move_eq_ok.mp hmove
  have hle : used ≤ amount := by
    rw [hused]
    exact hstep.used_le _ _ _ _ _ hpos
  -- the step is short of the target: otherwise no amount would use more
  have hshort : (stepOf q swap state (specified swap.exactInput b)).sqrtRatioNextX96 ≠
      targetOf q swap state.tick := by
    intro htarget
    have hused_b :
        (stepOf q swap state (specified swap.exactInput b)).used swap.exactInput ≤ b :=
      hstep.used_le _ _ _ _ _ hb
    have hsame : (stepOf q swap state (specified swap.exactInput amount)).used swap.exactInput =
        (stepOf q swap state (specified swap.exactInput b)).used swap.exactInput :=
      (hstep.reached _ _ _ _ _ hb htarget amount hpos (hused_b.trans (by omega))).2.1
    omega
  have hall : (stepOf q swap state (specified swap.exactInput b)).used swap.exactInput = b :=
    hstep.used_eq _ _ _ _ _ hb hshort
  obtain ⟨_, _, hmade⟩ := hstep.additive _ _ _ _ _ hb hshort (amount - b) (by omega)
  rw [Nat.add_sub_cancel' (by omega)] at hmade
  have hmade_le : (stepOf q swap state (specified swap.exactInput b)).made swap.exactInput ≤
      (stepOf q swap state (specified swap.exactInput amount)).made swap.exactInput :=
    (Nat.le_add_right _ _).trans hmade.symm.le
  have hway := onTheWay hq hswap hstate hb
  have hnext : (stepOf q swap state (specified swap.exactInput b)).sqrtRatioNextX96 ≠
      sqrtPriceNextX96 q swap state.tick :=
    fun h => hshort ((hway.eq_target hq hswap).mpr (.inl h))
  obtain ⟨amountCalculated, hcalculated'⟩ : ∃ y, checkedInt256 (state.amountCalculated +
      calculated swap.exactInput
        ((stepOf q swap state (specified swap.exactInput b)).made swap.exactInput)) = .ok y :=
    ⟨_, checkedInt256_eq_ok.mpr ⟨fits_of_le swap.exactInput hmade_le hstate.fits
      (checkedInt256_eq_ok.mp hcalculated).1, rfl⟩⟩
  obtain ⟨⟨tick, liquidity⟩, hshift'⟩ := shiftTick_short q swap state hnext
  refine ⟨⟨amountCalculated, (stepOf q swap state
    (specified swap.exactInput b)).sqrtRatioNextX96, tick, liquidity⟩, ?_⟩
  rw [move_eq_ok]
  exact ⟨hcalculated', rfl, hshift', hall.symm⟩

/-- The walk over a pool is exact. -/
theorem walk_exact : (walk q swap).Exact (InRange q swap) where
  good hstate _ hpos hmove := move_inRange hq hswap hstate hpos hmove
  used_le _ _ hpos hmove := by
    obtain ⟨_, _, _, rfl⟩ := move_eq_ok.mp hmove
    exact (hq.step swap.zeroForOne).used_le _ _ _ _ _ hpos
  reaches _ _ hpos hmove hlt b hb hle :=
    move_enough hq hpos hmove (move_reaches hq hpos hmove hlt) hb hle
  resumes {s s' a} hstate hdone hpos hmove := by
    by_cases htarget : s'.sqrtPriceX96 = targetOf q swap s.tick
    · exact .inl fun b hb => move_enough hq hpos hmove htarget (by omega) (by omega)
    · refine .inr ⟨?_, fun b hb => move_resume hq hswap hstate hpos hmove htarget hb⟩
      obtain ⟨_, hprice, _⟩ := move_eq_ok.mp hmove
      have hway := onTheWay hq hswap hstate hpos
      rw [← hprice] at hway
      exact decide_eq_false fun h => htarget ((hway.eq_target hq hswap).mpr (.inr h))
  stops hstate _ hpos hmove b hb hlt := move_stop hq hswap hstate hpos hmove hb hlt

/-- A turn does not go back, and one that leaves something over ends at the limit or crosses a
tick. -/
theorem move_progress (hstate : InRange q swap state) (hpos : 0 < amount)
    (hmove : (walk q swap).move state amount = .ok (state', used)) :
    ticksLeft q swap state'.tick ≤ ticksLeft q swap state.tick ∧
      (used < amount → (walk q swap).done state' = true ∨
        ticksLeft q swap state'.tick < ticksLeft q swap state.tick) := by
  obtain ⟨_, hprice, hshift, _⟩ := move_eq_ok.mp hmove
  have hway := onTheWay hq hswap hstate hpos
  rw [← hprice] at hway hshift
  obtain ⟨_, hle, hcross, _⟩ := shiftTick_spec hq hswap hstate hway hshift
  refine ⟨hle, fun hlt => ?_⟩
  rcases (hway.eq_target hq hswap).mp (move_reaches hq hpos hmove hlt) with hnext | hlimit
  · exact .inr (hcross hnext)
  · exact .inl (decide_eq_true hlimit)

end Exact

/-! ## Where a walk starts -/

theorem ticksLeft_nonneg (hstate : InRange q swap state) : 0 ≤ ticksLeft q swap state.tick := by
  have hmin := hstate.inTick.minTick_le
  have hmax := hstate.inTick.tick_lt
  unfold ticksLeft
  split <;> omega

theorem ticksLeft_le (hstate : InRange q swap state) :
    ticksLeft q swap state.tick ≤ q.tickMath.MAX_TICK - q.tickMath.MIN_TICK := by
  have hmin := hstate.inTick.minTick_le
  have hmax := hstate.inTick.tick_lt
  unfold ticksLeft
  split <;> omega

end Walk

/-- A pool as it is kept: its tick is that of its price, and its price is one it can be swapped
from. -/
structure Pool.Sound (pool : Pool) (tickMath : TickMath) : Prop where
  tickSpacing_pos : 0 < pool.tickSpacing
  inTick : InTick tickMath pool.tick pool.sqrtPriceX96
  min_lt : tickMath.MIN_SQRT_RATIO < pool.sqrtPriceX96

section Start

variable {pool : Pool} {q : Quoter} (hpool : pool.Sound q.tickMath) (zeroForOne exactInput : Bool)
include hpool

theorem Pool.Sound.swap_lawful :
    Swap.Lawful ⟨pool, zeroForOne, exactInput, priceLimit q.tickMath zeroForOne⟩ q.tickMath where
  tickSpacing_pos := hpool.tickSpacing_pos
  limit_eq := rfl

theorem Pool.Sound.start_inRange :
    InRange q ⟨pool, zeroForOne, exactInput, priceLimit q.tickMath zeroForOne⟩ pool.start where
  inTick := hpool.inTick
  fits := (by decide : FitsInt256 0)
  limit_left hz := by
    have hz : zeroForOne = true := hz
    subst hz
    exact hpool.min_lt
  limit_right hz := by
    have hz : zeroForOne = false := hz
    subst hz
    exact Nat.le_sub_one_of_lt hpool.inTick.price_lt

end Start

end ZeroExApi.MultiQuoter
