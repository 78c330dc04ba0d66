/-
# ZeroExApi.ElasticTrack — a turn of the Kyber Elastic quoter as a move along a curve

What the quoter relies on: ticks and prices go together, the liquidity arithmetic adds and takes
away, and a swap step is exact (`ExactStep`): it moves along a curve that says what a move costs,
what it gives and how much the liquidity grows.

In a direction, a pool is a chain of such curves (`track`), one for each stretch between initialized
ticks.  A state of the walk is at a place on the chain (`At`), and a turn leads to a place that is
further on (`swapTurn_spec`).  Largest tick distances are not joints: a stretch walked in parts
costs and gives the same.
-/

import ZeroExApi.KyberElasticMultiQuoter
import ZeroExApi.MultiSwap
import ZeroExApi.Lib.PiecedCurve

namespace ZeroExApi.KyberElastic

open ZeroExApi.Lib ZeroExApi.Lib.Fallible
open ZeroExApi.MultiQuoter (Revert TickMath InTick checkedInt256 checkedInt256_eq_ok specified
  calculated calculated_add fits_specified specified_sub ratio_le tick_lt_of_ratio_lt)

/-! ## Lawful libraries -/

/-- What the libraries are documented to do, swap steps apart. -/
structure Library.Lawful (lib : Library) : Prop where
  tickMath : lib.tickMath.Lawful
  tickDistance_pos : 0 < lib.MAX_TICK_DISTANCE
  addLiquidity : ∀ {l d}, l + d < 2 ^ 128 → lib.applyLiquidityDelta l d true = .ok (l + d)
  subLiquidity : ∀ {l d}, d ≤ l → l < 2 ^ 128 → lib.applyLiquidityDelta l d false = .ok (l - d)

/-- How far on a price is in a direction. -/
def ahead (up : Bool) (price : ℕ) : ℤ := if up then price else -price

theorem ahead_inj {up : Bool} {p p' : ℕ} : ahead up p = ahead up p' ↔ p = p' := by
  unfold ahead
  split <;> omega

/-- What a move comes to in the token that is specified. -/
def specifiedAlong (curve : Curve ℕ) (isExactInput : Bool) : ℕ → ℤ → ℤ → ℕ :=
  if isExactInput then curve.paid else curve.received

/-- What a move comes to in the token that is returned. -/
def returnedAlong (curve : Curve ℕ) (isExactInput : Bool) : ℕ → ℤ → ℤ → ℕ :=
  if isExactInput then curve.received else curve.paid

/-- A swap step with so much liquidity that moves along a curve, as far as the amount goes. -/
structure MovesAlong (curve : Curve ℕ) (up isExactInput : Bool) (liquidity price target amount : ℕ)
    (step : SwapStep) : Prop where
  forward : ahead up price ≤ ahead up step.nextSqrtP
  le_target : ahead up step.nextSqrtP ≤ ahead up target
  used : step.usedAmount = specified isExactInput
    (specifiedAlong curve isExactInput liquidity (ahead up price) (ahead up step.nextSqrtP))
  returned : step.returnedAmount = calculated isExactInput
    (returnedAlong curve isExactInput liquidity (ahead up price) (ahead up step.nextSqrtP))
  grown : liquidity + step.deltaL =
    curve.after liquidity (ahead up price) (ahead up step.nextSqrtP)
  exhausts : specifiedAlong curve isExactInput liquidity (ahead up price) (ahead up step.nextSqrtP)
    = min amount (specifiedAlong curve isExactInput liquidity (ahead up price) (ahead up target))
  reaches :
    specifiedAlong curve isExactInput liquidity (ahead up price) (ahead up target) ≤ amount →
      step.nextSqrtP = target

/-- Where an amount goes, or the target if it is more than enough. -/
def Lands (curve : Curve ℕ) (up isExactInput : Bool) (liquidity price target amount : ℕ) : Prop :=
  ∃ z, ahead up price ≤ z ∧ z ≤ ahead up target ∧
    specifiedAlong curve isExactInput liquidity (ahead up price) z =
      min amount (specifiedAlong curve isExactInput liquidity (ahead up price) (ahead up target))

/-- Swap steps for a fee and in a direction that are exact: whatever is received can be had exactly,
and an amount that can be spent exactly is. -/
structure ExactStep (lib : Library) (fee : ℕ) (up : Bool) (curve : Curve ℕ) : Prop where
  exact : curve.Exact
  /-- The liquidity grows, and remains a word. -/
  grows : ∀ L {x y}, x ≤ y → L ≤ curve.after L x y
  fits : ∀ {L x y}, x ≤ y → L < 2 ^ 128 → curve.after L x y < 2 ^ 128
  attained : ∀ {L x y a}, x ≤ y → a ≤ curve.received L x y →
    ∃ z, x ≤ z ∧ z ≤ y ∧ curve.received L x z = a
  step : ∀ {isExactInput L price target a}, 0 < a → L < 2 ^ 128 →
    ahead up price ≤ ahead up target → Lands curve up isExactInput L price target a →
      MovesAlong curve up isExactInput L price target a
        (lib.computeSwapStep L price target fee (specified isExactInput a) isExactInput
          (isExactInput != up))

/-! ## Pools -/

section Pools

variable (pool : Pool) (up : Bool)

/-- The initialized ticks that are met in a direction. -/
def Pool.tickAt (pool : Pool) (up : Bool) : ℕ → ℤ
  | 0 =>
    if up then (pool.initializedTicks pool.nearestCurrentTick).2 else pool.nearestCurrentTick
  | k + 1 =>
    if up then (pool.initializedTicks (tickAt pool up k)).2
    else (pool.initializedTicks (tickAt pool up k)).1

/-- What the base liquidity changes by at a tick that is crossed. -/
def Pool.crossing (k : ℕ) : ℤ :=
  if up then pool.liquidityNet (pool.tickAt up k) else -pool.liquidityNet (pool.tickAt up k)

/-- The base liquidity between two ticks. -/
def Pool.baseAt (pool : Pool) (up : Bool) : ℕ → ℤ
  | 0 => pool.baseL
  | k + 1 => baseAt pool up k + pool.crossing up k

/-- No tick so far is the first or the last one. -/
def Pool.Inside (tickMath : TickMath) (k : ℕ) : Prop :=
  ∀ j < k, tickMath.MIN_TICK < pool.tickAt up j ∧ pool.tickAt up j < tickMath.MAX_TICK

/-- A pool as it is kept: its tick is that of its price, the list of its initialized ticks goes on
in both directions to the first and the last one, and its base liquidity is a word between them. -/
structure Pool.Sound (tickMath : TickMath) : Prop where
  inTick : InTick tickMath pool.currentTick pool.sqrtP
  tick_le : pool.tickAt false 0 ≤ pool.currentTick
  lt_tick : pool.currentTick < pool.tickAt true 0
  tick_mem : ∀ up k, tickMath.MIN_TICK ≤ pool.tickAt up k ∧ pool.tickAt up k ≤ tickMath.MAX_TICK
  tick_lt : ∀ k, tickMath.MIN_TICK < pool.tickAt true k → pool.tickAt true k < tickMath.MAX_TICK →
    pool.tickAt true k < pool.tickAt true (k + 1)
  lt_tick_down : ∀ k, tickMath.MIN_TICK < pool.tickAt false k →
    pool.tickAt false k < tickMath.MAX_TICK → pool.tickAt false (k + 1) < pool.tickAt false k
  net : ∀ tick, -2 ^ 127 < pool.liquidityNet tick ∧ pool.liquidityNet tick < 2 ^ 127
  base : ∀ up k, pool.Inside up tickMath k → 0 ≤ pool.baseAt up k ∧ pool.baseAt up k < 2 ^ 128

end Pools

/-- The chain that a pool is in a direction: a curve between initialized ticks. -/
def track (tickMath : TickMath) (pool : Pool) (up : Bool) (curve : Curve ℕ) : Chain ℕ where
  curve := curve
  joint
    | 0 => ahead up pool.sqrtP
    | k + 1 => ahead up (tickMath.getSqrtRatioAtTick (pool.tickAt up k))
  cross k liquidity := (liquidity + pool.crossing up k).toNat
  init := pool.baseL + pool.reinvestL

/-- What has been exhausted at a place in the token that is specified. -/
def specifiedAt (C : Chain ℕ) (isExactInput : Bool) : ℕ → ℤ → ℕ :=
  if isExactInput then C.paidAt else C.receivedAt

/-- What has come of it in the token that is returned. -/
def returnedAt (C : Chain ℕ) (isExactInput : Bool) : ℕ → ℤ → ℕ :=
  if isExactInput then C.receivedAt else C.paidAt

/-- A place that a walk can get to before a limit: the liquidity of every stretch on the way is a
word. -/
structure Reach (C : Chain ℕ) (limit : ℤ) (k : ℕ) (z : ℤ) : Prop where
  on : C.On k z
  le_limit : z ≤ limit
  fits_before : ∀ j < k, C.stateAt j < 2 ^ 128
  fits : C.joint k < z → C.stateAt k < 2 ^ 128

/-! ## States -/

section States

variable (lib : Library) (swap : Swap) (curve : Curve ℕ)

/-- The chain that a swap walks along. -/
abbrev Swap.track : Chain ℕ := KyberElastic.track lib.tickMath swap.pool swap.willUpTick curve

/-- How far on a state is. -/
def SwapData.place (data : SwapData) : ℤ := ahead swap.willUpTick data.sqrtP

/-- A state at a place on the chain, whatever its current tick. -/
structure Placed (k : ℕ) (data : SwapData) : Prop where
  reach : Reach (swap.track lib curve) (ahead swap.willUpTick swap.limitSqrtP) k (data.place swap)
  inside : swap.pool.Inside swap.willUpTick lib.tickMath k
  nextTick : data.nextTick = swap.pool.tickAt swap.willUpTick k
  baseL : (data.baseL : ℤ) = swap.pool.baseAt swap.willUpTick k
  liquidity : data.baseL + data.reinvestL =
    curve.after ((swap.track lib curve).stateAt k) ((swap.track lib curve).joint k)
      (data.place swap)
  returned : data.returnedAmount = calculated swap.isExactInput
    (returnedAt (swap.track lib curve) swap.isExactInput k (data.place swap))

/-- A current tick that is that of the price, short of the next tick. -/
structure OnTick (currentTick nextTick : ℤ) (sqrtP : ℕ) : Prop where
  inTick : InTick lib.tickMath currentTick sqrtP
  up : swap.willUpTick = true → currentTick < nextTick
  down : swap.willUpTick = false → nextTick ≤ currentTick

/-- A state at a place on the chain. -/
structure At (k : ℕ) (data : SwapData) : Prop where
  placed : Placed lib swap curve k data
  onTick : OnTick lib swap data.currentTick data.nextTick data.sqrtP

/-- The ticks that are left in the direction of a swap. -/
def ticksLeft (data : SwapData) : ℤ :=
  if swap.willUpTick then lib.tickMath.MAX_TICK - data.currentTick
  else data.currentTick - lib.tickMath.MIN_TICK

end States

/-- The price limit of a direction: short of the last price. -/
def limitOf (tickMath : TickMath) (up : Bool) : ℕ :=
  if up then tickMath.MAX_SQRT_RATIO - 1 else tickMath.MIN_SQRT_RATIO + 1

/-- A swap over a pool as it is kept, up to the limit of its direction, with exact swap steps. -/
structure Swap.Lawful (swap : Swap) (lib : Library) (curve : Curve ℕ) : Prop where
  library : lib.Lawful
  pool : swap.pool.Sound lib.tickMath
  step : ExactStep lib swap.pool.swapFeeUnits swap.willUpTick curve
  limit : swap.limitSqrtP = limitOf lib.tickMath swap.willUpTick

/-! ## Where a turn goes -/

section Turn

variable {lib : Library} {swap : Swap} {curve : Curve ℕ} (h : swap.Lawful lib curve) {k : ℕ}
  {data : SwapData}
include h

theorem limit_up (hup : swap.willUpTick = true) :
    swap.limitSqrtP = lib.tickMath.MAX_SQRT_RATIO - 1 := by
  rw [h.limit, hup, limitOf, if_pos rfl]

theorem limit_down (hup : swap.willUpTick = false) :
    swap.limitSqrtP = lib.tickMath.MIN_SQRT_RATIO + 1 := by
  rw [h.limit, hup, limitOf, if_neg Bool.false_ne_true]

/-- Upwards, the next tick to swap to is above the current one. -/
theorem tempNextTick_up (hup : swap.willUpTick = true) (hlt : data.currentTick < data.nextTick) :
    data.currentTick < tempNextTick lib swap data ∧
      tempNextTick lib swap data ≤ data.nextTick := by
  have hdistance := h.library.tickDistance_pos
  unfold tempNextTick
  simp only [hup, Bool.true_and, Bool.not_true, Bool.false_and, decide_eq_true_eq,
    Bool.false_eq_true, if_false]
  split <;> omega

/-- Downwards, it is not above the current one. -/
theorem tempNextTick_down (hup : swap.willUpTick = false) (hle : data.nextTick ≤ data.currentTick) :
    data.nextTick ≤ tempNextTick lib swap data ∧
      tempNextTick lib swap data ≤ data.currentTick := by
  have hdistance := h.library.tickDistance_pos
  unfold tempNextTick
  simp only [hup, Bool.false_and, Bool.not_false, Bool.true_and, decide_eq_true_eq,
    Bool.false_eq_true, if_false]
  split <;> omega

/-- The next price to swap to is ahead, and not beyond the next initialized tick. -/
theorem nextSqrtP_between (hat : At lib swap curve k data) :
    data.place swap ≤ ahead swap.willUpTick (nextSqrtP lib swap data) ∧
      ahead swap.willUpTick (nextSqrtP lib swap data) ≤
        (swap.track lib curve).joint (k + 1) := by
  have hmath := h.library.tickMath
  have htick := hat.onTick.inTick
  have hnext := hat.placed.nextTick
  obtain ⟨hmem_min, hmem_max⟩ := h.pool.tick_mem swap.willUpTick k
  rw [← hnext] at hmem_min hmem_max
  show _ ∧ _ ≤ ahead swap.willUpTick (lib.tickMath.getSqrtRatioAtTick _)
  rw [← hnext]
  unfold SwapData.place nextSqrtP
  cases hup : swap.willUpTick with
  | true =>
    obtain ⟨hlt, hle⟩ := tempNextTick_up h hup (hat.onTick.up hup)
    have hmin := htick.minTick_le
    have hprice := htick.le_ratio.trans (ratio_le hmath (a := data.currentTick + 1)
      (b := tempNextTick lib swap data) (by omega) (by omega) (by omega))
    have hjoint := ratio_le hmath (a := tempNextTick lib swap data) (b := data.nextTick)
      (by omega) hle hmem_max
    show (data.sqrtP : ℤ) ≤ lib.tickMath.getSqrtRatioAtTick _ ∧
      (lib.tickMath.getSqrtRatioAtTick _ : ℤ) ≤ lib.tickMath.getSqrtRatioAtTick _
    omega
  | false =>
    obtain ⟨hle, hlt⟩ := tempNextTick_down h hup (hat.onTick.down hup)
    have hmax := htick.tick_lt
    have hprice := (ratio_le hmath (a := tempNextTick lib swap data) (b := data.currentTick)
      (by omega) (by omega) (by omega)).trans htick.ratio_le
    have hjoint := ratio_le hmath (a := data.nextTick) (b := tempNextTick lib swap data)
      hmem_min hle (by omega)
    show -(data.sqrtP : ℤ) ≤ -lib.tickMath.getSqrtRatioAtTick _ ∧
      -(lib.tickMath.getSqrtRatioAtTick _ : ℤ) ≤ -lib.tickMath.getSqrtRatioAtTick _
    omega

omit h in
/-- The price to swap to is the next one or the limit, whichever comes first. -/
theorem ahead_target : ahead swap.willUpTick (targetSqrtP lib swap data) =
    min (ahead swap.willUpTick (nextSqrtP lib swap data))
      (ahead swap.willUpTick swap.limitSqrtP) := by
  unfold targetSqrtP
  by_cases hbeyond : nextSqrtP lib swap data > swap.limitSqrtP
  · rw [decide_eq_true hbeyond]
    cases swap.willUpTick with
    | true =>
      show (swap.limitSqrtP : ℤ) = min (nextSqrtP lib swap data : ℤ) swap.limitSqrtP
      omega
    | false =>
      show -(nextSqrtP lib swap data : ℤ) = min (-(nextSqrtP lib swap data : ℤ)) (-swap.limitSqrtP)
      omega
  · rw [decide_eq_false hbeyond]
    cases swap.willUpTick with
    | true =>
      show (nextSqrtP lib swap data : ℤ) = min (nextSqrtP lib swap data : ℤ) swap.limitSqrtP
      omega
    | false =>
      show -(swap.limitSqrtP : ℤ) = min (-(nextSqrtP lib swap data : ℤ)) (-swap.limitSqrtP)
      omega

/-- What a move adds to what is exhausted. -/
theorem Placed.specifiedAt_add (hplaced : Placed lib swap curve k data) (isExactInput : Bool)
    {z : ℤ} (hle : data.place swap ≤ z) :
    specifiedAt (swap.track lib curve) isExactInput k z =
      specifiedAt (swap.track lib curve) isExactInput k (data.place swap) +
        specifiedAlong curve isExactInput (data.baseL + data.reinvestL) (data.place swap) z := by
  have hleft := hplaced.reach.on.left
  rw [hplaced.liquidity]
  cases isExactInput with
  | true => exact Chain.paidAt_add (C := swap.track lib curve) h.step.exact hleft hle
  | false => exact Chain.receivedAt_add (C := swap.track lib curve) h.step.exact hleft hle

/-- What a move adds to what is returned. -/
theorem Placed.returnedAt_add (hplaced : Placed lib swap curve k data) (isExactInput : Bool)
    {z : ℤ} (hle : data.place swap ≤ z) :
    returnedAt (swap.track lib curve) isExactInput k z =
      returnedAt (swap.track lib curve) isExactInput k (data.place swap) +
        returnedAlong curve isExactInput (data.baseL + data.reinvestL) (data.place swap) z := by
  have hleft := hplaced.reach.on.left
  rw [hplaced.liquidity]
  cases isExactInput with
  | true => exact Chain.receivedAt_add (C := swap.track lib curve) h.step.exact hleft hle
  | false => exact Chain.paidAt_add (C := swap.track lib curve) h.step.exact hleft hle

/-- Where the liquidity is a word, it was one at the start of the stretch. -/
theorem Placed.stateAt_lt (hplaced : Placed lib swap curve k data)
    (hliquidity : data.baseL + data.reinvestL < 2 ^ 128) :
    (swap.track lib curve).stateAt k < 2 ^ 128 := by
  have hgrows := h.step.grows ((swap.track lib curve).stateAt k) hplaced.reach.on.left
  rw [← hplaced.liquidity] at hgrows
  omega

/-! ## What a swap step does -/

omit h in
/-- The state that a swap step leads to, with so much left. -/
def movedTo (swap : Swap) (data : SwapData) (step : SwapStep) (left : ℕ) : SwapData :=
  { data with
    specifiedAmount := specified swap.isExactInput left
    returnedAmount := data.returnedAmount + step.returnedAmount
    reinvestL := data.reinvestL + step.deltaL
    sqrtP := step.nextSqrtP }

variable {step : SwapStep} {amount : ℕ}
  (hmove : MovesAlong curve swap.willUpTick swap.isExactInput (data.baseL + data.reinvestL)
    data.sqrtP (targetSqrtP lib swap data) amount step)

include hmove in
/-- The place after a swap step. -/
theorem moved_between (hat : At lib swap curve k data) :
    data.place swap ≤ ahead swap.willUpTick step.nextSqrtP ∧
      ahead swap.willUpTick step.nextSqrtP ≤ ahead swap.willUpTick (nextSqrtP lib swap data) ∧
      ahead swap.willUpTick step.nextSqrtP ≤ ahead swap.willUpTick swap.limitSqrtP ∧
      ahead swap.willUpTick step.nextSqrtP ≤ (swap.track lib curve).joint (k + 1) := by
  have hnext := nextSqrtP_between h hat
  have htarget := hmove.le_target
  rw [ahead_target, le_min_iff] at htarget
  exact ⟨hmove.forward, htarget.1, htarget.2, htarget.1.trans hnext.2⟩

include hmove in
/-- A swap step leads to a place on the same stretch. -/
theorem At.moved (hat : At lib swap curve k data)
    (hliquidity : data.baseL + data.reinvestL < 2 ^ 128) (left : ℕ) :
    Placed lib swap curve k (movedTo swap data step left) := by
  obtain ⟨hforward, _, hlimit, hjoint⟩ := moved_between h hmove hat
  have hplaced := hat.placed
  have hon := hplaced.reach.on
  refine ⟨⟨⟨hon.forward, hon.left.trans hforward, hjoint⟩, hlimit, hplaced.reach.fits_before,
    fun _ => hplaced.stateAt_lt h hliquidity⟩, hplaced.inside, hplaced.nextTick, hplaced.baseL,
    ?_, ?_⟩
  · show data.baseL + (data.reinvestL + step.deltaL) = _
    rw [← Nat.add_assoc, hmove.grown, hplaced.liquidity]
    exact (h.step.exact.after_trans _ hon.left hforward).symm
  · show data.returnedAmount + step.returnedAmount = _
    rw [hmove.returned, hplaced.returned, ← calculated_add]
    exact congrArg _ (hplaced.returnedAt_add h swap.isExactInput hforward).symm

include hmove in
/-- Settling a swap step. -/
theorem settle_eq (hliquidity : data.baseL + data.reinvestL < 2 ^ 128) (hamount : amount < 2 ^ 255)
    (hspecified : data.specifiedAmount = specified swap.isExactInput amount) :
    settle data step =
      (checkedInt256 (data.returnedAmount + step.returnedAmount)).map fun _ =>
        movedTo swap data step (amount - specifiedAlong curve swap.isExactInput
          (data.baseL + data.reinvestL) (data.place swap)
          (ahead swap.willUpTick step.nextSqrtP)) := by
  have hused := hmove.exhausts
  have hgrown := h.step.fits hmove.forward hliquidity
  rw [← hmove.grown] at hgrown
  have hleft : checkedInt256 (data.specifiedAmount - step.usedAmount) =
      .ok (specified swap.isExactInput (amount - specifiedAlong curve swap.isExactInput
        (data.baseL + data.reinvestL) (data.place swap)
        (ahead swap.willUpTick step.nextSqrtP))) := by
    unfold SwapData.place
    rw [hspecified, hmove.used, specified_sub _ (by omega)]
    exact checkedInt256_eq_ok.mpr ⟨fits_specified _ (by omega), rfl⟩
  have hdelta : checkedUint128 step.deltaL = .ok step.deltaL := if_pos (by omega)
  have hreinvest : checkedUint128 (data.reinvestL + step.deltaL) =
      .ok (data.reinvestL + step.deltaL) := if_pos (by omega)
  unfold settle
  rw [hleft, ok_bind]
  unfold checkedInt256
  split
  · rw [ok_bind, hdelta, ok_bind, hreinvest]
    rfl
  · rfl

/-! ## The tick after a turn -/

/-- A price on the way to the limit. -/
theorem price_mem (hat : At lib swap curve k data) {price : ℕ}
    (hforward : data.place swap ≤ ahead swap.willUpTick price)
    (hle : ahead swap.willUpTick price ≤ ahead swap.willUpTick swap.limitSqrtP) :
    lib.tickMath.MIN_SQRT_RATIO ≤ price ∧ price < lib.tickMath.MAX_SQRT_RATIO := by
  have hmath := h.library.tickMath
  have htick := hat.onTick.inTick
  have hmax := htick.tick_lt
  have hprice := htick.price_lt
  have hmin := (ratio_le hmath le_rfl htick.minTick_le hmax.le).trans htick.ratio_le
  rw [hmath.ratio_min] at hmin
  unfold SwapData.place at hforward
  cases hup : swap.willUpTick with
  | true =>
    rw [hup, limit_up h hup] at hle
    rw [hup] at hforward
    change (data.sqrtP : ℤ) ≤ price at hforward
    change (price : ℤ) ≤ (lib.tickMath.MAX_SQRT_RATIO - 1 : ℕ) at hle
    omega
  | false =>
    rw [hup, limit_down h hup] at hle
    rw [hup] at hforward
    change -(data.sqrtP : ℤ) ≤ -price at hforward
    change -(price : ℤ) ≤ -(lib.tickMath.MIN_SQRT_RATIO + 1 : ℕ) at hle
    omega

/-- Short of the next price, the current tick is that of the price. -/
theorem onTick_short (hat : At lib swap curve k data) {price : ℕ}
    (hforward : data.place swap ≤ ahead swap.willUpTick price)
    (hnext : ahead swap.willUpTick price ≤ ahead swap.willUpTick (nextSqrtP lib swap data))
    (hle : ahead swap.willUpTick price ≤ ahead swap.willUpTick swap.limitSqrtP)
    (hshort : price ≠ nextSqrtP lib swap data) :
    OnTick lib swap (lib.tickMath.getTickAtSqrtRatio price) data.nextTick price := by
  have hmath := h.library.tickMath
  obtain ⟨hmin, hmax⟩ := price_mem h hat hforward hle
  obtain ⟨htick_min, htick_max⟩ := hmath.tick_mem hmin hmax
  obtain ⟨hprice, hprice'⟩ := hmath.tick_price hmin hmax
  obtain ⟨hmem_min, hmem_max⟩ := h.pool.tick_mem swap.willUpTick k
  have hjoint : ahead swap.willUpTick (nextSqrtP lib swap data) ≤
      ahead swap.willUpTick (lib.tickMath.getSqrtRatioAtTick data.nextTick) := by
    rw [hat.placed.nextTick]
    exact (nextSqrtP_between h hat).2
  rw [← hat.placed.nextTick] at hmem_min hmem_max
  refine ⟨⟨htick_min, htick_max, hprice, hprice'.le, hmax⟩, fun hup => ?_, fun hup => ?_⟩
  · rw [hup] at hnext hjoint
    change (price : ℤ) ≤ nextSqrtP lib swap data at hnext
    change (nextSqrtP lib swap data : ℤ) ≤ lib.tickMath.getSqrtRatioAtTick data.nextTick at hjoint
    exact tick_lt_of_ratio_lt hmath htick_max.le hmem_min (by omega)
  · rw [hup] at hnext hjoint
    change -(price : ℤ) ≤ -nextSqrtP lib swap data at hnext
    change -(nextSqrtP lib swap data : ℤ) ≤ -lib.tickMath.getSqrtRatioAtTick data.nextTick
      at hjoint
    have hlt := tick_lt_of_ratio_lt hmath (a := data.nextTick)
      (b := lib.tickMath.getTickAtSqrtRatio price + 1) hmem_max (by omega) (by omega)
    omega

/-- A next price that is not beyond the limit is not that of the first or the last tick. -/
theorem tempNextTick_inside (hat : At lib swap curve k data)
    (hle : ahead swap.willUpTick (nextSqrtP lib swap data) ≤
      ahead swap.willUpTick swap.limitSqrtP) :
    lib.tickMath.MIN_TICK < tempNextTick lib swap data ∧
      tempNextTick lib swap data < lib.tickMath.MAX_TICK := by
  have hmath := h.library.tickMath
  have htick := hat.onTick.inTick
  have hmin := htick.minTick_le
  have hmax := htick.tick_lt
  have hprice := htick.price_lt
  obtain ⟨hmem_min, hmem_max⟩ := h.pool.tick_mem swap.willUpTick k
  rw [← hat.placed.nextTick] at hmem_min hmem_max
  unfold nextSqrtP at hle
  cases hup : swap.willUpTick with
  | true =>
    obtain ⟨hlt, hnext⟩ := tempNextTick_up h hup (hat.onTick.up hup)
    rw [hup, limit_up h hup] at hle
    change (lib.tickMath.getSqrtRatioAtTick (tempNextTick lib swap data) : ℤ) ≤
      (lib.tickMath.MAX_SQRT_RATIO - 1 : ℕ) at hle
    have hbelow := tick_lt_of_ratio_lt hmath (a := tempNextTick lib swap data)
      (b := lib.tickMath.MAX_TICK) (by omega) (by omega) (by rw [hmath.ratio_max]; omega)
    omega
  | false =>
    obtain ⟨hnext, hlt⟩ := tempNextTick_down h hup (hat.onTick.down hup)
    rw [hup, limit_down h hup] at hle
    change -(lib.tickMath.getSqrtRatioAtTick (tempNextTick lib swap data) : ℤ) ≤
      -(lib.tickMath.MIN_SQRT_RATIO + 1 : ℕ) at hle
    have habove := tick_lt_of_ratio_lt hmath (a := lib.tickMath.MIN_TICK)
      (b := tempNextTick lib swap data) (by omega) (by omega) (by rw [hmath.ratio_min]; omega)
    omega

omit h in
/-- The current tick at the next price. -/
def shiftedTick (lib : Library) (swap : Swap) (data : SwapData) : ℤ :=
  if swap.willUpTick then tempNextTick lib swap data else tempNextTick lib swap data - 1

theorem inTick_shifted (hmin : lib.tickMath.MIN_TICK < tempNextTick lib swap data)
    (hmax : tempNextTick lib swap data < lib.tickMath.MAX_TICK) :
    InTick lib.tickMath (shiftedTick lib swap data) (nextSqrtP lib swap data) := by
  have hmath := h.library.tickMath
  have hprice := hmath.ratio_lt hmin.le hmax le_rfl
  rw [hmath.ratio_max] at hprice
  unfold shiftedTick nextSqrtP
  split
  · exact ⟨hmin.le, hmax, le_rfl, ratio_le hmath hmin.le (by omega) (by omega), hprice⟩
  · refine ⟨by omega, by omega, ratio_le hmath (by omega) (by omega) hmax.le, ?_, hprice⟩
    rw [sub_add_cancel]

/-- At the next price there are less ticks left. -/
theorem ticksLeft_shifted (hat : At lib swap curve k data) {data' : SwapData}
    (htick : data'.currentTick = shiftedTick lib swap data) :
    ticksLeft lib swap data' < ticksLeft lib swap data := by
  unfold ticksLeft
  rw [htick]
  unfold shiftedTick
  cases hup : swap.willUpTick with
  | true =>
    have hlt := (tempNextTick_up h hup (hat.onTick.up hup)).1
    simp only [if_true]
    omega
  | false =>
    have hle := (tempNextTick_down h hup (hat.onTick.down hup)).2
    simp only [Bool.false_eq_true, if_false]
    omega

/-! ## Crossing a tick -/

omit h in
/-- The liquidity arithmetic adds what may be negative. -/
theorem applyLiquidityDelta_eq (hlib : lib.Lawful) {l : ℕ} {d : ℤ} (hl : l < 2 ^ 128)
    (hnonneg : 0 ≤ l + d) (hlt : l + d < 2 ^ 128) :
    lib.applyLiquidityDelta l d.natAbs (decide (d ≥ 0)) = .ok (l + d).toNat := by
  by_cases hd : 0 ≤ d
  · rw [decide_eq_true hd, hlib.addLiquidity (by omega)]
    congr 1
    omega
  · rw [decide_eq_false hd, hlib.subLiquidity (by omega) hl]
    congr 1
    omega

omit h in
theorem inside_succ (hinside : swap.pool.Inside swap.willUpTick lib.tickMath k)
    (hmin : lib.tickMath.MIN_TICK < swap.pool.tickAt swap.willUpTick k)
    (hmax : swap.pool.tickAt swap.willUpTick k < lib.tickMath.MAX_TICK) :
    swap.pool.Inside swap.willUpTick lib.tickMath (k + 1) := by
  intro j hj
  rcases Nat.lt_succ_iff_lt_or_eq.mp hj with hj | rfl
  · exact hinside j hj
  · exact ⟨hmin, hmax⟩

/-- Behind a tick there are the base liquidity and the tick of the next stretch. -/
theorem updateLiquidityAndCrossTick_eq (hplaced : Placed lib swap curve k data)
    (hinside : swap.pool.Inside swap.willUpTick lib.tickMath (k + 1)) :
    updateLiquidityAndCrossTick lib swap data.nextTick data.baseL =
      .ok ((swap.pool.baseAt swap.willUpTick (k + 1)).toNat,
        swap.pool.tickAt swap.willUpTick (k + 1)) := by
  obtain ⟨_, hlt⟩ := h.pool.base swap.willUpTick k hplaced.inside
  obtain ⟨hnonneg, hlt'⟩ := h.pool.base swap.willUpTick (k + 1) hinside
  obtain ⟨hnet, hnet'⟩ := h.pool.net (swap.pool.tickAt swap.willUpTick k)
  rw [← hplaced.baseL] at hlt
  have hbase : swap.pool.baseAt swap.willUpTick (k + 1) =
      data.baseL + swap.pool.crossing swap.willUpTick k := by
    rw [hplaced.baseL]
    rfl
  rw [hbase] at hnonneg hlt' ⊢
  have hdelta := applyLiquidityDelta_eq h.library (by omega) hnonneg hlt'
  unfold updateLiquidityAndCrossTick
  rw [hplaced.nextTick]
  unfold Pool.crossing at hdelta ⊢
  cases hup : swap.willUpTick with
  | true =>
    rw [hup, if_pos rfl] at hdelta
    show (lib.applyLiquidityDelta _ _ _ >>= _) = _
    rw [hdelta]
    rfl
  | false =>
    rw [hup, if_neg Bool.false_ne_true] at hdelta
    rw [hup] at hnet hnet'
    have hneg : checkedInt128 (-swap.pool.liquidityNet (swap.pool.tickAt false k)) =
        .ok (-swap.pool.liquidityNet (swap.pool.tickAt false k)) := if_pos (by omega)
    show (checkedInt128 _ >>= _) = _
    rw [hneg]
    show (lib.applyLiquidityDelta _ _ _ >>= _) = _
    rw [hdelta]
    rfl

omit h in
theorem specifiedAt_joint (hexact : curve.Exact) (isExactInput : Bool) (k : ℕ) :
    specifiedAt (swap.track lib curve) isExactInput (k + 1)
        ((swap.track lib curve).joint (k + 1)) =
      specifiedAt (swap.track lib curve) isExactInput k
        ((swap.track lib curve).joint (k + 1)) := by
  cases isExactInput with
  | true => exact Chain.paidAt_joint (C := swap.track lib curve) hexact k
  | false => exact Chain.receivedAt_joint (C := swap.track lib curve) hexact k

omit h in
theorem returnedAt_joint (hexact : curve.Exact) (isExactInput : Bool) (k : ℕ) :
    returnedAt (swap.track lib curve) isExactInput (k + 1)
        ((swap.track lib curve).joint (k + 1)) =
      returnedAt (swap.track lib curve) isExactInput k
        ((swap.track lib curve).joint (k + 1)) := by
  cases isExactInput with
  | true => exact Chain.receivedAt_joint (C := swap.track lib curve) hexact k
  | false => exact Chain.paidAt_joint (C := swap.track lib curve) hexact k

/-- The stretch behind a tick is not empty. -/
theorem joint_le (hmin : lib.tickMath.MIN_TICK < swap.pool.tickAt swap.willUpTick k)
    (hmax : swap.pool.tickAt swap.willUpTick k < lib.tickMath.MAX_TICK) :
    (swap.track lib curve).joint (k + 1) ≤ (swap.track lib curve).joint (k + 2) := by
  have hmath := h.library.tickMath
  obtain ⟨hmem_min, hmem_max⟩ := h.pool.tick_mem swap.willUpTick (k + 1)
  show ahead swap.willUpTick (lib.tickMath.getSqrtRatioAtTick _) ≤
    ahead swap.willUpTick (lib.tickMath.getSqrtRatioAtTick _)
  cases hup : swap.willUpTick with
  | true =>
    rw [hup] at hmin hmax hmem_max
    have hnext := h.pool.tick_lt k hmin hmax
    have hle := ratio_le hmath hmin.le hnext.le hmem_max
    show (lib.tickMath.getSqrtRatioAtTick _ : ℤ) ≤ lib.tickMath.getSqrtRatioAtTick _
    omega
  | false =>
    rw [hup] at hmin hmax hmem_min
    have hnext := h.pool.lt_tick_down k hmin hmax
    have hle := ratio_le hmath hmem_min hnext.le hmax.le
    show -(lib.tickMath.getSqrtRatioAtTick _ : ℤ) ≤ -lib.tickMath.getSqrtRatioAtTick _
    omega

/-- A state at a tick goes on behind it. -/
theorem Placed.cross {moved : SwapData} (hplaced : Placed lib swap curve k moved)
    (hliquidity : (swap.track lib curve).stateAt k < 2 ^ 128)
    (hplace : moved.place swap = (swap.track lib curve).joint (k + 1))
    (hmin : lib.tickMath.MIN_TICK < swap.pool.tickAt swap.willUpTick k)
    (hmax : swap.pool.tickAt swap.willUpTick k < lib.tickMath.MAX_TICK) (currentTick : ℤ) :
    Placed lib swap curve (k + 1) { moved with
      currentTick := currentTick
      baseL := (swap.pool.baseAt swap.willUpTick (k + 1)).toNat
      nextTick := swap.pool.tickAt swap.willUpTick (k + 1) } := by
  have hinside := inside_succ hplaced.inside hmin hmax
  have hon := hplaced.reach.on
  obtain ⟨hnonneg, _⟩ := h.pool.base swap.willUpTick (k + 1) hinside
  refine ⟨⟨⟨?_, ?_, ?_⟩, hplaced.reach.le_limit, ?_, ?_⟩, hinside, rfl, Int.toNat_of_nonneg hnonneg,
    ?_, ?_⟩
  · intro j hj
    rcases Nat.lt_succ_iff_lt_or_eq.mp hj with hj | rfl
    · exact hon.forward j hj
    · exact hon.left.trans hon.right
  · exact hplace.ge
  · show moved.place swap ≤ _
    rw [hplace]
    exact joint_le h hmin hmax
  · intro j hj
    rcases Nat.lt_succ_iff_lt_or_eq.mp hj with hj | rfl
    · exact hplaced.reach.fits_before j hj
    · exact hliquidity
  · intro hlt
    change _ < moved.place swap at hlt
    rw [hplace] at hlt
    exact absurd hlt (lt_irrefl _)
  · -- the liquidity changes by what the tick adds, and the reinvested one remains
    have hbase : swap.pool.baseAt swap.willUpTick (k + 1) =
        moved.baseL + swap.pool.crossing swap.willUpTick k := by
      rw [hplaced.baseL]
      rfl
    have hafter := hplaced.liquidity
    rw [hplace] at hafter
    show _ = curve.after _ _ (moved.place swap)
    rw [hplace, h.step.exact.after_self]
    show _ = ((curve.after _ _ _ + swap.pool.crossing swap.willUpTick k : ℤ)).toNat
    rw [← hafter]
    show (swap.pool.baseAt swap.willUpTick (k + 1)).toNat + moved.reinvestL = _
    omega
  · show moved.returnedAmount = calculated _ (returnedAt _ _ _ (moved.place swap))
    rw [hplaced.returned, hplace, returnedAt_joint h.step.exact]

/-! ## One turn -/

/-- Where a turn leads with so much of the amount left: to a place further on, with what is left
then, at the limit or with less ticks left unless the amount is exhausted. -/
structure TurnTo (lib : Library) (swap : Swap) (curve : Curve ℕ) (k : ℕ) (data : SwapData)
    (amount : ℕ) (data' : SwapData) (reached : Bool) (k' left : ℕ) : Prop where
  at_place : At lib swap curve k' data'
  specified : data'.specifiedAmount = specified swap.isExactInput left
  total : specifiedAt (swap.track lib curve) swap.isExactInput k' (data'.place swap) + left =
    specifiedAt (swap.track lib curve) swap.isExactInput k (data.place swap) + amount
  left_le : left ≤ amount
  progress : 0 < left → data'.sqrtP = swap.limitSqrtP ∨
    reached = true ∧ ticksLeft lib swap data' < ticksLeft lib swap data

/-- The swap step of a turn moves along the curve. -/
theorem stepOf_movesAlong (hat : At lib swap curve k data)
    (hliquidity : data.baseL + data.reinvestL < 2 ^ 128) (hpos : 0 < amount)
    (hspecified : data.specifiedAmount = specified swap.isExactInput amount)
    (hlands : Lands curve swap.willUpTick swap.isExactInput (data.baseL + data.reinvestL)
      data.sqrtP (targetSqrtP lib swap data) amount) :
    MovesAlong curve swap.willUpTick swap.isExactInput (data.baseL + data.reinvestL)
      data.sqrtP (targetSqrtP lib swap data) amount
        (stepOf lib swap data (data.baseL + data.reinvestL)) := by
  have htoken : swap.isToken0 = (swap.isExactInput != swap.willUpTick) := by
    unfold Swap.willUpTick
    cases swap.isExactInput <;> cases swap.isToken0 <;> rfl
  have hahead : ahead swap.willUpTick data.sqrtP ≤
      ahead swap.willUpTick (targetSqrtP lib swap data) := by
    rw [ahead_target]
    exact le_min (nextSqrtP_between h hat).1 hat.placed.reach.le_limit
  unfold stepOf
  rw [hspecified, htoken]
  exact h.step.step hpos hliquidity hahead hlands

include hmove in
/-- At the next price a turn crosses the tick, or goes on to the next stretch. -/
theorem crossTick_spec (hat : At lib swap curve k data)
    (hliquidity : data.baseL + data.reinvestL < 2 ^ 128)
    (hreached : step.nextSqrtP = nextSqrtP lib swap data) (left : ℕ) :
    ∃ data' k', crossTick lib swap data (movedTo swap data step left) = .ok data' ∧
      At lib swap curve k' data' ∧ data'.specifiedAmount = specified swap.isExactInput left ∧
      data'.returnedAmount = data.returnedAmount + step.returnedAmount ∧
      specifiedAt (swap.track lib curve) swap.isExactInput k' (data'.place swap) =
        specifiedAt (swap.track lib curve) swap.isExactInput k
          (ahead swap.willUpTick step.nextSqrtP) ∧
      ticksLeft lib swap data' < ticksLeft lib swap data := by
  obtain ⟨_, _, hlimit, _⟩ := moved_between h hmove hat
  have hmoved := hat.moved h hmove hliquidity left
  obtain ⟨hmin, hmax⟩ := tempNextTick_inside h hat (hreached ▸ hlimit)
  have hshifted := inTick_shifted h hmin hmax
  by_cases htemp : tempNextTick lib swap data = data.nextTick
  · -- an initialized tick is crossed
    have hnext := hat.placed.nextTick
    rw [htemp, hnext] at hmin hmax
    have hplace : (movedTo swap data step left).place swap =
        (swap.track lib curve).joint (k + 1) := by
      show ahead swap.willUpTick step.nextSqrtP = ahead swap.willUpTick _
      rw [hreached, nextSqrtP, htemp, hnext]
    have hinside := inside_succ hat.placed.inside hmin hmax
    have hcross := hmoved.cross h (hat.placed.stateAt_lt h hliquidity) hplace hmin hmax
      (shiftedTick lib swap data)
    refine ⟨_, k + 1, ?_, ⟨hcross, ?_, ?_, ?_⟩, rfl, rfl, ?_, ticksLeft_shifted h hat rfl⟩
    · unfold crossTick
      rw [if_pos htemp, updateLiquidityAndCrossTick_eq h hat.placed hinside]
      rfl
    · show InTick lib.tickMath _ step.nextSqrtP
      rw [hreached]
      exact hshifted
    · intro hup
      show shiftedTick lib swap data < swap.pool.tickAt swap.willUpTick (k + 1)
      rw [shiftedTick, hup, if_pos rfl, htemp, hnext, hup]
      rw [hup] at hmin hmax
      exact h.pool.tick_lt k hmin hmax
    · intro hup
      show swap.pool.tickAt swap.willUpTick (k + 1) ≤ shiftedTick lib swap data
      rw [shiftedTick, hup, if_neg Bool.false_ne_true, htemp, hnext, hup]
      rw [hup] at hmin hmax
      exact Int.le_sub_one_of_lt (h.pool.lt_tick_down k hmin hmax)
    · show specifiedAt _ _ (k + 1) ((movedTo swap data step left).place swap) = _
      rw [hplace, specifiedAt_joint h.step.exact, ← hplace]
      rfl
  · -- the tick is not initialized, and the stretch goes on
    refine ⟨_, k, if_neg htemp, ⟨⟨hmoved.reach, hmoved.inside, hmoved.nextTick, hmoved.baseL,
      hmoved.liquidity, hmoved.returned⟩, ?_, ?_, ?_⟩, rfl, rfl, rfl, ticksLeft_shifted h hat rfl⟩
    · show InTick lib.tickMath (shiftedTick lib swap data) step.nextSqrtP
      rw [hreached]
      exact hshifted
    · intro hup
      have hle := (tempNextTick_up h hup (hat.onTick.up hup)).2
      show shiftedTick lib swap data < data.nextTick
      rw [shiftedTick, hup, if_pos rfl]
      omega
    · intro hup
      have hle := (tempNextTick_down h hup (hat.onTick.down hup)).1
      show data.nextTick ≤ shiftedTick lib swap data
      rw [shiftedTick, hup, if_neg Bool.false_ne_true]
      omega

/-- A turn of the loop leads further on along the chain, if what is returned is a word. -/
theorem swapTurn_spec (hat : At lib swap curve k data)
    (hliquidity : data.baseL + data.reinvestL < 2 ^ 128) (hpos : 0 < amount)
    (hamount : amount < 2 ^ 255)
    (hspecified : data.specifiedAmount = specified swap.isExactInput amount)
    (hlands : Lands curve swap.willUpTick swap.isExactInput (data.baseL + data.reinvestL)
      data.sqrtP (targetSqrtP lib swap data) amount) :
    ∃ data' reached k' left, TurnTo lib swap curve k data amount data' reached k' left ∧
      swapTurn lib swap data =
        (checkedInt256 data'.returnedAmount).map fun _ => (data', reached) := by
  have hmove := stepOf_movesAlong h hat hliquidity hpos hspecified hlands
  generalize hstep : stepOf lib swap data (data.baseL + data.reinvestL) = step at hmove
  obtain ⟨hforward, hnext, hlimit, _⟩ := moved_between h hmove hat
  have hmoved := hat.moved h hmove hliquidity
  have hexhausts := hmove.exhausts
  have hreaches := hmove.reaches
  have hsettle := settle_eq h hmove hliquidity hamount hspecified
  have htotal := hat.placed.specifiedAt_add h swap.isExactInput hforward
  have hchecked : checkedUint128 (data.baseL + data.reinvestL) =
      .ok (data.baseL + data.reinvestL) := if_pos hliquidity
  unfold SwapData.place at hsettle htotal
  -- so much is left
  generalize hleft : amount - specifiedAlong curve swap.isExactInput (data.baseL + data.reinvestL)
    (ahead swap.willUpTick data.sqrtP) (ahead swap.willUpTick step.nextSqrtP) = left at hsettle
  by_cases hreached : step.nextSqrtP = nextSqrtP lib swap data
  · obtain ⟨data', k', hcross, hat', hspecified', hreturned, hsame, hticks⟩ :=
      crossTick_spec h hmove hat hliquidity hreached left
    refine ⟨data', true, k', left, ⟨hat', hspecified', ?_, by omega, fun _ => .inr ⟨rfl, hticks⟩⟩,
      ?_⟩
    · rw [hsame, htotal]
      show _ = specifiedAt _ _ k (ahead swap.willUpTick data.sqrtP) + amount
      omega
    · unfold swapTurn
      rw [hchecked, ok_bind, hstep, hsettle, hreturned]
      cases checkedInt256 (data.returnedAmount + step.returnedAmount) with
      | error e => rfl
      | ok returnedAmount =>
        show (if step.nextSqrtP ≠ nextSqrtP lib swap data then _
          else (crossTick lib swap data (movedTo swap data step left) >>= _)) = _
        rw [if_neg (not_not_intro hreached), hcross]
        rfl
  · have hon := onTick_short h hat hforward hnext hlimit hreached
    have hmoved := hmoved left
    refine ⟨{ movedTo swap data step left with
      currentTick := lib.tickMath.getTickAtSqrtRatio step.nextSqrtP }, false, k, left,
      ⟨⟨⟨hmoved.reach, hmoved.inside, hmoved.nextTick, hmoved.baseL, hmoved.liquidity,
        hmoved.returned⟩, hon⟩, rfl, ?_, by omega, ?_⟩, ?_⟩
    · show specifiedAt _ _ k (ahead swap.willUpTick step.nextSqrtP) + left =
        specifiedAt _ _ k (ahead swap.willUpTick data.sqrtP) + amount
      rw [htotal]
      omega
    · intro hsome
      -- the target is reached, and it is not the next price
      have htarget := hreaches (by omega)
      have hlimited := @ahead_target lib swap data
      rw [← htarget] at hlimited
      rcases min_choice (ahead swap.willUpTick (nextSqrtP lib swap data))
        (ahead swap.willUpTick swap.limitSqrtP) with hmin | hmin
      · rw [hmin] at hlimited
        exact absurd (ahead_inj.mp hlimited) hreached
      · rw [hmin] at hlimited
        exact .inl (ahead_inj.mp hlimited)
    · unfold swapTurn
      rw [hchecked, ok_bind, hstep, hsettle]
      show _ = (checkedInt256 (data.returnedAmount + step.returnedAmount)).map _
      cases checkedInt256 (data.returnedAmount + step.returnedAmount) with
      | error e => rfl
      | ok returnedAmount =>
        show (if step.nextSqrtP ≠ nextSqrtP lib swap data then _ else _) = _
        rw [if_pos hreached]
        rfl

omit h in
/-- Without a word of liquidity a turn fails. -/
theorem liquidity_lt_of_swapTurn {result : SwapData × Bool}
    (hturn : swapTurn lib swap data = .ok result) : data.baseL + data.reinvestL < 2 ^ 128 := by
  by_contra hnot
  unfold swapTurn at hturn
  rw [show checkedUint128 (data.baseL + data.reinvestL) = .error .noReason from if_neg hnot]
    at hturn
  cases hturn

end Turn

end ZeroExApi.KyberElastic
