/-
# ZeroExApi.MultiQuoter — quotes for several amounts in one walk over a pool's ticks

`contracts/src/UniswapV3MultiQuoter.sol` and its twin `AlgebraMultiQuoter.sol`.  `multiswap` walks a
pool tick by tick; when an amount is exhausted it notes the result and goes on with what the next
amount has more.  `quoteExactMultiInput` hands the outputs of a pool on as the inputs of the next,
`quoteExactMultiOutput` goes backwards and drops the amounts a pool cannot deliver.

The price and tick arithmetic is that of libraries which are not part of the repository: it is a
parameter (`TickMath`, `Quoter`).  An array is a list, and the results are listed as they are noted:
the index of the current amount is the length of what is listed.  Gas is not modelled, except that
the loop has as many turns as there are ticks, and some more for each amount.
-/

import ZeroExApi.Lib.EvmInt
import ZeroExApi.Lib.Fallible

namespace ZeroExApi.MultiQuoter

open ZeroExApi.Lib ZeroExApi.Lib.Fallible

/-! ## Reverts and checked arithmetic -/

/-- How a call reverts: with a reason, with none, or because it runs out of turns. -/
inductive Revert where
  | reason (text : String)
  | noReason
  | outOfTurns
  deriving DecidableEq

/-- A signed word, if the integer fits. -/
def checkedInt256 (x : ℤ) : Except Revert ℤ := if FitsInt256 x then .ok x else .error .noReason

theorem checkedInt256_eq_ok {x y : ℤ} : checkedInt256 x = .ok y ↔ FitsInt256 x ∧ x = y := by
  unfold checkedInt256
  constructor
  · intro h
    split at h
    · cases h
      exact ⟨‹_›, rfl⟩
    · cases h
  · rintro ⟨hfits, rfl⟩
    rw [if_pos hfits]

/-- `toInt256`. -/
def toInt256 (x : ℕ) : Except Revert ℤ := checkedInt256 x

/-- `LowGasSafeMath.add`. -/
def add (x y : ℤ) : Except Revert ℤ := checkedInt256 (x + y)

/-- `LowGasSafeMath.sub`. -/
def sub (x y : ℤ) : Except Revert ℤ := checkedInt256 (x - y)

/-- `LiquidityMath.addDelta`. -/
def addDelta (liquidity : ℕ) (delta : ℤ) : Except Revert ℕ :=
  if 0 ≤ liquidity + delta ∧ liquidity + delta < 2 ^ 128 then
    .ok (liquidity + delta).toNat
  else
    .error .noReason

/-! ## Pools and libraries -/

/-- What the quoters read of a pool. -/
structure Pool where
  sqrtPriceX96 : ℕ
  tick : ℤ
  tickSpacing : ℤ
  fee : ℕ
  liquidity : ℕ
  tickBitmap : ℤ → BitVec 256
  liquidityNet : ℤ → ℤ

/-- `TickMath`: the prices of the ticks. -/
structure TickMath where
  MIN_TICK : ℤ
  MAX_TICK : ℤ
  MIN_SQRT_RATIO : ℕ
  MAX_SQRT_RATIO : ℕ
  getSqrtRatioAtTick : ℤ → ℕ
  getTickAtSqrtRatio : ℕ → ℤ

/-- What `computeSwapStep` returns. -/
structure SwapStep where
  sqrtRatioNextX96 : ℕ
  amountIn : ℕ
  amountOut : ℕ
  feeAmount : ℕ

/-- A quoter: what its two versions have in different ways.  A swap step is given the direction, the
price, the target price, the liquidity, the remaining amount and the fee. -/
structure Quoter where
  name : String
  tickMath : TickMath
  nextInitializedTickWithinOneWord : Pool → ℤ → Bool → ℤ × Bool
  sqrtPriceTargetX96 : Bool → ℕ → ℕ → ℕ
  computeSwapStep : Bool → ℕ → ℕ → ℕ → ℤ → ℕ → SwapStep

/-! ## One turn -/

/-- What a swap is about: the pool, the direction, what is specified, and the price to stop at. -/
structure Swap where
  pool : Pool
  zeroForOne : Bool
  exactInput : Bool
  sqrtPriceLimitX96 : ℕ

/-- `SwapState`, without the remaining amount and the index. -/
structure WalkState where
  amountCalculated : ℤ
  sqrtPriceX96 : ℕ
  tick : ℤ
  liquidity : ℕ
  deriving DecidableEq

section Turn

variable (q : Quoter) (swap : Swap)

/-- A tick that is not beyond the first and the last one. -/
def boundTick (tickMath : TickMath) (tick : ℤ) : ℤ :=
  if tick < tickMath.MIN_TICK then
    tickMath.MIN_TICK
  else if tick > tickMath.MAX_TICK then
    tickMath.MAX_TICK
  else
    tick

/-- The next tick to swap to, and whether it is initialized. -/
def nextTick (tick : ℤ) : ℤ × Bool :=
  let next := q.nextInitializedTickWithinOneWord swap.pool tick swap.zeroForOne
  (boundTick q.tickMath next.1, next.2)

/-- The price of the next tick. -/
def sqrtPriceNextX96 (tick : ℤ) : ℕ := q.tickMath.getSqrtRatioAtTick (nextTick q swap tick).1

/-- The swap step of a turn, towards the next tick or the price limit. -/
def stepOf (state : WalkState) (amountSpecifiedRemaining : ℤ) : SwapStep :=
  q.computeSwapStep swap.zeroForOne state.sqrtPriceX96
    (q.sqrtPriceTargetX96 swap.zeroForOne (sqrtPriceNextX96 q swap state.tick)
      swap.sqrtPriceLimitX96)
    state.liquidity amountSpecifiedRemaining swap.pool.fee

/-- The remaining amount and the calculated one after a step. -/
def settle (exactInput : Bool) (amountSpecifiedRemaining amountCalculated : ℤ) (step : SwapStep) :
    Except Revert (ℤ × ℤ) :=
  let amountPaid := uint256 (step.amountIn + step.feeAmount)
  if exactInput then do
    let paid ← toInt256 amountPaid
    let received ← toInt256 step.amountOut
    let amountCalculated ← sub amountCalculated received
    .ok (int256 (amountSpecifiedRemaining - paid), amountCalculated)
  else do
    let received ← toInt256 step.amountOut
    let paid ← toInt256 amountPaid
    let amountCalculated ← add amountCalculated paid
    .ok (int256 (amountSpecifiedRemaining + received), amountCalculated)

/-- The tick and the liquidity at the price a step has led to. -/
def shiftTick (state : WalkState) (sqrtPriceX96 : ℕ) : Except Revert (ℤ × ℕ) :=
  let (tickNext, initialized) := nextTick q swap state.tick
  if sqrtPriceX96 = sqrtPriceNextX96 q swap state.tick then do
    let liquidityNet := swap.pool.liquidityNet tickNext
    let liquidity ←
      if initialized then
        addDelta state.liquidity (if swap.zeroForOne then -liquidityNet else liquidityNet)
      else
        .ok state.liquidity
    .ok (if swap.zeroForOne then tickNext - 1 else tickNext, liquidity)
  else if sqrtPriceX96 ≠ state.sqrtPriceX96 then
    .ok (q.tickMath.getTickAtSqrtRatio sqrtPriceX96, state.liquidity)
  else
    .ok (state.tick, state.liquidity)

/-- One turn of the loop, up to where the remaining amount is looked at. -/
def swapTurn (amountSpecifiedRemaining : ℤ) (state : WalkState) :
    Except Revert (ℤ × WalkState) := do
  let step := stepOf q swap state amountSpecifiedRemaining
  let (amountSpecifiedRemaining, amountCalculated) ←
    settle swap.exactInput amountSpecifiedRemaining state.amountCalculated step
  let (tick, liquidity) ← shiftTick q swap state step.sqrtRatioNextX96
  .ok (amountSpecifiedRemaining, ⟨amountCalculated, step.sqrtRatioNextX96, tick, liquidity⟩)

/-- The deltas of both tokens, of the specified amount and the calculated one. -/
def deltas (amountSpecified amountCalculated : ℤ) : ℤ × ℤ :=
  if swap.zeroForOne = swap.exactInput then
    (amountSpecified, amountCalculated)
  else
    (amountCalculated, amountSpecified)

/-- The loop of `multiswap`, from the current amount on. -/
def multiswapLoop : ℕ → ℤ → WalkState → ℤ → List ℤ → Except Revert (List (ℤ × ℤ))
  | 0, _, _, _, _ => .error .outOfTurns
  | turns + 1, amountSpecifiedRemaining, state, amount, amounts =>
    if amountSpecifiedRemaining = 0 ∨ state.sqrtPriceX96 = swap.sqrtPriceLimitX96 then
      .ok ((amount :: amounts).map fun a =>
        deltas swap (int256 (a - amountSpecifiedRemaining)) state.amountCalculated)
    else do
      let (amountSpecifiedRemaining, state) ← swapTurn q swap amountSpecifiedRemaining state
      if amountSpecifiedRemaining = 0 then
        let result := deltas swap amount state.amountCalculated
        match amounts with
        | [] => .ok [result]
        | next :: amounts => do
          let amountSpecifiedRemaining ← sub next amount
          let results ← multiswapLoop turns amountSpecifiedRemaining state next amounts
          .ok (result :: results)
      else
        multiswapLoop turns amountSpecifiedRemaining state amount amounts

end Turn

/-! ## `multiswap` -/

/-- Turns enough to cross every tick and to exhaust so many amounts. -/
def turnsFor (tickMath : TickMath) (amounts : ℕ) : ℕ :=
  (tickMath.MAX_TICK - tickMath.MIN_TICK).toNat + amounts + 2

/-- Where a walk over a pool starts. -/
def Pool.start (pool : Pool) : WalkState := ⟨0, pool.sqrtPriceX96, pool.tick, pool.liquidity⟩

/-- `multiswap`: the deltas of both tokens for each amount. -/
def multiswap (q : Quoter) (pool : Pool) (zeroForOne : Bool) (amounts : List ℤ)
    (sqrtPriceLimitX96 : ℕ) : Except Revert (List (ℤ × ℤ)) :=
  match amounts with
  | [] => .error .noReason
  | amount :: rest =>
    let swap : Swap := ⟨pool, zeroForOne, decide (amount > 0), sqrtPriceLimitX96⟩
    multiswapLoop q swap (turnsFor q.tickMath amounts.length) amount pool.start amount rest

/-- The price limit of a direction: short of the last price. -/
def priceLimit (tickMath : TickMath) (zeroForOne : Bool) : ℕ :=
  if zeroForOne then tickMath.MIN_SQRT_RATIO + 1 else tickMath.MAX_SQRT_RATIO - 1

/-! ## Quotes along a path -/

/-- A pool on a path: the two tokens in the order of the path, and the fee. -/
structure PathPool where
  tokenA : ℕ
  tokenB : ℕ
  fee : ℕ

/-- `factory.getPool`. -/
abbrev Factory := PathPool → Pool

/-- Each amount is followed by none that is smaller. -/
def monotone : List ℕ → Bool
  | x :: y :: rest => decide (x ≤ y) && monotone (y :: rest)
  | _ => true

/-- The loop of `quoteExactMultiInput`. -/
def quoteInputPath (q : Quoter) (factory : Factory) : List PathPool → List ℕ →
    Except Revert (List ℕ)
  | [], _ => .error .noReason
  | first :: path, amountsIn => do
    let zeroForOne := decide (first.tokenA < first.tokenB)
    let amounts := amountsIn.map fun a : ℕ => int256 a
    let result ←
      multiswap q (factory first) zeroForOne amounts (priceLimit q.tickMath zeroForOne)
    let amountsOut := result.map fun r => uint256 (-if zeroForOne then r.2 else r.1)
    if path.isEmpty then
      .ok amountsOut
    else
      quoteInputPath q factory path amountsOut

/-- `quoteExactMultiInput`: the amounts out it reverts with. -/
def quoteExactMultiInput (q : Quoter) (factory : Factory) (path : List PathPool)
    (amountsIn : List ℕ) : Except Revert (List ℕ) :=
  if amountsIn.isEmpty then
    .error .noReason
  else if !monotone amountsIn then
    .error (.reason s!"{q.name}/amountsIn must be monotonically increasing")
  else
    quoteInputPath q factory path amountsIn

/-- The amounts for the next pool: those of the results, up to the first one that is not received in
full. -/
def nextAmounts (zeroForOne : Bool) : List (ℤ × ℤ) → List ℕ → List ℕ
  | r :: result, amountOut :: amountsOut =>
    let amountReceived := uint256 (-if zeroForOne then r.2 else r.1)
    if amountReceived ≠ amountOut then
      []
    else
      uint256 (if zeroForOne then r.1 else r.2) :: nextAmounts zeroForOne result amountsOut
  | _, _ => []

/-- The loop of `quoteExactMultiOutput`, whose path is in reverse order. -/
def quoteOutputPath (q : Quoter) (factory : Factory) : List PathPool → List ℕ →
    Except Revert (List ℕ)
  | [], _ => .error .noReason
  | first :: path, amountsOut => do
    let zeroForOne := decide (first.tokenB < first.tokenA)
    let amounts := amountsOut.map fun a : ℕ => int256 (-int256 a)
    let result ←
      multiswap q (factory first) zeroForOne amounts (priceLimit q.tickMath zeroForOne)
    let amountsOut := nextAmounts zeroForOne result amountsOut
    if amountsOut.isEmpty || path.isEmpty then
      .ok amountsOut
    else
      quoteOutputPath q factory path amountsOut

/-- `quoteExactMultiOutput`: the amounts in it reverts with, zero for those it cannot deliver. -/
def quoteExactMultiOutput (q : Quoter) (factory : Factory) (path : List PathPool)
    (amountsOut : List ℕ) : Except Revert (List ℕ) :=
  if amountsOut.isEmpty then
    .error .noReason
  else if !monotone amountsOut then
    .error (.reason s!"{q.name}/amountsOut must be monotonically increasing")
  else do
    let amountsIn ← quoteOutputPath q factory path amountsOut
    .ok (amountsIn ++ List.replicate (amountsOut.length - amountsIn.length) 0)

/-! ## As many results as amounts -/

theorem length_multiswapLoop {q : Quoter} {swap : Swap} {turns : ℕ} {remaining amount : ℤ}
    {state : WalkState} {amounts : List ℤ} {results : List (ℤ × ℤ)}
    (h : multiswapLoop q swap turns remaining state amount amounts = .ok results) :
    results.length = amounts.length + 1 := by
  induction turns generalizing remaining state amount amounts results with
  | zero => cases h
  | succ turns ih =>
    unfold multiswapLoop at h
    split at h
    · -- the loop ends with a result for every amount that is left
      cases h
      simp
    · obtain ⟨⟨remaining', state'⟩, -, h⟩ := bind_eq_ok.mp h
      dsimp only at h
      split at h
      · -- an amount is exhausted, and noted
        cases amounts with
        | nil =>
          cases h
          rfl
        | cons next amounts =>
          obtain ⟨remaining'', -, h⟩ := bind_eq_ok.mp h
          obtain ⟨rest, hrest, h⟩ := bind_eq_ok.mp h
          cases h
          rw [List.length_cons, List.length_cons, ih hrest]
      · exact ih h

theorem length_multiswap {q : Quoter} {pool : Pool} {zeroForOne : Bool} {amounts : List ℤ}
    {limit : ℕ} {results : List (ℤ × ℤ)}
    (h : multiswap q pool zeroForOne amounts limit = .ok results) :
    results.length = amounts.length := by
  cases amounts with
  | nil => cases h
  | cons amount rest => exact length_multiswapLoop h

theorem length_quoteInputPath {q : Quoter} {factory : Factory} {path : List PathPool}
    {amountsIn amountsOut : List ℕ} (h : quoteInputPath q factory path amountsIn = .ok amountsOut) :
    amountsOut.length = amountsIn.length := by
  induction path generalizing amountsIn with
  | nil => cases h
  | cons first path ih =>
    obtain ⟨result, hresult, h⟩ := bind_eq_ok.mp h
    have hlength := length_multiswap hresult
    rw [List.length_map] at hlength
    cases path with
    | nil =>
      cases h
      rw [List.length_map, hlength]
    | cons second path =>
      rw [ih h, List.length_map, hlength]

/-- A result of `quoteExactMultiInput` has an amount for each amount in. -/
theorem length_quoteExactMultiInput {q : Quoter} {factory : Factory} {path : List PathPool}
    {amountsIn amountsOut : List ℕ}
    (h : quoteExactMultiInput q factory path amountsIn = .ok amountsOut) :
    amountsOut.length = amountsIn.length := by
  unfold quoteExactMultiInput at h
  split at h
  · cases h
  · split at h
    · cases h
    · exact length_quoteInputPath h

theorem length_nextAmounts_le (zeroForOne : Bool) (result : List (ℤ × ℤ)) (amountsOut : List ℕ) :
    (nextAmounts zeroForOne result amountsOut).length ≤ amountsOut.length := by
  induction result generalizing amountsOut with
  | nil => simp [nextAmounts]
  | cons r result ih =>
    cases amountsOut with
    | nil => simp [nextAmounts]
    | cons amountOut amountsOut =>
      by_cases hreceived : uint256 (-if zeroForOne then r.2 else r.1) = amountOut
      · simpa [nextAmounts, hreceived] using ih amountsOut
      · simp [nextAmounts, hreceived]

theorem length_quoteOutputPath_le {q : Quoter} {factory : Factory} {path : List PathPool}
    {amountsOut amountsIn : List ℕ}
    (h : quoteOutputPath q factory path amountsOut = .ok amountsIn) :
    amountsIn.length ≤ amountsOut.length := by
  induction path generalizing amountsOut with
  | nil => cases h
  | cons first path ih =>
    obtain ⟨result, -, h⟩ := bind_eq_ok.mp h
    have hle := length_nextAmounts_le (decide (first.tokenB < first.tokenA)) result amountsOut
    by_cases hdone : ((nextAmounts (decide (first.tokenB < first.tokenA)) result
        amountsOut).isEmpty || path.isEmpty) = true
    · rw [if_pos hdone] at h
      cases h
      exact hle
    · rw [if_neg hdone] at h
      exact (ih h).trans hle

/-- A result of `quoteExactMultiOutput` has an amount for each amount out, with zeros at its end. -/
theorem length_quoteExactMultiOutput {q : Quoter} {factory : Factory} {path : List PathPool}
    {amountsOut amountsIn : List ℕ}
    (h : quoteExactMultiOutput q factory path amountsOut = .ok amountsIn) :
    amountsIn.length = amountsOut.length := by
  unfold quoteExactMultiOutput at h
  split at h
  · cases h
  · split at h
    · cases h
    · obtain ⟨delivered, hdelivered, h⟩ := bind_eq_ok.mp h
      have hle := length_quoteOutputPath_le hdelivered
      cases h
      -- what was dropped is made up for by zeros
      rw [List.length_append, List.length_replicate]
      omega

end ZeroExApi.MultiQuoter
