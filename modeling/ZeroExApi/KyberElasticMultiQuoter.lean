/-
# ZeroExApi.KyberElasticMultiQuoter — quotes for several amounts over a pool of Kyber Elastic

`contracts/src/KyberElasticMultiQuoter.sol`.  `multiswap` walks a pool from one initialized tick to
the next, in stretches of a largest tick distance, and goes on from where an amount is exhausted
with what the next amount has more.  Where it ends, what is left of the amounts is noted with what
has been returned so far.  Unlike its siblings, `quoteExactMultiOutput` hands every amount on to the
next pool.

The tick arithmetic, the swap step and the liquidity arithmetic are those of the libraries of Kyber
Elastic, which are not part of the repository: they are a parameter (`Library`).  Arrays, results
and turns are as for the siblings: an array is a list, and the loop has as many turns as there are
ticks, and some more for each amount.
-/

import ZeroExApi.MultiQuoter

namespace ZeroExApi.KyberElastic

open ZeroExApi.Lib ZeroExApi.Lib.Fallible
open ZeroExApi.MultiQuoter (Revert TickMath PathPool checkedInt256 sub monotone turnsFor)

/-! ## Checked arithmetic -/

/-- An unsigned word of 128 bits, if the number fits. -/
def checkedUint128 (n : ℕ) : Except Revert ℕ := if n < 2 ^ 128 then .ok n else .error .noReason

/-- A signed word of 128 bits, if the integer fits. -/
def checkedInt128 (x : ℤ) : Except Revert ℤ :=
  if -2 ^ 127 ≤ x ∧ x < 2 ^ 127 then .ok x else .error .noReason

/-! ## Pools and libraries -/

/-- What the quoter reads of a pool.  A tick of the list of initialized ticks has the one before it
and the one after it. -/
structure Pool where
  sqrtP : ℕ
  currentTick : ℤ
  nearestCurrentTick : ℤ
  baseL : ℕ
  reinvestL : ℕ
  swapFeeUnits : ℕ
  initializedTicks : ℤ → ℤ × ℤ
  liquidityNet : ℤ → ℤ

/-- What `computeSwapStep` returns. -/
structure SwapStep where
  usedAmount : ℤ
  returnedAmount : ℤ
  deltaL : ℕ
  nextSqrtP : ℕ

/-- The libraries: `TickMath`, `MathConstants`, `SwapMath` and `LiqDeltaMath`.  A swap step is given
the liquidity, the price, the target price, the fee, the specified amount, whether it is an input
and whether it is in token0. -/
structure Library where
  tickMath : TickMath
  MAX_TICK_DISTANCE : ℤ
  computeSwapStep : ℕ → ℕ → ℕ → ℕ → ℤ → Bool → Bool → SwapStep
  applyLiquidityDelta : ℕ → ℕ → Bool → Except Revert ℕ

/-! ## One turn -/

/-- What a swap is about: the pool, the token and the kind of the specified amount, and the price to
stop at. -/
structure Swap where
  pool : Pool
  isToken0 : Bool
  isExactInput : Bool
  limitSqrtP : ℕ

/-- The tick increases for swapping from token1 to token0. -/
def Swap.willUpTick (swap : Swap) : Bool := swap.isExactInput != swap.isToken0

/-- `SwapData`, without what does not change and what a turn sets before it reads it. -/
structure SwapData where
  specifiedAmount : ℤ
  returnedAmount : ℤ
  sqrtP : ℕ
  currentTick : ℤ
  nextTick : ℤ
  baseL : ℕ
  reinvestL : ℕ
  deriving DecidableEq

/-- `_getInitialSwapData`. -/
def getInitialSwapData (pool : Pool) (willUpTick : Bool) (specifiedAmount : ℤ) : SwapData where
  specifiedAmount := specifiedAmount
  returnedAmount := 0
  sqrtP := pool.sqrtP
  currentTick := pool.currentTick
  nextTick :=
    if willUpTick then (pool.initializedTicks pool.nearestCurrentTick).2
    else pool.nearestCurrentTick
  baseL := pool.baseL
  reinvestL := pool.reinvestL

section Turn

variable (lib : Library) (swap : Swap)

/-- The next tick to swap to, not further away than the largest tick distance. -/
def tempNextTick (data : SwapData) : ℤ :=
  if swap.willUpTick && decide (data.nextTick > lib.MAX_TICK_DISTANCE + data.currentTick) then
    data.currentTick + lib.MAX_TICK_DISTANCE
  else if !swap.willUpTick &&
      decide (data.nextTick < data.currentTick - lib.MAX_TICK_DISTANCE) then
    data.currentTick - lib.MAX_TICK_DISTANCE
  else
    data.nextTick

/-- The price of the next tick to swap to. -/
def nextSqrtP (data : SwapData) : ℕ := lib.tickMath.getSqrtRatioAtTick (tempNextTick lib swap data)

/-- The price to swap to, which does not exceed the price limit. -/
def targetSqrtP (data : SwapData) : ℕ :=
  if swap.willUpTick = decide (nextSqrtP lib swap data > swap.limitSqrtP) then
    swap.limitSqrtP
  else
    nextSqrtP lib swap data

/-- `_updateLiquidityAndCrossTick`: the base liquidity and the next tick behind a tick. -/
def updateLiquidityAndCrossTick (nextTick : ℤ) (currentLiquidity : ℕ) :
    Except Revert (ℕ × ℤ) := do
  let (previous, next) := swap.pool.initializedTicks nextTick
  let liquidityNet := swap.pool.liquidityNet nextTick
  let liquidityNet ← if swap.willUpTick then .ok liquidityNet else checkedInt128 (-liquidityNet)
  let newLiquidity ←
    lib.applyLiquidityDelta currentLiquidity liquidityNet.natAbs (decide (liquidityNet ≥ 0))
  .ok (newLiquidity, if swap.willUpTick then next else previous)

/-- The swap step of a turn, with so much liquidity. -/
def stepOf (data : SwapData) (liquidity : ℕ) : SwapStep :=
  lib.computeSwapStep liquidity data.sqrtP (targetSqrtP lib swap data) swap.pool.swapFeeUnits
    data.specifiedAmount swap.isExactInput swap.isToken0

/-- The amounts, the price and the liquidity after a swap step. -/
def settle (data : SwapData) (step : SwapStep) : Except Revert SwapData := do
  let specifiedAmount ← checkedInt256 (data.specifiedAmount - step.usedAmount)
  let returnedAmount ← checkedInt256 (data.returnedAmount + step.returnedAmount)
  let deltaL ← checkedUint128 step.deltaL
  let reinvestL ← checkedUint128 (data.reinvestL + deltaL)
  .ok { data with
    specifiedAmount := specifiedAmount
    returnedAmount := returnedAmount
    reinvestL := reinvestL
    sqrtP := step.nextSqrtP }

/-- The ticks and the base liquidity where the price has reached that of the next tick. -/
def crossTick (data moved : SwapData) : Except Revert SwapData :=
  let temp := tempNextTick lib swap data
  let currentTick := if swap.willUpTick then temp else temp - 1
  if temp = data.nextTick then do
    let (baseL, nextTick) ← updateLiquidityAndCrossTick lib swap data.nextTick data.baseL
    .ok { moved with currentTick := currentTick, baseL := baseL, nextTick := nextTick }
  else
    .ok { moved with currentTick := currentTick }

/-- One turn of the loop, up to where the specified amount is looked at, and whether the price of
the next tick is reached. -/
def swapTurn (data : SwapData) : Except Revert (SwapData × Bool) := do
  let liquidity ← checkedUint128 (data.baseL + data.reinvestL)
  let moved ← settle data (stepOf lib swap data liquidity)
  if moved.sqrtP ≠ nextSqrtP lib swap data then
    .ok ({ moved with currentTick := lib.tickMath.getTickAtSqrtRatio moved.sqrtP }, false)
  else do
    let crossed ← crossTick lib swap data moved
    .ok (crossed, true)

/-- What is noted for both tokens, of the specified amount and the returned one. -/
def noted (specifiedAmount returnedAmount : ℤ) : ℤ × ℤ :=
  if swap.isToken0 = swap.isExactInput then
    (specifiedAmount, returnedAmount)
  else
    (returnedAmount, specifiedAmount)

/-- What is noted for the amounts that are left when the loop has ended. -/
def notedRest (data : SwapData) (amounts : List ℤ) : Except Revert (List (ℤ × ℤ)) :=
  amounts.mapM fun amount => do
    let specifiedAmount ← checkedInt256 (amount - data.specifiedAmount)
    .ok (noted swap specifiedAmount data.returnedAmount)

/-- The loop of `multiswap`, from the current amount on. -/
def multiswapLoop : ℕ → SwapData → ℤ → List ℤ → Except Revert (List (ℤ × ℤ))
  | 0, _, _, _ => .error .outOfTurns
  | turns + 1, data, amount, amounts =>
    if data.specifiedAmount = 0 ∨ data.sqrtP = swap.limitSqrtP then
      notedRest swap data (amount :: amounts)
    else do
      let (data, reached) ← swapTurn lib swap data
      if !reached && amounts.isEmpty then
        -- the last amount is not gone on with
        notedRest swap data [amount]
      else if data.specifiedAmount = 0 then
        let result := noted swap amount data.returnedAmount
        match amounts with
        | [] => .ok [result]
        | next :: amounts => do
          let specifiedAmount ← sub next amount
          let results ←
            multiswapLoop turns { data with specifiedAmount := specifiedAmount } next amounts
          .ok (result :: results)
      else
        multiswapLoop turns data amount amounts

end Turn

/-! ## `multiswap` -/

/-- Whether a price limit lies in the direction of a swap, and within the prices. -/
def validLimit (tickMath : TickMath) (swap : Swap) : Bool :=
  if swap.willUpTick then
    decide (swap.limitSqrtP > swap.pool.sqrtP) && decide (swap.limitSqrtP < tickMath.MAX_SQRT_RATIO)
  else
    decide (swap.limitSqrtP < swap.pool.sqrtP) && decide (swap.limitSqrtP > tickMath.MIN_SQRT_RATIO)

/-- `multiswap`: what is noted for both tokens for each amount. -/
def multiswap (lib : Library) (pool : Pool) (isToken0 : Bool) (amounts : List ℤ)
    (limitSqrtP : ℕ) : Except Revert (List (ℤ × ℤ)) :=
  match amounts with
  | [] => .error .noReason
  | amount :: rest =>
    let swap : Swap := ⟨pool, isToken0, decide (amount > 0), limitSqrtP⟩
    if !validLimit lib.tickMath swap then
      .error (.reason "bad limitSqrtP")
    else
      multiswapLoop lib swap (turnsFor lib.tickMath amounts.length)
        (getInitialSwapData pool swap.willUpTick amount) amount rest

/-! ## Quotes along a path -/

/-- `factory.getPool`, of two tokens and a fee. -/
abbrev Factory := ℕ → ℕ → ℕ → Pool

/-- The loop of `quoteExactMultiInput`. -/
def quoteInputPath (lib : Library) (factory : Factory) : List PathPool → List ℕ →
    Except Revert (List ℕ)
  | [], _ => .error .noReason
  | first :: path, amountsIn => do
    let isToken0 := decide (first.tokenA < first.tokenB)
    let pool := factory first.tokenA first.tokenB first.fee
    let amounts := amountsIn.map fun a : ℕ => int256 a
    let result ←
      multiswap lib pool isToken0 amounts
        (if isToken0 then lib.tickMath.MIN_SQRT_RATIO + 1 else lib.tickMath.MAX_SQRT_RATIO - 1)
    let amountsOut ← result.mapM fun r => do
      let amountOut ← checkedInt256 (-if isToken0 then r.2 else r.1)
      .ok (uint256 amountOut)
    if path.isEmpty then
      .ok amountsOut
    else
      quoteInputPath lib factory path amountsOut

/-- `quoteExactMultiInput`, without the gas estimates. -/
def quoteExactMultiInput (lib : Library) (factory : Factory) (path : List PathPool)
    (amountsIn : List ℕ) : Except Revert (List ℕ) :=
  if !monotone amountsIn then
    .error (.reason "multiswap amounts must be monotonically increasing")
  else
    quoteInputPath lib factory path amountsIn

/-- The loop of `quoteExactMultiOutput`, whose path is in reverse order. -/
def quoteOutputPath (lib : Library) (factory : Factory) : List PathPool → List ℕ →
    Except Revert (List ℕ)
  | [], _ => .error .noReason
  | first :: path, amountsOut => do
    let isToken0 := decide (first.tokenA < first.tokenB)
    let pool := factory first.tokenB first.tokenA first.fee
    let amounts ← amountsOut.mapM fun a : ℕ => checkedInt256 (-int256 a)
    let result ←
      multiswap lib pool isToken0 amounts
        (if isToken0 then lib.tickMath.MAX_SQRT_RATIO - 1 else lib.tickMath.MIN_SQRT_RATIO + 1)
    let amountsIn := result.map fun r => uint256 (if isToken0 then r.1 else r.2)
    if path.isEmpty then
      .ok amountsIn
    else
      quoteOutputPath lib factory path amountsIn

/-- `quoteExactMultiOutput`, without the gas estimates. -/
def quoteExactMultiOutput (lib : Library) (factory : Factory) (path : List PathPool)
    (amountsOut : List ℕ) : Except Revert (List ℕ) :=
  if !monotone amountsOut then
    .error (.reason "multiswap amounts must be monotonically inreasing")
  else
    quoteOutputPath lib factory path amountsOut

/-- A path in the other direction. -/
def reversed (path : List PathPool) : List PathPool :=
  (path.map fun hop => ⟨hop.tokenB, hop.tokenA, hop.fee⟩).reverse

end ZeroExApi.KyberElastic
