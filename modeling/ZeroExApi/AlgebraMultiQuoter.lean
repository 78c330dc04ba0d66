/-
# ZeroExApi.AlgebraMultiQuoter — the quoter of Algebra pools, and exact inputs of both

`contracts/src/AlgebraMultiQuoter.sol` is the quoter whose ticks are those of the tick table, for
any libraries (`algebra`).  It chooses the target by comparing the direction with the comparison of
the prices, and hands the direction on to the swap step.

The exact-input quotes of both quoters are those of the amounts one by one exactly if, at each pool,
nothing goes wrong with the amounts that reach it (`exactQuoter_inputQuotesAgree_iff`).
-/

import ZeroExApi.AlgebraTickTable
import ZeroExApi.ExactInput
import ZeroExApi.UniswapV3MultiQuoter

namespace ZeroExApi.MultiQuoter

open ZeroExApi.Lib ZeroExApi.TickBitmap ZeroExApi.AlgebraTickTable

/-- The quoter of Algebra pools. -/
def algebra (tickMath : TickMath)
    (movePriceTowardsTarget : Bool → ℕ → ℕ → ℕ → ℤ → ℕ → SwapStep) : Quoter where
  name := "AlgebraMultiQuoter"
  tickMath := tickMath
  nextInitializedTickWithinOneWord := nextInitializedTick
  sqrtPriceTargetX96 zeroForOne sqrtPriceNextX96 sqrtPriceLimitX96 :=
    if zeroForOne = decide (sqrtPriceNextX96 < sqrtPriceLimitX96) then
      sqrtPriceLimitX96
    else
      sqrtPriceNextX96
  computeSwapStep := movePriceTowardsTarget

theorem algebra_lawful {tickMath : TickMath}
    {movePriceTowardsTarget : Bool → ℕ → ℕ → ℕ → ℤ → ℕ → SwapStep} {exactInput : Bool}
    (htick : tickMath.Lawful)
    (hstep : ∀ zeroForOne, ExactStep exactInput (movePriceTowardsTarget zeroForOne)) :
    (algebra tickMath movePriceTowardsTarget).Lawful exactInput where
  tickMath := htick
  target_left next limit := by
    show (if true = decide (next < limit) then limit else next) = max next limit
    by_cases hlt : next < limit
    · rw [if_pos (decide_eq_true hlt).symm]
      omega
    · rw [if_neg fun h => hlt (of_decide_eq_true h.symm)]
      omega
  target_right next limit := by
    show (if false = decide (next < limit) then limit else next) = min next limit
    by_cases hlt : next < limit
    · rw [if_neg fun h => of_decide_eq_false h.symm hlt]
      omega
    · rw [if_pos (decide_eq_false hlt).symm]
      omega
  next_left {pool} hspacing tick := by
    have hnext := nextInitializedTick_left hspacing
    obtain ⟨hle, hsame⟩ := next_left_eq natBitMath_lawful hspacing tick
    rw [← hnext] at hle hsame
    exact ⟨hle, fun tick' hge hle' => (hnext tick').trans (hsame tick' hge hle')⟩
  next_right {pool} hspacing tick := by
    have hnext := nextInitializedTick_right hspacing
    obtain ⟨hlt, hsame⟩ := next_right_eq natBitMath_lawful hspacing tick
    rw [← hnext] at hlt hsame
    exact ⟨hlt, fun tick' hge hlt' => (hnext tick').trans (hsame tick' hge hlt')⟩
  step := hstep

/-! ## Exact inputs -/

/-- One of the two quoters, with libraries that do what they are documented to do and steps for
exact inputs that are exact. -/
inductive ExactQuoter : Quoter → Prop
  | uniswapV3 {bitMath tickMath computeSwapStep} (hbit : bitMath.Lawful) (htick : tickMath.Lawful)
      (hstep : ExactStep true computeSwapStep) :
      ExactQuoter (uniswapV3 bitMath tickMath computeSwapStep)
  | algebra {tickMath movePriceTowardsTarget} (htick : tickMath.Lawful)
      (hstep : ∀ zeroForOne, ExactStep true (movePriceTowardsTarget zeroForOne)) :
      ExactQuoter (algebra tickMath movePriceTowardsTarget)

theorem ExactQuoter.lawful {q : Quoter} (hq : ExactQuoter q) : q.Lawful true := by
  cases hq with
  | uniswapV3 hbit htick hstep => exact uniswapV3_lawful hbit htick hstep
  | algebra htick hstep => exact algebra_lawful htick hstep

/-- The exact-input quotes of several amounts are those of the amounts one by one exactly if, at
each pool of the path, nothing goes wrong with the amounts that reach it. -/
theorem exactQuoter_inputQuotesAgree_iff {q : Quoter} (hq : ExactQuoter q) {factory : Factory}
    {path : List PathPool} (hpools : ∀ pool ∈ path, (factory pool).Sound q.tickMath)
    (hwords : ∀ pool ∈ path, GivesWords q factory pool) {amountsIn amountsOut : List ℕ}
    (hfits : ∀ a ∈ amountsIn, a < 2 ^ 255)
    (hquote : quoteExactMultiInput q factory path amountsIn = .ok amountsOut) :
    InputQuotesAgree q factory path amountsIn amountsOut ↔ Harmless q factory path amountsIn :=
  inputQuotesAgree_iff hq.lawful hpools hwords hfits hquote

/-! ### On the straight curve -/

/-- The quoter of Uniswap V3 pools on the straight curve. -/
def straightUniswapV3 : Quoter :=
  uniswapV3 natBitMath StraightCurve.tickMath StraightCurve.computeSwapStep

/-- The quoter of Algebra pools on the straight curve. -/
def straightAlgebra : Quoter :=
  algebra StraightCurve.tickMath fun _ => StraightCurve.computeSwapStep

theorem straightUniswapV3_exact : ExactQuoter straightUniswapV3 :=
  .uniswapV3 natBitMath_lawful StraightCurve.tickMath_lawful StraightCurve.alongLine_input.exactStep

theorem straightAlgebra_exact : ExactQuoter straightAlgebra :=
  .algebra StraightCurve.tickMath_lawful fun _ => StraightCurve.alongLine_input.exactStep

/-- To the right, the pool does not give more than the curve is worth. -/
theorem straight_givesWords {q : Quoter} (hq : ExactQuoter q)
    (htick : q.tickMath = StraightCurve.tickMath)
    (hstep : ∀ zeroForOne, q.computeSwapStep zeroForOne = StraightCurve.computeSwapStep)
    {first : PathPool} (hright : ¬ first.tokenA < first.tokenB) :
    GivesWords q (fun _ => StraightCurve.pool) first := by
  rintro amount given ⟨t, left, ht, hgiven⟩
  have hlawful := hq.lawful
  have hpool : StraightCurve.pool.Sound q.tickMath := htick ▸ StraightCurve.pool_sound
  let swap := inputSwap q (fun _ => StraightCurve.pool) first
  have hswap : swap.Lawful q.tickMath := hpool.swap_lawful _ true
  have hz : swap.zeroForOne = false := decide_eq_false hright
  -- what is given is what the price is worth more
  have hturn : ∀ {s s' : WalkState} {a used : ℕ}, InRange q swap s → 0 < a →
      (walk q swap).move s a = .ok (s', used) →
        s.amountCalculated + StraightCurve.received s.sqrtPriceX96 ≤
          s'.amountCalculated + StraightCurve.received s'.sqrtPriceX96 := by
    intro s s' a used hs ha hmove
    obtain ⟨hcalculated, hprice, _, _⟩ := move_eq_ok.mp hmove
    have hsum := (checkedInt256_eq_ok.mp hcalculated).2
    have hway := (onTheWay hlawful hswap hs ha).right hz
    rw [← hprice] at hway
    have hworth := StraightCurve.received_mono hway.1
    have hmade := StraightCurve.made_input_le s.sqrtPriceX96 (targetOf q swap s.tick) s.liquidity a
      swap.pool.fee ha
    dsimp only at hmade
    rw [← hstep swap.zeroForOne] at hmade
    change (stepOf q swap s (specified true a)).made true ≤
      StraightCurve.received (stepOf q swap s (specified true a)).sqrtRatioNextX96 - _ at hmade
    change s'.sqrtPriceX96 = (stepOf q swap s (specified true a)).sqrtRatioNextX96 at hprice
    rw [← hprice] at hmade
    change s.amountCalculated + -((stepOf q swap s (specified true a)).made true : ℤ) =
      s'.amountCalculated at hsum
    omega
  have hle := ht.mono (f := fun s => s.amountCalculated + StraightCurve.received s.sqrtPriceX96)
    (walk_exact hlawful hswap) (hpool.start_inRange _ true) hturn
  have hworth : StraightCurve.received t.sqrtPriceX96 ≤ 2 ^ 160 := by
    unfold StraightCurve.received
    omega
  change (0 : ℤ) + _ ≤ t.amountCalculated + (StraightCurve.received t.sqrtPriceX96 : ℤ) at hle
  omega

/-- A repeated amount alone: nothing larger follows. -/
theorem exactQuoter_inputQuotesAgree_repeated :
    InputQuotesAgree straightUniswapV3 (fun _ => StraightCurve.pool) [⟨1, 0, 0⟩] [100, 100]
        [99, 99] ∧
      InputQuotesAgree straightAlgebra (fun _ => StraightCurve.pool) [⟨1, 0, 0⟩] [100, 100]
        [99, 99] := by
  have hharmless : ∀ q, Harmless q (fun _ => StraightCurve.pool) [⟨1, 0, 0⟩] [100, 100] := by
    intro q
    refine ⟨?_, fun _ _ => trivial⟩
    intro before a b after heq hb
    have hlength := congrArg List.length heq
    have hafter := List.length_pos_of_mem hb
    simp only [List.length_append, List.length_cons, List.length_nil] at hlength
    omega
  have hright : ∀ pool ∈ [(⟨1, 0, 0⟩ : PathPool)], ¬ pool.tokenA < pool.tokenB := by
    intro pool hpool
    cases List.mem_singleton.mp hpool
    decide
  constructor
  · refine (exactQuoter_inputQuotesAgree_iff straightUniswapV3_exact
      (fun _ _ => StraightCurve.pool_sound) (fun pool hpool => ?_) (by decide)
      (by decide +kernel)).mpr (hharmless _)
    exact straight_givesWords straightUniswapV3_exact rfl (fun _ => rfl) (hright pool hpool)
  · refine (exactQuoter_inputQuotesAgree_iff straightAlgebra_exact
      (fun _ _ => StraightCurve.pool_sound) (fun pool hpool => ?_) (by decide)
      (by decide +kernel)).mpr (hharmless _)
    exact straight_givesWords straightAlgebra_exact rfl (fun _ => rfl) (hright pool hpool)

/-- After a repeated amount a larger one is quoted as if it was the repeated one, and after zero it
is quoted as if it was owed. -/
theorem exactQuoter_larger_after_repeated :
    quoteExactMultiInput straightUniswapV3 (fun _ => StraightCurve.pool) [⟨1, 0, 0⟩]
        [100, 100, 200] = .ok [99, 99, 99] ∧
      ¬ InputQuotesAgree straightUniswapV3 (fun _ => StraightCurve.pool) [⟨1, 0, 0⟩]
        [100, 100, 200] [99, 99, 99] ∧
      quoteExactMultiInput straightAlgebra (fun _ => StraightCurve.pool) [⟨1, 0, 0⟩] [0, 100] =
        .ok [0, 2 ^ 256 - 100] ∧
      ¬ InputQuotesAgree straightAlgebra (fun _ => StraightCurve.pool) [⟨1, 0, 0⟩] [0, 100]
        [0, 2 ^ 256 - 100] := by
  refine ⟨by decide +kernel, fun h => ?_, by decide +kernel, fun h => ?_⟩
  · have hlast : quoteExactMultiInput straightUniswapV3 (fun _ => StraightCurve.pool) [⟨1, 0, 0⟩]
        [200] = .ok [99] :=
      List.forall₂_zip h (show (200, 99) ∈ _ by simp)
    have hsingle : quoteExactMultiInput straightUniswapV3 (fun _ => StraightCurve.pool) [⟨1, 0, 0⟩]
        [200] = .ok [199] := by
      decide +kernel
    rw [hsingle] at hlast
    cases hlast
  · have hlast : quoteExactMultiInput straightAlgebra (fun _ => StraightCurve.pool) [⟨1, 0, 0⟩]
        [100] = .ok [2 ^ 256 - 100] :=
      List.forall₂_zip h (show (100, 2 ^ 256 - 100) ∈ _ by simp)
    have hsingle : quoteExactMultiInput straightAlgebra (fun _ => StraightCurve.pool) [⟨1, 0, 0⟩]
        [100] = .ok [99] := by
      decide +kernel
    rw [hsingle] at hlast
    cases hlast

end ZeroExApi.MultiQuoter
