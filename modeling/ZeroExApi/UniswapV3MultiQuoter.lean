/-
# ZeroExApi.UniswapV3MultiQuoter — the quoter of Uniswap V3 pools

`contracts/src/UniswapV3MultiQuoter.sol` is the quoter whose ticks are those of the tick bitmap, for
any libraries (`uniswapV3`).  Where these do what they are documented to do, and its swap steps are
exact, what is said of lawful quoters holds for it.

Its exact-output quotes are those of the amounts one by one only as long as no larger amount follows
a repeated one, or the path is short of both (`uniswapV3_quotesAgree_iff`).
-/

import ZeroExApi.ExactOutput
import ZeroExApi.StraightCurve

namespace ZeroExApi.MultiQuoter

open ZeroExApi.Lib ZeroExApi.TickBitmap

/-- The quoter of Uniswap V3 pools. -/
def uniswapV3 (bitMath : BitMath) (tickMath : TickMath)
    (computeSwapStep : ℕ → ℕ → ℕ → ℤ → ℕ → SwapStep) : Quoter where
  name := "UniswapV3MultiQuoter"
  tickMath := tickMath
  nextInitializedTickWithinOneWord := nextInitializedTickWithinOneWord bitMath
  sqrtPriceTargetX96 zeroForOne sqrtPriceNextX96 sqrtPriceLimitX96 :=
    if (if zeroForOne then sqrtPriceNextX96 < sqrtPriceLimitX96
        else sqrtPriceNextX96 > sqrtPriceLimitX96) then
      sqrtPriceLimitX96
    else
      sqrtPriceNextX96
  computeSwapStep _ := computeSwapStep

theorem uniswapV3_lawful {bitMath : BitMath} {tickMath : TickMath}
    {computeSwapStep : ℕ → ℕ → ℕ → ℤ → ℕ → SwapStep} {exactInput : Bool} (hbit : bitMath.Lawful)
    (htick : tickMath.Lawful) (hstep : ExactStep exactInput computeSwapStep) :
    (uniswapV3 bitMath tickMath computeSwapStep).Lawful exactInput where
  tickMath := htick
  target_left next limit := by
    show (if next < limit then limit else next) = max next limit
    split <;> omega
  target_right next limit := by
    show (if next > limit then limit else next) = min next limit
    split <;> omega
  next_left hspacing tick := next_left_eq hbit hspacing tick
  next_right hspacing tick := next_right_eq hbit hspacing tick
  step _ := hstep

/-- What a swap step gives out is paid for: the amount in is rounded up. -/
def StepPaid (computeSwapStep : ℕ → ℕ → ℕ → ℤ → ℕ → SwapStep) : Prop :=
  ∀ price target liquidity amount fee, 0 < amount →
    let step := computeSwapStep price target liquidity (specified false amount) fee
    0 < step.used false → 0 < step.made false

/-! ## Exact outputs -/

/-- The exact-output quotes of several amounts are those of the amounts one by one exactly if, where
an amount is repeated and a larger one follows, the path is short of both. -/
theorem uniswapV3_quotesAgree_iff {bitMath : BitMath} {tickMath : TickMath}
    {computeSwapStep : ℕ → ℕ → ℕ → ℤ → ℕ → SwapStep} (hbit : bitMath.Lawful)
    (htick : tickMath.Lawful) (hstep : ExactStep false computeSwapStep)
    (hpaid : StepPaid computeSwapStep) {factory : Factory} {path : List PathPool}
    (hpools : ∀ pool ∈ path, (factory pool).Sound tickMath) {amountsOut amountsIn : List ℕ}
    (hpos : ∀ a ∈ amountsOut, 0 < a) (hfits : ∀ a ∈ amountsOut, a < 2 ^ 255)
    (hquote : quoteExactMultiOutput (uniswapV3 bitMath tickMath computeSwapStep) factory path
      amountsOut = .ok amountsIn) :
    QuotesAgree (uniswapV3 bitMath tickMath computeSwapStep) factory path amountsOut amountsIn ↔
      ShortAfterRepeat (uniswapV3 bitMath tickMath computeSwapStep) factory path amountsOut :=
  quotesAgree_iff (uniswapV3_lawful hbit htick hstep) (fun _ => hpaid) hpools hpos hfits hquote

/-- A repeated amount alone: nothing larger follows. -/
theorem uniswapV3_quotesAgree_repeated :
    QuotesAgree (uniswapV3 natBitMath StraightCurve.tickMath
      StraightCurve.computeSwapStep) (fun _ => StraightCurve.pool) [⟨1, 0, 0⟩] [100, 100]
        [101, 101] := by
  refine (uniswapV3_quotesAgree_iff natBitMath_lawful StraightCurve.tickMath_lawful
    StraightCurve.alongLine_output.exactStep StraightCurve.stepPaid
      (fun _ _ => StraightCurve.pool_sound)
    (by decide) (by decide) (by decide +kernel)).mpr ?_
  intro before a b after heq hb
  have hlength := congrArg List.length heq
  have hafter := List.length_pos_of_mem hb
  simp only [List.length_append, List.length_cons, List.length_nil] at hlength
  omega

/-- After a repeated amount a larger one is quoted as if it was the repeated one. -/
theorem uniswapV3_larger_after_repeated :
    quoteExactMultiOutput (uniswapV3 natBitMath StraightCurve.tickMath
        StraightCurve.computeSwapStep) (fun _ => StraightCurve.pool) [⟨1, 0, 0⟩] [100, 100, 200] =
          .ok [101, 101, 101] ∧
      ¬ QuotesAgree (uniswapV3 natBitMath StraightCurve.tickMath
        StraightCurve.computeSwapStep) (fun _ => StraightCurve.pool) [⟨1, 0, 0⟩] [100, 100, 200]
          [101, 101, 101] := by
  refine ⟨by decide +kernel, fun h => ?_⟩
  have hlast : quoteExactMultiOutput (uniswapV3 natBitMath StraightCurve.tickMath
      StraightCurve.computeSwapStep) (fun _ => StraightCurve.pool) [⟨1, 0, 0⟩] [200] =
        .ok [101] :=
    (List.forall₂_zip h.singles (show (200, 101) ∈ _ by simp)).1
  have hsingle : quoteExactMultiOutput (uniswapV3 natBitMath StraightCurve.tickMath
      StraightCurve.computeSwapStep) (fun _ => StraightCurve.pool) [⟨1, 0, 0⟩] [200] =
        .ok [201] := by
    decide +kernel
  rw [hsingle] at hlast
  cases hlast

end ZeroExApi.MultiQuoter
