/-
# ZeroExApi.SampleAmounts — the amounts at which every source is sampled

`getSampleAmounts` of `market_operation_utils/sampler.ts` divides an amount in steps that grow by a
constant factor, and samples after each step, rounded up.  In exact arithmetic the samples are the
shares of the first weights of a geometric list (`getSampleAmounts_eq`); that the last one is set to
the amount and not computed makes no difference.

So the contracts that quote many amounts at once find them in order: their check never reverts on
amounts that were made here (`getSampleAmounts_spec`).
-/

import ZeroExApi.Lib.Apportion
import ZeroExApi.Lib.BigNumber
import ZeroExApi.KyberElasticMultiQuoter
import ZeroExApi.MultiSwap

namespace ZeroExApi.SampleAmounts

open ZeroExApi.Lib ZeroExApi.Lib.BigNumber ZeroExApi.Lib.Apportion ZeroExApi.MultiQuoter

/-- `getSampleAmounts`; where it is given no base, the base is one. -/
def getSampleAmounts (maxFillAmount : BigNumber) (numSamples : ℕ) (expBase : BigNumber) :
    List BigNumber :=
  let distribution := (List.range numSamples).map fun i => expBase.pow i
  let distributionSum := sum distribution
  let stepSizes := distribution.map fun d => d.div distributionSum
  (List.range stepSizes.length).map fun i =>
    if i = numSamples - 1 then
      maxFillAmount
    else
      (maxFillAmount.times (sum (0 :: stepSizes.take (i + 1)))).integerValue .up

/-- The weights of the steps. -/
def weights (numSamples : ℕ) (base : ℚ) : List ℚ := (List.range numSamples).map fun i => base ^ i

theorem weights_pos {base : ℚ} (hbase : 0 < base) (numSamples : ℕ) :
    ∀ w ∈ weights numSamples base, 0 < w := by
  intro w hw
  obtain ⟨i, _, rfl⟩ := List.mem_map.mp hw
  exact pow_pos hbase i

theorem length_weights (numSamples : ℕ) (base : ℚ) :
    (weights numSamples base).length = numSamples := by
  simp [weights]

/-- The steps are the weights over their sum. -/
theorem stepSizes_eq {numSamples : ℕ} {base : ℚ} (hpos : 0 < (weights numSamples base).sum) :
    (((List.range numSamples).map fun i => (fin base).pow i).map fun d =>
        d.div (sum ((List.range numSamples).map fun i => (fin base).pow i))) =
      (weights numSamples base).map fun w => fin (w / (weights numSamples base).sum) := by
  have hdistribution : ((List.range numSamples).map fun i => (fin base).pow i) =
      (weights numSamples base).map fin := by
    simp [weights]
  have hne : weights numSamples base ≠ [] := by
    intro hnil
    rw [hnil, List.sum_nil] at hpos
    exact lt_irrefl 0 hpos
  rw [hdistribution, sum_fin hne, List.map_map]
  apply List.map_congr_left
  intro w _
  exact div_fin w hpos.ne'

/-- The first steps add up to their share of the weights. -/
theorem sum_steps (total : ℚ) (ws : List ℚ) (k : ℕ) :
    sum (0 :: (ws.map fun w => fin (w / total)).take k) = fin ((ws.take k).sum / total) := by
  have hsum : ∀ ws : List ℚ, (ws.map (· / total)).sum = ws.sum / total := by
    intro ws
    induction ws with
    | nil => simp
    | cons w ws ih => simp only [List.map_cons, List.sum_cons, ih, add_div]
  have hsplit :
      ((ws.take k).map fun w => fin (w / total)) = ((ws.take k).map (· / total)).map fin :=
    (List.map_map ..).symm
  rw [← List.map_take, hsplit, zero_eq, sum_fin_cons, hsum, zero_add]

/-- The samples are the shares of the first weights. -/
theorem getSampleAmounts_eq (max : ℕ) {numSamples : ℕ} (hn : 1 ≤ numSamples) {base : ℚ}
    (hbase : 0 < base) :
    getSampleAmounts (fin max) numSamples (fin base) =
      (prefixShares max (weights numSamples base)).map fun share : ℤ => fin share := by
  have hlen := length_weights numSamples base
  have hweights := weights_pos hbase numSamples
  have hpos : 0 < (weights numSamples base).sum := total_pos hweights (hlen.symm ▸ hn)
  unfold getSampleAmounts
  simp only [stepSizes_eq hpos, List.length_map, hlen]
  rw [prefixShares, hlen, List.map_map]
  apply List.map_congr_left
  intro i hi
  have hi : i < (weights numSamples base).length := hlen.symm ▸ List.mem_range.mp hi
  by_cases hlast : i = numSamples - 1
  · -- the share of all weights is the amount
    have hall : (weights numSamples base).take (i + 1) = weights numSamples base :=
      List.take_of_length_le (by omega)
    rw [if_pos hlast, Function.comp_apply, hall, ceilShare_total max hpos, Int.cast_natCast]
  · have hnonneg : (0 : ℚ) ≤ max *
        (((weights numSamples base).take (i + 1)).sum / (weights numSamples base).sum) :=
      mul_nonneg (Nat.cast_nonneg max) (div_nonneg (sum_take_pos hweights hi).le hpos.le)
    rw [if_neg hlast, sum_steps, times_fin, integerValue_fin, roundRat_up_of_nonneg hnonneg,
      Function.comp_apply, ceilShare, mul_div_assoc]

/-! ## What a list of sample amounts is -/

/-- Natural amounts up to a maximum, in order, that end with it; and all of them are amounts if the
maximum is. -/
structure Samples (max n : ℕ) (amounts : List ℕ) : Prop where
  length_eq : amounts.length = n
  sorted : amounts.Pairwise (· ≤ ·)
  le_max : ∀ a ∈ amounts, a ≤ max
  last : amounts.getLast? = some max
  pos : 0 < max → ∀ a ∈ amounts, 0 < a

/-- No multi-quoter reverts for the order of some amounts, in or out: each goes on to the loop over
the path. -/
structure PassesOrderCheck (amounts : List ℕ) : Prop where
  input : ∀ (q : Quoter) (factory : Factory) (path : List PathPool),
    quoteExactMultiInput q factory path amounts = quoteInputPath q factory path amounts
  output : ∀ (q : Quoter) (factory : Factory) (path : List PathPool),
    quoteExactMultiOutput q factory path amounts = do
      let amountsIn ← quoteOutputPath q factory path amounts
      .ok (amountsIn ++ List.replicate (amounts.length - amountsIn.length) 0)
  elasticInput : ∀ (lib : KyberElastic.Library) (factory : KyberElastic.Factory)
    (path : List PathPool), KyberElastic.quoteExactMultiInput lib factory path amounts =
      KyberElastic.quoteInputPath lib factory path amounts
  elasticOutput : ∀ (lib : KyberElastic.Library) (factory : KyberElastic.Factory)
    (path : List PathPool), KyberElastic.quoteExactMultiOutput lib factory path amounts =
      KyberElastic.quoteOutputPath lib factory path amounts

theorem Samples.passesOrderCheck {max n : ℕ} {amounts : List ℕ} (h : Samples max n amounts) :
    PassesOrderCheck amounts := by
  have hmonotone : monotone amounts = true := monotone_iff.mpr h.sorted
  have hnonempty : amounts.isEmpty = false :=
    List.isEmpty_eq_false_iff.mpr (List.ne_nil_of_mem (List.mem_of_getLast? h.last))
  constructor
  · intro q factory path
    unfold quoteExactMultiInput
    rw [hnonempty, hmonotone]
    rfl
  · intro q factory path
    unfold quoteExactMultiOutput
    rw [hnonempty, hmonotone]
    rfl
  · intro lib factory path
    unfold KyberElastic.quoteExactMultiInput
    rw [hmonotone]
    rfl
  · intro lib factory path
    unfold KyberElastic.quoteExactMultiOutput
    rw [hmonotone]
    rfl

theorem samples_prefixShares (max : ℕ) {ws : List ℚ} (hne : ws ≠ []) (hpos : ∀ w ∈ ws, 0 < w) :
    Samples max ws.length ((prefixShares max ws).map Int.toNat) where
  length_eq := by rw [List.length_map, length_prefixShares]
  sorted := by
    rw [List.pairwise_map]
    exact (sorted_prefixShares max hpos).imp fun hle => Int.toNat_le_toNat hle
  le_max := by
    intro a ha
    obtain ⟨share, hshare, rfl⟩ := List.mem_map.mp ha
    have hle := prefixShares_le max hpos share hshare
    omega
  last := by rw [List.getLast?_map, getLast?_prefixShares max hne hpos]; rfl
  pos := by
    intro hmax a ha
    obtain ⟨share, hshare, rfl⟩ := List.mem_map.mp ha
    have hshare := prefixShares_pos hmax hpos share hshare
    omega

/-- The samples of a natural amount are natural numbers in order, up to and with that amount, none
of them zero unless it is; and no multi-quoter reverts for their order. -/
theorem getSampleAmounts_spec (max : ℕ) {n : ℕ} (hn : 1 ≤ n) {base : ℚ} (hbase : 0 < base) :
    ∃ amounts : List ℕ,
      getSampleAmounts (fin max) n (fin base) = (amounts.map fun a : ℕ => fin a) ∧
        Samples max n amounts ∧ PassesOrderCheck amounts := by
  have hpos := weights_pos hbase n
  have hlen := length_weights n base
  have hne : weights n base ≠ [] := by
    intro hnil
    rw [hnil, List.length_nil] at hlen
    omega
  have hsamples := samples_prefixShares max hne hpos
  rw [hlen] at hsamples
  refine ⟨_, ?_, hsamples, hsamples.passesOrderCheck⟩
  rw [getSampleAmounts_eq max hn hbase, List.map_map]
  apply List.map_congr_left
  intro share hshare
  have hnat : ((share.toNat : ℤ) : ℚ) = share :=
    congrArg Int.cast (Int.toNat_of_nonneg (prefixShares_nonneg max hpos share hshare))
  rw [Function.comp_apply, ← hnat, Int.cast_natCast]

/-- Three samples of ten, each step half of the one before. -/
theorem getSampleAmounts_spec_halves :
    ∃ amounts : List ℕ,
      getSampleAmounts (fin (10 : ℕ)) 3 (fin (1 / 2)) = (amounts.map fun a : ℕ => fin a) ∧
        Samples 10 3 amounts ∧ PassesOrderCheck amounts :=
  getSampleAmounts_spec 10 (by decide : 1 ≤ 3) (one_half_pos : (0 : ℚ) < 1 / 2)

end ZeroExApi.SampleAmounts
