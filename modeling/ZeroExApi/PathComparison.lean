/-
# ZeroExApi.PathComparison — which of two paths is better, and which one is chosen

`isAdjustedBetterThan` of `market_operation_utils/path.ts` with `getCompleteRate` of
`rate_utils.ts`, and `findOptimalPathFromSamples` of `path_optimizer.ts`.  A path that falls short
of the target is compared by its input, two that cover it by their complete rates.

The comparison is one of scores, the input first and the complete rate second (`better_iff`), so it
is a strict weak order.  At a positive target the complete rate orders paths by what they are worth
after the overhead, as far as the quotients that are kept tell it (`gt_completeRate_iff`); at a
target of zero every complete rate is zero.
-/

import ZeroExApi.PathSize
import ZeroExApi.RoutablePaths
import Mathlib.Order.RelClasses
import Mathlib.Data.Prod.Lex

namespace ZeroExApi

open ZeroExApi.Lib ZeroExApi.Lib.BigNumber ZeroExApi.Lib.Fallible ZeroExApi.PathSize

/-! ## The comparison -/

/-- `getCompleteRate`. -/
def getCompleteRate [Arithmetic] (side : MarketOperation)
    (input output targetInput : BigNumber) : BigNumber :=
  if input.eq 0 || output.eq 0 || targetInput.eq 0 then
    ZERO_AMOUNT
  else
    match side with
    | .sell => output.div targetInput
    | .buy => (input.div output).times (input.div targetInput)

/-- A number as a message has it. -/
def printed : BigNumber → String
  | .nan => "NaN"
  | .inf negative => if negative then "-Infinity" else "Infinity"
  | .fin value => s!"{value}"

namespace Path

/-- `adjustedCompleteRate`. -/
def adjustedCompleteRate [Arithmetic] (path : Path) : BigNumber :=
  let size := path.getExchangeProxyOverheadAppliedSize
  getCompleteRate path.context.side size.input size.output path.targetInput

/-- `isAdjustedBetterThan`. -/
def isAdjustedBetterThan [Arithmetic] (path other : Path) : Except JsError Bool :=
  if !path.targetInput.eq other.targetInput then
    .error (.error
      s!"Target input mismatch: {printed path.targetInput} !== {printed other.targetInput}")
  else
    let input := path.adjustedSize.input
    let otherInput := other.adjustedSize.input
    if input.lt path.targetInput || otherInput.lt path.targetInput then
      .ok (input.gt otherInput)
    else
      .ok (path.adjustedCompleteRate.gt other.adjustedCompleteRate)

end Path

namespace NeonPathOptimizer

variable (o : NeonPathOptimizer)

/-- The path of all sources, unless there is none or the one of the VIP sources is better. -/
def optimalOf [Arithmetic] (allSourcesPath vipSourcesPath : Option Path) :
    Except JsError (Option Path) :=
  match allSourcesPath, vipSourcesPath with
  | none, _ => .ok vipSourcesPath
  | some _, none => .ok allSourcesPath
  | some all, some vip => do
    if ← vip.isAdjustedBetterThan all then .ok vipSourcesPath else .ok allSourcesPath

/-- `findOptimalPathFromSamples`. -/
def findOptimalPathFromSamples [Arithmetic] (router : NeonRouter) (samples : List SourceSamples)
    (twoHopQuotes : List (List TwoHopQuote))
    (nativeOrders : List NativeOrderWithFillableAmounts) : Except JsError (Option Path) := do
  match ← o.findRoutesAndCreateOptimalPath router samples twoHopQuotes nativeOrders with
  | none => .ok none
  | some (allSourcesPath, vipSourcesPath) => optimalOf allSourcesPath vipSourcesPath

end NeonPathOptimizer

namespace PathComparison

/-! ## Numbers that are compared -/

/-- Where a number that is not negative stands. -/
def rank : BigNumber → WithTop ℚ
  | .fin q => q
  | .inf _ => ⊤
  | .nan => 0

theorem gt_iff_rank {x y : BigNumber} (hx : x.gte 0 = true) (hy : y.gte 0 = true) :
    x.gt y = true ↔ rank y < rank x := by
  cases x with
  | nan => cases hx
  | inf b =>
    cases b with
    | true => cases hx
    | false =>
      cases y with
      | nan => cases hy
      | inf c =>
        cases c with
        | true => cases hy
        | false => simp [gt, lt, rank]
      | fin q => simp [gt, lt, rank]
  | fin p =>
    cases y with
    | nan => cases hy
    | inf c =>
      cases c with
      | true => cases hy
      | false => simp [gt, lt, rank]
    | fin q => simp [rank]

/-- What is worth something is a positive number or an infinite one. -/
theorem worth_cases {o : BigNumber} (ho : o.gt 0 = true) :
    (∃ q, o = .fin q ∧ 0 < q) ∨ o = .inf false := by
  cases o with
  | nan => cases ho
  | inf b =>
    cases b with
    | true => cases ho
    | false => exact .inr rfl
  | fin q => exact .inl ⟨q, rfl, by simpa using ho⟩

/-- The greater of two outputs in a sell, the smaller one in a buy. -/
def WorthMore (side : MarketOperation) (o o' : BigNumber) : Prop :=
  match side with
  | .sell => o.gt o' = true
  | .buy => o.lt o' = true

/-! ## What is compared -/

section Ranked

variable [Arithmetic]

/-- A path of a side and a target, made of fills with inputs that are not negative, which is worth
something after the overhead. -/
structure RankedPath (side : MarketOperation) (target : ℚ) where
  path : Path
  side_eq : path.context.side = side
  created : ∃ context fills pathPenaltyOpts,
    Path.create context fills (.fin target) pathPenaltyOpts = .ok path
  inputs : ∀ fill ∈ path.fills, IsAmount fill.input
  worth : path.getExchangeProxyOverheadAppliedSize.output.gt 0 = true

variable {side : MarketOperation} {target : ℚ}

namespace RankedPath

/-- The input of a path. -/
def input (p : RankedPath side target) : ℚ := p.path.adjustedSize.input.toRat

/-- The output of a path after the overhead. -/
def adjustedOutput (p : RankedPath side target) : BigNumber :=
  p.path.getExchangeProxyOverheadAppliedSize.output

/-- A path that has the whole target. -/
def Covers (p : RankedPath side target) : Prop := p.path.adjustedSize.input = .fin target

/-- The first path is found better than the second. -/
def Better (p q : RankedPath side target) : Prop :=
  p.path.isAdjustedBetterThan q.path = .ok true

theorem targetInput_eq (p : RankedPath side target) : p.path.targetInput = .fin target := by
  obtain ⟨_, _, _, hcreated⟩ := p.created
  exact (Path.create_sizes hcreated).1

theorem input_eq (p : RankedPath side target) (htarget : 0 ≤ target) :
    p.path.adjustedSize.input = .fin p.input ∧ 0 ≤ p.input ∧ p.input ≤ target := by
  obtain ⟨_, fills, _, hcreated⟩ := p.created
  have hsize := (Path.create_sizes hcreated).2.2.2
  have hinputs := p.inputs
  rw [(Path.create_fields hcreated).2] at hinputs
  have hinput := createAdjustedSize_input htarget hinputs
  have hnonneg : 0 ≤ inputSum fills := by
    apply List.sum_nonneg
    intro x hx
    obtain ⟨fill, hfill, rfl⟩ := List.mem_map.mp hx
    exact (hinputs fill hfill).toRat_nonneg
  unfold input
  rw [hsize, hinput, toRat_fin]
  exact ⟨rfl, le_min hnonneg htarget, min_le_right _ _⟩

theorem covers_iff (p : RankedPath side target) (htarget : 0 ≤ target) :
    p.Covers ↔ p.input = target := by
  unfold Covers
  rw [(p.input_eq htarget).1, BigNumber.fin.injEq]

/-- The complete rate of a path, in terms of its input and its output. -/
theorem adjustedCompleteRate_eq (p : RankedPath side target) :
    p.path.adjustedCompleteRate =
      getCompleteRate side p.path.adjustedSize.input p.adjustedOutput (.fin target) := by
  unfold Path.adjustedCompleteRate
  rw [p.side_eq, p.targetInput_eq]
  rfl

/-- What is compared of two paths. -/
theorem isAdjustedBetterThan_eq (p q : RankedPath side target) (htarget : 0 ≤ target) :
    p.path.isAdjustedBetterThan q.path =
      .ok (if p.input < target ∨ q.input < target then decide (q.input < p.input)
        else p.path.adjustedCompleteRate.gt q.path.adjustedCompleteRate) := by
  unfold Path.isAdjustedBetterThan
  rw [p.targetInput_eq, q.targetInput_eq, (p.input_eq htarget).1, (q.input_eq htarget).1]
  rw [if_neg (by simp)]
  dsimp only
  by_cases hshort : p.input < target ∨ q.input < target
  · rw [if_pos (by simpa using hshort), if_pos hshort, gt_fin]
  · rw [if_neg (by simpa using hshort), if_neg hshort]

end RankedPath

/-! ## Scores -/

/-- The complete rate of what is worth something is not negative. -/
theorem getCompleteRate_nonneg {input : ℚ} {o : BigNumber} (hinput : 0 ≤ input)
    (htarget : 0 ≤ target) (ho : o.gt 0 = true) :
    (getCompleteRate side (.fin input) o (.fin target)).gte 0 = true := by
  unfold getCompleteRate
  split
  · rfl
  · rename_i hne
    simp only [zero_eq, eq_fin, Bool.or_eq_true, decide_eq_true_eq, not_or] at hne
    obtain ⟨⟨hinput₀, _⟩, htarget₀⟩ := hne
    rcases worth_cases ho with ⟨q, rfl, hq⟩ | rfl
    · cases side with
      | sell =>
        show (BigNumber.div _ _).gte (.fin 0) = true
        rw [div_quotient _ htarget₀, gte_fin, decide_eq_true_iff]
        exact Arithmetic.quotient_nonneg (div_nonneg hq.le htarget)
      | buy =>
        show (BigNumber.times _ _).gte (.fin 0) = true
        rw [div_quotient _ hq.ne', div_quotient _ htarget₀, times_fin, gte_fin, decide_eq_true_iff]
        exact mul_nonneg (Arithmetic.quotient_nonneg (div_nonneg hinput hq.le))
          (Arithmetic.quotient_nonneg (div_nonneg hinput htarget))
    · cases side with
      | sell =>
        show (BigNumber.inf (false != decide (target < 0))).gte (.fin 0) = true
        rw [decide_eq_false (not_lt.mpr htarget)]
        rfl
      | buy =>
        show ((BigNumber.fin 0).times ((BigNumber.fin input).div (.fin target))).gte (.fin 0) = true
        rw [div_quotient _ htarget₀, times_fin, zero_mul]
        rfl

/-- A path's score: its input, and its complete rate where it has the whole target. -/
def score (p : RankedPath side target) : ℚ ×ₗ WithTop ℚ :=
  toLex (p.input, if p.input < target then 0 else rank p.path.adjustedCompleteRate)

/-- The better path is the one with the greater score. -/
theorem better_iff (htarget : 0 ≤ target) (p q : RankedPath side target) :
    p.Better q ↔ score q < score p := by
  obtain ⟨hp, hp₀, hp₁⟩ := p.input_eq htarget
  obtain ⟨hq, hq₀, hq₁⟩ := q.input_eq htarget
  have hrate : ∀ r : RankedPath side target, r.path.adjustedCompleteRate.gte 0 = true := by
    intro r
    obtain ⟨hr, hr₀, _⟩ := r.input_eq htarget
    rw [r.adjustedCompleteRate_eq, hr]
    exact getCompleteRate_nonneg hr₀ htarget r.worth
  unfold RankedPath.Better score
  rw [p.isAdjustedBetterThan_eq q htarget, Except.ok.injEq, Prod.Lex.toLex_lt_toLex]
  dsimp only
  by_cases hshort : p.input < target ∨ q.input < target
  · rw [if_pos hshort, decide_eq_true_iff]
    constructor
    · exact .inl
    · rintro (hlt | ⟨heq, hlt⟩)
      · exact hlt
      · -- two paths of the same input that fall short have the same score
        have hp' : p.input < target := hshort.elim id fun h => heq ▸ h
        rw [if_pos hp', if_pos (heq ▸ hp')] at hlt
        exact absurd hlt (lt_irrefl _)
  · rw [if_neg hshort]
    rw [not_or, not_lt, not_lt] at hshort
    have heq : q.input = p.input := (le_antisymm hq₁ hshort.2).trans (le_antisymm hshort.1 hp₁)
    rw [if_neg (not_lt.mpr hshort.1), if_neg (not_lt.mpr hshort.2), gt_iff_rank (hrate p) (hrate q)]
    constructor
    · intro hlt
      exact .inr ⟨heq, hlt⟩
    · rintro (hlt | ⟨_, hlt⟩)
      · exact absurd hlt (heq ▸ lt_irrefl _)
      · exact hlt

/-! ## What a complete rate says -/

/-- The quotient of an output and the target, or of the target and an output, is kept as a greater
one. -/
def KeptMore (side : MarketOperation) (target : ℚ) (o o' : BigNumber) : Prop :=
  match side with
  | .sell => (o.div (.fin target)).gt (o'.div (.fin target)) = true
  | .buy => ((BigNumber.fin target).div o).gt ((BigNumber.fin target).div o') = true

/-- Two finite outputs are further apart than what can be lost of their quotients. -/
def Apart (side : MarketOperation) (target p q : ℚ) : Prop :=
  match side with
  | .sell => q / target + 2 * Arithmetic.precision < p / target
  | .buy => target / q + 2 * Arithmetic.precision < target / p

theorem getCompleteRate_sell (htarget : 0 < target) {o : BigNumber} (ho : o.gt 0 = true) :
    getCompleteRate .sell (.fin target) o (.fin target) = o.div (.fin target) := by
  have hne : o.eq 0 = false := by
    rcases worth_cases ho with ⟨q, rfl, hq⟩ | rfl
    · simpa using hq.ne'
    · rfl
  unfold getCompleteRate
  rw [hne]
  simp [htarget.ne']

theorem getCompleteRate_buy (htarget : 0 < target) {o : BigNumber} (ho : o.gt 0 = true) :
    getCompleteRate .buy (.fin target) o (.fin target) = (BigNumber.fin target).div o := by
  have hone : (BigNumber.fin target).div (.fin target) = .fin 1 := by
    rw [div_quotient _ htarget.ne', div_self htarget.ne', Arithmetic.quotient_one]
  have hunit : ∀ q : ℚ, (BigNumber.fin q).times (.fin 1) = .fin q := by simp
  rcases worth_cases ho with ⟨q, rfl, hq⟩ | rfl
  · unfold getCompleteRate
    simp [htarget.ne', hq.ne', hone, div_quotient]
  · unfold getCompleteRate
    rw [hone]
    simp [htarget.ne', BigNumber.eq, div]

/-- The complete rates of two paths that have the whole target compare as what they are worth, as
far as it is kept. -/
theorem gt_completeRate_iff (side : MarketOperation) (htarget : 0 < target) {o o' : BigNumber}
    (ho : o.gt 0 = true) (ho' : o'.gt 0 = true) :
    (getCompleteRate side (.fin target) o (.fin target)).gt
        (getCompleteRate side (.fin target) o' (.fin target)) = true ↔
      KeptMore side target o o' := by
  cases side with
  | sell =>
    rw [getCompleteRate_sell htarget ho, getCompleteRate_sell htarget ho']
    rfl
  | buy =>
    rw [getCompleteRate_buy htarget ho, getCompleteRate_buy htarget ho']
    rfl

/-- What is kept as more is more. -/
theorem worthMore_of_keptMore (side : MarketOperation) (htarget : 0 < target) {o o' : BigNumber}
    (ho : o.gt 0 = true) (ho' : o'.gt 0 = true) (h : KeptMore side target o o') :
    WorthMore side o o' := by
  cases side with
  | sell =>
    unfold KeptMore at h
    unfold WorthMore
    rcases worth_cases ho with ⟨p, rfl, hp⟩ | rfl <;> rcases worth_cases ho' with ⟨q, rfl, hq⟩ | rfl
    · rw [div_quotient _ htarget.ne', div_quotient _ htarget.ne', gt_fin, decide_eq_true_iff] at h
      rw [gt_fin, decide_eq_true_iff]
      exact (div_lt_div_iff_of_pos_right htarget).mp (Arithmetic.lt_of_quotient_lt h)
    · -- the quotient of an infinite output is infinite
      rw [div_quotient _ htarget.ne'] at h
      simp [div, gt, lt] at h
      exact absurd h htarget.not_gt
    · rfl
    · simp [div, gt, lt] at h
  | buy =>
    unfold KeptMore at h
    unfold WorthMore
    rcases worth_cases ho with ⟨p, rfl, hp⟩ | rfl <;> rcases worth_cases ho' with ⟨q, rfl, hq⟩ | rfl
    · rw [div_quotient _ hp.ne', div_quotient _ hq.ne', gt_fin, decide_eq_true_iff] at h
      rw [lt_fin, decide_eq_true_iff]
      exact (div_lt_div_iff_of_pos_left htarget hq hp).mp (Arithmetic.lt_of_quotient_lt h)
    · rfl
    · -- the quotient by an infinite output is zero
      rw [div_quotient _ hq.ne'] at h
      have hnonneg := Arithmetic.quotient_nonneg (div_pos htarget hq).le
      have hlt : Arithmetic.quotient (target / q) < 0 := by simpa [div, gt, lt] using h
      exact absurd hlt (not_lt.mpr hnonneg)
    · simp [div] at h

/-- What is far enough apart is kept apart. -/
theorem keptMore_of_apart (side : MarketOperation) (htarget : 0 < target) {p q : ℚ} (hp : 0 < p)
    (hq : 0 < q) (h : Apart side target p q) : KeptMore side target (.fin p) (.fin q) := by
  unfold Apart at h
  unfold KeptMore
  cases side with
  | sell =>
    dsimp only at h ⊢
    rw [div_quotient _ htarget.ne', div_quotient _ htarget.ne', gt_fin, decide_eq_true_iff]
    exact Arithmetic.quotient_lt_of_lt h
  | buy =>
    dsimp only at h ⊢
    rw [div_quotient _ hp.ne', div_quotient _ hq.ne', gt_fin, decide_eq_true_iff]
    exact Arithmetic.quotient_lt_of_lt h

/-! ## The path that is chosen -/

/-- No path is found better than itself. -/
theorem not_better_self (path : Path) : path.isAdjustedBetterThan path ≠ .ok true := by
  have hlt : ∀ x : BigNumber, x.gt x = false := by
    intro x
    cases x with
    | nan => rfl
    | inf b => cases b <;> rfl
    | fin q => simp
  unfold Path.isAdjustedBetterThan
  split
  · simp
  · dsimp only
    split
    · simp [hlt]
    · simp [hlt]

/-- A path that is better than another is not found worse. -/
theorem not_better_of_better {path other : Path} (h : path.isAdjustedBetterThan other = .ok true) :
    other.isAdjustedBetterThan path ≠ .ok true := by
  have hgt : ∀ x y : BigNumber, x.gt y = true → y.gt x = false := by
    intro x y hxy
    cases x with
    | nan => simp [gt] at hxy
    | inf b => cases b <;> cases y <;> simp_all [gt, lt]
    | fin p =>
      cases y with
      | nan => rfl
      | inf b => simp_all [gt, lt]
      | fin q =>
        simp only [gt_fin, decide_eq_true_eq, decide_eq_false_iff_not, not_lt] at hxy ⊢
        exact hxy.le
  intro h'
  unfold Path.isAdjustedBetterThan at h h'
  split at h
  · cases h
  · rename_i heq
    split at h'
    · cases h'
    · -- the targets are the same number
      have htargets : path.targetInput = other.targetInput := by
        revert heq
        unfold BigNumber.eq
        split
        · simp
        · simp
      rw [← htargets] at h'
      dsimp only at h h'
      rw [Bool.or_comm] at h'
      split at h
      · rename_i hshort
        rw [if_pos hshort, Except.ok.injEq] at h'
        rw [hgt _ _ (Except.ok.inj h)] at h'
        cases h'
      · rename_i hcover
        rw [if_neg hcover, Except.ok.injEq] at h'
        rw [hgt _ _ (Except.ok.inj h)] at h'
        cases h'

/-- What is chosen is one of the two paths, and neither is found better. -/
def Unbeaten (path : Path) (allSourcesPath vipSourcesPath : Option Path) : Prop :=
  (some path = allSourcesPath ∨ some path = vipSourcesPath) ∧
    ∀ other, some other = allSourcesPath ∨ some other = vipSourcesPath →
      other.isAdjustedBetterThan path ≠ .ok true

theorem optimalOf_unbeaten {path : Path} {allSourcesPath vipSourcesPath : Option Path}
    (h : NeonPathOptimizer.optimalOf allSourcesPath vipSourcesPath = .ok (some path)) :
    Unbeaten path allSourcesPath vipSourcesPath := by
  cases allSourcesPath with
  | none =>
    have hvip := Except.ok.inj h
    refine ⟨.inr hvip.symm, ?_⟩
    rintro other (hother | hother)
    · cases hother
    · rw [hvip] at hother
      cases hother
      exact not_better_self path
  | some all =>
    cases vipSourcesPath with
    | none =>
      cases Except.ok.inj h
      refine ⟨.inl rfl, ?_⟩
      rintro other (hother | hother)
      · cases hother
        exact not_better_self path
      · cases hother
    | some vip =>
      -- where there are two paths, they are compared once, and better is not better both ways
      obtain ⟨better, hbetter, h⟩ := bind_eq_ok.mp h
      cases better with
      | true =>
        cases Except.ok.inj h
        refine ⟨.inr rfl, ?_⟩
        rintro other (hother | hother)
        · cases hother
          exact not_better_of_better hbetter
        · cases hother
          exact not_better_self path
      | false =>
        cases Except.ok.inj h
        refine ⟨.inl rfl, ?_⟩
        rintro other (hother | hother)
        · cases hother
          exact not_better_self path
        · cases hother
          rw [hbetter]
          simp

/-! ## The main result -/

/-- The comparison is a strict weak order of the paths that are worth something.  At a positive
target, of two paths that have all of it, the one that is kept as worth more is better: a better one
is worth more, and one that is worth so much more that no quotient loses it is better.  And a path
that has all of the target is better than one that has not. -/
structure ComparesFairly (side : MarketOperation) (target : ℚ) : Prop where
  strictWeakOrder : IsStrictWeakOrder (RankedPath side target) RankedPath.Better
  covering_iff : 0 < target → ∀ p q : RankedPath side target, p.Covers → q.Covers →
    (p.Better q ↔ KeptMore side target p.adjustedOutput q.adjustedOutput)
  worthMore_of_better : 0 < target → ∀ p q : RankedPath side target, p.Covers → q.Covers →
    p.Better q → WorthMore side p.adjustedOutput q.adjustedOutput
  better_of_apart : 0 < target → ∀ p q : RankedPath side target, p.Covers → q.Covers →
    ∀ o o' : ℚ, p.adjustedOutput = .fin o → q.adjustedOutput = .fin o' →
      Apart side target o o' → p.Better q
  covering_beats : ∀ p q : RankedPath side target, p.Covers → ¬ q.Covers → p.Better q

/-- Of two paths that have the whole target. -/
theorem RankedPath.better_iff_keptMore (htarget : 0 < target) {p q : RankedPath side target}
    (hp : p.Covers) (hq : q.Covers) :
    p.Better q ↔ KeptMore side target p.adjustedOutput q.adjustedOutput := by
  have hp' := (p.covers_iff htarget.le).mp hp
  have hq' := (q.covers_iff htarget.le).mp hq
  unfold RankedPath.Better
  rw [p.isAdjustedBetterThan_eq q htarget.le, hp', hq', if_neg (by simp), Except.ok.injEq,
    p.adjustedCompleteRate_eq, q.adjustedCompleteRate_eq, hp, hq]
  exact gt_completeRate_iff side htarget p.worth q.worth

/-- The comparison is fair, and the path that is chosen is not beaten by either it is chosen
from. -/
theorem comparesFairly (side : MarketOperation) {target : ℚ} (htarget : 0 ≤ target) :
    ComparesFairly side target ∧
      ∀ (o : NeonPathOptimizer) (router : NeonRouter) (samples : List SourceSamples)
        (twoHopQuotes : List (List TwoHopQuote))
        (nativeOrders : List NativeOrderWithFillableAmounts) (path : Path),
        o.findOptimalPathFromSamples router samples twoHopQuotes nativeOrders = .ok (some path) →
          ∃ allSourcesPath vipSourcesPath,
            o.findRoutesAndCreateOptimalPath router samples twoHopQuotes nativeOrders =
                .ok (some (allSourcesPath, vipSourcesPath)) ∧
              Unbeaten path allSourcesPath vipSourcesPath := by
  refine ⟨⟨?_, ?_, ?_, ?_, ?_⟩, ?_⟩
  · -- the order of the scores, pulled back
    have hscore : @RankedPath.Better _ side target = Order.Preimage score (· > ·) := by
      funext p q
      exact propext (better_iff htarget p q)
    have hgreater : IsStrictWeakOrder (ℚ ×ₗ WithTop ℚ) (· > ·) :=
      isStrictWeakOrder_of_isOrderConnected
    rw [hscore]
    infer_instance
  · intro hpos p q hp hq
    exact RankedPath.better_iff_keptMore hpos hp hq
  · intro hpos p q hp hq hbetter
    exact worthMore_of_keptMore side hpos p.worth q.worth
      ((RankedPath.better_iff_keptMore hpos hp hq).mp hbetter)
  · intro hpos p q hp hq o o' ho ho' hapart
    have hworth := p.worth
    have hworth' := q.worth
    change p.adjustedOutput.gt 0 = true at hworth
    change q.adjustedOutput.gt 0 = true at hworth'
    rw [ho, zero_eq, gt_fin, decide_eq_true_iff] at hworth
    rw [ho', zero_eq, gt_fin, decide_eq_true_iff] at hworth'
    rw [RankedPath.better_iff_keptMore hpos hp hq, ho, ho']
    exact keptMore_of_apart side hpos hworth hworth' hapart
  · intro p q hp hq
    have hp' := (p.covers_iff htarget).mp hp
    have hlt : q.input < target :=
      lt_of_le_of_ne (q.input_eq htarget).2.2 fun heq => hq ((q.covers_iff htarget).mpr heq)
    unfold RankedPath.Better
    rw [p.isAdjustedBetterThan_eq q htarget, if_pos (.inr hlt), hp', decide_eq_true hlt]
  · intro o router samples twoHopQuotes nativeOrders path h
    obtain ⟨paths, hpaths, h⟩ := bind_eq_ok.mp h
    cases paths with
    | none => cases h
    | some pair => exact ⟨pair.1, pair.2, hpaths, optimalOf_unbeaten h⟩

end Ranked

section Code

attribute [local instance] codeArithmetic

/-- For ten units that are sold. -/
theorem comparesFairly_ten : ComparesFairly .sell 10 := (comparesFairly .sell (by norm_num)).1

/-! ### A target of zero, and a price of many digits -/

/-- A unit bought for some units, with a penalty. -/
def unitFill (price penalty : ℚ) : Fill where
  input := .fin 1
  output := .fin price
  adjustedOutput := .fin (price + penalty)
  gas := 0
  source := .uniswapV2
  type := .bridge
  fillData := .uniswapV2 ["input", "output"] "router"
  flags := 0

/-- A path of such a unit: for no target it is worth its penalty, for a target of one it is worth
the price as well. -/
theorem exists_unit_path {target : ℚ} (price penalty : ℚ) (htarget : target = 0 ∨ target = 1)
    (hworth : 0 < target * price + penalty) :
    ∃ p : RankedPath .buy target, p.Covers ∧
      p.adjustedOutput = .fin (target * price + penalty) := by
  obtain ⟨path, hpath⟩ : Succeeds (Path.create ⟨.buy, "input", "output"⟩ [unitFill price penalty]
      (.fin target) ⟨.fin 1, .fin 1, fun _ => .fin 0⟩) := Path.create_succeeds_iff.mpr ⟨_, rfl⟩
  obtain ⟨hcontext, hfills⟩ := Path.create_fields hpath
  obtain ⟨htargetInput, hopts, _, hsize⟩ := Path.create_sizes hpath
  have hsize' : path.adjustedSize = ⟨.fin target, .fin (target * price + penalty)⟩ := by
    rw [hsize]
    rcases htarget with rfl | rfl
    · simp [createAdjustedSize, unitFill, ZERO_AMOUNT, div]
    · simp [createAdjustedSize, unitFill, ZERO_AMOUNT]
  have houtput : path.getExchangeProxyOverheadAppliedSize.output =
      .fin (target * price + penalty) := by
    unfold Path.getExchangeProxyOverheadAppliedSize
    rw [hsize', hopts, hcontext]
    simp [Path.applyExchangeProxyOverhead, Fills.ethToOutputAmount, Fills.adjustOutput]
  refine ⟨⟨path, by rw [hcontext], ⟨_, _, _, hpath⟩, ?_, ?_⟩, ?_, houtput⟩
  · rw [hfills]
    intro fill hfill
    rw [List.mem_singleton.mp hfill]
    exact ⟨1, rfl, zero_le_one⟩
  · rw [houtput, zero_eq, gt_fin, decide_eq_true hworth]
  · show path.adjustedSize.input = .fin target
    rw [hsize']

/-- At a target of zero, a path that costs less than another one is not better. -/
theorem zero_target_not_compared :
    ∃ p q : RankedPath .buy 0, p.Covers ∧ q.Covers ∧
      WorthMore .buy p.adjustedOutput q.adjustedOutput ∧ ¬ p.Better q := by
  obtain ⟨p, hp, hp'⟩ := exists_unit_path 1 1 (.inl rfl) (by norm_num)
  obtain ⟨q, hq, hq'⟩ := exists_unit_path 1 2 (.inl rfl) (by norm_num)
  refine ⟨p, q, hp, hq, ?_, ?_⟩
  · rw [hp', hq', WorthMore]
    decide +kernel
  · unfold RankedPath.Better
    rw [p.isAdjustedBetterThan_eq q le_rfl, (p.covers_iff le_rfl).mp hp,
      (q.covers_iff le_rfl).mp hq, p.adjustedCompleteRate_eq, q.adjustedCompleteRate_eq, hp, hq]
    simp [getCompleteRate, ZERO_AMOUNT]

/-- One unit for 10^40 or for one more: 1 / 10^40 and 1 / (10^40 + 1) have the same 78 decimals. -/
theorem long_price_not_compared :
    ∃ p q : RankedPath .buy 1, p.Covers ∧ q.Covers ∧
      WorthMore .buy p.adjustedOutput q.adjustedOutput ∧ ¬ p.Better q := by
  obtain ⟨p, hp, hp'⟩ := exists_unit_path (10 ^ 40) 0 (.inr rfl) (by norm_num)
  obtain ⟨q, hq, hq'⟩ := exists_unit_path (10 ^ 40 + 1) 0 (.inr rfl) (by norm_num)
  refine ⟨p, q, hp, hq, ?_, ?_⟩
  · rw [hp', hq', WorthMore]
    decide +kernel
  · rw [RankedPath.better_iff_keptMore one_pos hp hq, hp', hq']
    unfold KeptMore
    decide +kernel

/-- A path that is worth more is not found better at a target of zero, and not always at another
one. -/
theorem worth_not_always_compared :
    (∃ p q : RankedPath .buy 0, p.Covers ∧ q.Covers ∧
        WorthMore .buy p.adjustedOutput q.adjustedOutput ∧ ¬ p.Better q) ∧
      ∃ p q : RankedPath .buy 1, p.Covers ∧ q.Covers ∧
        WorthMore .buy p.adjustedOutput q.adjustedOutput ∧ ¬ p.Better q :=
  ⟨zero_target_not_compared, long_price_not_compared⟩

end Code

end PathComparison

end ZeroExApi
