/-
# ZeroExApi.SlippageModelManager — the slippage that is expected of a breakdown into sources

`calculateExpectedSlippage` of `utils/slippage_model_manager.ts`.  The fold over the sources stops
at a source without a model and otherwise adds up one contribution for each source
(`calculateExpectedSlippage_eq`), so the order of the sources does not matter.  A contribution lies
between nothing and the largest slippage on the source's proportion, as long as what the model
predicts is a number; the price is the only part of a model that is not checked to be one, and this
is what the main result comes down to (`expectedSlippageSpec_iff`).
-/

import ZeroExApi.SlippageModel

namespace ZeroExApi

open ZeroExApi.Lib ZeroExApi.Lib.BigNumber ZeroExApi.Lib.JsString ZeroExApi.Lib.Fallible
open pairUtils

/-! ## The manager -/

/-- What is known of the chain: which tokens stand for its native one, and the token that fees are
paid in there.  Both are those of a package. -/
structure ChainTokens where
  isNativeSymbolOrAddress : String → Bool
  nativeFeeToken : String

/-- `normalizeTokenAddress`. -/
def normalizeTokenAddress (chain : ChainTokens) (token : String) : String :=
  if chain.isNativeSymbolOrAddress token then chain.nativeFeeToken.toLower else token.toLower

/-- `GetSwapQuoteResponseLiquiditySource`, as far as the manager reads it. -/
structure LiquiditySource where
  name : String
  proportion : BigNumber

/-- `ONE_IN_BASE_POINTS`. -/
def ONE_IN_BASE_POINTS : BigNumber := .fin 10000

/-- `calculateExpectedSlippageForModel`.  It never answers with `null`. -/
def calculateExpectedSlippageForModel (token0Amount maxSlippageRate : BigNumber)
    (slippageModel : SlippageModel) : Option BigNumber :=
  let volumeUsd := token0Amount.times slippageModel.token0PriceInUsd
  let volumeTerm := volumeUsd.times (.fin slippageModel.volumeCoefficient)
  let slippageTerm :=
    (maxSlippageRate.times ONE_IN_BASE_POINTS).times (.fin slippageModel.slippageCoefficient)
  let expectedSlippage := BigNumber.sum [slippageTerm, volumeTerm, .fin slippageModel.intercept]
  let expectedSlippageCap := maxSlippageRate.times (.fin (-1))
  some (BigNumber.min (.fin 0) (expectedSlippage.max expectedSlippageCap))

/-- A source of native liquidity, by either of its names. -/
def LiquiditySource.isNative (source : LiquiditySource) : Bool :=
  decide (source.name = "0x") || decide (source.name = ERC20BridgeSource.native.value)

/-- `_calculateSingleSourceExpectedSlippage`. -/
def calculateSingleSourceExpectedSlippage (cache : SlippageModelCache) (buyToken sellToken : String)
    (buyAmount sellAmount : BigNumber) (source : LiquiditySource) (maxSlippageRate : ℚ) :
    Option BigNumber :=
  if source.isNative then
    some (.fin 0)
  else do
    let slippageModelCacheForPair ← cache.get (toKey buyToken sellToken)
    let slippageModel ← slippageModelCacheForPair.get source.name
    let token0Amount := source.proportion.times
      (if slippageModel.token0 = buyToken.toLower then buyAmount else sellAmount)
    let expectedSlippageOfSource ←
      calculateExpectedSlippageForModel token0Amount (.fin maxSlippageRate) slippageModel
    some (source.proportion.times expectedSlippageOfSource)

/-- `calculateExpectedSlippage`. -/
def calculateExpectedSlippage (chain : ChainTokens) (cache : SlippageModelCache)
    (buyToken sellToken : String) (buyAmount sellAmount : BigNumber)
    (sources : List LiquiditySource) (maxSlippageRate : ℚ) : Option BigNumber :=
  let normalizedBuyToken := normalizeTokenAddress chain buyToken
  let normalizedSellToken := normalizeTokenAddress chain sellToken
  sources.foldlM
    (fun expectedSlippage source =>
      if source.proportion.eq 0 then
        some expectedSlippage
      else
        (calculateSingleSourceExpectedSlippage cache normalizedBuyToken normalizedSellToken
          buyAmount sellAmount source maxSlippageRate).map expectedSlippage.plus)
    (.fin 0)

/-! ## Contributions -/

/-- A source that a model is looked up for. -/
def LiquiditySource.isUsed (source : LiquiditySource) : Bool :=
  !source.proportion.eq 0 && !source.isNative

section Contributions

variable (chain : ChainTokens) (cache : SlippageModelCache) (buyToken sellToken : String)
  (buyAmount sellAmount : BigNumber) (maxSlippageRate : ℚ)

/-- What a source adds to the expected slippage. -/
def contribution (source : LiquiditySource) : Option BigNumber :=
  if source.proportion.eq 0 then
    some (.fin 0)
  else
    calculateSingleSourceExpectedSlippage cache (normalizeTokenAddress chain buyToken)
      (normalizeTokenAddress chain sellToken) buyAmount sellAmount source maxSlippageRate

/-- The expected slippage is the sum of the contributions, when every source has one. -/
theorem calculateExpectedSlippage_eq (sources : List LiquiditySource) :
    calculateExpectedSlippage chain cache buyToken sellToken buyAmount sellAmount sources
        maxSlippageRate =
      if ∀ source ∈ sources, (contribution chain cache buyToken sellToken buyAmount sellAmount
          maxSlippageRate source).isSome = true then
        some (sumAmounts (sources.filterMap
          (contribution chain cache buyToken sellToken buyAmount sellAmount maxSlippageRate)))
      else none := by
  have hfold := foldlM_plus
    (contribution chain cache buyToken sellToken buyAmount sellAmount maxSlippageRate) sources
    (fin 0)
  rw [zero_plus] at hfold
  rw [← hfold]
  unfold calculateExpectedSlippage
  dsimp only
  congr 1
  funext expectedSlippage source
  unfold contribution
  split
  · simp [plus_zero]
  · rfl

/-- The order of the sources does not matter. -/
theorem calculateExpectedSlippage_perm {sources sources' : List LiquiditySource}
    (h : sources.Perm sources') :
    calculateExpectedSlippage chain cache buyToken sellToken buyAmount sellAmount sources
        maxSlippageRate =
      calculateExpectedSlippage chain cache buyToken sellToken buyAmount sellAmount sources'
        maxSlippageRate := by
  rw [calculateExpectedSlippage_eq, calculateExpectedSlippage_eq]
  simp only [h.mem_iff, sumAmounts_perm (h.filterMap _)]

end Contributions

/-! ## What a model predicts -/

/-- The price of a model can be reckoned with for an amount: it is a number, and where it is
infinite it meets no zero. -/
def SlippageModel.Priced (slippageModel : SlippageModel) (amount : ℚ) : Prop :=
  slippageModel.token0PriceInUsd ≠ .nan ∧
    (slippageModel.token0PriceInUsd.isFinite = false →
      amount ≠ 0 ∧ slippageModel.volumeCoefficient ≠ 0)

/-- A product with finite factors on both sides is a number exactly when the middle one can be
reckoned with. -/
theorem times_times_ne_nan {x : BigNumber} {p q : ℚ} :
    ((fin p).times x).times (fin q) ≠ nan ↔ x ≠ nan ∧ (x.isFinite = false → p ≠ 0 ∧ q ≠ 0) := by
  rcases x with _ | b | r
  · simp
  · by_cases hp : p = 0
    · simp [times, hp]
    · by_cases hq : q = 0
      · simp [times, hp, hq]
      · simp [times, hp, hq]
  · simp

section Prediction

variable {slippageModel : SlippageModel} {token0Amount maxSlippageRate : ℚ}

/-- A prediction is cut at the largest slippage and at zero. -/
theorem forModel_of_priced (hmax : 0 ≤ maxSlippageRate) (h : slippageModel.Priced token0Amount) :
    ∃ q : ℚ,
      calculateExpectedSlippageForModel (.fin token0Amount) (.fin maxSlippageRate) slippageModel =
          some (.fin q) ∧ -maxSlippageRate ≤ q ∧ q ≤ 0 := by
  have hvolume := times_times_ne_nan.mpr h
  have hcap : maxSlippageRate * -1 ≤ 0 := by linarith
  unfold calculateExpectedSlippageForModel
  dsimp only
  simp only [ONE_IN_BASE_POINTS, times_fin, sum_cons, sumAmounts_cons, sumAmounts_nil, plus_zero]
  generalize ((fin token0Amount).times slippageModel.token0PriceInUsd).times
    (fin slippageModel.volumeCoefficient) = volumeTerm at hvolume ⊢
  rcases volumeTerm with _ | b | v
  · exact absurd rfl hvolume
  · -- an infinite volume term decides alone
    rcases b with _ | _
    · refine ⟨0, ?_, by linarith, le_rfl⟩
      simp [plus, BigNumber.max, BigNumber.min, lt, gt, isNaN]
    · refine ⟨maxSlippageRate * -1, ?_, by linarith, hcap⟩
      simp [plus, BigNumber.max, BigNumber.min, lt, gt, isNaN]
      exact fun hle => le_antisymm hle hmax
  · refine ⟨_, by rw [plus_fin, plus_fin, max_fin, min_fin], ?_, min_le_left _ _⟩
    rw [le_min_iff]
    exact ⟨by linarith, le_max_of_le_right (by linarith)⟩

/-- Where the price cannot be reckoned with, no number is predicted. -/
theorem forModel_of_not_priced (h : ¬ slippageModel.Priced token0Amount) :
    calculateExpectedSlippageForModel (.fin token0Amount) (.fin maxSlippageRate) slippageModel =
      some .nan := by
  have hvolume := not_not.mp (mt times_times_ne_nan.mp h)
  unfold calculateExpectedSlippageForModel
  dsimp only
  simp only [hvolume, sum_cons, sumAmounts_cons, sumAmounts_nil, plus_zero, nan_plus, plus_nan,
    times_fin]
  simp [BigNumber.max, BigNumber.min, isNaN]

end Prediction

/-! ## The contribution of a source -/

section Lookup

variable (chain : ChainTokens) (cache : SlippageModelCache) (buyToken sellToken : String)

/-- The key of a pair of tokens, as it is looked up. -/
def pairKeyOf : String :=
  toKey (normalizeTokenAddress chain buyToken) (normalizeTokenAddress chain sellToken)

/-- The model that is found for a source. -/
def modelFor (source : LiquiditySource) : Option SlippageModel :=
  getModel cache (pairKeyOf chain buyToken sellToken) source.name

/-- The amount of the first token of a model. -/
def token0AmountOf (buyAmount sellAmount : ℚ) (slippageModel : SlippageModel) : ℚ :=
  if slippageModel.token0 = normalizeTokenAddress chain buyToken then buyAmount else sellAmount

theorem normalizeTokenAddress_toLower (token : String) :
    (normalizeTokenAddress chain token).toLower = normalizeTokenAddress chain token := by
  unfold normalizeTokenAddress
  split <;> exact toLower_toLower _

variable {chain buyToken sellToken}

/-- A model that is found in the cache of a file is of one of the two tokens. -/
theorem token0_of_modelFor {isAddress : String → Bool}
    (haddress : ∀ token, isAddress token = true → '-' ∉ token.toList) {content : FileContent}
    {slippageModels : List SlippageModel}
    (hparse : parseSlippageModels isAddress content = .ok slippageModels)
    {source : LiquiditySource} {found : SlippageModel}
    (h : modelFor chain (cacheOf slippageModels) buyToken sellToken source = some found) :
    found.token0 = normalizeTokenAddress chain buyToken ∨
      found.token0 = normalizeTokenAddress chain sellToken := by
  obtain ⟨slippageModel, hmem, hof, rfl⟩ := exists_of_getModel h
  obtain ⟨h₀, h₁⟩ := isAddress_of_parse hparse hmem
  simp only [SlippageModel.isOf, Bool.and_eq_true, decide_eq_true_eq] at hof
  have hsame := toKey_inj (haddress _ h₀) (haddress _ h₁) hof.2.1
  rw [SameTokens, normalizeTokenAddress_toLower, normalizeTokenAddress_toLower] at hsame
  exact hsame.imp And.left And.left

end Lookup

section OneSource

variable (chain : ChainTokens) (cache : SlippageModelCache) (buyToken sellToken : String)
  (buyAmount sellAmount maxSlippageRate : ℚ) {source : LiquiditySource}

/-- A source that is not used adds nothing. -/
theorem contribution_of_not_used (h : source.isUsed = false) :
    contribution chain cache buyToken sellToken (.fin buyAmount)
      (.fin sellAmount) maxSlippageRate source = some (.fin 0) := by
  unfold contribution calculateSingleSourceExpectedSlippage
  split
  · rfl
  · rename_i hproportion
    rw [LiquiditySource.isUsed, eq_false_of_ne_true hproportion, Bool.not_false, Bool.true_and,
      Bool.not_eq_false'] at h
    rw [if_pos h]

/-- A source that is used adds its proportion of what its model predicts, if it has one. -/
theorem contribution_of_used (h : source.isUsed = true) :
    contribution chain cache buyToken sellToken (.fin buyAmount)
        (.fin sellAmount) maxSlippageRate source =
      (modelFor chain cache buyToken sellToken source).bind fun slippageModel =>
        (calculateExpectedSlippageForModel
          (source.proportion.times
            (.fin (token0AmountOf chain buyToken buyAmount sellAmount slippageModel)))
          (.fin maxSlippageRate) slippageModel).map source.proportion.times := by
  simp only [LiquiditySource.isUsed, Bool.and_eq_true, Bool.not_eq_true'] at h
  unfold contribution calculateSingleSourceExpectedSlippage modelFor getModel pairKeyOf
    token0AmountOf
  rw [h.1, h.2, if_neg Bool.false_ne_true, if_neg Bool.false_ne_true]
  simp only [Option.bind_eq_bind, Option.bind_assoc, normalizeTokenAddress_toLower, apply_ite fin]
  rfl

/-- Without a model there is no contribution. -/
theorem contribution_eq_none_iff :
    contribution chain cache buyToken sellToken (.fin buyAmount) (.fin sellAmount) maxSlippageRate
        source = none ↔
      source.isUsed = true ∧ modelFor chain cache buyToken sellToken source = none := by
  cases hused : source.isUsed with
  | false =>
    rw [contribution_of_not_used _ _ _ _ _ _ _ hused]
    simp
  | true =>
    rw [contribution_of_used _ _ _ _ _ _ _ hused]
    cases modelFor chain cache buyToken sellToken source with
    | none => simp
    | some slippageModel => simp [calculateExpectedSlippageForModel]

end OneSource

/-! ## The expected slippage -/

/-- What is claimed of the expected slippage of a breakdown: it is `null` exactly when a source that
is used has no model; otherwise it is at most zero and at least the largest slippage on the sum of
the proportions; and neither the order of the sources nor the order of the tokens matters. -/
structure ExpectedSlippageSpec (chain : ChainTokens) (slippageModels : List SlippageModel)
    (cache : SlippageModelCache) (buyToken sellToken : String) (buyAmount sellAmount : BigNumber)
    (sources : List LiquiditySource) (maxSlippageRate : ℚ) : Prop where
  null_iff :
    calculateExpectedSlippage chain cache buyToken sellToken buyAmount sellAmount sources
        maxSlippageRate = none ↔
      ∃ source ∈ sources, source.isUsed = true ∧
        ¬ HasModel slippageModels (pairKeyOf chain buyToken sellToken) source.name
  bounds : ∀ expectedSlippage,
    calculateExpectedSlippage chain cache buyToken sellToken buyAmount sellAmount sources
        maxSlippageRate = some expectedSlippage →
      ∃ q : ℚ, expectedSlippage = .fin q ∧
        -(maxSlippageRate * (sources.map fun source => source.proportion.toRat).sum) ≤ q ∧ q ≤ 0
  order : ∀ sources' : List LiquiditySource, sources'.Perm sources →
    calculateExpectedSlippage chain cache buyToken sellToken buyAmount sellAmount sources'
        maxSlippageRate =
      calculateExpectedSlippage chain cache buyToken sellToken buyAmount sellAmount sources
        maxSlippageRate
  swap :
    calculateExpectedSlippage chain cache sellToken buyToken sellAmount buyAmount sources
        maxSlippageRate =
      calculateExpectedSlippage chain cache buyToken sellToken buyAmount sellAmount sources
        maxSlippageRate

/-- Every model that is found for a source that is used has a price that can be reckoned with. -/
def AllPriced (chain : ChainTokens) (cache : SlippageModelCache) (buyToken sellToken : String)
    (buyAmount sellAmount : ℚ) (sources : List LiquiditySource) : Prop :=
  ∀ source ∈ sources, source.isUsed = true → ∀ slippageModel,
    modelFor chain cache buyToken sellToken source = some slippageModel →
      slippageModel.Priced (token0AmountOf chain buyToken buyAmount sellAmount slippageModel)

section Spec

variable {chain : ChainTokens} {slippageModels : List SlippageModel} {buyToken sellToken : String}
  {buyAmount sellAmount maxSlippageRate : ℚ} {sources : List LiquiditySource}

theorem calculateExpectedSlippage_eq_none_iff :
    calculateExpectedSlippage chain (cacheOf slippageModels) buyToken sellToken (.fin buyAmount)
        (.fin sellAmount) sources maxSlippageRate = none ↔
      ∃ source ∈ sources, source.isUsed = true ∧
        ¬ HasModel slippageModels (pairKeyOf chain buyToken sellToken) source.name := by
  rw [calculateExpectedSlippage_eq, ite_eq_right_iff]
  simp only [reduceCtorEq, imp_false, not_forall, Bool.not_eq_true, Option.isSome_eq_false_iff,
    Option.isNone_iff_eq_none, contribution_eq_none_iff, exists_prop, modelFor,
    getModel_eq_none_iff]

/-- The price of a model can be reckoned with for a share of an amount when it can for the
amount. -/
theorem priced_mul_iff {slippageModel : SlippageModel} {proportion amount : ℚ}
    (h : proportion ≠ 0) :
    slippageModel.Priced (proportion * amount) ↔ slippageModel.Priced amount := by
  unfold SlippageModel.Priced
  rw [mul_ne_zero_iff, and_iff_right h]

/-- What a source that is used contributes, by whether the price can be reckoned with. -/
theorem contribution_cases {cache : SlippageModelCache} {source : LiquiditySource}
    (hproportion : IsAmount source.proportion) (hmax : 0 ≤ maxSlippageRate)
    (hused : source.isUsed = true) {slippageModel : SlippageModel}
    (hmodel : modelFor chain cache buyToken sellToken source = some slippageModel) :
    (slippageModel.Priced (token0AmountOf chain buyToken buyAmount sellAmount slippageModel) ∧
        ∃ q : ℚ,
          contribution chain cache buyToken sellToken (.fin buyAmount)
              (.fin sellAmount) maxSlippageRate source = some (.fin q) ∧
            -(maxSlippageRate * source.proportion.toRat) ≤ q ∧ q ≤ 0) ∨
      ¬ slippageModel.Priced (token0AmountOf chain buyToken buyAmount sellAmount slippageModel) ∧
        contribution chain cache buyToken sellToken (.fin buyAmount)
            (.fin sellAmount) maxSlippageRate source = some .nan := by
  obtain ⟨p, hp, hp₀⟩ := hproportion
  have hne : p ≠ 0 := by
    rintro rfl
    simp [LiquiditySource.isUsed, hp] at hused
  rw [contribution_of_used _ _ _ _ _ _ _ hused, hmodel, hp, Option.bind_some, times_fin]
  by_cases hpriced :
      slippageModel.Priced (token0AmountOf chain buyToken buyAmount sellAmount slippageModel)
  · obtain ⟨q, hq, hlow, hhigh⟩ := forModel_of_priced hmax ((priced_mul_iff hne).mpr hpriced)
    refine .inl ⟨hpriced, p * q, by rw [hq, Option.map_some, times_fin], ?_, ?_⟩
    · have hmul := mul_le_mul_of_nonneg_left hlow hp₀
      rw [toRat_fin]
      linarith
    · exact mul_nonpos_of_nonneg_of_nonpos hp₀ hhigh
  · refine .inr ⟨hpriced, ?_⟩
    rw [forModel_of_not_priced ((priced_mul_iff hne).not.mpr hpriced), Option.map_some, times_nan]

/-- Contributions that are cut off add up to what is cut off. -/
theorem calculateExpectedSlippage_bounds
    (h : ∀ source ∈ sources, ∃ q : ℚ,
      contribution chain (cacheOf slippageModels) buyToken sellToken (.fin buyAmount)
          (.fin sellAmount) maxSlippageRate source = some (.fin q) ∧
        -(maxSlippageRate * source.proportion.toRat) ≤ q ∧ q ≤ 0) :
    ∃ q : ℚ,
      calculateExpectedSlippage chain (cacheOf slippageModels) buyToken sellToken (.fin buyAmount)
          (.fin sellAmount) sources maxSlippageRate = some (.fin q) ∧
        -(maxSlippageRate * (sources.map fun source => source.proportion.toRat).sum) ≤ q ∧
          q ≤ 0 := by
  rw [calculateExpectedSlippage_eq, if_pos]
  · induction sources with
    | nil => exact ⟨0, rfl, by simp, le_rfl⟩
    | cons source sources ih =>
      obtain ⟨q, hq, hlow, hhigh⟩ := h source List.mem_cons_self
      obtain ⟨r, hr, hlow', hhigh'⟩ := ih fun s hs => h s (List.mem_cons_of_mem _ hs)
      refine ⟨q + r, ?_, ?_, by linarith⟩
      · rw [List.filterMap_cons_some hq, sumAmounts_cons, Option.some.inj hr, plus_fin]
      · rw [List.map_cons, List.sum_cons, mul_add]
        linarith
  · intro source hsource
    obtain ⟨q, hq, _⟩ := h source hsource
    rw [hq]
    rfl

/-- The order of the tokens does not matter. -/
theorem calculateExpectedSlippage_swap {isAddress : String → Bool}
    (haddress : ∀ token, isAddress token = true → '-' ∉ token.toList) {content : FileContent}
    (hparse : parseSlippageModels isAddress content = .ok slippageModels)
    (hdistinct : normalizeTokenAddress chain buyToken ≠ normalizeTokenAddress chain sellToken) :
    calculateExpectedSlippage chain (cacheOf slippageModels) sellToken buyToken (.fin sellAmount)
        (.fin buyAmount) sources maxSlippageRate =
      calculateExpectedSlippage chain (cacheOf slippageModels) buyToken sellToken (.fin buyAmount)
        (.fin sellAmount) sources maxSlippageRate := by
  have hmodel : ∀ source, modelFor chain (cacheOf slippageModels) sellToken buyToken source =
      modelFor chain (cacheOf slippageModels) buyToken sellToken source := by
    intro source
    unfold modelFor pairKeyOf
    rw [toKey_comm]
  have hsame : contribution chain (cacheOf slippageModels) sellToken buyToken (.fin sellAmount)
        (.fin buyAmount) maxSlippageRate =
      contribution chain (cacheOf slippageModels) buyToken sellToken (.fin buyAmount)
        (.fin sellAmount) maxSlippageRate := by
    funext source
    cases hused : source.isUsed with
    | false => rw [contribution_of_not_used _ _ _ _ _ _ _ hused,
        contribution_of_not_used _ _ _ _ _ _ _ hused]
    | true =>
      rw [contribution_of_used _ _ _ _ _ _ _ hused, contribution_of_used _ _ _ _ _ _ _ hused,
        hmodel]
      apply Option.bind_congr
      intro slippageModel hfound
      -- the first token of the model is one of the two, and not the other
      have hamount : token0AmountOf chain sellToken sellAmount buyAmount slippageModel =
          token0AmountOf chain buyToken buyAmount sellAmount slippageModel := by
        unfold token0AmountOf
        rcases token0_of_modelFor haddress hparse hfound with hbuy | hsell
        · rw [if_neg (hbuy ▸ hdistinct), if_pos hbuy]
        · rw [if_pos hsell, if_neg (hsell ▸ hdistinct.symm)]
      rw [hamount]
  rw [calculateExpectedSlippage_eq, calculateExpectedSlippage_eq, hsame]

/-- For addresses without a dash, two different tokens, finite amounts, proportions that are not
negative and a largest slippage that is not negative: the expected slippage is as claimed exactly
when a model is missing or the prices of all models that are used can be reckoned with. -/
theorem expectedSlippageSpec_iff {isAddress : String → Bool}
    (haddress : ∀ token, isAddress token = true → '-' ∉ token.toList) {content : FileContent}
    (hparse : parseSlippageModels isAddress content = .ok slippageModels)
    {cache : SlippageModelCache} (hcache : createSlippageModelCache isAddress content = .ok cache)
    (hdistinct : normalizeTokenAddress chain buyToken ≠ normalizeTokenAddress chain sellToken)
    (hproportions : ∀ source ∈ sources, IsAmount source.proportion) (hmax : 0 ≤ maxSlippageRate) :
    ExpectedSlippageSpec chain slippageModels cache buyToken sellToken (.fin buyAmount)
        (.fin sellAmount) sources maxSlippageRate ↔
      (∃ source ∈ sources, source.isUsed = true ∧
          ¬ HasModel slippageModels (pairKeyOf chain buyToken sellToken) source.name) ∨
        AllPriced chain cache buyToken sellToken buyAmount sellAmount sources := by
  rw [createSlippageModelCache, hparse] at hcache
  obtain rfl : cacheOf slippageModels = cache := Except.ok.inj hcache
  have hnone := @calculateExpectedSlippage_eq_none_iff chain slippageModels buyToken sellToken
    buyAmount sellAmount maxSlippageRate sources
  constructor
  · intro hspec
    by_cases hmissing : ∃ source ∈ sources, source.isUsed = true ∧
        ¬ HasModel slippageModels (pairKeyOf chain buyToken sellToken) source.name
    · exact .inl hmissing
    · right
      intro source hsource hused slippageModel hmodel
      rcases contribution_cases (hproportions source hsource) hmax hused hmodel with
        ⟨hpriced, _⟩ | ⟨_, hnan⟩
      · exact hpriced
      · -- one contribution that is no number spoils the sum
        have hsum := calculateExpectedSlippage_eq chain (cacheOf slippageModels) buyToken sellToken
          (.fin buyAmount) (.fin sellAmount) maxSlippageRate sources
        rw [sumAmounts_of_nan_mem (List.mem_filterMap.mpr ⟨source, hsource, hnan⟩)] at hsum
        split at hsum
        · obtain ⟨q, hq, _⟩ := hspec.bounds _ hsum
          cases hq
        · exact absurd (hnone.mp hsum) hmissing
  · -- of the claim only the bounds depend on the prices
    intro hcondition
    refine ⟨hnone, ?_, fun sources' hperm => calculateExpectedSlippage_perm _ _ _ _ _ _ _ hperm,
      calculateExpectedSlippage_swap haddress hparse hdistinct⟩
    intro expectedSlippage hsome
    have hpresent := mt hnone.mpr (hsome ▸ Option.some_ne_none expectedSlippage)
    have hpriced := hcondition.resolve_left hpresent
    have hall : ∀ source ∈ sources, ∃ q : ℚ,
        contribution chain (cacheOf slippageModels) buyToken sellToken (.fin buyAmount)
            (.fin sellAmount) maxSlippageRate source = some (.fin q) ∧
          -(maxSlippageRate * source.proportion.toRat) ≤ q ∧ q ≤ 0 := by
      intro source hsource
      have hproportion := hproportions source hsource
      cases hused : source.isUsed with
      | false =>
        -- a native source, or a proportion of zero
        refine ⟨0, contribution_of_not_used _ _ _ _ _ _ _ hused, ?_, le_rfl⟩
        have hmul := mul_nonneg hmax hproportion.toRat_nonneg
        linarith
      | true =>
        cases hmodel : modelFor chain (cacheOf slippageModels) buyToken sellToken source with
        | none => exact absurd ⟨source, hsource, hused, getModel_eq_none_iff.mp hmodel⟩ hpresent
        | some slippageModel =>
          rcases contribution_cases hproportion hmax hused hmodel with ⟨_, hq⟩ | ⟨hnot, _⟩
          · exact hq
          · exact absurd (hpriced source hsource hused slippageModel hmodel) hnot
    obtain ⟨q, hq, hbounds⟩ := calculateExpectedSlippage_bounds hall
    exact ⟨q, Option.some.inj (hsome.symm.trans hq), hbounds⟩

end Spec

/-! ### A file with a price and a file without -/

namespace SlippageModelManager

/-- USDC on Mainnet. -/
def usdc : String := "0xa0b86991c6218b36c1d19d4a2e9eb0ce3606eb48"

/-- WETH on Mainnet. -/
def weth : String := "0xc02aaa39b223fe8d0a0e5c4f27ead9083c756cc2"

/-- An address as the schema has it: `0x` and forty hexadecimal digits. -/
def matchesAddress (token : String) : Bool :=
  decide (token.toList.take 2 = ['0', 'x']) && decide (token.toList.length = 42) &&
    (token.toList.drop 2).all fun c => hexAlphabet.contains c.toLower

theorem dash_notMem_of_matchesAddress {token : String} (h : matchesAddress token = true) :
    '-' ∉ token.toList := by
  simp only [matchesAddress, Bool.and_eq_true, decide_eq_true_eq, List.all_eq_true] at h
  obtain ⟨⟨hmarker, _⟩, hdigits⟩ := h
  rw [← List.take_append_drop 2 token.toList, hmarker, List.mem_append, not_or]
  refine ⟨by decide, fun hdash => ?_⟩
  exact absurd (hdigits _ hdash) (by decide)

/-- A model of a pair, at a price. -/
def modelAt (price : BigNumber) : SlippageModel where
  token0 := usdc
  token1 := weth
  source := "Curve"
  slippageCoefficient := -3 / 10 ^ 7
  volumeCoefficient := -1 / 10 ^ 9
  intercept := 0
  token0PriceInUsd := price

/-- A file of this model. -/
def fileAt (price : BigNumber) : FileContent :=
  .array
    [{ token0 := some usdc
       token1 := some weth
       source := some "Curve"
       slippageCoefficient := some (-3 / 10 ^ 7)
       volumeCoefficient := some (-1 / 10 ^ 9)
       intercept := some 0
       token0PriceInUsd := price }]

theorem parse_fileAt (price : BigNumber) :
    parseSlippageModels matchesAddress (fileAt price) = .ok [modelAt price] := by
  have husdc : matchesAddress usdc = true := by decide +kernel
  have hweth : matchesAddress weth = true := by decide +kernel
  simp [parseSlippageModels, fileAt, ParsedModel.validate, husdc, hweth, modelAt]

/-- Mainnet, with tokens that are not native. -/
def mainnet : ChainTokens := ⟨fun _ => false, weth⟩

theorem normalizeTokenAddress_mainnet (token : String) :
    normalizeTokenAddress mainnet token = token.toLower := if_neg Bool.false_ne_true

/-- All of an order through Curve. -/
def allCurve : List LiquiditySource := [⟨"Curve", .fin 1⟩]

theorem modelFor_curve (price : BigNumber) :
    modelFor mainnet (cacheOf [modelAt price]) usdc weth ⟨"Curve", .fin 1⟩ =
      some (modelAt price).cached := by
  have hkey : pairKeyOf mainnet usdc weth = toKey usdc weth := by
    rw [pairKeyOf, normalizeTokenAddress_mainnet, normalizeTokenAddress_mainnet, toKey_toLower]
  have hle : usdc.toLower ≤ weth.toLower := by decide +kernel
  have hvalid : usdc.toLower.toList.isPrefixOf (toKey usdc weth).toList = true := by
    simp [toKey_eq, hle]
  have hof : (modelAt price).isOf (toKey usdc weth) "Curve" = true := by
    simp [SlippageModel.isOf, SlippageModel.isValid, modelAt, hvalid]
  rw [modelFor, hkey, getModel_cacheOf, List.reverse_singleton, List.find?_singleton, if_pos hof,
    Option.map_some]

/-- A file whose model has no price is accepted, and what is expected is no number. -/
theorem unpriced_file_expects_nan :
    parseSlippageModels matchesAddress (fileAt .nan) = .ok [modelAt .nan] ∧
      ∃ cache, createSlippageModelCache matchesAddress (fileAt .nan) = .ok cache ∧
        calculateExpectedSlippage mainnet cache usdc weth (.fin 100) (.fin 1) allCurve (3 / 100) =
          some .nan ∧
        ¬ ExpectedSlippageSpec mainnet [modelAt .nan] cache usdc weth (.fin 100) (.fin 1) allCurve
            (3 / 100) := by
  have hparse := parse_fileAt .nan
  have hnan : calculateExpectedSlippage mainnet (cacheOf [modelAt .nan]) usdc weth (.fin 100)
      (.fin 1) allCurve (3 / 100) = some .nan := by
    have hcontribution : contribution mainnet (cacheOf [modelAt .nan]) usdc weth (.fin 100)
        (.fin 1) (3 / 100) ⟨"Curve", .fin 1⟩ = some .nan := by
      have hmax : (0 : ℚ) ≤ 3 / 100 := by norm_num
      rcases contribution_cases ⟨1, rfl, zero_le_one⟩ hmax rfl (modelFor_curve .nan) with
        ⟨hpriced, _⟩ | ⟨_, h⟩
      · exact absurd rfl hpriced.1
      · exact h
    rw [calculateExpectedSlippage_eq, allCurve, if_pos (by simp [hcontribution]),
      List.filterMap_cons_some hcontribution]
    rfl
  refine ⟨hparse, cacheOf [modelAt .nan], ?_, hnan, fun hspec => ?_⟩
  · rw [createSlippageModelCache, hparse]
    rfl
  · obtain ⟨q, hq, _⟩ := hspec.bounds _ hnan
    cases hq

/-- With a price it is as claimed. -/
theorem priced_file_bounded :
    ∃ cache, createSlippageModelCache matchesAddress (fileAt (.fin (1 / 10 ^ 6))) = .ok cache ∧
      ExpectedSlippageSpec mainnet [modelAt (.fin (1 / 10 ^ 6))] cache usdc weth (.fin 100) (.fin 1)
        allCurve (3 / 100) := by
  have hparse := parse_fileAt (.fin (1 / 10 ^ 6))
  have hcache : createSlippageModelCache matchesAddress (fileAt (.fin (1 / 10 ^ 6))) =
      .ok (cacheOf [modelAt (.fin (1 / 10 ^ 6))]) := by
    rw [createSlippageModelCache, hparse]
    rfl
  have hproportions : ∀ source ∈ allCurve, IsAmount source.proportion := by
    intro source hsource
    rw [List.mem_singleton.mp hsource]
    exact ⟨1, rfl, zero_le_one⟩
  refine ⟨_, hcache, (expectedSlippageSpec_iff (fun _ => dash_notMem_of_matchesAddress) hparse
    hcache (by decide +kernel) hproportions (by norm_num)).mpr (.inr ?_)⟩
  intro source _ _ slippageModel hfound
  obtain ⟨m, hm, _, rfl⟩ := exists_of_getModel hfound
  rw [List.mem_singleton.mp hm]
  exact ⟨by simp [modelAt, SlippageModel.cached], by simp [modelAt, SlippageModel.cached]⟩

end SlippageModelManager

end ZeroExApi
