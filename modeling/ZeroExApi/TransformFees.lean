/-
# ZeroExApi.TransformFees — the fees of a transformERC20 call and the least amount it buys

`TransformERC20Rule.createCalldata`.  The list of transformations has four parts: the fees in the
sell token, the wraps and fills, the fees in the buy token, and the return of what is left.  The
loop over the fees in the buy token adds a transfer for some of them and lowers the least amount to
buy with each transfer (`addBuyTokenFee_adds`), never below zero on the way; so in the end it is
lowered by all of them at once (`foldl_lower`).
-/

import ZeroExApi.TransformErc20Rule

namespace ZeroExApi

open ZeroExApi.Lib ZeroExApi.Lib.BigNumber ZeroExApi.Lib.Fallible ZeroExApi.Orders
open ZeroExApi.QuoteConsumerUtils ZeroExApi.RoutedPath

namespace TransformERC20Rule

variable (rule : TransformERC20Rule) (quote : SwapQuote) (opts : ExchangeProxyContractOpts)

/-! ## The transfers of a call -/

/-- A wrap, an unwrap or a fill. -/
def IsSwapStep : ERC20Transformation → Prop
  | .weth _ _ | .fillQuote _ => True
  | _ => False

/-- A transfer of fees, or what is kept of positive slippage. -/
def IsFeeStep : ERC20Transformation → Prop
  | .affiliateFee _ | .positiveSlippageFee _ _ _ => True
  | _ => False

/-- The transfers of the fees in the sell token: one for each positive fee. -/
def sellTokenTransfers : List TokenFee :=
  (opts.sellTokenAffiliateFees.filter fun fee => fee.sellTokenFeeAmount.gt 0).map fun fee =>
    { token := if opts.isFromETH then ETH_TOKEN_ADDRESS else quote.takerToken
      amount := fee.sellTokenFeeAmount
      recipient := fee.recipient }

/-- A positive fee of a fixed amount, for a recipient. -/
def isTransferred (fee : AffiliateFeeAmount) : Bool :=
  decide (fee.recipient ≠ NULL_ADDRESS) &&
    (decide (fee.feeType = .percentageFee) || decide (fee.feeType = .gaslessFee)) &&
      fee.buyTokenFeeAmount.gt 0

/-- The transfer of a fee in the buy token. -/
def buyTokenTransfer (fee : AffiliateFeeAmount) : TokenFee where
  token := if opts.isToETH then ETH_TOKEN_ADDRESS else quote.makerToken
  amount := fee.buyTokenFeeAmount
  recipient := fee.recipient

/-- The transfers of the fees in the buy token, the one on positive slippage among them. -/
def buyTokenTransfers : List TokenFee :=
  ((opts.buyTokenAffiliateFees ++ opts.positiveSlippageFee.toList).filter isTransferred).map
    (buyTokenTransfer quote opts)

/-- The parts of a call: each part holds transformations of its kind only, the transfers are those
of the fees, and the least amount to buy is lowered by all that is transferred of it. -/
structure AccountsForFees (minOutputAmount : BigNumber)
    (sellTokenFees swap buyTokenFees : List ERC20Transformation) : Prop where
  sellTokenFees_only : ∀ t ∈ sellTokenFees, IsFeeStep t
  swap_only : ∀ t ∈ swap, IsSwapStep t
  buyTokenFees_only : ∀ t ∈ buyTokenFees, IsFeeStep t
  sellTokenFees_eq : sellTokenFees.flatMap paidFees = sellTokenTransfers quote opts
  buyTokenFees_eq : buyTokenFees.flatMap paidFees = buyTokenTransfers quote opts
  minOutputAmount_eq :
    minOutputAmount =
      BigNumber.max 0
        (quote.worstCaseQuoteInfo.makerAmount.minus
          (sumAmounts ((buyTokenFees.flatMap paidFees).map TokenFee.amount)))

/-! ## The fees in the sell token -/

theorem createSellTokenFeeTransformations_only :
    ∀ t ∈ createSellTokenFeeTransformations quote opts, IsFeeStep t := by
  unfold createSellTokenFeeTransformations
  split
  · rw [List.forall_mem_singleton]
    trivial
  · exact List.forall_mem_nil _

theorem createSellTokenFeeTransformations_paid :
    (createSellTokenFeeTransformations quote opts).flatMap paidFees =
      sellTokenTransfers quote opts := by
  unfold createSellTokenFeeTransformations sellTokenTransfers
  split
  · exact List.flatMap_singleton _ _
  · rename_i hnone
    have hnil : opts.sellTokenAffiliateFees = [] := List.eq_nil_of_length_eq_zero (by omega)
    rw [hnil]
    rfl

/-! ## Wraps and fills -/

theorem fillQuoteTransformation_only {data : FillQuoteTransformerData}
    {transformation : ERC20Transformation}
    (h : rule.fillQuoteTransformation data = .ok transformation) : IsSwapStep transformation := by
  obtain ⟨_, _, h⟩ := bind_eq_ok.mp h
  cases h
  trivial

theorem createTwoHopTransformations_only {transformations : List ERC20Transformation}
    (h : rule.createTwoHopTransformations quote opts = .ok transformations) :
    ∀ t ∈ transformations, IsSwapStep t := by
  obtain ⟨slipped, _, h⟩ := bind_eq_ok.mp h
  obtain ⟨hops, hhops, h⟩ := bind_eq_ok.mp h
  cases h
  intro t ht
  obtain ⟨hop, hhop, ht⟩ := List.mem_flatten.mp ht
  obtain ⟨twoHopOrder, _, hof⟩ := exists_of_mem_right (mapM_eq_ok_iff.mp hhops) hhop
  obtain ⟨_, _, hof⟩ := bind_eq_ok.mp hof
  obtain ⟨first, hfirst, hof⟩ := bind_eq_ok.mp hof
  obtain ⟨_, _, hof⟩ := bind_eq_ok.mp hof
  obtain ⟨second, hsecond, hof⟩ := bind_eq_ok.mp hof
  cases hof
  rcases List.mem_pair.mp ht with rfl | rfl
  · exact rule.fillQuoteTransformation_only hfirst
  · exact rule.fillQuoteTransformation_only hsecond

theorem createNonTwoHopTransformation_only {transformation : ERC20Transformation}
    (h : rule.createNonTwoHopTransformation quote opts = .ok (some transformation)) :
    IsSwapStep transformation := by
  obtain ⟨data, _, h⟩ := bind_eq_ok.mp h
  cases data with
  | none => cases h
  | some data =>
    obtain ⟨_, hmade, h⟩ := bind_eq_ok.mp h
    cases h
    exact rule.fillQuoteTransformation_only hmade

theorem createFillQuoteTransformations_only {transformations : List ERC20Transformation}
    (h : rule.createFillQuoteTransformations quote opts = .ok transformations) :
    ∀ t ∈ transformations, IsSwapStep t := by
  obtain ⟨twoHops, htwoHops, h⟩ := bind_eq_ok.mp h
  obtain ⟨nonTwoHop, hnonTwoHop, h⟩ := bind_eq_ok.mp h
  have honly := rule.createTwoHopTransformations_only quote opts htwoHops
  cases nonTwoHop with
  | none =>
    cases h
    exact honly
  | some transformation =>
    cases h
    intro t ht
    rcases List.mem_append.mp ht with hmem | hmem
    · exact honly t hmem
    · rw [List.mem_singleton.mp hmem]
      exact rule.createNonTwoHopTransformation_only quote opts hnonTwoHop

theorem createWethTransformations_only (condition : Bool) (token : String) (amount : BigNumber) :
    ∀ t ∈ rule.createWethTransformations condition token amount, IsSwapStep t := by
  unfold createWethTransformations
  split
  · rw [List.forall_mem_singleton]
    trivial
  · exact List.forall_mem_nil _

/-! ## The fees in the buy token -/

/-- The least amount to buy after a transfer. -/
def lower (minBuyAmount : BigNumber) (fee : TokenFee) : BigNumber :=
  BigNumber.max 0 (minBuyAmount.minus fee.amount)

/-- Lowering an amount step by step, never below zero, lowers it by the sum, not below zero. -/
theorem foldl_lower {fees : List TokenFee} (hfees : ∀ fee ∈ fees, IsAmount fee.amount)
    {minBuyAmount : BigNumber} (hmin : IsAmount minBuyAmount) :
    fees.foldl lower minBuyAmount =
      BigNumber.max 0 (minBuyAmount.minus (sumAmounts (fees.map TokenFee.amount))) := by
  obtain ⟨w, rfl, hw⟩ := hmin
  induction fees generalizing w with
  | nil =>
    rw [List.foldl_nil, List.map_nil, sumAmounts_nil, minus_fin, sub_zero, zero_eq, max_fin,
      max_eq_right hw]
  | cons fee fees ih =>
    obtain ⟨f, hf, hf₀⟩ := hfees fee List.mem_cons_self
    have hrest := fun x hx => hfees x (List.mem_cons_of_mem _ hx)
    have hsum : 0 ≤ ((fees.map TokenFee.amount).map toRat).sum := by
      apply List.sum_nonneg
      intro x hx
      obtain ⟨y, hy, rfl⟩ := List.mem_map.mp hx
      obtain ⟨t, ht, rfl⟩ := List.mem_map.mp hy
      exact (hrest t ht).toRat_nonneg
    have hamounts : ∀ x ∈ fees.map TokenFee.amount, IsAmount x := by
      intro x hx
      obtain ⟨t, ht, rfl⟩ := List.mem_map.mp hx
      exact hrest t ht
    rw [List.foldl_cons, lower, hf, minus_fin, zero_eq, max_fin, ← zero_eq,
      ih hrest _ (le_max_left _ _), List.map_cons, sumAmounts_cons, hf, sumAmounts_toRat hamounts,
      plus_fin, minus_fin, minus_fin, zero_eq, max_fin, max_fin]
    congr 1
    -- what comes after a cut at zero is cut at zero again
    rcases le_total 0 (w - f) with hle | hle
    · rw [max_eq_right hle, sub_sub]
    · rw [max_eq_left hle, max_eq_left (by linarith), max_eq_left (by linarith)]

/-- What is added to a state: transformations that pay some transfers, each of which lowers the
least amount to buy. -/
structure Adds (state state' : BuyTokenFeeState) (transfers : List TokenFee) : Prop where
  added : ∃ later,
    state'.transformations = state.transformations ++ later ∧ (∀ t ∈ later, IsFeeStep t) ∧
      later.flatMap paidFees = transfers
  minBuyAmount : state'.minBuyAmount = transfers.foldl lower state.minBuyAmount

theorem Adds.refl (state : BuyTokenFeeState) : Adds state state [] :=
  ⟨⟨[], (List.append_nil _).symm, List.forall_mem_nil _, rfl⟩, rfl⟩

theorem Adds.trans {state₁ state₂ state₃ : BuyTokenFeeState} {transfers transfers' : List TokenFee}
    (h : Adds state₁ state₂ transfers) (h' : Adds state₂ state₃ transfers') :
    Adds state₁ state₃ (transfers ++ transfers') := by
  obtain ⟨⟨later, heq, honly, hpaid⟩, hmin⟩ := h
  obtain ⟨⟨later', heq', honly', hpaid'⟩, hmin'⟩ := h'
  refine ⟨⟨later ++ later', ?_, List.forall_mem_append.mpr ⟨honly, honly'⟩, ?_⟩, ?_⟩
  · rw [heq', heq, List.append_assoc]
  · rw [List.flatMap_append, hpaid, hpaid']
  · rw [hmin', hmin, List.foldl_append]

/-- A transformation that pays nothing. -/
theorem Adds.of_unpaid {state state' : BuyTokenFeeState} {t : ERC20Transformation}
    (heq : state'.transformations = state.transformations ++ [t]) (hstep : IsFeeStep t)
    (hpaid : paidFees t = []) (hmin : state'.minBuyAmount = state.minBuyAmount) :
    Adds state state' [] := by
  refine ⟨⟨[t], heq, ?_, ?_⟩, hmin⟩
  · rw [List.forall_mem_singleton]
    exact hstep
  · rw [List.flatMap_singleton, hpaid]

/-- A fee of a fixed amount is transferred when it is positive. -/
theorem addFixedFee_adds (state : BuyTokenFeeState) (fee : AffiliateFeeAmount) :
    Adds state (addFixedFee (buyFeeToken quote opts) state fee)
      (if fee.buyTokenFeeAmount.gt 0 then [buyTokenTransfer quote opts fee] else []) := by
  unfold addFixedFee
  split
  · refine ⟨⟨_, rfl, ?_, rfl⟩, rfl⟩
    rw [List.forall_mem_singleton]
    trivial
  · exact Adds.refl state

theorem addBuyTokenFee_adds (state : BuyTokenFeeState) (fee : AffiliateFeeAmount) :
    Adds state (addBuyTokenFee quote opts state fee)
      (if isTransferred fee then [buyTokenTransfer quote opts fee] else []) := by
  unfold addBuyTokenFee
  dsimp only
  by_cases hrecipient : fee.recipient = NULL_ADDRESS
  · rw [if_pos hrecipient, if_neg (by simp [isTransferred, hrecipient])]
    exact Adds.refl state
  · rw [if_neg hrecipient]
    have hfixed : fee.feeType = .percentageFee ∨ fee.feeType = .gaslessFee →
        isTransferred fee = fee.buyTokenFeeAmount.gt 0 := by
      intro htype
      simp [isTransferred, hrecipient, htype]
    cases htype : fee.feeType with
    | none =>
      rw [if_neg (by simp [isTransferred, htype])]
      exact Adds.refl state
    | positiveSlippageFee =>
      -- it takes what is more than expected, which is no fixed amount
      rw [if_neg (by simp [isTransferred, htype])]
      exact Adds.of_unpaid rfl trivial rfl rfl
    | percentageFee =>
      rw [hfixed (.inl htype)]
      exact addFixedFee_adds quote opts state fee
    | gaslessFee =>
      rw [hfixed (.inr htype)]
      exact addFixedFee_adds quote opts state fee

/-- The loop over the fees adds a transfer for each fee that has one. -/
theorem addBuyTokenFees_adds (transformations : List ERC20Transformation) :
    Adds ⟨transformations, ZERO_AMOUNT, (getSwapContext quote opts).minBuyAmount⟩
      (addBuyTokenFees quote opts transformations) (buyTokenTransfers quote opts) := by
  -- the loop adds to any state
  suffices h : ∀ (fees : List AffiliateFeeAmount) (state : BuyTokenFeeState),
      Adds state (fees.foldl (addBuyTokenFee quote opts) state)
        ((fees.filter isTransferred).map (buyTokenTransfer quote opts)) from h _ _
  intro fees
  induction fees with
  | nil =>
    intro state
    exact Adds.refl state
  | cons fee fees ih =>
    intro state
    have hstep := (addBuyTokenFee_adds quote opts state fee).trans (ih _)
    rw [List.filter_cons]
    split at hstep
    · rename_i htransferred
      rw [if_pos htransferred]
      exact hstep
    · rename_i htransferred
      rw [if_neg htransferred]
      exact hstep

/-! ## The call -/

/-- What is transferred is an amount when the fees are. -/
theorem isAmount_buyTokenTransfers
    (hfees : ∀ fee ∈ opts.buyTokenAffiliateFees ++ opts.positiveSlippageFee.toList,
      IsAmount fee.buyTokenFeeAmount) :
    ∀ transfer ∈ buyTokenTransfers quote opts, IsAmount transfer.amount := by
  intro transfer htransfer
  obtain ⟨fee, hfee, rfl⟩ := List.mem_map.mp htransfer
  exact hfees fee (List.mem_of_mem_filter hfee)

/-- For every quote whose worst case makes an amount and all options with amounts for fees: the call
accounts for its fees, and what is left is returned by its last transformation. -/
theorem createCalldata_accountsForFees (hmaker : IsAmount quote.worstCaseQuoteInfo.makerAmount)
    (hfees : ∀ fee ∈ opts.buyTokenAffiliateFees ++ opts.positiveSlippageFee.toList,
      IsAmount fee.buyTokenFeeAmount)
    {info : CalldataInfo} (h : rule.createCalldata quote opts = .ok info) :
    ∃ inputToken outputToken inputAmount minOutputAmount sellTokenFees swap buyTokenFees tokens
        amounts,
      info.calldata =
          .transformERC20 inputToken outputToken inputAmount minOutputAmount
            (sellTokenFees ++ swap ++ buyTokenFees ++ [.payTaker tokens amounts]) ∧
        AccountsForFees quote opts minOutputAmount sellTokenFees swap buyTokenFees := by
  obtain ⟨fills, hfills, h⟩ := bind_eq_ok.mp h
  obtain ⟨⟨later, htransformations, hlater, hpaid⟩, hmin⟩ := addBuyTokenFees_adds quote opts
    (rule.createSwapTransformations quote opts fills)
  cases h
  dsimp only at htransformations ⊢
  rw [htransformations]
  refine ⟨_, _, _, _, createSellTokenFeeTransformations quote opts, _, later, _, _, rfl,
    createSellTokenFeeTransformations_only quote opts, ?_, hlater,
    createSellTokenFeeTransformations_paid quote opts, hpaid, ?_⟩
  · -- wraps, fills and unwraps
    rw [List.forall_mem_append, List.forall_mem_append]
    exact ⟨⟨rule.createWethTransformations_only _ _ _,
      rule.createFillQuoteTransformations_only quote opts hfills⟩,
      rule.createWethTransformations_only _ _ _⟩
  · rw [hmin, hpaid]
    exact foldl_lower (isAmount_buyTokenTransfers quote opts hfees) hmaker

/-! ### A fee of each kind -/

/-- A fee of one in the sell token, a percentage and a gasless fee of one in the buy token, and the
surplus for the integrator. -/
def feeOfEachKind : ExchangeProxyContractOpts where
  isFromETH := true
  sellTokenAffiliateFees := [⟨.gaslessFee, "integrator", .fin 0, .fin 1⟩]
  buyTokenAffiliateFees :=
    [⟨.percentageFee, "integrator", .fin 1, .fin 0⟩, ⟨.gaslessFee, "relayer", .fin 1, .fin 0⟩]
  positiveSlippageFee := some ⟨.positiveSlippageFee, "integrator", .fin 0, .fin 0⟩

theorem feeOfEachKind_accounted :
    ∃ path quote info,
      (plainOptimizer .sell 2).createPathFromRoute SellQuote.halvesRoute = .ok (some path) ∧
        createSwapQuote path (.fin 0) "output" "input" .sell (.fin 2) (.fin 0) (fun _ _ => 0) 0 =
          .ok quote ∧
        mainnetRule.createCalldata quote feeOfEachKind = .ok info ∧
        ∃ inputToken outputToken inputAmount minOutputAmount sellTokenFees swap buyTokenFees tokens
            amounts,
          info.calldata =
              .transformERC20 inputToken outputToken inputAmount minOutputAmount
                (sellTokenFees ++ swap ++ buyTokenFees ++ [.payTaker tokens amounts]) ∧
            AccountsForFees quote feeOfEachKind minOutputAmount sellTokenFees swap
              buyTokenFees := by
  obtain ⟨path, hpath, hcheck⟩ := (plainOptimizer .sell 2).exists_path_of_madePath
    SellQuote.halvesRoute
    (fun path =>
      okAnd (createSwapQuote path (.fin 0) "output" "input" .sell (.fin 2) (.fin 0)
        (fun _ _ => 0) 0) fun quote =>
        okAnd (mainnetRule.createCalldata quote feeOfEachKind) fun _ =>
          decide (quote.worstCaseQuoteInfo.makerAmount = .fin 20))
    (by decide +kernel)
  obtain ⟨quote, hquote, hcheck⟩ := exists_of_okAnd hcheck
  obtain ⟨info, hinfo, hcheck⟩ := exists_of_okAnd hcheck
  have hmaker : IsAmount quote.worstCaseQuoteInfo.makerAmount :=
    ⟨20, of_decide_eq_true hcheck, by norm_num⟩
  refine ⟨path, quote, info, hpath, hquote, hinfo,
    mainnetRule.createCalldata_accountsForFees quote feeOfEachKind hmaker ?_ hinfo⟩
  intro fee hfee
  simp only [feeOfEachKind, Option.toList_some, List.cons_append, List.nil_append, List.mem_cons,
    List.not_mem_nil, or_false] at hfee
  rcases hfee with rfl | rfl | rfl
  · exact ⟨1, rfl, zero_le_one⟩
  · exact ⟨1, rfl, zero_le_one⟩
  · exact isAmount_zero

end TransformERC20Rule

end ZeroExApi
