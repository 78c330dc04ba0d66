/-
# ZeroExApi.AffiliateFees — the fee an integrator takes in the bought token

`parseAffiliateFeeOptions` of `utils/parse_utils.ts` and the fee functions of
`utils/service_utils.ts`.  A percentage fee is taken of what is bought at least; the fee of a
gasless swap is what its gas costs.

The last section says which fees a request can ask for (`parseAffiliateFeeOptions_accepted`).
-/

import ZeroExApi.QuoteConsumerUtils

namespace ZeroExApi.AffiliateFees

open ZeroExApi.Lib ZeroExApi.Lib.Fallible ZeroExApi.QuoteConsumerUtils

/-! ## Requests -/

/-- `ValidationErrorCodes`, the ones that are used. -/
inductive ValidationErrorCode where
  | incorrectFormat
  | valueOutOfRange
  | unsupportedOption
  deriving DecidableEq

/-- `ValidationErrorItem`. -/
structure ValidationErrorItem where
  field : String
  code : ValidationErrorCode
  reason : String
  deriving DecidableEq

/-- The query parameters that ask for a fee; a percentage is `none` where it is not a number. -/
structure AffiliateFeeQuery where
  feeRecipient : Option String
  sellTokenPercentageFee : Option ℚ
  buyTokenPercentageFee : Option ℚ
  feeType : Option String

/-- `FeeParamTypes.GASLESS_FEE`. -/
def GASLESS_FEE : String := "GASLESS_FEE"

/-- `AffiliateFee`; the percentages are those of the kinds that have them. -/
structure AffiliateFee where
  feeType : AffiliateFeeType
  recipient : String
  sellTokenPercentageFee : ℚ := 0
  buyTokenPercentageFee : ℚ := 0
  deriving DecidableEq

/-- The kind of fee a query asks for. -/
def queryFeeType (query : AffiliateFeeQuery) : AffiliateFeeType :=
  if query.buyTokenPercentageFee.getD 0 > 0 then
    .percentageFee
  else if query.feeType = some GASLESS_FEE then
    .gaslessFee
  else
    .none

/-- `parseAffiliateFeeOptions`. -/
def parseAffiliateFeeOptions (query : AffiliateFeeQuery) :
    Except ValidationErrorItem AffiliateFee :=
  let sellTokenPercentageFee := query.sellTokenPercentageFee.getD 0
  let buyTokenPercentageFee := query.buyTokenPercentageFee.getD 0
  let feeType := queryFeeType query
  if sellTokenPercentageFee > 0 then
    .error ⟨"sellTokenPercentageFee", .unsupportedOption, "ARGUMENT_NOT_YET_SUPPORTED"⟩
  else if buyTokenPercentageFee > 1 then
    .error ⟨"buyTokenPercentageFee", .valueOutOfRange, "MUST_BE_LESS_THAN_OR_EQUAL_TO_ONE"⟩
  else if feeType ≠ .none ∧ query.feeRecipient = none then
    .error ⟨"feeRecipient", .unsupportedOption, "FEE_RECIPIENT_MISSING"⟩
  else
    match query.feeRecipient with
    | some feeRecipient =>
      -- an empty recipient counts as none
      if feeRecipient = "" then
        .ok ⟨feeType, NULL_ADDRESS, 0, 0⟩
      else
        .ok ⟨feeType, feeRecipient, sellTokenPercentageFee, buyTokenPercentageFee⟩
    | none => .ok ⟨feeType, NULL_ADDRESS, 0, 0⟩

/-! ## Amounts -/

/-- `AffiliateFeeAmounts`. -/
structure AffiliateFeeAmounts where
  gasCost : BigNumber
  sellTokenFeeAmount : BigNumber
  buyTokenFeeAmount : BigNumber

/-- `AFFILIATE_FEE_TRANSFORMER_GAS`. -/
def AFFILIATE_FEE_TRANSFORMER_GAS : BigNumber := .fin 15000

/-- `POSITIVE_SLIPPAGE_FEE_TRANSFORMER_GAS`. -/
def POSITIVE_SLIPPAGE_FEE_TRANSFORMER_GAS : BigNumber := .fin 30000

/-- `getBuyTokenPercentageFeeOrZero`. -/
def getBuyTokenPercentageFeeOrZero (affiliateFee : AffiliateFee) : ℚ :=
  match affiliateFee.feeType with
  | .gaslessFee | .positiveSlippageFee => 0
  | _ => affiliateFee.buyTokenPercentageFee

/-- `getBuyTokenFeeAmounts`; whether gasless swaps have a fee is configured. -/
def getBuyTokenFeeAmounts (gaslessSwapFeeEnabled : Bool) (quote : SwapQuote)
    (fee : AffiliateFee) : AffiliateFeeAmounts :=
  if fee.feeType = .none ∨ fee.recipient = NULL_ADDRESS ∨ fee.recipient = "" then
    ⟨ZERO_AMOUNT, ZERO_AMOUNT, ZERO_AMOUNT⟩
  else if fee.feeType = .gaslessFee then
    let buyTokenFeeAmount :=
      if gaslessSwapFeeEnabled then
        ((quote.makerAmountPerEth.times quote.gasPrice).times
          (.fin quote.worstCaseQuoteInfo.gas)).integerValue .down
      else
        ZERO_AMOUNT
    ⟨AFFILIATE_FEE_TRANSFORMER_GAS, ZERO_AMOUNT, buyTokenFeeAmount⟩
  else
    let minBuyAmount := quote.worstCaseQuoteInfo.makerAmount
    let buyTokenFeeAmount :=
      ((minBuyAmount.times (.fin (getBuyTokenPercentageFeeOrZero fee))).div
        (.fin (getBuyTokenPercentageFeeOrZero fee + 1))).integerValue .down
    let gasCost :=
      if fee.feeType = .percentageFee then
        AFFILIATE_FEE_TRANSFORMER_GAS
      else
        POSITIVE_SLIPPAGE_FEE_TRANSFORMER_GAS
    ⟨gasCost, ZERO_AMOUNT, buyTokenFeeAmount⟩

/-! ## The fees that can be asked for -/

/-- No fee, a share of at most the whole, or the fee of a gasless swap. -/
inductive AcceptedFee (fee : AffiliateFee) : Prop
  | none (feeType_eq : fee.feeType = .none) (zero : fee.buyTokenPercentageFee = 0)
  | percentageFee (feeType_eq : fee.feeType = .percentageFee)
      (nonneg : 0 ≤ fee.buyTokenPercentageFee) (le_one : fee.buyTokenPercentageFee ≤ 1)
  | gaslessFee (feeType_eq : fee.feeType = .gaslessFee)

/-- A parsed fee with the percentages of the query, or none for want of a recipient. -/
theorem parseAffiliateFeeOptions_eq_ok {query : AffiliateFeeQuery} {fee : AffiliateFee}
    (h : parseAffiliateFeeOptions query = .ok fee) :
    query.buyTokenPercentageFee.getD 0 ≤ 1 ∧ fee.feeType = queryFeeType query ∧
      (fee.buyTokenPercentageFee = 0 ∨
        fee.buyTokenPercentageFee = query.buyTokenPercentageFee.getD 0) := by
  unfold parseAffiliateFeeOptions at h
  dsimp only at h
  split at h
  · cases h
  split at h
  · cases h
  rename_i hle
  split at h
  · cases h
  refine ⟨not_lt.mp hle, ?_⟩
  split at h
  · split at h
    · cases h
      exact ⟨rfl, .inl rfl⟩
    · cases h
      exact ⟨rfl, .inr rfl⟩
  · cases h
    exact ⟨rfl, .inl rfl⟩

/-- A query whose percentage is not negative asks for an accepted fee, or is refused. -/
theorem parseAffiliateFeeOptions_accepted {query : AffiliateFeeQuery} {fee : AffiliateFee}
    (hnonneg : 0 ≤ query.buyTokenPercentageFee.getD 0)
    (h : parseAffiliateFeeOptions query = .ok fee) : AcceptedFee fee := by
  obtain ⟨hle, htype, hpercentage⟩ := parseAffiliateFeeOptions_eq_ok h
  unfold queryFeeType at htype
  split at htype
  · rcases hpercentage with hzero | heq
    · exact .percentageFee htype hzero.ge (by rw [hzero]; exact zero_le_one)
    · exact .percentageFee htype (heq ▸ hnonneg) (heq ▸ hle)
  · rename_i hpos
    have hzero : query.buyTokenPercentageFee.getD 0 = 0 := le_antisymm (not_lt.mp hpos) hnonneg
    split at htype
    · exact .gaslessFee htype
    · exact .none htype (hpercentage.elim id fun heq => heq.trans hzero)

end ZeroExApi.AffiliateFees
