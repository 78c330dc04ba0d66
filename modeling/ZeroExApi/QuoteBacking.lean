/-
# ZeroExApi.QuoteBacking — what stands behind the firm quotes in a swap quote

From the chain through the worker, the table, the validator and the router to the quote a taker is
given.  A fill of the first version of a firm quote is bounded by what the validator lets through of
it, and that by a balance the worker has sampled.  So what a fill takes of a maker was there: the
maker had it on the chain no more than two minutes before the validator computed, unless the maker
is new (`firmFill_backed`).  Two fills of one maker are each bounded so, their sum is not.

Second versions are never shown to a validator, and count as much as they say themselves.  Where the
request has no validator, first versions count in full as well.
-/

import ZeroExApi.RfqMakerBalances
import ZeroExApi.SwapQuoter

namespace ZeroExApi.Quoting

open ZeroExApi.BalanceChecker (ChainState)
open ZeroExApi.FirmQuoteValidator (RfqOrderFields Covered IsRowOf)
open ZeroExApi.Fills (nativeOrderToNormalizedAmounts)
open ZeroExApi.MakerBalanceCacheRunner ZeroExApi.RfqMakerBalances
open ZeroExApi.SwapService (PricedSwapQuote)
open ZeroExApi.Lib ZeroExApi.Lib.BigNumber ZeroExApi.Lib.Transition ZeroExApi.NativeOrders
open ZeroExApi.Routing ZeroExApi.Routing.MarketOperationUtils

variable {Address : Type} [DecidableEq Address]
  (encodeAddress : String → Except JsError Address) (now : ℕ) (chain : ChainState Address)

/-- What the validator reads of an order. -/
def orderFields (order : NativeOrderFields) : RfqOrderFields where
  maker := order.maker
  makerToken := order.makerToken
  makerAmount := order.makerAmount
  takerAmount := order.takerAmount

/-- What a fill takes of the maker: on a sell, what the order makes of the input, which the contract
rounds down; on a buy the input itself. -/
def makerPart (side : MarketOperation) (order : NativeOrderFields) (input : ℚ) : ℚ :=
  match side with
  | .sell => ⌊input * order.makerAmount.toRat / order.takerAmount.toRat⌋
  | .buy => input

/-- A validator answers what a validation in some run resolves to. -/
def AnswersInRun (firmQuoteValidator : RfqFirmQuoteValidator) : Prop :=
  ∀ quotes amounts, firmQuoteValidator quotes = .ok amounts →
    ∃ es e, answer (after encodeAddress now chain es) e = some (quotes, amounts)

/-- What stands behind a part of a firm quote, when the table was read behind `read` and the
fillable amount computed behind `computed`: a balance that the maker had, or that the maker is
new. -/
inductive PartBacked (read computed : List (Event Address)) (order : NativeOrderFields)
    (part : ℚ) : Prop
  | nothing (part_le : part ≤ 0)
  | sampled (n time : ℕ)
    (seen : SeenAlong (step encodeAddress) (Seen encodeAddress) (initial now chain) read
      ⟨order.maker.toLower, order.makerToken.toLower, n, time⟩)
    (fresh : (after encodeAddress now chain computed).now ≤ time + RFQ_FIRM_QUOTE_CACHE_EXPIRY)
    (part_le : part ≤ n)
  | awaited (part_le : part ≤ order.makerAmount.toRat)
    (isNew : ∀ row ∈ (after encodeAddress now chain read).table, IsRowOf row (orderFields order) →
      row.timeOfSample = none ∧ ((after encodeAddress now chain computed).now : ℤ) ≤
        row.timeFirstSeen.getD 0 + RFQ_FIRM_QUOTE_CACHE_EXPIRY)

variable {encodeAddress now chain}

section Parts

variable {side : MarketOperation} {order : SignedNativeOrder} {input : BigNumber} {r : ℚ}

theorem toRat_le_of_not_gt {x : BigNumber} {a : ℚ} (h : x.gt (.fin a) = false) (ha : 0 ≤ a) :
    x.toRat ≤ a := by
  cases x with
  | fin q =>
    rw [gt_fin, decide_eq_false_iff_not, not_lt] at h
    exact h
  | nan => exact ha
  | inf negative => exact ha

/-- A fill within what is fillable takes no more of the maker than that makes. -/
theorem makerPart_le (hpos : (orderFields order.order).Positive) (hr : 0 ≤ r)
    (h : input.gt (nativeOrderToNormalizedAmounts side (withFillableAmount order (.fin r))).1 =
      false) :
    makerPart side order.order input.toRat ≤
      ⌊r * order.order.makerAmount.toRat / order.order.takerAmount.toRat⌋ := by
  obtain ⟨hmaker, hmaker₀, htaker, htaker₀⟩ := hpos
  dsimp only [orderFields] at hmaker hmaker₀ htaker htaker₀
  cases side with
  | sell =>
    have hinput : input.gt (.fin r) = false := by
      simpa [nativeOrderToNormalizedAmounts, withFillableAmount, ZERO_AMOUNT] using h
    have hle := toRat_le_of_not_gt hinput hr
    unfold makerPart
    dsimp only
    gcongr
  | buy =>
    have hamount : getNativeAdjustedMakerFillAmount order.order (.fin r) =
        .fin (⌊r * order.order.makerAmount.toRat / order.order.takerAmount.toRat⌋ : ℤ) := by
      unfold getNativeAdjustedMakerFillAmount
      rw [hmaker, htaker, times_fin, div_fin _ htaker₀.ne']
      rfl
    have hinput : input.gt (.fin
        (⌊r * order.order.makerAmount.toRat / order.order.takerAmount.toRat⌋ : ℤ)) = false := by
      rw [← hamount]
      exact h
    refine toRat_le_of_not_gt hinput ?_
    have hnonneg : 0 ≤ r * order.order.makerAmount.toRat / order.order.takerAmount.toRat := by
      positivity
    exact_mod_cast Int.floor_nonneg.mpr hnonneg

/-- What is let through of a quote is backed, and so is a fill within it. -/
theorem partBacked_of_backed {read computed : List (Event Address)}
    (hpos : (orderFields order.order).Positive) (hr : 0 ≤ r)
    (hbacked : Backed encodeAddress now chain read computed (orderFields order.order) r)
    (h : input.gt (nativeOrderToNormalizedAmounts side (withFillableAmount order (.fin r))).1 =
      false) :
    PartBacked encodeAddress now chain read computed order.order
      (makerPart side order.order input.toRat) := by
  have hle := makerPart_le hpos hr h
  cases hbacked with
  | nothing hamount =>
    refine .nothing (hle.trans ?_)
    rw [hamount, zero_mul, zero_div, Int.floor_zero, Int.cast_zero]
  | sampled n time hseen hfresh hcovered =>
    exact .sampled n time hseen hfresh (hle.trans hcovered.covers)
  | awaited hamount hnew =>
    refine .awaited (hle.trans ?_) hnew
    have htaker : order.order.takerAmount.toRat ≠ 0 := hpos.takerAmount_pos.ne'
    rw [hamount]
    dsimp only [orderFields]
    rw [mul_div_cancel_left₀ _ htaker]
    exact Int.floor_le _

end Parts

/-! ## What stands behind a fill -/

variable (encodeAddress now chain) in
/-- What stands behind a fill of a firm quote.  A first version has been let through by the
request's validator, in a run of validations, worker and chain; a second one stands for itself. -/
inductive FirmBacked (opts : SwapQuoteRequestOpts) (client : RfqClient) (side : MarketOperation)
    (order : NativeOrderWithFillableAmounts) (input : BigNumber) : Prop
  | validated (type_eq : order.type = .rfq) (request : RfqClientV1PriceRequest)
    (v1Quotes : List RfqClientV1Quote) (v1Quotes_eq : client.getV1Quotes request = .ok v1Quotes)
    (quote : RfqClientV1Quote) (mem : quote ∈ v1Quotes) (order_eq : order.order = quote.order)
    (validator : RfqFirmQuoteValidator)
    (validator_eq : ∃ rfqt, opts.rfqt = some rfqt ∧ rfqt.firmQuoteValidator = some validator)
    (amounts : List BigNumber)
    (amounts_eq : validator (v1Quotes.map fun quote => orderFields quote.order) = .ok amounts)
    (es : List (Event Address)) (e : Event Address)
    (answer_eq : answer (after encodeAddress now chain es) e =
      some (v1Quotes.map fun quote => orderFields quote.order, amounts))
    (read computed : List (Event Address))
    (moments : Moments encodeAddress now chain es e
      (v1Quotes.map fun quote => orderFields quote.order) read computed)
    (backed : PartBacked encodeAddress now chain read computed order.order
      (makerPart side order.order input.toRat))
  | unvalidated (type_eq : order.type = .otc) (request : RfqtV2Request)
    (v2Quotes : List RfqtV2Quote) (v2Quotes_eq : client.getV2Quotes request = .ok v2Quotes)
    (quote : RfqtV2Quote) (mem : quote ∈ v2Quotes)
    (order_eq : order = toSignedNativeOrderWithFillableAmounts quote)
    (within : input.gt (nativeOrderToNormalizedAmounts side order).1 = false)

section Backing

variable {q : SwapQuoter} {side : MarketOperation} {makerToken takerToken : String}
  {amount : BigNumber} {opts : SwapQuoteRequestOpts} {rfqClient : Option RfqClient}

/-- A fill within what the validator let through of the first version of a firm quote. -/
theorem firmBacked_of_firmV1 {client : RfqClient} {rfqt : RfqRequestOpts}
    (hrfqt : opts.rfqt = some rfqt) {validator : RfqFirmQuoteValidator}
    (hvalidator : rfqt.firmQuoteValidator = some validator)
    (hanswers : AnswersInRun encodeAddress now chain validator)
    {request : RfqClientV1PriceRequest} {v1Quotes : List RfqClientV1Quote}
    (hquotes : client.getV1Quotes request = .ok v1Quotes)
    (haskable : Askable (v1Quotes.map fun quote => orderFields quote.order))
    {amounts : List BigNumber}
    (hamounts : v1RfqTakerFillableAmounts rfqt (v1Quotes.map toSignedNativeOrder) = .ok amounts)
    {quote : RfqClientV1Quote} {fillable input : BigNumber}
    (hmem : (quote, fillable) ∈ v1Quotes.zip amounts)
    (hwithin : input.gt (nativeOrderToNormalizedAmounts side
      (withFillableAmount (toSignedNativeOrder quote) fillable)).1 = false) :
    FirmBacked encodeAddress now chain opts client side
      (withFillableAmount (toSignedNativeOrder quote) fillable) input := by
  have hvalidated :
      validator (v1Quotes.map fun quote => orderFields quote.order) = .ok amounts := by
    unfold v1RfqTakerFillableAmounts at hamounts
    rw [hvalidator] at hamounts
    dsimp only at hamounts
    rw [List.map_map] at hamounts
    exact hamounts
  obtain ⟨es, e, hanswer⟩ := hanswers _ _ hvalidated
  obtain ⟨read, computed, hmoments, hall⟩ := answer_backed es e hanswer haskable
  rw [AllBacked, List.forall₂_map_left_iff, List.forall₂_iff_zip] at hall
  obtain ⟨r, rfl, hr, _, hbacked⟩ := hall.2 hmem
  have hquote : quote ∈ v1Quotes := (List.of_mem_zip hmem).1
  have hpos : (orderFields (toSignedNativeOrder quote).order).Positive :=
    haskable.positive _ (List.mem_map_of_mem hquote)
  exact .validated rfl request v1Quotes hquotes quote hquote rfl validator
    ⟨rfqt, hrfqt, hvalidator⟩ amounts hvalidated es e hanswer read computed hmoments
    (partBacked_of_backed hpos hr hbacked hwithin)

/-- What a fill of a swap quote takes of the maker of a firm quote is backed, where that is of the
first version: the maker had it on the chain no more than the expiry before the validator computed,
or is new.  Of the second version it is what the maker says. -/
theorem firmFill_backed [Arithmetic]
    (hfirm : ∀ rfqt, opts.rfqt = some rfqt → rfqt.isIndicative = false ∧
      ∃ validator, rfqt.firmQuoteValidator = some validator ∧
        AnswersInRun encodeAddress now chain validator)
    (hclient : ∀ client ∈ rfqClient, ∀ request v1Quotes,
      client.getV1Quotes request = .ok v1Quotes →
        Askable (v1Quotes.map fun quote => orderFields quote.order))
    {quote : PricedSwapQuote}
    (hquote : q.getSwapQuote makerToken takerToken amount side opts rfqClient = .ok quote)
    {fill : Fill} (hfill : fill ∈ quote.path.fills) (hsource : fill.source = .native)
    {order : NativeOrderWithFillableAmounts} (hfillData : fill.fillData = .native order)
    (htype : order.type ≠ .limit) :
    ∃ client ∈ rfqClient,
      FirmBacked encodeAddress now chain opts client side order fill.input := by
  obtain ⟨limitOrders, sampled, _, hpermitted⟩ := SwapQuoter.getSwapQuote_permitted hquote
  cases hpermitted fill hfill with
  | limitOrder allowed limitOrder isOpen ofOrder =>
    obtain ⟨fillable, _, hof⟩ := ofOrder
    have hsame := hfillData.symm.trans hof.fillData_eq
    cases hsame
    exact absurd (SwapQuoter.type_fillableOrder isOpen fillable) htype
  | makerOrder allowed given mayAsk notContract comparisonPrice order' made ofOrder =>
    have hsame := hfillData.symm.trans ofOrder.fillData_eq
    have within := ofOrder.within
    cases hsame
    obtain ⟨hindicative, validator, hvalidator, hanswers⟩ := hfirm given mayAsk.rfqt_eq
    cases made with
    | indicative isIndicative =>
      exact absurd (hindicative.symm.trans isIndicative) Bool.false_ne_true
    | firmV1 _ client client_eq v1Quotes v1Quotes_eq amounts amounts_eq quote fillable mem
        order_eq =>
      rw [order_eq] at within ⊢
      exact ⟨client, client_eq, firmBacked_of_firmV1 mayAsk.rfqt_eq hvalidator hanswers v1Quotes_eq
        (hclient client client_eq _ _ v1Quotes_eq) amounts_eq mem within⟩
    | firmV2 _ client client_eq v2Quotes v2Quotes_eq quote mem order_eq =>
      rw [order_eq] at within ⊢
      exact ⟨client, client_eq,
        .unvalidated rfl _ v2Quotes v2Quotes_eq quote mem rfl within⟩
  | exchange ofExchange =>
    have hhop := ofExchange.isHop
    rw [hsource] at hhop
    cases hhop
  | twoHop _ _ ofTwoHop =>
    have htwoHop := hsource.symm.trans ofTwoHop.source_eq
    cases htwoHop

end Backing

/-! ### A quote behind a pass of the worker -/

/-- A validator that lets half of the quote through, as there are forty of eighty. -/
def halfValidator : RfqFirmQuoteValidator := fun quotes =>
  if quotes = [shortQuote] then .ok [.fin 5] else .error .typeError

theorem halfValidator_answersInRun : AnswersInRun anyAddress 1000 fiftyEach halfValidator := by
  intro quotes amounts h
  unfold halfValidator at h
  split at h
  · rename_i hquotes
    cases h
    rw [hquotes]
    exact ⟨askedTwice, .compute 1, askedTwice_answer⟩
  · cases h

/-- A fill of a firm quote. -/
def isFirmFill (fill : Fill) : Bool :=
  match fill.source, fill.fillData with
  | .native, .native order => decide (order.type ≠ .limit)
  | _, _ => false

/-- What the quote takes of the maker is backed. -/
theorem oneIntegrator_backed :
    ∃ quote : PricedSwapQuote, ∃ fill ∈ quote.path.fills, ∃ order,
      fill.fillData = .native order ∧
      ∃ client ∈ some oneMaker,
        FirmBacked anyAddress 1000 fiftyEach (ofIntegrator (some halfValidator)) client .sell order
          fill.input := by
  have hrun : Fallible.okAnd
      (oneIntegrator.getSwapQuote "d" "w" (.fin 9) .sell (ofIntegrator (some halfValidator))
        (some oneMaker))
      (fun quote => quote.path.fills.any isFirmFill) = true := by
    decide +kernel
  obtain ⟨quote, hquote, hany⟩ := Fallible.exists_of_okAnd hrun
  obtain ⟨fill, hfill, hfirm⟩ := List.any_eq_true.mp hany
  unfold isFirmFill at hfirm
  split at hfirm
  · rename_i order hsource hfillData
    refine ⟨quote, fill, hfill, order, hfillData, ?_⟩
    refine firmFill_backed ?_ ?_ hquote hfill hsource hfillData (of_decide_eq_true hfirm)
    · intro rfqt hrfqt
      cases hrfqt
      exact ⟨rfl, halfValidator, rfl, halfValidator_answersInRun⟩
    · intro client hclient request v1Quotes hv1Quotes
      cases hclient
      cases hv1Quotes
      exact shortQuote_askable
  · cases hfirm

end ZeroExApi.Quoting
