/-
# ZeroExApi.NativeOrders — what is fillable of a native order, on chain and off

`getLimitOrderFillableMakerAssetAmounts` of `contracts/src/NativeOrderSampler.sol` and the
conversions of `utils/utils.ts`.  A buy asks the chain how much can be made, which the chain
converts from how much can be taken, and converts the answer back.

Both conversions round up, so an order claims no more than it can fill exactly when there is nothing
to round (`fillable_in_buy_iff`).
-/

import ZeroExApi.QuoteSimulation
import Mathlib.Data.Nat.Cast.Field

namespace ZeroExApi.NativeOrders

open ZeroExApi.Lib ZeroExApi.QuoteSimulation

/-! ## On chain -/

/-- `IExchange.LimitOrder`, its amounts. -/
structure LimitOrder where
  makerAmount : ℕ
  takerAmount : ℕ

/-- `LibMathV06.getPartialAmountCeil`. -/
def getPartialAmountCeil (numerator denominator target : ℕ) : ℕ :=
  (numerator * target + (denominator - 1)) / denominator

/-- `getLimitOrderFillableTakerAssetAmounts`: a call that fails counts as zero. -/
def getLimitOrderFillableTakerAssetAmounts (amounts : List (Option ℕ)) : List ℕ :=
  amounts.map fun amount => amount.getD 0

/-- One turn of the loop of `getLimitOrderFillableMakerAssetAmounts`. -/
def fillableMakerAssetAmount (order : LimitOrder) (amount : ℕ) : ℕ :=
  if amount ≠ 0 then
    getPartialAmountCeil amount order.takerAmount order.makerAmount
  else
    amount

/-- `getLimitOrderFillableMakerAssetAmounts`. -/
def getLimitOrderFillableMakerAssetAmounts (orders : List LimitOrder)
    (amounts : List (Option ℕ)) : List ℕ :=
  List.zipWith fillableMakerAssetAmount orders (getLimitOrderFillableTakerAssetAmounts amounts)

/-! ## Off chain -/

/-- `SignedNativeOrder`. -/
structure SignedNativeOrder where
  order : NativeOrderFields
  type : FillQuoteTransformerOrderType
  signature : Signature

/-- `getNativeAdjustedMakerFillAmount`: down, as the rate favours the maker. -/
def getNativeAdjustedMakerFillAmount (order : NativeOrderFields) (takerFillAmount : BigNumber) :
    BigNumber :=
  ((takerFillAmount.times order.makerAmount).div order.takerAmount).integerValue .floor

/-- `getNativeAdjustedTakerFillAmount`: up, as the rate favours the maker. -/
def getNativeAdjustedTakerFillAmount (order : NativeOrderFields) (makerFillAmount : BigNumber) :
    BigNumber :=
  ((makerFillAmount.times order.takerAmount).div order.makerAmount).integerValue .ceil

/-- An order with amounts to fill; only a limit order has a fee. -/
def SignedNativeOrder.withAmounts (order : SignedNativeOrder)
    (makerFillableAmount takerFillableAmount : BigNumber) : NativeOrderWithFillableAmounts where
  order := order.order
  type := order.type
  signature := order.signature
  fillableMakerAmount := makerFillableAmount
  fillableTakerAmount := takerFillableAmount
  fillableTakerFeeAmount :=
    if order.type = .limit then
      getNativeAdjustedTakerFeeAmount order.order takerFillableAmount
    else
      ZERO_AMOUNT

/-- An order with `EMPTY_FILLABLE_AMOUNTS`. -/
def SignedNativeOrder.unfillable (order : SignedNativeOrder) : NativeOrderWithFillableAmounts where
  order := order.order
  type := order.type
  signature := order.signature
  fillableMakerAmount := ZERO_AMOUNT
  fillableTakerAmount := ZERO_AMOUNT
  fillableTakerFeeAmount := ZERO_AMOUNT

/-- `getNativeAdjustedFillableAmountsFromTakerAmount`, merged into the order. -/
def getNativeAdjustedFillableAmountsFromTakerAmount (order : SignedNativeOrder)
    (takerFillableAmount : BigNumber) : NativeOrderWithFillableAmounts :=
  if takerFillableAmount.isZero then
    order.unfillable
  else
    order.withAmounts (getNativeAdjustedMakerFillAmount order.order takerFillableAmount)
      takerFillableAmount

/-- `getNativeAdjustedFillableAmountsFromMakerAmount`, merged into the order. -/
def getNativeAdjustedFillableAmountsFromMakerAmount (order : SignedNativeOrder)
    (makerFillableAmount : BigNumber) : NativeOrderWithFillableAmounts :=
  if makerFillableAmount.isZero then
    order.unfillable
  else
    order.withAmounts makerFillableAmount
      (getNativeAdjustedTakerFillAmount order.order makerFillableAmount)

/-- The native orders of `getMarketSellLiquidityAsync`. -/
def sellNativeOrders (limitOrders : List SignedNativeOrder)
    (orderFillableTakerAmounts : List BigNumber) : List NativeOrderWithFillableAmounts :=
  List.zipWith getNativeAdjustedFillableAmountsFromTakerAmount limitOrders
    orderFillableTakerAmounts

/-- The native orders of `getMarketBuyLiquidityAsync`. -/
def buyNativeOrders (limitOrders : List SignedNativeOrder)
    (orderFillableMakerAmounts : List BigNumber) : List NativeOrderWithFillableAmounts :=
  List.zipWith getNativeAdjustedFillableAmountsFromMakerAmount limitOrders
    orderFillableMakerAmounts

/-! ## What an order claims -/

/-- An order with its counterpart on chain. -/
structure OnChain (order : SignedNativeOrder) (limitOrder : LimitOrder) : Prop where
  makerAmount_eq : order.order.makerAmount = .fin limitOrder.makerAmount
  takerAmount_eq : order.order.takerAmount = .fin limitOrder.takerAmount
  makerAmount_pos : 0 < limitOrder.makerAmount
  takerAmount_pos : 0 < limitOrder.takerAmount

/-- An order of which `amount` can be taken claims no more than that, nor to make more than taking
it delivers; and all of itself when all can be taken. -/
structure ClaimsNoMore (limitOrder : LimitOrder) (amount : ℕ)
    (result : NativeOrderWithFillableAmounts) : Prop where
  taker_le : result.fillableTakerAmount.lte (.fin amount) = true
  maker_le :
    result.fillableMakerAmount.lte
        (.fin (amount * limitOrder.makerAmount / limitOrder.takerAmount : ℕ)) = true
  whole : amount = limitOrder.takerAmount →
    result.fillableTakerAmount = .fin limitOrder.takerAmount ∧
      result.fillableMakerAmount = .fin limitOrder.makerAmount

theorem unfillable_claimsNoMore {order : SignedNativeOrder} {limitOrder : LimitOrder}
    (hpos : 0 < limitOrder.takerAmount) : ClaimsNoMore limitOrder 0 order.unfillable where
  taker_le := by simp [SignedNativeOrder.unfillable, ZERO_AMOUNT]
  maker_le := by simp [SignedNativeOrder.unfillable, ZERO_AMOUNT]
  whole := fun h => absurd h hpos.ne

/-- Rounding up is exact on what divides, and one more than rounding down on what does not. -/
theorem getPartialAmountCeil_of_dvd {numerator denominator target : ℕ} (hpos : 0 < denominator)
    (h : denominator ∣ numerator * target) :
    getPartialAmountCeil numerator denominator target = numerator * target / denominator := by
  obtain ⟨k, hk⟩ := h
  rw [getPartialAmountCeil, hk, Nat.mul_div_cancel_left k hpos, Nat.mul_add_div hpos,
    Nat.div_eq_of_lt (by omega), add_zero]

theorem lt_getPartialAmountCeil {numerator denominator target : ℕ} (hpos : 0 < denominator)
    (h : ¬ denominator ∣ numerator * target) :
    numerator * target / denominator < getPartialAmountCeil numerator denominator target := by
  have hmod : 0 < numerator * target % denominator :=
    Nat.pos_of_ne_zero fun hzero => h (Nat.dvd_of_mod_eq_zero hzero)
  have hdivision := Nat.div_add_mod (numerator * target) denominator
  rw [getPartialAmountCeil, Nat.lt_iff_add_one_le, Nat.le_div_iff_mul_le hpos]
  have hsucc : (numerator * target / denominator + 1) * denominator =
      denominator * (numerator * target / denominator) + denominator := by ring
  omega

/-- Converting back what divides. -/
theorem getNativeAdjustedTakerFillAmount_of_dvd {order : SignedNativeOrder}
    {limitOrder : LimitOrder} (h : OnChain order limitOrder) {amount : ℕ}
    (hdvd : limitOrder.takerAmount ∣ amount * limitOrder.makerAmount) :
    getNativeAdjustedTakerFillAmount order.order
        (.fin (amount * limitOrder.makerAmount / limitOrder.takerAmount : ℕ)) = .fin amount := by
  have hmaker : (limitOrder.makerAmount : ℚ) ≠ 0 := by exact_mod_cast h.makerAmount_pos.ne'
  have htaker : (limitOrder.takerAmount : ℚ) ≠ 0 := by exact_mod_cast h.takerAmount_pos.ne'
  have hexact : (((amount * limitOrder.makerAmount / limitOrder.takerAmount : ℕ) : ℚ) *
      limitOrder.takerAmount) / limitOrder.makerAmount = amount := by
    rw [Nat.cast_div hdvd htaker]
    push_cast
    field_simp
  rw [getNativeAdjustedTakerFillAmount, h.makerAmount_eq, h.takerAmount_eq, BigNumber.times_fin,
    BigNumber.div_fin _ hmaker, hexact, BigNumber.integerValue_fin]
  exact congrArg (fun z : ℤ => BigNumber.fin z) (Int.ceil_natCast amount)

/-- An order in a buy claims no more than it can fill exactly when its rate leaves nothing to
round. -/
theorem claimsNoMore_iff {order : SignedNativeOrder} {limitOrder : LimitOrder}
    (h : OnChain order limitOrder) (amount : ℕ) :
    ClaimsNoMore limitOrder amount
        (getNativeAdjustedFillableAmountsFromMakerAmount order
          (.fin (fillableMakerAssetAmount limitOrder amount))) ↔
      limitOrder.takerAmount ∣ amount * limitOrder.makerAmount := by
  rcases Nat.eq_zero_or_pos amount with rfl | hpos
  · refine iff_of_true ?_ (by rw [zero_mul]; exact dvd_zero _)
    exact unfillable_claimsNoMore h.takerAmount_pos
  rw [fillableMakerAssetAmount, if_pos hpos.ne']
  constructor
  · -- what is rounded up would be more than the order can fill
    intro hclaims
    by_contra hdvd
    have hlt := lt_getPartialAmountCeil h.takerAmount_pos hdvd
    have hmaker := hclaims.maker_le
    rw [getNativeAdjustedFillableAmountsFromMakerAmount, if_neg] at hmaker
    · simp only [SignedNativeOrder.withAmounts, BigNumber.lte_fin, decide_eq_true_eq,
        Nat.cast_le] at hmaker
      omega
    · rw [BigNumber.isZero_fin, decide_eq_true_iff]
      exact_mod_cast (Nat.zero_le _).trans_lt hlt |>.ne'
  · intro hdvd
    rw [getPartialAmountCeil_of_dvd h.takerAmount_pos hdvd]
    have hmaker : 0 < amount * limitOrder.makerAmount / limitOrder.takerAmount :=
      Nat.div_pos (Nat.le_of_dvd (Nat.mul_pos hpos h.makerAmount_pos) hdvd) h.takerAmount_pos
    have htaker := getNativeAdjustedTakerFillAmount_of_dvd h hdvd
    rw [getNativeAdjustedFillableAmountsFromMakerAmount, if_neg]
    · refine ⟨?_, ?_, ?_⟩
      · show (getNativeAdjustedTakerFillAmount _ _).lte _ = true
        rw [htaker, BigNumber.lte_fin, decide_eq_true le_rfl]
      · show (BigNumber.fin _).lte _ = true
        rw [BigNumber.lte_fin, decide_eq_true le_rfl]
      · intro hwhole
        refine ⟨htaker.trans (by rw [hwhole]), ?_⟩
        show BigNumber.fin _ = _
        rw [hwhole, Nat.mul_div_cancel_left _ h.takerAmount_pos]
    · rw [BigNumber.isZero_fin, decide_eq_true_iff]
      exact_mod_cast hmaker.ne'

/-- Each native order of a buy claims no more than it can fill exactly when its rate leaves nothing
to round. -/
theorem fillable_in_buy_iff {limitOrders : List SignedNativeOrder} {orders : List LimitOrder}
    {amounts : List (Option ℕ)} (honChain : List.Forall₂ OnChain limitOrders orders)
    (hlength : amounts.length = orders.length) :
    List.Forall₂
      (fun orderAmount result =>
        ClaimsNoMore orderAmount.1 (orderAmount.2.getD 0) result ↔
          orderAmount.1.takerAmount ∣ orderAmount.2.getD 0 * orderAmount.1.makerAmount)
      (orders.zip amounts)
      (buyNativeOrders limitOrders
        ((getLimitOrderFillableMakerAssetAmounts orders amounts).map fun n => .fin n)) := by
  induction honChain generalizing amounts with
  | nil => exact .nil
  | cons horder _ ih =>
    cases amounts with
    | nil => cases hlength
    | cons amount amounts => exact .cons (claimsNoMore_iff horder _) (ih (Nat.succ.inj hlength))

/-- A limit order of 2 for 3. -/
def twoForThree : SignedNativeOrder :=
  ⟨⟨"maker", "output", "input", .fin 2, .fin 3, .fin 0⟩, .limit, ⟨2, "r", "s", 27⟩⟩

theorem twoForThree_onChain : OnChain twoForThree ⟨2, 3⟩ :=
  ⟨by norm_num [twoForThree], by norm_num [twoForThree], by decide, by decide⟩

/-- When 1 of it can be taken, it claims 2 in a buy. -/
theorem one_of_three_claims_two :
    OnChain twoForThree ⟨2, 3⟩ ∧
      ¬ ClaimsNoMore ⟨2, 3⟩ 1
        (getNativeAdjustedFillableAmountsFromMakerAmount twoForThree
          (.fin (fillableMakerAssetAmount ⟨2, 3⟩ 1))) := by
  refine ⟨twoForThree_onChain, fun h => ?_⟩
  have hmore : (getNativeAdjustedFillableAmountsFromMakerAmount twoForThree
      (.fin (fillableMakerAssetAmount ⟨2, 3⟩ 1))).fillableTakerAmount.lte (.fin (1 : ℕ)) =
        false := by
    decide +kernel
  exact Bool.false_ne_true (hmore.symm.trans h.taker_le)

/-- All of it can be taken. -/
theorem three_of_three_in_buy :
    List.Forall₂
      (fun orderAmount result =>
        ClaimsNoMore orderAmount.1 (orderAmount.2.getD 0) result ↔
          orderAmount.1.takerAmount ∣ orderAmount.2.getD 0 * orderAmount.1.makerAmount)
      ([⟨2, 3⟩].zip [some 3])
      (buyNativeOrders [twoForThree]
        ((getLimitOrderFillableMakerAssetAmounts [⟨2, 3⟩] [some 3]).map fun n => .fin n)) :=
  fillable_in_buy_iff (.cons twoForThree_onChain .nil) rfl

/-! ## The same on a sell -/

/-- An order in a sell claims what can be taken, and to make what that delivers. -/
theorem sell_claimsNoMore {order : SignedNativeOrder} {limitOrder : LimitOrder}
    (h : OnChain order limitOrder) (amount : ℕ) :
    ClaimsNoMore limitOrder amount
      (getNativeAdjustedFillableAmountsFromTakerAmount order (.fin amount)) := by
  rcases Nat.eq_zero_or_pos amount with rfl | hpos
  · rw [getNativeAdjustedFillableAmountsFromTakerAmount, Nat.cast_zero]
    exact unfillable_claimsNoMore h.takerAmount_pos
  have htaker : (limitOrder.takerAmount : ℚ) ≠ 0 := by exact_mod_cast h.takerAmount_pos.ne'
  have hfloor : ⌊(amount * limitOrder.makerAmount / limitOrder.takerAmount : ℚ)⌋ =
      (amount * limitOrder.makerAmount / limitOrder.takerAmount : ℕ) := by
    have hdiv := Rat.floor_natCast_div_natCast (amount * limitOrder.makerAmount)
      limitOrder.takerAmount
    push_cast at hdiv ⊢
    exact hdiv
  have hmaker : getNativeAdjustedMakerFillAmount order.order (.fin amount) =
      .fin (amount * limitOrder.makerAmount / limitOrder.takerAmount : ℕ) := by
    rw [getNativeAdjustedMakerFillAmount, h.makerAmount_eq, h.takerAmount_eq, BigNumber.times_fin,
      BigNumber.div_fin _ htaker, BigNumber.integerValue_fin]
    show BigNumber.fin ((⌊_⌋ : ℤ) : ℚ) = _
    rw [hfloor, Int.cast_natCast]
  rw [getNativeAdjustedFillableAmountsFromTakerAmount, if_neg]
  · refine ⟨?_, ?_, ?_⟩
    · show (BigNumber.fin _).lte _ = true
      rw [BigNumber.lte_fin, decide_eq_true le_rfl]
    · show (getNativeAdjustedMakerFillAmount _ _).lte _ = true
      rw [hmaker, BigNumber.lte_fin, decide_eq_true le_rfl]
    · intro hwhole
      refine ⟨congrArg (fun n : ℕ => BigNumber.fin n) hwhole, hmaker.trans ?_⟩
      rw [hwhole, Nat.mul_div_cancel_left _ h.takerAmount_pos]
  · rw [BigNumber.isZero_fin, decide_eq_true_iff]
    exact_mod_cast hpos.ne'

/-- No native order of a sell claims more than it can fill. -/
theorem fillable_in_sell {limitOrders : List SignedNativeOrder} {orders : List LimitOrder}
    {amounts : List (Option ℕ)} (honChain : List.Forall₂ OnChain limitOrders orders)
    (hlength : amounts.length = orders.length) :
    List.Forall₂
      (fun orderAmount result => ClaimsNoMore orderAmount.1 (orderAmount.2.getD 0) result)
      (orders.zip amounts)
      (sellNativeOrders limitOrders
        ((getLimitOrderFillableTakerAssetAmounts amounts).map fun n => .fin n)) := by
  induction honChain generalizing amounts with
  | nil => exact .nil
  | cons horder _ ih =>
    cases amounts with
    | nil => cases hlength
    | cons amount amounts => exact .cons (sell_claimsNoMore horder _) (ih (Nat.succ.inj hlength))

end ZeroExApi.NativeOrders
