/-
# ZeroExApi.OrderComparison — the order of the two sides of the book, and its pages

`compareAskOrder`, `compareBidOrder` and `compareOrderByFeeRatio` of `utils/order_utils.ts`, and
`paginate` of `utils/pagination_utils.ts`, as `getOrderBookAsync` puts them together.

On orders with positive amounts each comparator compares by a key: the price, upwards for asks and
downwards for bids, then the fee a taker token costs, downwards, then the expiry.  So the
comparators are consistent and a side stands in the order they name, and the pages of a list, one
after the other, are the list.
-/

import ZeroExApi.Lib.Comparator
import ZeroExApi.OrderBook

namespace ZeroExApi.OrderComparison

open ZeroExApi.Lib ZeroExApi.Lib.BigNumber ZeroExApi.Lib.Comparator ZeroExApi.Lib.JsArray
  ZeroExApi.OrderBook

/-! ## Orders that are compared -/

/-- An order with positive amounts, whose fee and expiry are numbers. -/
structure Priced (order : SignedLimitOrder) : Prop where
  makerAmount : ∃ q : ℚ, order.makerAmount = .fin q ∧ 0 < q
  takerAmount : ∃ q : ℚ, order.takerAmount = .fin q ∧ 0 < q
  takerTokenFeeAmount : ∃ q : ℚ, order.takerTokenFeeAmount = .fin q
  expiry : ∃ q : ℚ, order.expiry = .fin q

/-- What is paid for a maker token. -/
def askPrice (order : SignedLimitOrder) : ℚ := order.takerAmount.toRat / order.makerAmount.toRat

/-- What is received for a taker token. -/
def bidPrice (order : SignedLimitOrder) : ℚ := order.makerAmount.toRat / order.takerAmount.toRat

/-- The fee for a taker token. -/
def feePrice (order : SignedLimitOrder) : ℚ :=
  order.takerTokenFeeAmount.toRat / order.takerAmount.toRat

/-- The first of two orders of one price: the one of the higher fee, or of the earlier expiry where
the fee is the same. -/
def FeeBefore (a b : SignedLimitOrder) : Prop :=
  feePrice b < feePrice a ∨ feePrice a = feePrice b ∧ a.expiry.toRat < b.expiry.toRat

/-- Asks stand in the order of ascending prices. -/
def AskBefore (a b : SignedLimitOrder) : Prop :=
  askPrice a < askPrice b ∨ askPrice a = askPrice b ∧ FeeBefore a b

/-- Bids stand in the order of descending prices. -/
def BidBefore (a b : SignedLimitOrder) : Prop :=
  bidPrice b < bidPrice a ∨ bidPrice a = bidPrice b ∧ FeeBefore a b

/-! ## The keys -/

/-- The key of two orders of one price. -/
def feeKey (order : SignedLimitOrder) : ℚ ×ₗ ℚ := toLex (-feePrice order, order.expiry.toRat)

/-- The key of an ask. -/
def askKey (order : SignedLimitOrder) : ℚ ×ₗ ℚ ×ₗ ℚ := toLex (askPrice order, feeKey order)

/-- The key of a bid. -/
def bidKey (order : SignedLimitOrder) : ℚ ×ₗ ℚ ×ₗ ℚ := toLex (-bidPrice order, feeKey order)

theorem feeKey_lt (a b : SignedLimitOrder) : feeKey a < feeKey b ↔ FeeBefore a b := by
  simp [feeKey, FeeBefore, Prod.Lex.toLex_lt_toLex]

theorem askKey_lt (a b : SignedLimitOrder) : askKey a < askKey b ↔ AskBefore a b := by
  simp [askKey, AskBefore, Prod.Lex.toLex_lt_toLex, feeKey_lt]

theorem bidKey_lt (a b : SignedLimitOrder) : bidKey a < bidKey b ↔ BidBefore a b := by
  simp [bidKey, BidBefore, Prod.Lex.toLex_lt_toLex, feeKey_lt]

theorem comparedTo_fin (p q : ℚ) :
    (BigNumber.fin p).comparedTo (.fin q) = some (compareInt p q) := by
  unfold comparedTo compareInt
  rcases lt_trichotomy p q with h | h | h
  · simp [h]
  · simp [h]
  · simp [h, h.not_gt]

section Compare

variable {a b : SignedLimitOrder} (ha : Priced a) (hb : Priced b)
include ha hb

/-- The tie-break compares the fee and the expiry. -/
theorem compareOrderByFeeRatio_eq :
    compareOrderByFeeRatio a b = some (compareInt (feeKey a) (feeKey b)) := by
  obtain ⟨t, ht, htpos⟩ := ha.takerAmount
  obtain ⟨t', ht', htpos'⟩ := hb.takerAmount
  obtain ⟨f, hf⟩ := ha.takerTokenFeeAmount
  obtain ⟨f', hf'⟩ := hb.takerTokenFeeAmount
  obtain ⟨e, he⟩ := ha.expiry
  obtain ⟨e', he'⟩ := hb.expiry
  simp only [compareOrderByFeeRatio, feeKey, feePrice, ht, ht', hf, hf', he, he',
    div_fin _ htpos.ne', div_fin _ htpos'.ne', eq_fin, comparedTo_fin, toRat_fin,
    compareInt_toLex, compareInt_neg, neg_inj]
  by_cases h : f / t = f' / t' <;> simp [h]

theorem compareAskOrder_eq :
    compareAskOrder a b = some (compareInt (askKey a) (askKey b)) := by
  obtain ⟨m, hm, hmpos⟩ := ha.makerAmount
  obtain ⟨m', hm', hmpos'⟩ := hb.makerAmount
  obtain ⟨t, ht, _⟩ := ha.takerAmount
  obtain ⟨t', ht', _⟩ := hb.takerAmount
  simp only [compareAskOrder, compareOrderByFeeRatio_eq ha hb, askKey, askPrice, hm, hm', ht, ht',
    div_fin _ hmpos.ne', div_fin _ hmpos'.ne', eq_fin, comparedTo_fin, toRat_fin,
    compareInt_toLex]
  by_cases h : t / m = t' / m' <;> simp [h]

theorem compareBidOrder_eq :
    compareBidOrder a b = some (compareInt (bidKey a) (bidKey b)) := by
  obtain ⟨m, hm, _⟩ := ha.makerAmount
  obtain ⟨m', hm', _⟩ := hb.makerAmount
  obtain ⟨t, ht, htpos⟩ := ha.takerAmount
  obtain ⟨t', ht', htpos'⟩ := hb.takerAmount
  simp only [compareBidOrder, compareOrderByFeeRatio_eq ha hb, bidKey, bidPrice, hm, hm', ht, ht',
    div_fin _ htpos.ne', div_fin _ htpos'.ne', eq_fin, comparedTo_fin, toRat_fin,
    compareInt_toLex, compareInt_neg, neg_inj]
  by_cases h : m / t = m' / t' <;> simp [h]

end Compare

/-! ## Consistent comparators -/

/-- A comparator orders the orders it is made for: it always returns a number, is consistent, and
puts first what stands before. -/
structure Orders (compare : SignedLimitOrder → SignedLimitOrder → Option ℤ)
    (before : SignedLimitOrder → SignedLimitOrder → Prop) : Prop where
  number : ∀ a b, Priced a → Priced b → (compare a b).isSome = true
  consistent : ConsistentOn Priced fun a b => (compare a b).getD 0
  before_iff : ∀ a b, Priced a → Priced b → ((compare a b).getD 0 < 0 ↔ before a b)

/-- A comparator by a key orders by what the key's order means. -/
theorem orders_of_key {compare : SignedLimitOrder → SignedLimitOrder → Option ℤ}
    {before : SignedLimitOrder → SignedLimitOrder → Prop} (key : SignedLimitOrder → ℚ ×ₗ ℚ ×ₗ ℚ)
    (hcompare : ∀ {a b}, Priced a → Priced b → compare a b = some (compareInt (key a) (key b)))
    (hbefore : ∀ a b, key a < key b ↔ before a b) : Orders compare before := by
  refine ⟨fun a b ha hb => ?_, ?_, fun a b ha hb => ?_⟩
  · rw [hcompare ha hb]
    rfl
  · apply consistentOn_of_key key
    intro a b ha hb
    rw [hcompare ha hb]
    rfl
  · rw [hcompare ha hb, ← hbefore]
    exact compareInt_lt _ _

theorem orders_asks : Orders compareAskOrder AskBefore :=
  orders_of_key askKey compareAskOrder_eq askKey_lt

theorem orders_bids : Orders compareBidOrder BidBefore :=
  orders_of_key bidKey compareBidOrder_eq bidKey_lt

/-- A side that is sorted by such a comparator has nothing behind what it should stand before. -/
theorem Orders.sorted {compare : SignedLimitOrder → SignedLimitOrder → Option ℤ}
    {before : SignedLimitOrder → SignedLimitOrder → Prop} (h : Orders compare before)
    {apiOrders : List SRAOrder} (hpriced : ∀ apiOrder ∈ apiOrders, Priced apiOrder.order) :
    (sortBy (comparator compare) apiOrders).Pairwise fun a b => ¬ before b.order a.order := by
  have hconsistent : ConsistentOn (fun a : SRAOrder => Priced a.order) (comparator compare) :=
    ⟨fun a b => h.consistent.antisymm a.order b.order,
      fun a b c => h.consistent.trans a.order b.order c.order,
      fun a b c => h.consistent.ties a.order b.order c.order⟩
  have hpriced' : ∀ apiOrder ∈ sortBy (comparator compare) apiOrders, Priced apiOrder.order :=
    fun apiOrder hmem => hpriced apiOrder ((sortBy_perm _ _).mem_iff.mp hmem)
  refine (pairwise_sortBy hconsistent hpriced).imp_of_mem fun {a b} ha hb hle => ?_
  rw [← h.before_iff _ _ (hpriced' b hb) (hpriced' a ha)]
  have hswap := hconsistent.antisymm a b (hpriced' a ha) (hpriced' b hb)
  change comparator compare b a = -comparator compare a b at hswap
  change ¬ comparator compare b a < 0
  omega

/-! ## Pages -/

/-- How many pages a list fills. -/
def pageCount (total perPage : ℕ) : ℕ := (total + perPage - 1) / perPage

/-- The pages of a list are enough for it. -/
theorem le_pageCount_mul (total : ℕ) {perPage : ℕ} (h : 1 ≤ perPage) :
    total ≤ pageCount total perPage * perPage := by
  unfold pageCount
  have hmod := Nat.div_add_mod (total + perPage - 1) perPage
  have hlt := Nat.mod_lt (total + perPage - 1) h
  rw [mul_comm] at hmod
  omega

/-- All pages of a list, one after the other, are the list. -/
theorem pages_eq {α : Type} (records : List α) {perPage : ℕ} (h : 1 ≤ perPage) :
    onPages (fun page => paginate records page perPage) (pageCount records.length perPage) =
      records :=
  onPages_paginate records (le_pageCount_mul records.length h)

/-- Behind the last page every page is empty. -/
theorem page_behind_last {α : Type} (records : List α) {perPage page : ℕ} (h : 1 ≤ perPage)
    (hpage : pageCount records.length perPage < page) :
    (paginate records page perPage).records = [] := by
  obtain ⟨i, rfl⟩ : ∃ i, page = i + 1 := ⟨page - 1, by omega⟩
  have hle := le_pageCount_mul records.length h
  have hmul : pageCount records.length perPage * perPage ≤ i * perPage :=
    Nat.mul_le_mul_right _ (by omega)
  have hslice := slice_natCast records (i * perPage) ((i + 1) * perPage)
  push_cast at hslice
  simp only [paginate, Nat.cast_add, Nat.cast_one, add_sub_cancel_right]
  -- the page begins where the list has ended
  rw [hslice, List.drop_eq_nil_iff, List.length_take]
  omega

/-! ## The book -/

/-- What is claimed of the book, at so many orders on a page: the comparators of the sides order
them as named, a list that is sorted by one of them stands in that order, and all pages of a list,
one after the other, are the list. -/
structure BookConsistent (perPage : ℕ) : Prop where
  asks : Orders compareAskOrder AskBefore
  bids : Orders compareBidOrder BidBefore
  asks_sorted : ∀ apiOrders : List SRAOrder, (∀ apiOrder ∈ apiOrders, Priced apiOrder.order) →
    (sortBy (comparator compareAskOrder) apiOrders).Perm apiOrders ∧
      (sortBy (comparator compareAskOrder) apiOrders).Pairwise
        fun a b => ¬ AskBefore b.order a.order
  bids_sorted : ∀ apiOrders : List SRAOrder, (∀ apiOrder ∈ apiOrders, Priced apiOrder.order) →
    (sortBy (comparator compareBidOrder) apiOrders).Perm apiOrders ∧
      (sortBy (comparator compareBidOrder) apiOrders).Pairwise
        fun a b => ¬ BidBefore b.order a.order
  pages : ∀ {α : Type} (records : List α),
    onPages (fun page => paginate records page perPage) (pageCount records.length perPage) =
        records ∧
      ∀ page : ℕ, pageCount records.length perPage < page →
        (paginate records page perPage).records = []

/-- The book is consistent at any number of orders on a page. -/
theorem bookConsistent {perPage : ℕ} (h : 1 ≤ perPage) : BookConsistent perPage where
  asks := orders_asks
  bids := orders_bids
  asks_sorted _ hpriced := ⟨sortBy_perm _ _, orders_asks.sorted hpriced⟩
  bids_sorted _ hpriced := ⟨sortBy_perm _ _, orders_bids.sorted hpriced⟩
  pages records := ⟨pages_eq records h, fun _ hpage => page_behind_last records h hpage⟩

/-- With two orders on a page. -/
theorem bookConsistent_two : BookConsistent 2 := bookConsistent (by decide)

section Book

variable (env : Env) {perPage : ℕ} (hperPage : 1 ≤ perPage)
include hperPage

/-- All pages of a side, one after the other, stand in the order of the side. -/
theorem side_pages_sorted {compare : SignedLimitOrder → SignedLimitOrder → Option ℤ}
    {before : SignedLimitOrder → SignedLimitOrder → Prop} (h : Orders compare before)
    {entities : List SignedOrderV4Entity}
    (hpriced : ∀ entity ∈ entities, Priced (deserializeOrder env entity)) :
    (onPages (fun page => paginate (sideApiOrders env compare entities) page perPage)
        (pageCount (sideApiOrders env compare entities).length perPage)).Pairwise
      fun a b => ¬ before b.order a.order := by
  rw [pages_eq _ hperPage]
  apply h.sorted
  intro apiOrder hmem
  obtain ⟨entity, hentity, rfl⟩ := List.mem_map.mp ((filterIdx_sublist _ _).subset hmem)
  exact hpriced entity hentity

/-- The complete book stands in the orders of its sides: read page by page, as many pages as the
total of a side fills. -/
theorem getOrderBook_sorted (rows : List SignedOrderV4Entity) (baseToken quoteToken : String)
    (hpriced : ∀ row ∈ rows, Priced (deserializeOrder env row)) :
    ((onPages (fun page => (getOrderBook env rows page perPage baseToken quoteToken).asks)
        (pageCount (getOrderBook env rows 1 perPage baseToken quoteToken).asks.total
          perPage)).Pairwise fun a b => ¬ AskBefore b.order a.order) ∧
      (onPages (fun page => (getOrderBook env rows page perPage baseToken quoteToken).bids)
        (pageCount (getOrderBook env rows 1 perPage baseToken quoteToken).bids.total
          perPage)).Pairwise fun a b => ¬ BidBefore b.order a.order := by
  have hside : ∀ takerToken makerToken, ∀ entity ∈ sideEntities rows takerToken makerToken,
      Priced (deserializeOrder env entity) := by
    intro takerToken makerToken entity hmem
    exact hpriced entity (List.mem_of_mem_filter (List.mem_of_mem_filter hmem))
  exact ⟨side_pages_sorted env hperPage orders_asks (hside quoteToken baseToken),
    side_pages_sorted env hperPage orders_bids (hside baseToken quoteToken)⟩

end Book

end ZeroExApi.OrderComparison
