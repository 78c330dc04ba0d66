/-
# ZeroExApi.OrderBook — stored limit orders, their freshness, and the paginated order book

`order_utils.ts` decides whether a stored order is fresh and how orders of one side are sorted;
`orderbook_service.ts` reads the rows of a pair, keeps the fresh ones of each side and returns a
page.  The rows come in an order the database chooses.

`getOrderBook` hands `isFreshOrder` itself to `filter`, so the second parameter of the test, the
expiration buffer, receives the position of the order in its side.  The main result compares the
orders found on all pages with the orders that are fresh under the configured buffer:
`showsFreshOrders_iff` gives the exact condition on the table.

The clock is `Date.now()` in milliseconds and `Date.now() / ONE_SECOND_MS` is the exact quotient.
The columns of a row are read as the values they spell: the numerals of the amounts as numbers, the
signature as its four parts.
-/

import ZeroExApi.Lib.JsArray
import ZeroExApi.Types

namespace ZeroExApi.OrderBook

open ZeroExApi.Lib ZeroExApi.Lib.JsArray

/-! ## Orders and rows -/

/-- `SignedLimitOrder`. -/
structure SignedLimitOrder where
  signature : Signature
  sender : String
  maker : String
  taker : String
  takerTokenFeeAmount : BigNumber
  makerAmount : BigNumber
  takerAmount : BigNumber
  makerToken : String
  takerToken : String
  salt : BigNumber
  verifyingContract : String
  feeRecipient : String
  expiry : BigNumber
  chainId : ℕ
  pool : String
  deriving DecidableEq

/-- `SRAOrderMetaData`; a row of the order table carries no order state, so that field is left
out. -/
structure SRAOrderMetaData where
  orderHash : String
  remainingFillableTakerAmount : BigNumber
  createdAt : String
  deriving DecidableEq

/-- `SRAOrder`: an order as the API shows it. -/
structure SRAOrder where
  order : SignedLimitOrder
  metaData : SRAOrderMetaData
  deriving DecidableEq

/-- `SignedOrderV4Entity`: a row of `valid_signed_orders_v4`. -/
structure SignedOrderV4Entity where
  hash : String
  makerToken : String
  takerToken : String
  makerAmount : BigNumber
  takerAmount : BigNumber
  maker : String
  taker : String
  pool : String
  expiry : BigNumber
  salt : BigNumber
  verifyingContract : String
  takerTokenFeeAmount : BigNumber
  sender : String
  feeRecipient : String
  signature : Signature
  remainingFillableTakerAmount : BigNumber
  createdAt : String
  deriving DecidableEq

/-- The content of the order table, in the order a query returns it; the hash is its primary key. -/
structure SignedOrderTable where
  rows : List SignedOrderV4Entity
  primaryKey : (rows.map SignedOrderV4Entity.hash).Nodup

/-- The clock and the configuration a request reads. -/
structure Env where
  now : ℕ
  SRA_ORDER_EXPIRATION_BUFFER_SECONDS : ℤ
  CHAIN_ID : ℕ

def ONE_SECOND_MS : ℕ := 1000

/-! ## `order_utils.ts` -/

/-- `Date.now() / ONE_SECOND_MS`. -/
def Env.nowSeconds (env : Env) : ℚ := env.now / ONE_SECOND_MS

/-- `isFreshOrder`; the buffer has a default. -/
def isFreshOrder (env : Env) (apiOrder : SRAOrder) (expirationBufferSeconds : Option ℤ) : Bool :=
  let buffer := expirationBufferSeconds.getD env.SRA_ORDER_EXPIRATION_BUFFER_SECONDS
  apiOrder.order.expiry.gt (.fin (env.nowSeconds + buffer))

/-- `groupByFreshness`: the fresh orders and the expired ones. -/
def groupByFreshness (env : Env) (apiOrders : List SRAOrder) (expirationBufferSeconds : ℤ) :
    List SRAOrder × List SRAOrder :=
  apiOrders.partition fun order => isFreshOrder env order (some expirationBufferSeconds)

/-- `compareOrderByFeeRatio`. -/
def compareOrderByFeeRatio (orderA orderB : SignedLimitOrder) : Option ℤ :=
  let orderAFeePrice := orderA.takerTokenFeeAmount.div orderA.takerAmount
  let orderBFeePrice := orderB.takerTokenFeeAmount.div orderB.takerAmount
  if !orderAFeePrice.eq orderBFeePrice then
    orderBFeePrice.comparedTo orderAFeePrice
  else
    orderA.expiry.comparedTo orderB.expiry

/-- `compareAskOrder`. -/
def compareAskOrder (orderA orderB : SignedLimitOrder) : Option ℤ :=
  let orderAPrice := orderA.takerAmount.div orderA.makerAmount
  let orderBPrice := orderB.takerAmount.div orderB.makerAmount
  if !orderAPrice.eq orderBPrice then
    orderAPrice.comparedTo orderBPrice
  else
    compareOrderByFeeRatio orderA orderB

/-- `compareBidOrder`. -/
def compareBidOrder (orderA orderB : SignedLimitOrder) : Option ℤ :=
  let orderAPrice := orderA.makerAmount.div orderA.takerAmount
  let orderBPrice := orderB.makerAmount.div orderB.takerAmount
  if !orderAPrice.eq orderBPrice then
    orderBPrice.comparedTo orderAPrice
  else
    compareOrderByFeeRatio orderA orderB

/-- `deserializeOrder`. -/
def deserializeOrder (env : Env) (entity : SignedOrderV4Entity) : SignedLimitOrder where
  signature := entity.signature
  sender := entity.sender
  maker := entity.maker
  taker := entity.taker
  takerTokenFeeAmount := entity.takerTokenFeeAmount
  makerAmount := entity.makerAmount
  takerAmount := entity.takerAmount
  makerToken := entity.makerToken
  takerToken := entity.takerToken
  salt := entity.salt
  verifyingContract := entity.verifyingContract
  feeRecipient := entity.feeRecipient
  expiry := entity.expiry
  chainId := env.CHAIN_ID
  pool := entity.pool

/-- `deserializeOrderToSRAOrder`. -/
def deserializeOrderToSRAOrder (env : Env) (entity : SignedOrderV4Entity) : SRAOrder where
  order := deserializeOrder env entity
  metaData :=
    { orderHash := entity.hash
      remainingFillableTakerAmount := entity.remainingFillableTakerAmount
      createdAt := entity.createdAt }

/-! ## `pagination_utils.ts` and `orderbook_service.ts` -/

/-- `PaginatedCollection`. -/
structure PaginatedCollection (α : Type) where
  total : ℕ
  page : ℤ
  perPage : ℤ
  records : List α

/-- `paginate`. -/
def paginate {α : Type} (records : List α) (page perPage : ℤ) : PaginatedCollection α where
  total := records.length
  page := page
  perPage := perPage
  records := slice records ((page - 1) * perPage) (page * perPage)

/-- `OrderbookResponse`. -/
structure OrderbookResponse where
  bids : PaginatedCollection SRAOrder
  asks : PaginatedCollection SRAOrder

/-- The `null` a comparator returns for incomparable numbers counts as zero in `sort`. -/
def comparator (compare : SignedLimitOrder → SignedLimitOrder → Option ℤ) (a b : SRAOrder) : ℤ :=
  (compare a.order b.order).getD 0

/-- The rows of one side, as `getOrderBookAsync` filters the rows of the pair. -/
def sideEntities (rows : List SignedOrderV4Entity) (takerToken makerToken : String) :
    List SignedOrderV4Entity :=
  let orderEntities := rows.filter fun o =>
    [takerToken, makerToken].contains o.takerToken && [takerToken, makerToken].contains o.makerToken
  orderEntities.filter fun o => o.takerToken == takerToken && o.makerToken == makerToken

/-- One side of the book: `filter` passes each order's index as the buffer of `isFreshOrder`. -/
def sideApiOrders (env : Env) (compare : SignedLimitOrder → SignedLimitOrder → Option ℤ)
    (entities : List SignedOrderV4Entity) : List SRAOrder :=
  sortBy (comparator compare)
    (filterIdx (fun apiOrder index => isFreshOrder env apiOrder (some index))
      (entities.map (deserializeOrderToSRAOrder env)))

/-- `getOrderBookAsync`. -/
def getOrderBook (env : Env) (rows : List SignedOrderV4Entity) (page perPage : ℤ)
    (baseToken quoteToken : String) : OrderbookResponse where
  bids := paginate
    (sideApiOrders env compareBidOrder (sideEntities rows baseToken quoteToken)) page perPage
  asks := paginate
    (sideApiOrders env compareAskOrder (sideEntities rows quoteToken baseToken)) page perPage

/-- `getBatchOrdersAsync`, less its log of the expired orders. -/
def getBatchOrders (env : Env) (rows : List SignedOrderV4Entity) (page perPage : ℤ)
    (makerTokens takerTokens : List String) : PaginatedCollection SRAOrder :=
  let entities := rows.filter fun o =>
    makerTokens.contains o.makerToken && takerTokens.contains o.takerToken
  let apiOrders := entities.map (deserializeOrderToSRAOrder env)
  let fresh := (groupByFreshness env apiOrders env.SRA_ORDER_EXPIRATION_BUFFER_SECONDS).1
  paginate fresh page perPage

/-! ## What the pages of a collection hold -/

/-- The records on the pages `1, …, count`. -/
def onPages {α : Type} (collection : ℤ → PaginatedCollection α) (count : ℕ) : List α :=
  (List.range count).flatMap fun i : ℕ => (collection (i + 1)).records

/-- Pages enough for all records hold all records, in order. -/
theorem onPages_paginate {α : Type} (records : List α) {perPage count : ℕ}
    (h : records.length ≤ count * perPage) :
    onPages (fun page => paginate records page perPage) count = records := by
  have htile := flatMap_slice records perPage count
  simp only [onPages, paginate, add_sub_cancel_right]
  rw [htile, List.take_of_length_le h]

/-! ## One side of the book -/

section Side

variable (env : Env)

theorem deserialize_injective : Function.Injective (deserializeOrderToSRAOrder env) := by
  intro a b h
  cases a
  cases b
  simp only [deserializeOrderToSRAOrder, deserializeOrder, SRAOrder.mk.injEq,
    SignedLimitOrder.mk.injEq, SRAOrderMetaData.mk.injEq] at h
  simp only [SignedOrderV4Entity.mk.injEq]
  tauto

theorem sideEntities_eq_filter (rows : List SignedOrderV4Entity) (takerToken makerToken : String) :
    sideEntities rows takerToken makerToken =
      rows.filter fun o => o.takerToken == takerToken && o.makerToken == makerToken := by
  rw [sideEntities, List.filter_filter]
  refine List.filter_congr ?_
  intro o _
  by_cases ht : o.takerToken = takerToken
  · by_cases hm : o.makerToken = makerToken
    · simp [ht, hm]
    · simp [hm]
  · simp [ht]

/-- The orders of a side that are fresh under the configured buffer. -/
def freshOrders (entities : List SignedOrderV4Entity) : List SRAOrder :=
  (entities.map (deserializeOrderToSRAOrder env)).filter fun apiOrder =>
    isFreshOrder env apiOrder none

/-- A row is not fresh even at the smaller of the buffer and zero, or it stays fresh beyond both the
buffer and the last position of its side. -/
def ExpiryClear (sideLength : ℕ) (entity : SignedOrderV4Entity) : Prop :=
  entity.expiry.gt
      (.fin (env.nowSeconds + (min 0 env.SRA_ORDER_EXPIRATION_BUFFER_SECONDS : ℤ))) = false ∨
    entity.expiry.gt
      (.fin (env.nowSeconds +
        (max env.SRA_ORDER_EXPIRATION_BUFFER_SECONDS (sideLength - 1) : ℤ))) = true

/-- The test gives the same answer with every position of the side as its buffer as with the
configured one. -/
theorem expiryClear_iff {sideLength : ℕ} (hlen : 0 < sideLength) (entity : SignedOrderV4Entity) :
    ExpiryClear env sideLength entity ↔
      ∀ i < sideLength,
        isFreshOrder env (deserializeOrderToSRAOrder env entity) (some (i : ℤ)) =
          isFreshOrder env (deserializeOrderToSRAOrder env entity) none := by
  set B := env.SRA_ORDER_EXPIRATION_BUFFER_SECONDS with hB
  -- what passes with a larger buffer passes with a smaller one
  have hmono : ∀ {a b : ℤ}, a ≤ b → entity.expiry.gt (.fin (env.nowSeconds + b)) = true →
      entity.expiry.gt (.fin (env.nowSeconds + a)) = true := by
    intro a b hab
    exact BigNumber.gt_fin_mono (by gcongr)
  simp only [ExpiryClear, isFreshOrder, deserializeOrderToSRAOrder, deserializeOrder,
    Option.getD_some, Option.getD_none, ← hB]
  constructor
  · rintro (hstale | hfresh) i hi
    · have hi0 : (min 0 B : ℤ) ≤ i := (min_le_left _ _).trans (Int.natCast_nonneg i)
      have hposition : entity.expiry.gt (.fin (env.nowSeconds + (i : ℤ))) = false := by
        by_contra h
        rw [hmono hi0 (Bool.not_eq_false _ ▸ h)] at hstale
        exact Bool.noConfusion hstale
      have hbuffer : entity.expiry.gt (.fin (env.nowSeconds + B)) = false := by
        by_contra h
        rw [hmono (min_le_right 0 B) (Bool.not_eq_false _ ▸ h)] at hstale
        exact Bool.noConfusion hstale
      rw [hposition, hbuffer]
    · have hlast : (i : ℤ) ≤ max B (sideLength - 1) := by
        refine le_max_of_le_right ?_
        omega
      rw [hmono hlast hfresh, hmono (le_max_left _ _) hfresh]
  · -- the first position and the last one are compared with the configured buffer
    intro hsame
    cases hbuffer : entity.expiry.gt (.fin (env.nowSeconds + B)) with
    | false =>
      left
      rcases min_choice (0 : ℤ) B with hmin | hmin
      · rw [hmin]
        have hfirst := hsame 0 hlen
        rw [hbuffer] at hfirst
        exact_mod_cast hfirst
      · rw [hmin]
        exact hbuffer
    | true =>
      right
      rcases max_choice B ((sideLength : ℤ) - 1) with hmax | hmax
      · rw [hmax]
        exact hbuffer
      · rw [hmax]
        have hlast := hsame (sideLength - 1) (by omega)
        rw [hbuffer] at hlast
        have hcast : ((sideLength - 1 : ℕ) : ℤ) = (sideLength : ℤ) - 1 := by omega
        rw [← hcast]
        exact hlast

theorem sideApiOrders_perm (compare : SignedLimitOrder → SignedLimitOrder → Option ℤ)
    (entities : List SignedOrderV4Entity) :
    (sideApiOrders env compare entities).Perm
      (filterIdx (fun apiOrder index => isFreshOrder env apiOrder (some index))
        (entities.map (deserializeOrderToSRAOrder env))) :=
  sortBy_perm _ _

theorem length_sideApiOrders_le (compare : SignedLimitOrder → SignedLimitOrder → Option ℤ)
    (entities : List SignedOrderV4Entity) :
    (sideApiOrders env compare entities).length ≤ entities.length := by
  rw [(sideApiOrders_perm env compare entities).length_eq]
  exact (filterIdx_sublist _ _).length_le.trans_eq (List.length_map _)

/-- A side holds exactly its fresh orders, in every order of its rows, exactly when the expiry of
each of its rows is clear. -/
theorem sideApiOrders_fresh_iff (compare : SignedLimitOrder → SignedLimitOrder → Option ℤ)
    {entities : List SignedOrderV4Entity} (hnd : entities.Nodup) :
    (∀ entities', entities'.Perm entities →
      (sideApiOrders env compare entities').Perm (freshOrders env entities)) ↔
      ∀ entity ∈ entities, ExpiryClear env entities.length entity := by
  constructor
  · intro hall entity hmem
    have hpos : 0 < entities.length := List.length_pos_of_mem hmem
    rw [expiryClear_iff env hpos]
    intro i hi
    -- a row order that puts the entity at position `i`
    obtain ⟨entities', hperm, hi', hget⟩ := exists_perm_getElem hmem hi
    have hnd' : (entities'.map (deserializeOrderToSRAOrder env)).Nodup :=
      (hperm.nodup_iff.mpr hnd).map (deserialize_injective env)
    have hi'' : i < (entities'.map (deserializeOrderToSRAOrder env)).length := by
      rwa [List.length_map]
    have hkept := mem_filterIdx_getElem
      (f := fun apiOrder index => isFreshOrder env apiOrder (some (index : ℤ))) hnd' hi''
    have hshown := (sideApiOrders_perm env compare entities').symm.trans (hall entities' hperm)
    rw [hshown.mem_iff, List.getElem_map, hget] at hkept
    have hfresh : deserializeOrderToSRAOrder env entity ∈ freshOrders env entities ↔
        isFreshOrder env (deserializeOrderToSRAOrder env entity) none = true := by
      rw [freshOrders, List.mem_filter]
      exact and_iff_right (List.mem_map_of_mem hmem)
    exact Bool.eq_iff_iff.mpr (hkept.symm.trans hfresh)
  · intro hclear entities' hperm
    refine (sideApiOrders_perm env compare entities').trans ?_
    have hfilter : filterIdx (fun apiOrder index => isFreshOrder env apiOrder (some (index : ℤ)))
        (entities'.map (deserializeOrderToSRAOrder env)) = freshOrders env entities' := by
      refine filterIdx_eq_filter ?_
      intro i hi
      rw [List.length_map] at hi
      rw [List.getElem_map]
      have hmem : entities'[i] ∈ entities := hperm.mem_iff.mp (List.getElem_mem hi)
      have hlen : i < entities.length := hperm.length_eq ▸ hi
      exact (expiryClear_iff env (List.length_pos_of_mem hmem) _).mp (hclear _ hmem) i hlen
    rw [hfilter]
    exact (hperm.map _).filter _

end Side

/-! ## The book -/

/-- Orders found on the pages of a side are exactly the fresh ones among `entities`, each once, and
exactly what the batch endpoint's freshness test keeps of the same rows. -/
structure SideShowsFresh (env : Env) (rows : List SignedOrderV4Entity) (perPage count : ℕ)
    (takerToken makerToken : String) (found : List SRAOrder) : Prop where
  fresh : found.Perm (freshOrders env
    (rows.filter fun o => o.takerToken == takerToken && o.makerToken == makerToken))
  once : (found.map fun apiOrder => apiOrder.metaData.orderHash).Nodup
  agrees : found.Perm
    (onPages (fun page => getBatchOrders env rows page perPage [makerToken] [takerToken]) count)

/-- **The order book shows exactly the fresh orders**: whatever order the rows come in, both sides
do on pages enough for the table. -/
def ShowsFreshOrders (env : Env) (table : SignedOrderTable) (perPage : ℕ)
    (baseToken quoteToken : String) : Prop :=
  ∀ rows, rows.Perm table.rows → ∀ count : ℕ, rows.length ≤ count * perPage →
    SideShowsFresh env table.rows perPage count baseToken quoteToken
      (onPages (fun page => (getOrderBook env rows page perPage baseToken quoteToken).bids) count) ∧
    SideShowsFresh env table.rows perPage count quoteToken baseToken
      (onPages (fun page => (getOrderBook env rows page perPage baseToken quoteToken).asks) count)

/-- Rows can come with any order of one side's rows. -/
theorem exists_rows_of_side {rows entities : List SignedOrderV4Entity}
    {takerToken makerToken : String}
    (hperm : entities.Perm (sideEntities rows takerToken makerToken)) :
    ∃ rows' : List SignedOrderV4Entity,
      rows'.Perm rows ∧ sideEntities rows' takerToken makerToken = entities := by
  set p : SignedOrderV4Entity → Bool := fun o =>
    o.takerToken == takerToken && o.makerToken == makerToken with hp
  rw [sideEntities_eq_filter, ← hp] at hperm
  refine ⟨entities ++ rows.filter fun o => !p o, ?_, ?_⟩
  · exact (hperm.append_right _).trans (List.filter_append_perm p rows)
  · have hside : entities.filter p = entities := by
      refine List.filter_eq_self.mpr ?_
      intro o ho
      exact (List.mem_filter.mp (hperm.mem_iff.mp ho)).2
    have hrest : (rows.filter fun o => !p o).filter p = [] := by
      refine List.filter_eq_nil_iff.mpr ?_
      intro o ho
      simpa using (List.mem_filter.mp ho).2
    rw [sideEntities_eq_filter, ← hp, List.filter_append, hside, hrest, List.append_nil]

theorem sideEntities_nodup (table : SignedOrderTable) (takerToken makerToken : String) :
    (sideEntities table.rows takerToken makerToken).Nodup := by
  rw [sideEntities_eq_filter]
  exact table.primaryKey.of_map.filter _

/-- The fresh orders of a side have distinct hashes. -/
theorem freshOrders_hash_nodup (env : Env) (table : SignedOrderTable)
    (takerToken makerToken : String) :
    ((freshOrders env (sideEntities table.rows takerToken makerToken)).map
      fun apiOrder => apiOrder.metaData.orderHash).Nodup := by
  have hsub : ((freshOrders env (sideEntities table.rows takerToken makerToken)).map
      fun apiOrder => apiOrder.metaData.orderHash).Sublist
      (table.rows.map SignedOrderV4Entity.hash) := by
    have hhash : (table.rows.map SignedOrderV4Entity.hash) =
        (table.rows.map (deserializeOrderToSRAOrder env)).map
          fun apiOrder => apiOrder.metaData.orderHash := by
      rw [List.map_map]
      rfl
    rw [hhash, freshOrders, sideEntities_eq_filter]
    exact (List.filter_sublist.trans (List.filter_sublist.map _)).map _
  exact table.primaryKey.sublist hsub

/-- The pages of the batch endpoint for one maker and one taker token hold that side's fresh
orders. -/
theorem onPages_getBatchOrders (env : Env) (rows : List SignedOrderV4Entity) {perPage count : ℕ}
    (hcount : rows.length ≤ count * perPage) (takerToken makerToken : String) :
    onPages (fun page => getBatchOrders env rows page perPage [makerToken] [takerToken]) count =
      freshOrders env (sideEntities rows takerToken makerToken) := by
  have hfresh : (groupByFreshness env
      ((rows.filter fun o =>
        [makerToken].contains o.makerToken && [takerToken].contains o.takerToken).map
        (deserializeOrderToSRAOrder env)) env.SRA_ORDER_EXPIRATION_BUFFER_SECONDS).1 =
      freshOrders env (sideEntities rows takerToken makerToken) := by
    have hside : (rows.filter fun o =>
        [makerToken].contains o.makerToken && [takerToken].contains o.takerToken) =
        sideEntities rows takerToken makerToken := by
      rw [sideEntities_eq_filter]
      refine List.filter_congr ?_
      intro o _
      by_cases hm : o.makerToken = makerToken
      · by_cases ht : o.takerToken = takerToken
        · simp [hm, ht]
        · simp [ht]
      · simp [hm]
    rw [hside, groupByFreshness, List.partition_eq_filter_filter]
    rfl
  simp only [getBatchOrders, hfresh]
  refine onPages_paginate _ ?_
  have hlen : (freshOrders env (sideEntities rows takerToken makerToken)).length ≤ rows.length := by
    rw [freshOrders, sideEntities_eq_filter]
    exact (List.filter_sublist.trans (List.filter_sublist.map _)).length_le.trans_eq
      (List.length_map _)
  exact hlen.trans hcount

/-- What one side shows, in every order of the rows, against the expiries of its rows. -/
theorem sideShowsFresh_iff (env : Env) (table : SignedOrderTable) {perPage : ℕ} (h : 1 ≤ perPage)
    (compare : SignedLimitOrder → SignedLimitOrder → Option ℤ) (takerToken makerToken : String) :
    (∀ rows, rows.Perm table.rows → ∀ count : ℕ, rows.length ≤ count * perPage →
      SideShowsFresh env table.rows perPage count takerToken makerToken
        (onPages (fun page => paginate
          (sideApiOrders env compare (sideEntities rows takerToken makerToken)) page
            perPage) count)) ↔
      ∀ entity ∈ sideEntities table.rows takerToken makerToken,
        ExpiryClear env (sideEntities table.rows takerToken makerToken).length entity := by
  have hpages : ∀ (rows : List SignedOrderV4Entity) (count : ℕ), rows.length ≤ count * perPage →
      onPages (fun page => paginate
        (sideApiOrders env compare (sideEntities rows takerToken makerToken)) page perPage) count =
        sideApiOrders env compare (sideEntities rows takerToken makerToken) := by
    intro rows count hcount
    refine onPages_paginate _ ((length_sideApiOrders_le env compare _).trans (le_trans ?_ hcount))
    rw [sideEntities_eq_filter]
    exact List.length_filter_le _ _
  rw [← sideApiOrders_fresh_iff env compare (sideEntities_nodup table takerToken makerToken)]
  constructor
  · intro hshows entities hperm
    obtain ⟨rows, hrows, hside⟩ := exists_rows_of_side hperm
    have hcount : rows.length ≤ rows.length * perPage := Nat.le_mul_of_pos_right _ h
    have hfresh := (hshows rows hrows rows.length hcount).fresh
    rwa [hpages rows _ hcount, hside, ← sideEntities_eq_filter] at hfresh
  · intro hside rows hrows count hcount
    have hperm : (sideEntities rows takerToken makerToken).Perm
        (sideEntities table.rows takerToken makerToken) := by
      rw [sideEntities_eq_filter, sideEntities_eq_filter]
      exact hrows.filter _
    have hshown := hside _ hperm
    rw [hpages rows count hcount]
    refine ⟨?_, ?_, ?_⟩
    · rwa [← sideEntities_eq_filter]
    · exact (hshown.map _).nodup_iff.mpr (freshOrders_hash_nodup env table takerToken makerToken)
    · rwa [onPages_getBatchOrders env table.rows (hrows.length_eq ▸ hcount)]

/-- The order book shows exactly the fresh orders of a pair, whatever order the rows come in,
exactly when on each side every row has a clear expiry: with `n` rows on the side it has expired
even without a buffer, or it outlives both the buffer and `n - 1` seconds. -/
theorem showsFreshOrders_iff (env : Env) (table : SignedOrderTable) {perPage : ℕ}
    (h : 1 ≤ perPage) (baseToken quoteToken : String) :
    ShowsFreshOrders env table perPage baseToken quoteToken ↔
      (∀ entity ∈ sideEntities table.rows baseToken quoteToken,
        ExpiryClear env (sideEntities table.rows baseToken quoteToken).length entity) ∧
      (∀ entity ∈ sideEntities table.rows quoteToken baseToken,
        ExpiryClear env (sideEntities table.rows quoteToken baseToken).length entity) := by
  rw [← sideShowsFresh_iff env table h compareBidOrder baseToken quoteToken,
    ← sideShowsFresh_iff env table h compareAskOrder quoteToken baseToken]
  constructor
  · intro hshows
    exact ⟨fun rows hrows count hcount => (hshows rows hrows count hcount).1,
      fun rows hrows count hcount => (hshows rows hrows count hcount).2⟩
  · rintro ⟨hbids, hasks⟩ rows hrows count hcount
    exact ⟨hbids rows hrows count hcount, hasks rows hrows count hcount⟩

/-- A row of the pair WETH/DAI that bids WETH for DAI, with the given hash and expiry. -/
def bidRow (hash : String) (expiry : ℚ) : SignedOrderV4Entity where
  hash := hash
  makerToken := "WETH"
  takerToken := "DAI"
  makerAmount := 1
  takerAmount := 1500
  maker := "0x01"
  taker := "0x00"
  pool := "0x00"
  expiry := .fin expiry
  salt := 1
  verifyingContract := "0xdef1"
  takerTokenFeeAmount := 0
  sender := "0x00"
  feeRecipient := "0x00"
  signature := { signatureType := 2, r := "0x0a", s := "0x0b", v := 27 }
  remainingFillableTakerAmount := 1500
  createdAt := "2023-01-01"

/-- The default configuration, at second one thousand. -/
def defaultEnv : Env where
  now := 1000000
  SRA_ORDER_EXPIRATION_BUFFER_SECONDS := 10
  CHAIN_ID := 1

/-- A single order that expires five seconds from now, inside the buffer of ten, is still shown: it
is judged with its position, zero, as the buffer. -/
theorem getOrderBook_shows_expiring :
    ¬ ShowsFreshOrders defaultEnv ⟨[bidRow "0xa" 1005], by decide⟩ 1 "DAI" "WETH" := by
  intro hshows
  have hbids := (sideShowsFresh_iff defaultEnv ⟨[bidRow "0xa" 1005], by decide⟩ le_rfl
    compareBidOrder "DAI" "WETH").mp fun rows hrows count hcount =>
      (hshows rows hrows count hcount).1
  have hclear := hbids (bidRow "0xa" 1005) (by decide)
  have hlen : (sideEntities [bidRow "0xa" 1005] "DAI" "WETH").length = 1 := by decide
  rw [hlen] at hclear
  norm_num [ExpiryClear, bidRow, defaultEnv, Env.nowSeconds, ONE_SECOND_MS] at hclear

/-- Two rows, one expired and one far from its expiry, are judged alike at every position. -/
theorem showsFreshOrders_two_rows :
    1 ≤ 20 ∧ ShowsFreshOrders defaultEnv ⟨[bidRow "0xa" 900, bidRow "0xb" 2000], by decide⟩ 20
      "DAI" "WETH" := by
  refine ⟨by decide, (showsFreshOrders_iff defaultEnv _ (by decide) "DAI" "WETH").mpr ⟨?_, ?_⟩⟩
  · have hside : sideEntities [bidRow "0xa" 900, bidRow "0xb" 2000] "DAI" "WETH" =
        [bidRow "0xa" 900, bidRow "0xb" 2000] := by decide
    rw [hside]
    intro entity hmem
    simp only [List.mem_cons, List.not_mem_nil, or_false] at hmem
    rcases hmem with rfl | rfl
    · left
      norm_num [bidRow, defaultEnv, Env.nowSeconds, ONE_SECOND_MS]
    · right
      norm_num [bidRow, defaultEnv, Env.nowSeconds, ONE_SECOND_MS]
  · have hside : sideEntities [bidRow "0xa" 900, bidRow "0xb" 2000] "WETH" "DAI" = [] := by decide
    rw [hside]
    intro entity hmem
    exact absurd hmem List.not_mem_nil

end ZeroExApi.OrderBook
