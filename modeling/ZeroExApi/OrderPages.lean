/-
# ZeroExApi.OrderPages — the pages of an order query over two tables

`getOrdersAsync` of `orderbook_service.ts`.  A query is a list of filters, of which a row has to
pass one; an account's unfillable orders are looked up in the table of persistent orders as well.
Both tables are read with the offset and the limit of the page, and what they return is put
together.

So a page holds a page of either table.  No row is lost or repeated over all pages, and the page is
within its limit exactly if one table has nothing to show or both fit one page (`pages_iff`).

The database applies filters, order, offset and limit as they are stated; a row is read as in
`OrderBook`.
-/

import ZeroExApi.OrderBook
import ZeroExApi.Lib.JsMap

namespace ZeroExApi.OrderPages

open ZeroExApi.Lib ZeroExApi.Lib.JsArray ZeroExApi.OrderBook

/-! ## Rows and filters -/

/-- `OrderEventEndState`. -/
inductive OrderEventEndState where
  | added
  | filled
  | fullyFilled
  | cancelled
  | expired
  | invalid
  | unexpired
  | unfunded
  | fillabilityIncreased
  | stoppedWatching
  deriving DecidableEq

/-- `PersistentSignedOrderV4Entity`. -/
structure PersistentSignedOrderV4Entity extends SignedOrderV4Entity where
  orderState : OrderEventEndState
  deriving DecidableEq

/-- An `SRAOrder` with the `state` of its metadata. -/
structure SRAOrderWithState extends SRAOrder where
  state : Option OrderEventEndState
  deriving DecidableEq

/-- What a column holds. -/
inductive ColumnValue where
  | text (value : String)
  | amount (value : BigNumber)
  | signature (value : Signature)
  | state (value : OrderEventEndState)
  deriving DecidableEq

/-- The operators of a filter: a value, `MoreThanOrEqual` and `In`. -/
inductive FindOperator where
  | equal (value : ColumnValue)
  | moreThanOrEqual (value : ℤ)
  | isIn (values : List ColumnValue)

/-- A column's value passes an operator. -/
def FindOperator.accepts : FindOperator → ColumnValue → Bool
  | .equal value, column => column == value
  | .moreThanOrEqual value, .amount column => column.gte (.fin value)
  | .moreThanOrEqual _, _ => false
  | .isIn values, column => values.contains column

/-- The column of a row under the name of its property. -/
def signedOrderColumn (row : SignedOrderV4Entity) (propertyName : String) : Option ColumnValue :=
  match propertyName with
  | "hash" => some (.text row.hash)
  | "makerToken" => some (.text row.makerToken)
  | "takerToken" => some (.text row.takerToken)
  | "makerAmount" => some (.amount row.makerAmount)
  | "takerAmount" => some (.amount row.takerAmount)
  | "maker" => some (.text row.maker)
  | "taker" => some (.text row.taker)
  | "pool" => some (.text row.pool)
  | "expiry" => some (.amount row.expiry)
  | "salt" => some (.amount row.salt)
  | "verifyingContract" => some (.text row.verifyingContract)
  | "takerTokenFeeAmount" => some (.amount row.takerTokenFeeAmount)
  | "sender" => some (.text row.sender)
  | "feeRecipient" => some (.text row.feeRecipient)
  | "signature" => some (.signature row.signature)
  | "remainingFillableTakerAmount" => some (.amount row.remainingFillableTakerAmount)
  | "createdAt" => some (.text row.createdAt)
  | _ => none

/-- `columnNames` of `SignedOrderV4Entity`. -/
def columnNames : List String :=
  ["hash", "makerToken", "takerToken", "makerAmount", "takerAmount", "maker", "taker", "pool",
    "expiry", "salt", "verifyingContract", "takerTokenFeeAmount", "sender", "feeRecipient",
    "signature", "remainingFillableTakerAmount", "createdAt"]

/-- The columns of a persistent order: those of a signed order, and its state. -/
def persistentOrderColumn (row : PersistentSignedOrderV4Entity) (propertyName : String) :
    Option ColumnValue :=
  if propertyName = "orderState" then
    some (.state row.orderState)
  else
    signedOrderColumn row.toSignedOrderV4Entity propertyName

/-- A filter: an operator for each of some columns. -/
abbrev Filter := JsMap String FindOperator

/-- A row passes a filter if it does in every column. -/
def Filter.accepts (filter : Filter) (column : String → Option ColumnValue) : Bool :=
  filter.entries.all fun entry =>
    match column entry.1 with
    | some value => entry.2.accepts value
    | none => false

/-! ## The database -/

/-- The rows that pass one of the filters, which `count` counts. -/
def accepted {α : Type} (column : α → String → Option ColumnValue) (filters : List Filter)
    (rows : List α) : List α :=
  rows.filter fun row => filters.any fun filter => filter.accepts (column row)

/-- `find` with an order by hash, an offset and a limit. -/
def find {α : Type} (column : α → String → Option ColumnValue) (hash : α → String)
    (filters : List Filter) (skip take : ℤ) (rows : List α) : List α :=
  (((accepted column filters rows).mergeSort fun a b => decide (hash a ≤ hash b)).drop
    skip.toNat).take take.toNat

/-- The two tables; the hash is the primary key of both. -/
structure OrderTables where
  signedOrders : List SignedOrderV4Entity
  persistentOrders : List PersistentSignedOrderV4Entity
  signedKey : (signedOrders.map fun row => row.hash).Nodup
  persistentKey : (persistentOrders.map fun row => row.hash).Nodup

/-! ## `getOrdersAsync` -/

/-- The additional filters of a query. -/
structure AdditionalFilters where
  isUnfillable : Bool
  trader : Option String

/-- A query for orders. -/
structure OrderQuery where
  orderFieldFilters : JsMap String ColumnValue
  additionalFilters : AdditionalFilters

/-- The error for unfillable orders without a maker: its field, its code and its reason. -/
structure RequiredFieldError where
  field : String := "maker"
  code : String := "RequiredField"
  reason : String := "MAKER_ADDRESS_REQUIRED_TO_FETCH_UNFILLABLE_ORDERS"

/-- The filters of a query, of which a row has to pass one. -/
def OrderQuery.filters (query : OrderQuery) : List Filter :=
  let orderFilter : Filter :=
    (query.orderFieldFilters.pickKeys fun k => columnNames.contains k).mapValues .equal
  match query.additionalFilters.trader with
  | some trader =>
    if trader = "" then
      [orderFilter]
    else
      [orderFilter.set "maker" (.equal (.text trader)),
        orderFilter.set "taker" (.equal (.text trader))]
  | none => [orderFilter]

/-- `minExpiryTime`. -/
def minExpiryTime (env : Env) : ℤ :=
  ⌊env.nowSeconds⌋ + env.SRA_ORDER_EXPIRATION_BUFFER_SECONDS

/-- `filtersWithExpirationCheck`. -/
def OrderQuery.filtersWithExpirationCheck (query : OrderQuery) (env : Env) : List Filter :=
  query.filters.map fun filter => filter.set "expiry" (.moreThanOrEqual (minExpiryTime env))

/-- `removedStates`. -/
def removedStates : List OrderEventEndState :=
  [.cancelled, .expired, .fullyFilled, .invalid, .stoppedWatching, .unfunded]

/-- `filtersWithoutDuplicateSignedOrders`. -/
def OrderQuery.filtersWithoutDuplicateSignedOrders (query : OrderQuery) : List Filter :=
  query.filters.map fun filter => filter.set "orderState" (.isIn (removedStates.map .state))

/-- `paginateDBFilters`: the offset and the limit of a page. -/
def paginateDBFilters (page perPage : ℤ) : ℤ × ℤ := ((page - 1) * perPage, perPage)

/-- `paginateSerialize`. -/
def paginateSerialize {α : Type} (collection : List α) (total : ℕ) (page perPage : ℤ) :
    PaginatedCollection α where
  total := total
  page := page
  perPage := perPage
  records := collection

/-- `deserializeOrderToSRAOrder` of a signed order. -/
def ofSignedOrder (env : Env) (row : SignedOrderV4Entity) : SRAOrderWithState :=
  { deserializeOrderToSRAOrder env row with state := none }

/-- `deserializeOrderToSRAOrder` of a persistent order. -/
def ofPersistentOrder (env : Env) (row : PersistentSignedOrderV4Entity) : SRAOrderWithState :=
  { deserializeOrderToSRAOrder env row.toSignedOrderV4Entity with state := some row.orderState }

/-- `getOrdersAsync`. -/
def getOrders (env : Env) (tables : OrderTables) (page perPage : ℤ) (query : OrderQuery) :
    Except RequiredFieldError (PaginatedCollection SRAOrderWithState) :=
  let isUnfillable := query.additionalFilters.isUnfillable
  if isUnfillable && (query.orderFieldFilters.get "maker").isNone then
    .error {}
  else
    let (skip, take) := paginateDBFilters page perPage
    let where' := query.filtersWithExpirationCheck env
    let signedOrderCount := (accepted signedOrderColumn where' tables.signedOrders).length
    let signedOrderEntities :=
      find signedOrderColumn (fun row => row.hash) where' skip take tables.signedOrders
    let apiOrders := signedOrderEntities.map (ofSignedOrder env)
    let persistentWhere := query.filtersWithoutDuplicateSignedOrders
    let (persistentOrdersCount, persistentOrders) :=
      if isUnfillable then
        ((accepted persistentOrderColumn persistentWhere tables.persistentOrders).length,
          (find persistentOrderColumn (fun row => row.hash) persistentWhere skip take
            tables.persistentOrders).map (ofPersistentOrder env))
      else
        (0, [])
    .ok
      (paginateSerialize (apiOrders ++ persistentOrders)
        (signedOrderCount + persistentOrdersCount) page perPage)

/-! ## Rows of a query -/

/-- The signed orders a query asks for. -/
def signedRows (env : Env) (tables : OrderTables) (query : OrderQuery) :
    List SignedOrderV4Entity :=
  accepted signedOrderColumn (query.filtersWithExpirationCheck env) tables.signedOrders

/-- The persistent orders a query asks for: none, unless it is for unfillable orders. -/
def persistentRows (tables : OrderTables) (query : OrderQuery) :
    List PersistentSignedOrderV4Entity :=
  if query.additionalFilters.isUnfillable then
    accepted persistentOrderColumn query.filtersWithoutDuplicateSignedOrders
      tables.persistentOrders
  else
    []

/-- The orders a query asks for, of both tables. -/
def matchingOrders (env : Env) (tables : OrderTables) (query : OrderQuery) :
    List SRAOrderWithState :=
  (signedRows env tables query).map (ofSignedOrder env) ++
    (persistentRows tables query).map (ofPersistentOrder env)

/-- Rows in the order of their hashes. -/
def byHash {α : Type} (hash : α → String) (rows : List α) : List α :=
  rows.mergeSort fun a b => decide (hash a ≤ hash b)

/-- A page of some rows. -/
def pageOf {α : Type} (rows : List α) (page perPage : ℤ) : List α :=
  (rows.drop ((page - 1) * perPage).toNat).take perPage.toNat

/-- The records of a page. -/
def pageRecords (env : Env) (tables : OrderTables) (query : OrderQuery) (page perPage : ℤ) :
    List SRAOrderWithState :=
  (pageOf (byHash (fun row => row.hash) (signedRows env tables query)) page perPage).map
      (ofSignedOrder env) ++
    (pageOf (byHash (fun row => row.hash) (persistentRows tables query)) page perPage).map
      (ofPersistentOrder env)

/-- An accepted query returns a page of either table, and the number of all orders. -/
theorem getOrders_eq_ok {env : Env} {tables : OrderTables} {page perPage : ℤ} {query : OrderQuery}
    (hmaker : query.additionalFilters.isUnfillable = true →
      (query.orderFieldFilters.get "maker").isSome = true) :
    getOrders env tables page perPage query =
      .ok ⟨(matchingOrders env tables query).length, page, perPage,
        pageRecords env tables query page perPage⟩ := by
  unfold getOrders
  cases hunfillable : query.additionalFilters.isUnfillable with
  | true =>
    have hnone : (query.orderFieldFilters.get "maker").isNone = false := by
      rw [Option.isNone_eq_false_iff]
      exact hmaker hunfillable
    simp [hnone, paginateSerialize, matchingOrders, pageRecords, persistentRows, hunfillable,
      signedRows, find, pageOf, byHash, paginateDBFilters]
  | false =>
    simp [paginateSerialize, matchingOrders, pageRecords, persistentRows, hunfillable, signedRows,
      find, pageOf, byHash, paginateDBFilters]

/-! ## Pages -/

theorem pageOf_succ {α : Type} (rows : List α) (i perPage : ℕ) :
    pageOf rows (i + 1) perPage = (rows.drop (i * perPage)).take perPage := by
  have hskip : ((i + 1 - 1 : ℤ) * perPage).toNat = i * perPage := by
    rw [add_sub_cancel_right]
    exact_mod_cast Int.toNat_natCast (i * perPage)
  rw [pageOf, hskip, Int.toNat_natCast]

/-- The pages of some rows are the rows, from the first on. -/
theorem flatMap_pageOf {α : Type} (rows : List α) (perPage count : ℕ) :
    ((List.range count).flatMap fun i : ℕ => pageOf rows (i + 1) perPage) =
      rows.take (count * perPage) := by
  rw [← flatMap_slice rows perPage count]
  apply List.flatMap_congr
  intro i _
  have hslice := slice_natCast rows (i * perPage) ((i + 1) * perPage)
  push_cast at hslice
  rw [pageOf_succ, hslice, List.drop_take, Nat.succ_mul, Nat.add_sub_cancel_left]

/-- A page is full as long as there are rows. -/
theorem length_pageOf_succ {α : Type} (rows : List α) (i perPage : ℕ) :
    (pageOf rows (i + 1) perPage).length = min perPage (rows.length - i * perPage) := by
  rw [pageOf_succ, List.length_take, List.length_drop]

/-- Pages enough for the rows hold the rows. -/
theorem flatMap_pageOf_perm {α : Type} (hash : α → String) (rows : List α) {perPage count : ℕ}
    (h : rows.length ≤ count * perPage) :
    ((List.range count).flatMap fun i : ℕ => pageOf (byHash hash rows) (i + 1) perPage).Perm
      rows := by
  have hlength : (byHash hash rows).length = rows.length := List.length_mergeSort _
  rw [flatMap_pageOf, List.take_of_length_le (hlength ▸ h)]
  exact List.mergeSort_perm _ _

/-- What the pages of a query promise: each is of at most `perPage` records and has the number of
all orders, and as many pages as that number fills hold each of the orders once. -/
def PagesHold {ε α : Type} (call : ℤ → Except ε (PaginatedCollection α)) (perPage : ℕ)
    (matching : List α) : Prop :=
  ∃ pages : ℤ → PaginatedCollection α,
    (∀ page, 1 ≤ page → call page = .ok (pages page) ∧ (pages page).total = matching.length ∧
      (pages page).records.length ≤ perPage) ∧
      (onPages pages ((matching.length + perPage - 1) / perPage)).Perm matching

/-- A page holds no more than its limit of the rows of two tables. -/
theorem pages_length_le_iff {perPage a b : ℕ} (hperPage : 0 < perPage) :
    (∀ i : ℕ, min perPage (a - i * perPage) + min perPage (b - i * perPage) ≤ perPage) ↔
      a = 0 ∨ b = 0 ∨ a + b ≤ perPage := by
  constructor
  · intro h
    have hfirst := h 0
    rw [Nat.zero_mul, Nat.sub_zero, Nat.sub_zero] at hfirst
    omega
  · intro h i
    have ha : a - i * perPage ≤ a := Nat.sub_le _ _
    have hb : b - i * perPage ≤ b := Nat.sub_le _ _
    omega

section Query

variable {env : Env} {tables : OrderTables} {query : OrderQuery} {perPage : ℕ} {clock : ℤ → ℕ}

/-- What a row is shown as does not depend on the clock. -/
theorem pageRecords_now (now : ℕ)
    (h : signedRows { env with now := now } tables query = signedRows env tables query)
    (page perPage : ℤ) :
    pageRecords { env with now := now } tables query page perPage =
      pageRecords env tables query page perPage := by
  unfold pageRecords
  rw [h]
  rfl

theorem matchingOrders_now (now : ℕ)
    (h : signedRows { env with now := now } tables query = signedRows env tables query) :
    matchingOrders { env with now := now } tables query = matchingOrders env tables query := by
  unfold matchingOrders
  rw [h]
  rfl

theorem length_pageRecords (i : ℕ) :
    (pageRecords env tables query (i + 1) perPage).length =
      min perPage ((signedRows env tables query).length - i * perPage) +
        min perPage ((persistentRows tables query).length - i * perPage) := by
  unfold pageRecords
  rw [List.length_append, List.length_map, List.length_map, length_pageOf_succ,
    length_pageOf_succ, byHash, byHash, List.length_mergeSort, List.length_mergeSort]

/-- The pages together have every order once, whatever a single page holds. -/
theorem flatMap_pageRecords_perm (hperPage : 0 < perPage) :
    ((List.range (((matchingOrders env tables query).length + perPage - 1) / perPage)).flatMap
        fun i : ℕ => pageRecords env tables query (i + 1) perPage).Perm
      (matchingOrders env tables query) := by
  have hlength : (matchingOrders env tables query).length =
      (signedRows env tables query).length + (persistentRows tables query).length := by
    rw [matchingOrders, List.length_append, List.length_map, List.length_map]
  generalize hcount : ((matchingOrders env tables query).length + perPage - 1) / perPage = count
  -- the pages are enough for all orders, and so for those of either table
  have hall : (matchingOrders env tables query).length ≤ count * perPage := by
    have hmod := Nat.div_add_mod ((matchingOrders env tables query).length + perPage - 1) perPage
    have hlt := Nat.mod_lt ((matchingOrders env tables query).length + perPage - 1) hperPage
    rw [hcount, mul_comm] at hmod
    omega
  have hsigned := flatMap_pageOf_perm (fun row => row.hash) (signedRows env tables query)
    (show _ ≤ count * perPage by omega)
  have hpersistent := flatMap_pageOf_perm (fun row => row.hash) (persistentRows tables query)
    (show _ ≤ count * perPage by omega)
  unfold pageRecords
  refine (List.flatMap_append_perm _ _ _).symm.trans ?_
  rw [← List.map_flatMap, ← List.map_flatMap]
  exact (hsigned.map _).append (hpersistent.map _)

/-- The pages of a query hold what they promise exactly if one of the tables has nothing that is
asked for, or all of it fits one page. -/
theorem pages_iff (hperPage : 0 < perPage)
    (hmaker : query.additionalFilters.isUnfillable = true →
      (query.orderFieldFilters.get "maker").isSome = true)
    (hclock : ∀ page, signedRows { env with now := clock page } tables query =
      signedRows env tables query) :
    PagesHold (fun page => getOrders { env with now := clock page } tables page perPage query)
        perPage (matchingOrders env tables query) ↔
      signedRows env tables query = [] ∨ persistentRows tables query = [] ∨
        (signedRows env tables query).length + (persistentRows tables query).length ≤ perPage := by
  have hcall : ∀ page, getOrders { env with now := clock page } tables page perPage query =
      .ok ⟨(matchingOrders env tables query).length, page, perPage,
        pageRecords env tables query page perPage⟩ := by
    intro page
    rw [getOrders_eq_ok hmaker, matchingOrders_now _ (hclock page),
      pageRecords_now _ (hclock page)]
  rw [← List.length_eq_zero_iff, ← List.length_eq_zero_iff, ← pages_length_le_iff hperPage]
  constructor
  · rintro ⟨pages, hpages, _⟩ i
    obtain ⟨hpage, _, hle⟩ := hpages (i + 1) (by omega)
    rw [← Except.ok.inj ((hcall _).symm.trans hpage)] at hle
    rwa [← length_pageRecords]
  · intro hle
    refine ⟨fun page => ⟨(matchingOrders env tables query).length, page, perPage,
      pageRecords env tables query page perPage⟩, ?_, flatMap_pageRecords_perm hperPage⟩
    intro page hpage
    refine ⟨hcall page, rfl, ?_⟩
    obtain ⟨i, rfl⟩ : ∃ i : ℕ, page = i + 1 := ⟨(page - 1).toNat, by omega⟩
    show (pageRecords env tables query (i + 1) perPage).length ≤ perPage
    rw [length_pageRecords]
    exact hle i

end Query

/-! ### One order in each table -/

/-- A signed order of one maker, which expires late. -/
def openOrder : SignedOrderV4Entity where
  hash := "0x01"
  makerToken := "0xa"
  takerToken := "0xb"
  makerAmount := 1
  takerAmount := 1
  maker := "0xmaker"
  taker := "0xtaker"
  pool := "0x0"
  expiry := .fin 1000
  salt := 0
  verifyingContract := "0xc"
  takerTokenFeeAmount := 0
  sender := "0x0"
  feeRecipient := "0x0"
  signature := ⟨2, "0x0", "0x0", 27⟩
  remainingFillableTakerAmount := 1
  createdAt := "now"

/-- Another order of the maker, cancelled. -/
def cancelledOrder : PersistentSignedOrderV4Entity :=
  { openOrder with
    hash := "0x02"
    orderState := .cancelled }

/-- Both orders, each in its table. -/
def oneOfEach : OrderTables where
  signedOrders := [openOrder]
  persistentOrders := [cancelledOrder]
  signedKey := List.nodup_singleton _
  persistentKey := List.nodup_singleton _

/-- A clock at zero, and a buffer of two minutes. -/
def queryEnv : Env := ⟨0, 120, 1⟩

/-- The unfillable orders of the maker. -/
def unfillableOfMaker : OrderQuery where
  orderFieldFilters := JsMap.empty.set "maker" (.text "0xmaker")
  additionalFilters := ⟨true, none⟩

/-- On pages of two, both orders are on the only page. -/
theorem oneOfEach_pages_of_two :
    PagesHold (fun page => getOrders queryEnv oneOfEach page 2 unfillableOfMaker) 2
      (matchingOrders queryEnv oneOfEach unfillableOfMaker) := by
  have hiff := @pages_iff queryEnv oneOfEach unfillableOfMaker 2 (fun _ => 0) (by decide)
    (fun _ => rfl) fun _ => rfl
  exact hiff.mpr (.inr (.inr (by decide +kernel)))

/-- On pages of one, the first page has two records. -/
theorem oneOfEach_page_of_one_has_two :
    ∃ result, getOrders queryEnv oneOfEach 1 1 unfillableOfMaker = .ok result ∧
      result.total = 2 ∧ result.records.length = 2 := by
  have hsigned : (signedRows queryEnv oneOfEach unfillableOfMaker).length = 1 := by
    decide +kernel
  have hpersistent : (persistentRows oneOfEach unfillableOfMaker).length = 1 := by
    decide +kernel
  refine ⟨_, getOrders_eq_ok fun _ => rfl, ?_, ?_⟩
  · show (matchingOrders queryEnv oneOfEach unfillableOfMaker).length = 2
    rw [matchingOrders, List.length_append, List.length_map, List.length_map, hsigned, hpersistent]
  · have hrecords := @length_pageRecords queryEnv oneOfEach unfillableOfMaker 1 0
    rw [hsigned, hpersistent] at hrecords
    exact hrecords

end ZeroExApi.OrderPages
