/-
# ZeroExApi.OrderPersistence — orders written to the database and read back

`order_utils.ts` turns an order with its metadata into an entity of either table, whose columns are
strings, and an entity into an order.  Amounts are printed with all their digits; the four parts of
a signature stand in one column, joined by commas.

`deserializeOrderToSRAOrder_serialize` is the round trip over both tables.  It goes through the rows
of `ZeroExApi.OrderBook`, whose columns are the values they spell: reading an entity is reading its
columns and then taking the row as the order book does (`deserializeOrderToSRAOrder_eq`), and the
columns of a written entity spell the fields of the order (`readColumns_serializeOrder`).
-/

import ZeroExApi.Lib.Decimal
import ZeroExApi.OrderPages

namespace ZeroExApi.OrderPersistence

open ZeroExApi.Lib ZeroExApi.Lib.Decimal
open ZeroExApi.OrderBook (Env SignedLimitOrder defaultEnv)
open ZeroExApi.OrderPages (OrderEventEndState)

/-! ## Orders and entities -/

/-- `SRAOrderMetaData`. -/
structure SRAOrderMetaData where
  orderHash : String
  remainingFillableTakerAmount : BigNumber
  state : Option OrderEventEndState
  createdAt : Option String
  deriving DecidableEq

/-- `SRAOrder`. -/
structure SRAOrder where
  order : SignedLimitOrder
  metaData : SRAOrderMetaData
  deriving DecidableEq

/-- `SignedOrderV4Entity`: columns of text. -/
structure SignedOrderV4Entity where
  hash : String
  makerToken : String
  takerToken : String
  makerAmount : String
  takerAmount : String
  maker : String
  taker : String
  pool : String
  expiry : String
  salt : String
  verifyingContract : String
  takerTokenFeeAmount : String
  sender : String
  feeRecipient : String
  signature : String
  remainingFillableTakerAmount : String
  createdAt : Option String
  deriving DecidableEq

/-- `PersistentSignedOrderV4Entity`. -/
structure PersistentSignedOrderV4Entity extends SignedOrderV4Entity where
  orderState : OrderEventEndState
  deriving DecidableEq

/-- The constructor of `PersistentSignedOrderV4Entity`, with its default state. -/
def PersistentSignedOrderV4Entity.new (opts : SignedOrderV4Entity)
    (orderState : Option OrderEventEndState) : PersistentSignedOrderV4Entity :=
  { opts with orderState := orderState.getD .added }

/-- What `deserializeOrderToSRAOrder` takes: an entity of either table. -/
inductive OrderEntity where
  | signed (entity : SignedOrderV4Entity)
  | persistent (entity : PersistentSignedOrderV4Entity)

namespace OrderEntity

/-- The columns both entities have. -/
def columns : OrderEntity → SignedOrderV4Entity
  | signed entity => entity
  | persistent entity => entity.toSignedOrderV4Entity

/-- `orderState`, `undefined` on an entity without that column. -/
def orderState : OrderEntity → Option OrderEventEndState
  | signed _ => none
  | persistent entity => some entity.orderState

/-- The entity with the time the database gives it. -/
def storedAt (createdAt : Option String) : OrderEntity → OrderEntity
  | signed entity => signed { entity with createdAt }
  | persistent entity => persistent { entity with createdAt }

end OrderEntity

/-- What `assert` throws: the variable that is not of its type. -/
structure AssertionError where
  variableName : String
  type : String
  deriving DecidableEq

/-! ## Signatures -/

/-- `assert.isNumber`: a number that is not `NaN`. -/
def isNumber (variableName : String) : Option ℕ → Except AssertionError ℕ
  | some value => .ok value
  | none => .error { variableName, type := "number" }

/-- `assert.isString`. -/
def isString (variableName : String) : Option String → Except AssertionError String
  | some value => .ok value
  | none => .error { variableName, type := "string" }

/-- `str.split(',')`. -/
def splitCommas (str : String) : List String := (str.toList.splitOn ',').map String.ofList

/-- `deserializeSignature`.  A part that is missing is `undefined`, and `parseInt` of that is
`NaN`. -/
def deserializeSignature (signatureStr : String) : Except AssertionError Signature := do
  let parts := splitCommas signatureStr
  let signatureType := parts[0]?.bind parseInt
  let v := parts[3]?.bind parseInt
  let signatureType ← isNumber "signatureType" signatureType
  let v ← isNumber "signatureV" v
  let r ← isString "signatureR" parts[1]?
  let s ← isString "signatureS" parts[2]?
  return { signatureType, r, s, v }

/-- `serializeSignature`. -/
def serializeSignature (signature : Signature) : String :=
  String.intercalate ","
    [natString signature.signatureType, signature.r, signature.s, natString signature.v]

/-- Texts without commas come apart again where they were joined. -/
theorem splitCommas_intercalate {parts : List String} (hne : parts ≠ [])
    (hparts : ∀ part ∈ parts, ',' ∉ part.toList) :
    splitCommas (String.intercalate "," parts) = parts := by
  -- on lists of characters this is the library's fact
  have hsplit : (([','] : List Char).intercalate (parts.map String.toList)).splitOn ',' =
      parts.map String.toList := by
    apply List.splitOn_intercalate
    · simpa using hparts
    · simpa using hne
  simp only [splitCommas, String.toList_intercalate]
  rw [show ",".toList = [','] from rfl, hsplit]
  simp [Function.comp_def]

/-- A signature without commas in `r` and `s` is read back from its column. -/
theorem deserializeSignature_serializeSignature {signature : Signature}
    (hr : ',' ∉ signature.r.toList) (hs : ',' ∉ signature.s.toList) :
    deserializeSignature (serializeSignature signature) = .ok signature := by
  have hnumber : ∀ n, ',' ∉ Nat.toDigits 10 n := notMem_toDigits (by decide)
  have hparts : splitCommas (serializeSignature signature) =
      [natString signature.signatureType, signature.r, signature.s, natString signature.v] := by
    apply splitCommas_intercalate (List.cons_ne_nil _ _)
    simp [hnumber, hr, hs]
  simp only [deserializeSignature, hparts]
  simp [isNumber, isString, bind, Except.bind, pure, Except.pure]

/-! ## Reading -/

/-- `deserializeOrder`. -/
def deserializeOrder (env : Env) (signedOrderEntity : SignedOrderV4Entity) :
    Except AssertionError SignedLimitOrder := do
  let signature ← deserializeSignature signedOrderEntity.signature
  return {
    signature
    sender := signedOrderEntity.sender
    maker := signedOrderEntity.maker
    taker := signedOrderEntity.taker
    takerTokenFeeAmount := .ofString signedOrderEntity.takerTokenFeeAmount
    makerAmount := .ofString signedOrderEntity.makerAmount
    takerAmount := .ofString signedOrderEntity.takerAmount
    makerToken := signedOrderEntity.makerToken
    takerToken := signedOrderEntity.takerToken
    salt := .ofString signedOrderEntity.salt
    verifyingContract := signedOrderEntity.verifyingContract
    feeRecipient := signedOrderEntity.feeRecipient
    expiry := .ofString signedOrderEntity.expiry
    chainId := env.CHAIN_ID
    pool := signedOrderEntity.pool }

/-- `deserializeOrderToSRAOrder`. -/
def deserializeOrderToSRAOrder (env : Env) (signedOrderEntity : OrderEntity) :
    Except AssertionError SRAOrder := do
  let order ← deserializeOrder env signedOrderEntity.columns
  let metaData : SRAOrderMetaData :=
    { orderHash := signedOrderEntity.columns.hash
      remainingFillableTakerAmount :=
        .ofString signedOrderEntity.columns.remainingFillableTakerAmount
      state := signedOrderEntity.orderState
      createdAt := signedOrderEntity.columns.createdAt }
  return { order, metaData }

/-! ## Writing -/

/-- `serializeOrder`. -/
def serializeOrder (apiOrder : SRAOrder) : SignedOrderV4Entity :=
  let signedOrder := apiOrder.order
  { signature := serializeSignature signedOrder.signature
    sender := signedOrder.sender
    maker := signedOrder.maker
    taker := signedOrder.taker
    makerAmount := signedOrder.makerAmount.toString
    takerAmount := signedOrder.takerAmount.toString
    makerToken := signedOrder.makerToken
    takerToken := signedOrder.takerToken
    takerTokenFeeAmount := signedOrder.takerTokenFeeAmount.toString
    salt := signedOrder.salt.toString
    verifyingContract := signedOrder.verifyingContract
    feeRecipient := signedOrder.feeRecipient
    pool := signedOrder.pool
    expiry := signedOrder.expiry.toString
    hash := apiOrder.metaData.orderHash
    remainingFillableTakerAmount := apiOrder.metaData.remainingFillableTakerAmount.toString
    createdAt := none }

/-- `serializePersistentOrder`. -/
def serializePersistentOrder (apiOrder : SRAOrder) : PersistentSignedOrderV4Entity :=
  let signedOrder := apiOrder.order
  .new
    { signature := serializeSignature signedOrder.signature
      sender := signedOrder.sender
      maker := signedOrder.maker
      taker := signedOrder.taker
      makerAmount := signedOrder.makerAmount.toString
      takerAmount := signedOrder.takerAmount.toString
      makerToken := signedOrder.makerToken
      takerToken := signedOrder.takerToken
      takerTokenFeeAmount := signedOrder.takerTokenFeeAmount.toString
      salt := signedOrder.salt.toString
      verifyingContract := signedOrder.verifyingContract
      feeRecipient := signedOrder.feeRecipient
      pool := signedOrder.pool
      expiry := signedOrder.expiry.toString
      hash := apiOrder.metaData.orderHash
      remainingFillableTakerAmount := apiOrder.metaData.remainingFillableTakerAmount.toString
      createdAt := none }
    (some (apiOrder.metaData.state.getD .added))

/-- Both writers fill the columns alike; only one has the state. -/
theorem serializePersistentOrder_eq (apiOrder : SRAOrder) :
    serializePersistentOrder apiOrder =
      { serializeOrder apiOrder with orderState := apiOrder.metaData.state.getD .added } :=
  rfl

/-! ## Rows as the values they spell -/

/-- The row of `ZeroExApi.OrderBook` an entity is, once stored at `createdAt`. -/
def readColumns (entity : SignedOrderV4Entity) (createdAt : String) :
    Except AssertionError OrderBook.SignedOrderV4Entity := do
  let signature ← deserializeSignature entity.signature
  return {
    hash := entity.hash
    makerToken := entity.makerToken
    takerToken := entity.takerToken
    makerAmount := .ofString entity.makerAmount
    takerAmount := .ofString entity.takerAmount
    maker := entity.maker
    taker := entity.taker
    pool := entity.pool
    expiry := .ofString entity.expiry
    salt := .ofString entity.salt
    verifyingContract := entity.verifyingContract
    takerTokenFeeAmount := .ofString entity.takerTokenFeeAmount
    sender := entity.sender
    feeRecipient := entity.feeRecipient
    signature
    remainingFillableTakerAmount := .ofString entity.remainingFillableTakerAmount
    createdAt }

/-- An order of the order book as the API shows it, with the state and the time of its entity. -/
def ofBookOrder (apiOrder : OrderBook.SRAOrder) (state : Option OrderEventEndState)
    (createdAt : Option String) : SRAOrder where
  order := apiOrder.order
  metaData :=
    { orderHash := apiOrder.metaData.orderHash
      remainingFillableTakerAmount := apiOrder.metaData.remainingFillableTakerAmount
      state
      createdAt }

/-- Reading an entity is reading its columns and taking the row as the order book takes it.  The
time of the row does not matter here: the entity's own is shown. -/
theorem deserializeOrderToSRAOrder_eq (env : Env) (entity : OrderEntity) (createdAt : String) :
    deserializeOrderToSRAOrder env entity =
      (readColumns entity.columns createdAt).map fun row =>
        ofBookOrder (OrderBook.deserializeOrderToSRAOrder env row) entity.orderState
          entity.columns.createdAt := by
  simp only [deserializeOrderToSRAOrder, deserializeOrder, readColumns]
  cases deserializeSignature entity.columns.signature with
  | error e => rfl
  | ok signature => rfl

/-! ## The round trip -/

/-- A number that is a natural. -/
def IsNatural (x : BigNumber) : Prop := ∃ n : ℕ, x = .fin n

theorem IsNatural.ofString_toString {x : BigNumber} (h : IsNatural x) :
    BigNumber.ofString x.toString = x := by
  obtain ⟨n, rfl⟩ := h
  exact BigNumber.ofString_toString_natCast n

/-- A signed limit order of this chain with its metadata: natural numbers in its numeric fields, and
no comma in `r` and `s`. -/
structure WellFormed (env : Env) (apiOrder : SRAOrder) : Prop where
  chainId : apiOrder.order.chainId = env.CHAIN_ID
  takerTokenFeeAmount : IsNatural apiOrder.order.takerTokenFeeAmount
  makerAmount : IsNatural apiOrder.order.makerAmount
  takerAmount : IsNatural apiOrder.order.takerAmount
  salt : IsNatural apiOrder.order.salt
  expiry : IsNatural apiOrder.order.expiry
  remainingFillableTakerAmount : IsNatural apiOrder.metaData.remainingFillableTakerAmount
  r : ',' ∉ apiOrder.order.signature.r.toList
  s : ',' ∉ apiOrder.order.signature.s.toList

/-- The row of the order book with the fields of an order. -/
def bookRow (apiOrder : SRAOrder) (createdAt : String) : OrderBook.SignedOrderV4Entity where
  hash := apiOrder.metaData.orderHash
  makerToken := apiOrder.order.makerToken
  takerToken := apiOrder.order.takerToken
  makerAmount := apiOrder.order.makerAmount
  takerAmount := apiOrder.order.takerAmount
  maker := apiOrder.order.maker
  taker := apiOrder.order.taker
  pool := apiOrder.order.pool
  expiry := apiOrder.order.expiry
  salt := apiOrder.order.salt
  verifyingContract := apiOrder.order.verifyingContract
  takerTokenFeeAmount := apiOrder.order.takerTokenFeeAmount
  sender := apiOrder.order.sender
  feeRecipient := apiOrder.order.feeRecipient
  signature := apiOrder.order.signature
  remainingFillableTakerAmount := apiOrder.metaData.remainingFillableTakerAmount
  createdAt := createdAt

/-- The columns of a written order spell its fields. -/
theorem readColumns_serializeOrder {env : Env} {apiOrder : SRAOrder} (h : WellFormed env apiOrder)
    (createdAt : String) :
    readColumns (serializeOrder apiOrder) createdAt = .ok (bookRow apiOrder createdAt) := by
  have hsignature : deserializeSignature (serializeOrder apiOrder).signature =
      .ok apiOrder.order.signature :=
    deserializeSignature_serializeSignature h.r h.s
  simp only [readColumns, hsignature]
  simp [serializeOrder, bookRow, bind, Except.bind, pure, Except.pure,
    h.takerTokenFeeAmount.ofString_toString, h.makerAmount.ofString_toString,
    h.takerAmount.ofString_toString, h.salt.ofString_toString, h.expiry.ofString_toString,
    h.remainingFillableTakerAmount.ofString_toString]

/-- The order book reads an order of this chain from the row with its fields. -/
theorem deserializeOrder_bookRow {env : Env} {apiOrder : SRAOrder} (h : WellFormed env apiOrder)
    (createdAt : String) :
    OrderBook.deserializeOrder env (bookRow apiOrder createdAt) = apiOrder.order := by
  simp only [OrderBook.deserializeOrder, bookRow, ← h.chainId]

/-- An entity with the columns of a written order is read as that order. -/
theorem deserializeOrderToSRAOrder_of_columns {env : Env} {apiOrder : SRAOrder}
    (h : WellFormed env apiOrder) {entity : OrderEntity} {createdAt : Option String}
    (hcolumns : entity.columns = { serializeOrder apiOrder with createdAt }) :
    deserializeOrderToSRAOrder env entity =
      .ok
        { order := apiOrder.order
          metaData :=
            { apiOrder.metaData with state := entity.orderState, createdAt } } := by
  have hread : readColumns entity.columns "" = .ok (bookRow apiOrder "") := by
    rw [hcolumns]
    exact readColumns_serializeOrder h ""
  rw [deserializeOrderToSRAOrder_eq env entity "", hread]
  show Except.ok _ = Except.ok _
  congr 1
  simp only [ofBookOrder, OrderBook.deserializeOrderToSRAOrder, deserializeOrder_bookRow h,
    hcolumns]
  rfl

/-- An order written to either table, whatever time the database then gives it, is read back as the
same order with the same hash and remaining amount; from the persistent table with its state too,
which is `Added` when none was given. -/
theorem deserializeOrderToSRAOrder_serialize (env : Env) (apiOrder : SRAOrder)
    (h : WellFormed env apiOrder) (createdAt : Option String) :
    deserializeOrderToSRAOrder env
        ((OrderEntity.signed (serializeOrder apiOrder)).storedAt createdAt) =
      .ok
        { order := apiOrder.order
          metaData := { apiOrder.metaData with state := none, createdAt } } ∧
    deserializeOrderToSRAOrder env
        ((OrderEntity.persistent (serializePersistentOrder apiOrder)).storedAt createdAt) =
      .ok
        { order := apiOrder.order
          metaData :=
            { apiOrder.metaData with
              state := some (apiOrder.metaData.state.getD .added), createdAt } } := by
  constructor
  · exact deserializeOrderToSRAOrder_of_columns h rfl
  · apply deserializeOrderToSRAOrder_of_columns h
    rw [serializePersistentOrder_eq]
    rfl

/-- An order with a salt above `10 ^ 30` and no state. -/
def sampleOrder : SRAOrder where
  order :=
    { signature := { signatureType := 2, r := "0x1f", s := "0x2e", v := 27 }
      sender := "0x0"
      maker := "0xa"
      taker := "0x0"
      takerTokenFeeAmount := .fin 0
      makerAmount := .fin 1500
      takerAmount := .fin 100
      makerToken := "0xb"
      takerToken := "0xc"
      salt := .fin (10 ^ 30 + 7)
      verifyingContract := "0xd"
      feeRecipient := "0x0"
      expiry := .fin 2000
      chainId := 1
      pool := "0x0" }
  metaData :=
    { orderHash := "0xf"
      remainingFillableTakerAmount := .fin 60
      state := none
      createdAt := none }

theorem sampleOrder_wellFormed : WellFormed defaultEnv sampleOrder where
  chainId := rfl
  takerTokenFeeAmount := ⟨0, by decide⟩
  makerAmount := ⟨1500, by decide⟩
  takerAmount := ⟨100, by decide⟩
  salt := ⟨10 ^ 30 + 7, by decide +kernel⟩
  expiry := ⟨2000, by decide⟩
  remainingFillableTakerAmount := ⟨60, by decide⟩
  r := by decide
  s := by decide

theorem deserializeOrderToSRAOrder_serialize_sample :
    deserializeOrderToSRAOrder defaultEnv
        ((OrderEntity.signed (serializeOrder sampleOrder)).storedAt (some "2023")) =
      .ok
        { order := sampleOrder.order
          metaData := { sampleOrder.metaData with state := none, createdAt := some "2023" } } ∧
    deserializeOrderToSRAOrder defaultEnv
        ((OrderEntity.persistent (serializePersistentOrder sampleOrder)).storedAt (some "2023")) =
      .ok
        { order := sampleOrder.order
          metaData :=
            { sampleOrder.metaData with state := some .added, createdAt := some "2023" } } :=
  deserializeOrderToSRAOrder_serialize defaultEnv sampleOrder sampleOrder_wellFormed (some "2023")

end ZeroExApi.OrderPersistence
