/-
# ZeroExApi.FirmQuoteValidator — how much of a firm quote its maker can fill

`postgres_rfqt_firm_quote_validator.ts`.  The balances of makers are sampled by a worker and cached;
`getRfqtTakerFillableAmountsAsync` bounds the taker amount of each quote of a batch by what the
cache has for its maker, and has makers that the cache does not know added to it.

The amounts line up with the quotes although a maker may appear many times and the rows come back in
any order (`fillable_sound`).
-/

import ZeroExApi.Types
import ZeroExApi.Lib.Fallible
import ZeroExApi.Lib.JsMap
import ZeroExApi.Lib.JsString

namespace ZeroExApi.FirmQuoteValidator

open ZeroExApi.Lib ZeroExApi.Lib.BigNumber ZeroExApi.Lib.Fallible

/-! ## Quotes and the cache -/

/-- `RfqOrderFields`, the fields the validator reads. -/
structure RfqOrderFields where
  maker : String
  makerToken : String
  makerAmount : BigNumber
  takerAmount : BigNumber

/-- `MakerBalanceChainCacheEntity`; times are in milliseconds. -/
structure MakerBalanceChainCacheEntity where
  tokenAddress : String
  makerAddress : String
  timeFirstSeen : Option ℤ
  balance : Option BigNumber
  timeOfSample : Option ℤ

/-- The content of the cache: its key is the token with the maker, addresses are in lower case, and
balances are amounts. -/
structure MakerBalanceCache where
  rows : List MakerBalanceChainCacheEntity
  primaryKey : (rows.map fun row => (row.tokenAddress, row.makerAddress)).Nodup
  lowerCase : ∀ row ∈ rows, row.tokenAddress.toLower = row.tokenAddress ∧
    row.makerAddress.toLower = row.makerAddress
  balances : ∀ row ∈ rows, ∀ b ∈ row.balance, IsAmount b

/-- What is inserted for a new maker; its time is the database's. -/
structure NewMaker where
  makerAddress : String
  tokenAddress : String
  deriving DecidableEq

def ZERO : BigNumber := .fin 0

/-! ## The validator -/

/-- `_calculateMakerBalanceFromResult`. -/
def calculateMakerBalanceFromResult (cacheExpiryThresholdMs : ℤ)
    (result : MakerBalanceChainCacheEntity) (nowUnix : ℤ) : BigNumber :=
  match result.timeOfSample with
  | none =>
    let timeFirstSeen := result.timeFirstSeen.getD 0
    let msPassedSinceLastSeen := nowUnix - timeFirstSeen
    if msPassedSinceLastSeen > cacheExpiryThresholdMs then ZERO else POSITIVE_INF
  | some timeOfSample =>
    if nowUnix - timeOfSample > cacheExpiryThresholdMs then
      ZERO
    else
      match result.balance with
      | none => ZERO
      | some balance => balance

/-- The part of a quote's taker amount that a balance of its maker covers. -/
def fillableFromBalance (quote : RfqOrderFields) (makerTokenBalanceForMaker : BigNumber) :
    BigNumber :=
  if makerTokenBalanceForMaker.gte quote.makerAmount then
    quote.takerAmount
  else if quote.makerAmount.lte 0 then
    ZERO
  else
    let partialFillableAmount :=
      ((makerTokenBalanceForMaker.times quote.takerAmount).div quote.makerAmount).integerValue .down
    if !partialFillableAmount.isFinite then ZERO else partialFillableAmount

/-- `_calculateTakerFillableAmountsFromQuotes`: the amounts, and the makers to add.  Reading an
inherited property of the lookup finds no number, and the comparison with it throws. -/
def calculateTakerFillableAmountsFromQuotes (makerLookup : JsMap String BigNumber) :
    List RfqOrderFields → JsSet String → Except JsError (List BigNumber × JsSet String)
  | [], makerAddressesToAddToCache => .ok ([], makerAddressesToAddToCache)
  | quote :: quotes, makerAddressesToAddToCache =>
    match readProperty makerLookup quote.maker.toLower with
    | .inherited => .error .typeError
    | .absent => do
      let (amounts, toAdd) ←
        calculateTakerFillableAmountsFromQuotes makerLookup quotes
          (makerAddressesToAddToCache.add quote.maker.toLower)
      .ok (quote.takerAmount :: amounts, toAdd)
    | .own balance => do
      let (amounts, toAdd) ←
        calculateTakerFillableAmountsFromQuotes makerLookup quotes makerAddressesToAddToCache
      .ok (fillableFromBalance quote balance :: amounts, toAdd)

/-- The query for the rows of some makers with a token. -/
def cacheResults (cache : MakerBalanceCache) (makerToken : String) (makerAddresses : List String) :
    List MakerBalanceChainCacheEntity :=
  cache.rows.filter fun row =>
    row.tokenAddress == makerToken && makerAddresses.contains row.makerAddress

/-- `getRfqtTakerFillableAmountsAsync`: the amounts, and the rows to insert. -/
def getRfqtTakerFillableAmounts (cacheExpiryThresholdMs : ℤ) (cache : MakerBalanceCache)
    (nowUnix : ℤ) (quotes : List RfqOrderFields) :
    Except JsError (List BigNumber × List NewMaker) :=
  let uniqueMakerTokens := JsSet.ofList (quotes.map fun quote => quote.makerToken.toLower)
  match uniqueMakerTokens.elements with
  | [makerToken] => do
    let makerAddresses := (JsSet.ofList (quotes.map fun quote => quote.maker.toLower)).elements
    let makerLookup := JsMap.empty.setAll
      ((cacheResults cache makerToken makerAddresses).map fun result =>
        (result.makerAddress,
          calculateMakerBalanceFromResult cacheExpiryThresholdMs result nowUnix))
    let (takerFillableAmounts, makerAddressesToAddToCache) ←
      calculateTakerFillableAmountsFromQuotes makerLookup quotes .empty
    .ok
      (takerFillableAmounts,
        makerAddressesToAddToCache.elements.map fun makerAddress =>
          ⟨makerAddress.toLower, makerToken.toLower⟩)
  | _ => .ok (quotes.map fun _ => ZERO, [])

/-! ## Amounts -/

/-- A quote of positive amounts. -/
structure RfqOrderFields.Positive (quote : RfqOrderFields) : Prop where
  makerAmount_eq : quote.makerAmount = .fin quote.makerAmount.toRat
  makerAmount_pos : 0 < quote.makerAmount.toRat
  takerAmount_eq : quote.takerAmount = .fin quote.takerAmount.toRat
  takerAmount_pos : 0 < quote.takerAmount.toRat

section Fillable

variable {quote : RfqOrderFields}

/-- A part of the taker amount that a balance covers: the proportional part of the maker amount is
within the balance, and it is all of it exactly if the balance has all of the maker amount. -/
structure Covered (quote : RfqOrderFields) (balance amount : ℚ) : Prop where
  nonneg : 0 ≤ amount
  le : amount ≤ quote.takerAmount.toRat
  covers : (⌊amount * quote.makerAmount.toRat / quote.takerAmount.toRat⌋ : ℚ) ≤ balance
  full_iff : amount = quote.takerAmount.toRat ↔ quote.makerAmount.toRat ≤ balance

theorem fillableFromBalance_covered (hquote : quote.Positive) {balance : ℚ} (h : 0 ≤ balance) :
    ∃ amount, fillableFromBalance quote (.fin balance) = .fin amount ∧
      Covered quote balance amount := by
  obtain ⟨hmaker, hmaker₀, htaker, htaker₀⟩ := hquote
  set m := quote.makerAmount.toRat with hm
  set t := quote.takerAmount.toRat with ht
  unfold fillableFromBalance
  rw [hmaker, htaker, gte_fin]
  by_cases hle : m ≤ balance
  · rw [decide_eq_true hle, if_pos rfl]
    refine ⟨t, rfl, htaker₀.le, le_rfl, ?_, iff_of_true rfl hle⟩
    rw [← hm, ← ht, mul_div_cancel_left₀ m htaker₀.ne']
    exact (Int.floor_le m).trans hle
  · have hpositive : (BigNumber.fin m).lte 0 = false := by
      rw [zero_eq, lte_fin, decide_eq_false_iff_not, not_le]
      exact hmaker₀
    have hpart : 0 ≤ balance * t / m := div_nonneg (mul_nonneg h htaker₀.le) hmaker₀.le
    rw [decide_eq_false hle, if_neg Bool.false_ne_true, hpositive, if_neg Bool.false_ne_true,
      times_fin, div_fin _ hmaker₀.ne', integerValue_fin, roundRat_down_of_nonneg hpart]
    dsimp only
    rw [isFinite_fin, Bool.not_true, if_neg Bool.false_ne_true]
    have hfloor : (⌊balance * t / m⌋ : ℚ) ≤ balance * t / m := Int.floor_le _
    have hless : balance * t / m < t := by
      rw [div_lt_iff₀ hmaker₀, mul_comm t m]
      exact mul_lt_mul_of_pos_right (not_le.mp hle) htaker₀
    have hback : (⌊balance * t / m⌋ : ℚ) * m / t ≤ balance := by
      rw [div_le_iff₀ htaker₀]
      exact (le_div_iff₀ hmaker₀).mp hfloor
    refine ⟨_, rfl, Int.cast_nonneg_iff.mpr (Int.floor_nonneg.mpr hpart), hfloor.trans hless.le,
      (Int.floor_le _).trans hback, iff_of_false ?_ hle⟩
    exact (hfloor.trans_lt hless).ne

/-- Without a balance nothing is covered. -/
theorem fillableFromBalance_zero (hquote : quote.Positive) :
    fillableFromBalance quote ZERO = .fin 0 := by
  obtain ⟨hmaker, hmaker₀, htaker, _⟩ := hquote
  unfold fillableFromBalance ZERO
  rw [hmaker, htaker, gte_fin, decide_eq_false hmaker₀.not_ge, if_neg Bool.false_ne_true, zero_eq,
    lte_fin, decide_eq_false hmaker₀.not_ge, if_neg Bool.false_ne_true, times_fin, zero_mul,
    div_fin _ hmaker₀.ne', zero_div, integerValue_fin, roundRat_zero]
  rfl

/-- An infinite balance covers all. -/
theorem fillableFromBalance_inf (hquote : quote.Positive) :
    fillableFromBalance quote POSITIVE_INF = quote.takerAmount := by
  unfold fillableFromBalance POSITIVE_INF
  rw [hquote.makerAmount_eq]
  rfl

end Fillable

/-! ## Reading the lookup -/

section Lookup

variable {makerLookup : JsMap String BigNumber} {quotes : List RfqOrderFields}

/-- What the validator makes of a quote, where no inherited property is read. -/
def fillableAmount (makerLookup : JsMap String BigNumber) (quote : RfqOrderFields) : BigNumber :=
  match readProperty makerLookup quote.maker.toLower with
  | .own balance => fillableFromBalance quote balance
  | _ => quote.takerAmount

theorem fillableAmount_of_none {quote : RfqOrderFields}
    (hget : makerLookup.get quote.maker.toLower = none) :
    fillableAmount makerLookup quote = quote.takerAmount := by
  rw [fillableAmount, readProperty, hget]
  by_cases hinherited : objectPrototypeNames.contains quote.maker.toLower = true
  · rw [if_pos hinherited]
  · rw [if_neg hinherited]

/-- One amount for each quote, in order, and the makers that are not in the lookup. -/
theorem calculateTakerFillableAmounts_eq_ok (makerLookup : JsMap String BigNumber)
    (haddress : ∀ q ∈ quotes, q.maker.toLower ∉ objectPrototypeNames) (toAdd : JsSet String) :
    ∃ added, calculateTakerFillableAmountsFromQuotes makerLookup quotes toAdd =
        .ok (quotes.map (fillableAmount makerLookup), added) ∧
      ∀ maker, maker ∈ added.elements ↔ maker ∈ toAdd.elements ∨
        ∃ q ∈ quotes, q.maker.toLower = maker ∧ makerLookup.get maker = none := by
  induction quotes generalizing toAdd with
  | nil => exact ⟨toAdd, rfl, by simp⟩
  | cons quote quotes ih =>
    have hrest := fun x hx => haddress x (List.mem_cons_of_mem _ hx)
    have hinherited : objectPrototypeNames.contains quote.maker.toLower = false := by
      rw [List.contains_eq_mem, decide_eq_false_iff_not]
      exact haddress quote List.mem_cons_self
    unfold calculateTakerFillableAmountsFromQuotes
    -- a maker without a balance joins those that are added, any other leaves them as they are
    cases hget : makerLookup.get quote.maker.toLower with
    | none =>
      have hread : readProperty makerLookup quote.maker.toLower = .absent := by
        rw [readProperty, hget]
        dsimp only
        rw [hinherited, if_neg Bool.false_ne_true]
      obtain ⟨added, hadded, hmem⟩ := ih hrest (toAdd.add quote.maker.toLower)
      refine ⟨added, ?_, ?_⟩
      · rw [hread, hadded, List.map_cons, fillableAmount, hread]
        rfl
      · intro maker
        rw [hmem, JsSet.mem_add]
        simp only [List.mem_cons, exists_eq_or_imp]
        constructor
        · rintro ((h | rfl) | h)
          · exact .inl h
          · exact .inr (.inl ⟨rfl, hget⟩)
          · exact .inr (.inr h)
        · rintro (h | ⟨rfl, _⟩ | h)
          · exact .inl (.inl h)
          · exact .inl (.inr rfl)
          · exact .inr h
    | some balance =>
      have hread : readProperty makerLookup quote.maker.toLower = .own balance := by
        rw [readProperty, hget]
      obtain ⟨added, hadded, hmem⟩ := ih hrest toAdd
      refine ⟨added, ?_, ?_⟩
      · rw [hread, hadded, List.map_cons, fillableAmount, hread]
        rfl
      · intro maker
        rw [hmem]
        simp only [List.mem_cons, exists_eq_or_imp]
        constructor
        · rintro (h | h)
          · exact .inl h
          · exact .inr (.inr h)
        · rintro (h | ⟨rfl, hnone⟩ | h)
          · exact .inl h
          · rw [hget] at hnone
            cases hnone
          · exact .inr h

end Lookup

/-! ## Batches -/

/-- A row is of the maker and the token of a quote. -/
def IsRowOf (row : MakerBalanceChainCacheEntity) (quote : RfqOrderFields) : Prop :=
  row.tokenAddress.toLower = quote.makerToken.toLower ∧
    row.makerAddress.toLower = quote.maker.toLower

/-- What a quote of a batch is taken to be fillable for: what its maker's sampled balance covers,
nothing where the worker is late, and all of it as long as the maker is new. -/
structure Fillable (cacheExpiryThresholdMs : ℤ) (cache : MakerBalanceCache) (nowUnix : ℤ)
    (quote : RfqOrderFields) (amount : ℚ) : Prop where
  nonneg : 0 ≤ amount
  le : amount ≤ quote.takerAmount.toRat
  sampled : ∀ row ∈ cache.rows, IsRowOf row quote → ∀ timeOfSample balance,
    row.timeOfSample = some timeOfSample → nowUnix - timeOfSample ≤ cacheExpiryThresholdMs →
      row.balance = some (.fin balance) → Covered quote balance amount
  expired : ∀ row ∈ cache.rows, IsRowOf row quote →
    cacheExpiryThresholdMs < nowUnix - row.timeOfSample.getD (row.timeFirstSeen.getD 0) →
      amount = 0
  awaited : ∀ row ∈ cache.rows, IsRowOf row quote → row.timeOfSample = none →
    nowUnix - row.timeFirstSeen.getD 0 ≤ cacheExpiryThresholdMs →
      amount = quote.takerAmount.toRat
  unknown : (∀ row ∈ cache.rows, ¬ IsRowOf row quote) → amount = quote.takerAmount.toRat

section Batch

variable {cacheExpiryThresholdMs nowUnix : ℤ} {cache : MakerBalanceCache}
  {quotes : List RfqOrderFields} {makerToken : String}

/-- The rows that are read for a batch. -/
def batchRows (cache : MakerBalanceCache) (quotes : List RfqOrderFields) (makerToken : String) :
    List MakerBalanceChainCacheEntity :=
  cacheResults cache makerToken
    (JsSet.ofList (quotes.map fun quote => quote.maker.toLower)).elements

/-- The entries of the lookup of a batch. -/
def lookupEntries (cacheExpiryThresholdMs nowUnix : ℤ) (cache : MakerBalanceCache)
    (quotes : List RfqOrderFields) (makerToken : String) : List (String × BigNumber) :=
  (batchRows cache quotes makerToken).map fun result =>
    (result.makerAddress, calculateMakerBalanceFromResult cacheExpiryThresholdMs result nowUnix)

/-- The lookup of a batch. -/
def batchLookup (cacheExpiryThresholdMs nowUnix : ℤ) (cache : MakerBalanceCache)
    (quotes : List RfqOrderFields) (makerToken : String) : JsMap String BigNumber :=
  JsMap.empty.setAll (lookupEntries cacheExpiryThresholdMs nowUnix cache quotes makerToken)

theorem mem_batchRows {row : MakerBalanceChainCacheEntity} :
    row ∈ batchRows cache quotes makerToken ↔
      row ∈ cache.rows ∧ row.tokenAddress = makerToken ∧
        ∃ q ∈ quotes, q.maker.toLower = row.makerAddress := by
  rw [batchRows, cacheResults, List.mem_filter, Bool.and_eq_true, beq_iff_eq,
    List.contains_iff_mem, JsSet.mem_ofList, List.mem_map]

/-- With one token, the rows that are read are of different makers. -/
theorem lookupEntries_nodup :
    ((lookupEntries cacheExpiryThresholdMs nowUnix cache quotes makerToken).map
      Prod.fst).Nodup := by
  have hkeys := cache.primaryKey
  have hinj : ∀ a ∈ batchRows cache quotes makerToken, ∀ b ∈ batchRows cache quotes makerToken,
      a.makerAddress = b.makerAddress → a = b := by
    intro a ha b hb heq
    obtain ⟨ha, hatoken, _⟩ := mem_batchRows.mp ha
    obtain ⟨hb, hbtoken, _⟩ := mem_batchRows.mp hb
    apply List.inj_on_of_nodup_map hkeys ha hb
    rw [heq, hatoken, hbtoken]
  rw [lookupEntries, List.map_map]
  exact List.Nodup.map_on hinj ((List.Nodup.of_map _ hkeys).filter _)

/-- The row of a quote is read. -/
theorem mem_batchRows_of_isRowOf {quote : RfqOrderFields} (hquote : quote ∈ quotes)
    (htoken : quote.makerToken.toLower = makerToken) {row : MakerBalanceChainCacheEntity}
    (hrow : row ∈ cache.rows) (hof : IsRowOf row quote) :
    row ∈ batchRows cache quotes makerToken ∧ row.makerAddress = quote.maker.toLower := by
  obtain ⟨hlower₁, hlower₂⟩ := cache.lowerCase row hrow
  have hmaker : row.makerAddress = quote.maker.toLower := by rw [← hof.2, hlower₂]
  exact ⟨mem_batchRows.mpr ⟨hrow, by rw [← hlower₁, hof.1, htoken], quote, hquote, hmaker.symm⟩,
    hmaker⟩

/-- The lookup has the balance of the row of a quote. -/
theorem lookup_of_isRowOf {quote : RfqOrderFields} (hquote : quote ∈ quotes)
    (htoken : quote.makerToken.toLower = makerToken) {row : MakerBalanceChainCacheEntity}
    (hrow : row ∈ cache.rows) (hof : IsRowOf row quote) :
    (batchLookup cacheExpiryThresholdMs nowUnix cache quotes makerToken).get quote.maker.toLower =
      some (calculateMakerBalanceFromResult cacheExpiryThresholdMs row nowUnix) := by
  obtain ⟨hmem, hmaker⟩ := mem_batchRows_of_isRowOf hquote htoken hrow hof
  rw [← hmaker]
  exact JsMap.get_setAll_of_mem JsMap.empty lookupEntries_nodup (List.mem_map_of_mem hmem)

/-- The lookup has nothing for a quote without a row. -/
theorem lookup_eq_none_iff {quote : RfqOrderFields} (hquote : quote ∈ quotes)
    (htoken : quote.makerToken.toLower = makerToken) :
    (batchLookup cacheExpiryThresholdMs nowUnix cache quotes makerToken).get quote.maker.toLower
      = none ↔
      ∀ row ∈ cache.rows, ¬ IsRowOf row quote := by
  constructor
  · intro hnone row hrow hof
    rw [lookup_of_isRowOf hquote htoken hrow hof] at hnone
    cases hnone
  · intro hno
    rw [batchLookup, JsMap.get_setAll_of_not_mem]
    · rfl
    · intro hmem
      rw [lookupEntries, List.map_map] at hmem
      obtain ⟨row, hrow, hmaker⟩ := List.mem_map.mp hmem
      obtain ⟨hrow, hrowToken, _⟩ := mem_batchRows.mp hrow
      refine hno row hrow ⟨?_, ?_⟩
      · rw [hrowToken, ← htoken, JsString.toLower_toLower]
      · rw [show row.makerAddress = quote.maker.toLower from hmaker, JsString.toLower_toLower]

/-- The balance that is taken of a row. -/
theorem calculateMakerBalance_cases (cacheExpiryThresholdMs nowUnix : ℤ)
    (row : MakerBalanceChainCacheEntity) (hbalance : ∀ b ∈ row.balance, IsAmount b) :
    (cacheExpiryThresholdMs < nowUnix - row.timeOfSample.getD (row.timeFirstSeen.getD 0) ∧
        calculateMakerBalanceFromResult cacheExpiryThresholdMs row nowUnix = ZERO) ∨
      (nowUnix - row.timeOfSample.getD (row.timeFirstSeen.getD 0) ≤ cacheExpiryThresholdMs ∧
        ((row.timeOfSample = none ∧
            calculateMakerBalanceFromResult cacheExpiryThresholdMs row nowUnix = POSITIVE_INF) ∨
          (row.timeOfSample.isSome = true ∧ ∃ balance : ℚ, 0 ≤ balance ∧
            (row.balance.getD ZERO = .fin balance) ∧
            calculateMakerBalanceFromResult cacheExpiryThresholdMs row nowUnix =
              .fin balance))) := by
  unfold calculateMakerBalanceFromResult
  cases htime : row.timeOfSample with
  | none =>
    rw [Option.getD_none]
    dsimp only
    split
    · rename_i hlate
      exact .inl ⟨hlate, rfl⟩
    · rename_i hsoon
      exact .inr ⟨not_lt.mp hsoon, .inl ⟨rfl, rfl⟩⟩
  | some timeOfSample =>
    rw [Option.getD_some]
    dsimp only
    split
    · rename_i hlate
      exact .inl ⟨hlate, rfl⟩
    · rename_i hsoon
      refine .inr ⟨not_lt.mp hsoon, .inr ⟨rfl, ?_⟩⟩
      cases hb : row.balance with
      | none => exact ⟨0, le_rfl, rfl, rfl⟩
      | some balance =>
        obtain ⟨b, rfl, hb₀⟩ := hbalance balance hb
        exact ⟨b, hb₀, rfl, rfl⟩

/-- The row of a maker with a token is the only one. -/
theorem isRowOf_unique {quote : RfqOrderFields} {row row' : MakerBalanceChainCacheEntity}
    (hrow : row ∈ cache.rows) (hrow' : row' ∈ cache.rows) (hof : IsRowOf row quote)
    (hof' : IsRowOf row' quote) : row = row' := by
  obtain ⟨htoken, hmaker⟩ := cache.lowerCase row hrow
  obtain ⟨htoken', hmaker'⟩ := cache.lowerCase row' hrow'
  apply List.inj_on_of_nodup_map cache.primaryKey hrow hrow'
  rw [← htoken, ← htoken', ← hmaker, ← hmaker', hof.1, hof'.1, hof.2, hof'.2]

/-- What a row says is all there is about its quote. -/
theorem fillable_of_row {quote : RfqOrderFields} (hpositive : quote.Positive)
    {row : MakerBalanceChainCacheEntity} (hrow : row ∈ cache.rows) (hof : IsRowOf row quote) :
    ∃ amount, fillableFromBalance quote
        (calculateMakerBalanceFromResult cacheExpiryThresholdMs row nowUnix) = .fin amount ∧
      Fillable cacheExpiryThresholdMs cache nowUnix quote amount := by
  -- the clauses about rows are about this one: there is no second one
  have honly : ∀ row' ∈ cache.rows, IsRowOf row' quote → row' = row :=
    fun row' hrow' hof' => isRowOf_unique hrow' hrow hof' hof
  have hknown : ¬ ∀ row' ∈ cache.rows, ¬ IsRowOf row' quote := fun hno => hno row hrow hof
  have hpos := hpositive.takerAmount_pos
  rcases calculateMakerBalance_cases cacheExpiryThresholdMs nowUnix row
    (cache.balances row hrow) with
    ⟨hlate, hbalance⟩ | ⟨hsoon, ⟨hnever, hbalance⟩ | ⟨hsampled, balance, hb₀, hb, hbalance⟩⟩
  · refine ⟨0, by rw [hbalance, fillableFromBalance_zero hpositive], le_rfl, hpos.le, ?_,
      fun _ _ _ _ => rfl, ?_, fun hno => absurd hno hknown⟩
    · intro row' hrow' hof' timeOfSample balance htime hrecent
      rw [honly row' hrow' hof'] at htime
      rw [htime, Option.getD_some] at hlate
      exact absurd hrecent hlate.not_ge
    · intro row' hrow' hof' hnever hrecent
      rw [honly row' hrow' hof'] at hnever hrecent
      rw [hnever, Option.getD_none] at hlate
      exact absurd hrecent hlate.not_ge
  · refine ⟨quote.takerAmount.toRat, ?_, hpos.le, le_rfl, ?_, ?_, fun _ _ _ _ _ => rfl,
      fun _ => rfl⟩
    · rw [hbalance, fillableFromBalance_inf hpositive]
      exact hpositive.takerAmount_eq
    · intro row' hrow' hof' timeOfSample balance htime
      rw [honly row' hrow' hof', hnever] at htime
      cases htime
    · intro row' hrow' hof' hlate
      rw [honly row' hrow' hof'] at hlate
      exact absurd hsoon hlate.not_ge
  · obtain ⟨amount, hamount, hcovered⟩ := fillableFromBalance_covered hpositive hb₀
    refine ⟨amount, by rw [hbalance, hamount], hcovered.nonneg, hcovered.le, ?_, ?_, ?_,
      fun hno => absurd hno hknown⟩
    · intro row' hrow' hof' timeOfSample balance' _ _ hbalance'
      rw [honly row' hrow' hof'] at hbalance'
      rw [hbalance', Option.getD_some] at hb
      rw [fin.inj hb]
      exact hcovered
    · intro row' hrow' hof' hlate
      rw [honly row' hrow' hof'] at hlate
      exact absurd hsoon hlate.not_ge
    · intro row' hrow' hof' hnever
      rw [honly row' hrow' hof'] at hnever
      rw [hnever] at hsampled
      cases hsampled

/-- Each quote of a batch is taken to be fillable for what its maker's row says. -/
theorem fillableAmount_fillable {quote : RfqOrderFields} (hquote : quote ∈ quotes)
    (htoken : quote.makerToken.toLower = makerToken) (hpositive : quote.Positive) :
    ∃ amount, fillableAmount
        (batchLookup cacheExpiryThresholdMs nowUnix cache quotes makerToken) quote =
          .fin amount ∧
      Fillable cacheExpiryThresholdMs cache nowUnix quote amount := by
  by_cases hrows : ∃ row ∈ cache.rows, IsRowOf row quote
  · obtain ⟨row, hrow, hof⟩ := hrows
    obtain ⟨amount, hamount, hfillable⟩ := fillable_of_row hpositive hrow hof
    refine ⟨amount, ?_, hfillable⟩
    rw [fillableAmount, readProperty, lookup_of_isRowOf hquote htoken hrow hof]
    exact hamount
  · have hno : ∀ row ∈ cache.rows, ¬ IsRowOf row quote := by
      intro row hrow hof
      exact hrows ⟨row, hrow, hof⟩
    refine ⟨quote.takerAmount.toRat, ?_, hpositive.takerAmount_pos.le, le_rfl, ?_, ?_, ?_,
      fun _ => rfl⟩
    · rw [fillableAmount_of_none ((lookup_eq_none_iff hquote htoken).mpr hno)]
      exact hpositive.takerAmount_eq
    · intro row hrow hof
      exact absurd hof (hno row hrow)
    · intro row hrow hof
      exact absurd hof (hno row hrow)
    · intro row hrow hof
      exact absurd hof (hno row hrow)

/-! ## The result -/

/-- Nothing is fillable where the quotes disagree on the token. -/
theorem getRfqtTakerFillableAmounts_of_ne {q q' : RfqOrderFields} (hq : q ∈ quotes)
    (hq' : q' ∈ quotes) (hne : q.makerToken.toLower ≠ q'.makerToken.toLower) :
    getRfqtTakerFillableAmounts cacheExpiryThresholdMs cache nowUnix quotes =
      .ok (quotes.map fun _ => ZERO, []) := by
  unfold getRfqtTakerFillableAmounts
  dsimp only
  split
  · rename_i makerToken hunique
    have hall : ∀ x ∈ quotes, x.makerToken.toLower = makerToken := by
      intro x hx
      rw [← List.mem_singleton, ← hunique, JsSet.mem_ofList]
      exact List.mem_map_of_mem hx
    exact absurd ((hall q hq).trans (hall q' hq').symm) hne
  · rfl

/-- A batch of one token is worked through with the lookup of its rows. -/
theorem getRfqtTakerFillableAmounts_of_eq (hne : quotes ≠ [])
    (hall : ∀ q ∈ quotes, q.makerToken.toLower = makerToken) {amounts : List BigNumber}
    {added : JsSet String}
    (h : calculateTakerFillableAmountsFromQuotes
      (batchLookup cacheExpiryThresholdMs nowUnix cache quotes makerToken) quotes .empty =
        .ok (amounts, added)) :
    getRfqtTakerFillableAmounts cacheExpiryThresholdMs cache nowUnix quotes =
      .ok (amounts, added.elements.map fun makerAddress =>
        ⟨makerAddress.toLower, makerToken.toLower⟩) := by
  have hunique : (JsSet.ofList (quotes.map fun quote => quote.makerToken.toLower)).elements =
      [makerToken] := by
    apply JsSet.ofList_of_forall_eq
    · intro hnil
      exact hne (List.map_eq_nil_iff.mp hnil)
    · intro token htoken
      obtain ⟨q, hq, rfl⟩ := List.mem_map.mp htoken
      exact hall q hq
  unfold getRfqtTakerFillableAmounts
  dsimp only
  rw [hunique]
  dsimp only
  unfold batchLookup lookupEntries batchRows at h
  rw [h]
  rfl

/-- What the validator promises of its result: each quote gets an amount of its own within its
taker amount.  Of quotes with different tokens none is fillable; in a batch of one token each is
fillable for what the row of its maker says, and exactly the makers without a row are added, each
once. -/
structure Sound (cacheExpiryThresholdMs : ℤ) (cache : MakerBalanceCache) (nowUnix : ℤ)
    (quotes : List RfqOrderFields) (amounts : List BigNumber) (inserted : List NewMaker) :
    Prop where
  aligned : List.Forall₂ (fun quote amount => ∃ r : ℚ, amount = BigNumber.fin r ∧
    0 ≤ r ∧ r ≤ quote.takerAmount.toRat) quotes amounts
  rejected : (∃ q ∈ quotes, ∃ q' ∈ quotes, q.makerToken.toLower ≠ q'.makerToken.toLower) →
    (∀ amount ∈ amounts, amount = .fin 0) ∧ inserted = []
  fillable : (∀ q ∈ quotes, ∀ q' ∈ quotes, q.makerToken.toLower = q'.makerToken.toLower) →
    List.Forall₂ (fun quote amount => ∃ r : ℚ, amount = BigNumber.fin r ∧
      Fillable cacheExpiryThresholdMs cache nowUnix quote r) quotes amounts
  added_once : inserted.Nodup
  added : (∀ q ∈ quotes, ∀ q' ∈ quotes, q.makerToken.toLower = q'.makerToken.toLower) →
    ∀ entry, entry ∈ inserted ↔ ∃ q ∈ quotes, (∀ row ∈ cache.rows, ¬ IsRowOf row q) ∧
      entry = ⟨q.maker.toLower, q.makerToken.toLower⟩

/-- The result is sound for quotes of positive amounts by makers whose addresses are no name that a
plain object inherits. -/
theorem fillable_sound (cacheExpiryThresholdMs : ℤ) (cache : MakerBalanceCache) (nowUnix : ℤ)
    (quotes : List RfqOrderFields) (hpositive : ∀ q ∈ quotes, q.Positive)
    (haddress : ∀ q ∈ quotes, q.maker.toLower ∉ objectPrototypeNames) :
    ∃ amounts inserted,
      getRfqtTakerFillableAmounts cacheExpiryThresholdMs cache nowUnix quotes =
        .ok (amounts, inserted) ∧
      Sound cacheExpiryThresholdMs cache nowUnix quotes amounts inserted := by
  by_cases hsame : ∀ q ∈ quotes, ∀ q' ∈ quotes, q.makerToken.toLower = q'.makerToken.toLower
  · by_cases hnil : quotes = []
    · subst hnil
      refine ⟨[], [], rfl, .nil, ?_, fun _ => .nil, List.nodup_nil, ?_⟩
      · rintro ⟨q, hq, _⟩
        cases hq
      · simp
    · obtain ⟨first, hfirst⟩ := List.exists_mem_of_ne_nil quotes hnil
      have htoken : ∀ q ∈ quotes, q.makerToken.toLower = first.makerToken.toLower :=
        fun q hq => hsame q hq first hfirst
      set makerLookup := batchLookup cacheExpiryThresholdMs nowUnix cache quotes
        first.makerToken.toLower with hlookup
      obtain ⟨added, hadded, hmem⟩ :=
        calculateTakerFillableAmounts_eq_ok makerLookup haddress .empty
      have hfillable : List.Forall₂ (fun quote amount => ∃ r : ℚ, amount = BigNumber.fin r ∧
          Fillable cacheExpiryThresholdMs cache nowUnix quote r) quotes
          (quotes.map (fillableAmount makerLookup)) := by
        rw [List.forall₂_map_right_iff, List.forall₂_same]
        intro q hq
        exact fillableAmount_fillable hq (htoken q hq) (hpositive q hq)
      have hunknown : ∀ maker, maker ∈ added.elements ↔ ∃ q ∈ quotes, q.maker.toLower = maker ∧
          ∀ row ∈ cache.rows, ¬ IsRowOf row q := by
        intro maker
        rw [hmem]
        constructor
        · rintro (h | ⟨q, hq, rfl, hnone⟩)
          · cases h
          · exact ⟨q, hq, rfl, (lookup_eq_none_iff hq (htoken q hq)).mp hnone⟩
        · rintro ⟨q, hq, rfl, hno⟩
          exact .inr ⟨q, hq, rfl, (lookup_eq_none_iff hq (htoken q hq)).mpr hno⟩
      -- the addresses that are added are in lower case already
      have hlower : ∀ maker ∈ added.elements, maker.toLower = maker := by
        intro maker hmaker
        obtain ⟨q, _, rfl, _⟩ := (hunknown maker).mp hmaker
        exact JsString.toLower_toLower _
      refine ⟨_, _, getRfqtTakerFillableAmounts_of_eq hnil htoken hadded, ?_, ?_,
        fun _ => hfillable, ?_, ?_⟩
      · apply hfillable.imp
        rintro q amount ⟨r, rfl, hr⟩
        exact ⟨r, rfl, hr.nonneg, hr.le⟩
      · rintro ⟨q, hq, q', hq', hne⟩
        exact absurd (hsame q hq q' hq') hne
      · apply List.Nodup.map_on _ added.nodup
        intro maker hmaker maker' hmaker' heq
        rw [← hlower maker hmaker, ← hlower maker' hmaker']
        exact congrArg NewMaker.makerAddress heq
      · intro _ entry
        rw [List.mem_map]
        constructor
        · rintro ⟨maker, hmaker, rfl⟩
          obtain ⟨q, hq, rfl, hno⟩ := (hunknown maker).mp hmaker
          refine ⟨q, hq, hno, ?_⟩
          rw [htoken q hq, JsString.toLower_toLower, JsString.toLower_toLower]
        · rintro ⟨q, hq, hno, rfl⟩
          refine ⟨q.maker.toLower, (hunknown _).mpr ⟨q, hq, rfl, hno⟩, ?_⟩
          rw [htoken q hq, JsString.toLower_toLower, JsString.toLower_toLower]
  · have hdifferent : ∃ q ∈ quotes, ∃ q' ∈ quotes,
        q.makerToken.toLower ≠ q'.makerToken.toLower := by
      push Not at hsame
      exact hsame
    obtain ⟨q, hq, q', hq', hne⟩ := hdifferent
    refine ⟨_, _, getRfqtTakerFillableAmounts_of_ne hq hq' hne, ?_, ?_, ?_, List.nodup_nil, ?_⟩
    · rw [List.forall₂_map_right_iff, List.forall₂_same]
      intro x hx
      exact ⟨0, rfl, le_rfl, (hpositive x hx).takerAmount_pos.le⟩
    · intro _
      refine ⟨?_, rfl⟩
      intro amount hamount
      obtain ⟨_, _, rfl⟩ := List.mem_map.mp hamount
      rfl
    · intro hall
      exact absurd (hall q hq q' hq') hne
    · intro hall
      exact absurd (hall q hq q' hq') hne

end Batch

/-! ### Two makers, one of them new -/

/-- The row of a maker with a balance of 30, sampled at 1000. -/
def sampledRow : MakerBalanceChainCacheEntity :=
  ⟨"0xdai", "0xaa", some 500, some (.fin 30), some 1000⟩

theorem sampledRow_lowerCase : ∀ row ∈ [sampledRow], row.tokenAddress.toLower = row.tokenAddress ∧
    row.makerAddress.toLower = row.makerAddress := by
  decide +kernel

theorem sampledRow_balances : ∀ row ∈ [sampledRow], ∀ b ∈ row.balance, IsAmount b := by
  intro row hrow b hb
  rw [List.mem_singleton.mp hrow] at hb
  rw [← Option.some.inj hb, isAmount_fin]
  norm_num

def sampledMaker : MakerBalanceCache :=
  ⟨[sampledRow], List.nodup_singleton _, sampledRow_lowerCase, sampledRow_balances⟩

/-- Two quotes of the maker, and one of a maker that the cache does not know. -/
def threeQuotes : List RfqOrderFields :=
  [⟨"0xAA", "0xDAI", .fin 20, .fin 10⟩, ⟨"0xbb", "0xdai", .fin 20, .fin 10⟩,
    ⟨"0xaa", "0xdai", .fin 70, .fin 10⟩]

theorem threeQuotes_positive : ∀ q ∈ threeQuotes, q.Positive := by
  intro q hq
  have hten : (0 : ℚ) < 10 := by norm_num
  have htwenty : (0 : ℚ) < 20 := by norm_num
  have hseventy : (0 : ℚ) < 70 := by norm_num
  simp only [threeQuotes, List.mem_cons, List.not_mem_nil, or_false] at hq
  rcases hq with rfl | rfl | rfl
  · exact ⟨rfl, htwenty, rfl, hten⟩
  · exact ⟨rfl, htwenty, rfl, hten⟩
  · exact ⟨rfl, hseventy, rfl, hten⟩

theorem threeQuotes_sound : ∃ amounts inserted,
    getRfqtTakerFillableAmounts 100 sampledMaker 1050 threeQuotes = .ok (amounts, inserted) ∧
      Sound 100 sampledMaker 1050 threeQuotes amounts inserted :=
  fillable_sound 100 sampledMaker 1050 threeQuotes threeQuotes_positive (by decide +kernel)

end ZeroExApi.FirmQuoteValidator
